import StarStats.Lib.Lines
import StarStats.Core.ParserDefs
import StarStats.Core.Bursts
import StarStats.Client.Store

/-! # The live tail

A drain reads the complete lines that were appended to `Game.log` since the last one and stores what
they say: bursts as one summary each, every other line on its own.

`bufferOps` lists what `processBuffer` does to the store, in order, so that a process that dies on the
way is one that has done the first few of them. `readPending` is the part of a drain before the lines
are processed: it ends with all pending lines, or early, and then without any. -/

namespace StarStats.Client.Gamelog

open StarStats.Lib.Text StarStats.Lib.Json StarStats.Lib.Lines
open StarStats.Core.Events StarStats.Core.Crates StarStats.Core.Parser StarStats.Core.ParserDefs
open StarStats.Core.Templates StarStats.Core.Bursts
open StarStats.Client.Store

/-! ### Sources and keys -/

/-- The channel of a log: the directory it is in, or the one above if that is `Logs`. -/
def logSourceFromPath (path : Path) : String :=
  let parent := path.dropLast
  let segment := match parent.getLast? with
    | some "Logs" => parent.dropLast.getLast?
    | s => s
  match (segment.getD "OTHER").toUpper with
  | "LIVE" => "live"
  | "PTU" => "ptu"
  | "EPTU" => "eptu"
  | "HOTFIX" => "hotfix"
  | "TECH-PREVIEW" => "tech"
  | _ => "other"

/-- The key of a line at an offset of a source. -/
def idempotencyKey (x : Externals) (logSource : String) (offset : ℕ) (line : String) : String :=
  x.newV5 (logSource ++ ":" ++ (toString offset ++ ":" ++ line))

/-- The kind, the timestamp and the JSON text of an event. -/
def serialiseEvent (event : GameEvent) : Option (String × String × String) := do
  let value := event.toValue
  let eventType ← (value.get "type").bind Value.asStr
  let timestamp := ((value.get "timestamp").bind Value.asStr).getD ""
  return (eventType, timestamp, value.render)

theorem serialiseEvent_eq (event : GameEvent) :
    serialiseEvent event = some (event.eventTypeKey, event.timestamp, event.toValue.render) := by
  simp [serialiseEvent, Value.asStr]

/-! ### One line -/

/-- The counters of the tail. -/
structure TailStats where
  bytesRead : ℕ
  linesProcessed : ℕ
  eventsRecognised : ℕ
  lastEventAt : Option String
  lastEventType : Option String
  linesStructuralOnly : ℕ
  linesSkipped : ℕ
  linesNoise : ℕ
  deriving DecidableEq

/-- Before the first line. -/
def TailStats.zero : TailStats := ⟨0, 0, 0, none, none, 0, 0, 0⟩

/-- The counters of a line that is an event. -/
def TailStats.recognised (s : TailStats) (eventType timestamp : String) : TailStats :=
  { s with
    eventsRecognised := s.eventsRecognised + 1, lastEventType := some eventType,
    lastEventAt := some timestamp }

/-- What a line comes to. -/
inductive IngestOutcome where
  | skipped
  | noise
  | structuralOnly
  | recognised (eventType timestamp : String)
  deriving DecidableEq

/-- Store one line, if it is recognised; else keep a sample of it, if it names an event. -/
def ingestOneLine (x : Externals) (rules : List CompiledRemoteRule) (st : Storage)
    (logSource : String) (lineOffset : ℕ) (line : String) : Storage × IngestOutcome :=
  match structuralParse x line with
  | none => (st, .skipped)
  | some parsed =>
    match recogniseParsed x rules parsed with
    | none =>
      match parsed.eventName with
      | none => (st, .structuralOnly)
      | some eventName =>
        if st.isNoise eventName then (st, .noise)
        else (st.recordUnknown logSource eventName line parsed.body, .structuralOnly)
    | some event =>
      match serialiseEvent event with
      | none => (st, .skipped)
      | some (eventType, timestamp, payload) =>
        (st.insertEvent ⟨idempotencyKey x logSource lineOffset line, eventType, timestamp, line,
          payload, logSource, lineOffset⟩, .recognised eventType timestamp)

/-- What the tail writes to. -/
structure Sink where
  storage : Storage
  stats : TailStats

/-- A line is ingested and counted. -/
def processLine (x : Externals) (rules : List CompiledRemoteRule) (logSource : String) (s : Sink)
    (line : String) (lineOffset : ℕ) : Sink :=
  match ingestOneLine x rules s.storage logSource lineOffset line with
  | (st, .skipped) => ⟨st, { s.stats with linesSkipped := s.stats.linesSkipped + 1 }⟩
  | (st, .noise) => ⟨st, { s.stats with linesNoise := s.stats.linesNoise + 1 }⟩
  | (st, .structuralOnly) =>
    ⟨st, { s.stats with linesStructuralOnly := s.stats.linesStructuralOnly + 1 }⟩
  | (st, .recognised eventType timestamp) => ⟨st, s.stats.recognised eventType timestamp⟩

/-! ### One buffer -/

/-- A line of the buffer that parses, with its place there. -/
structure Entry where
  bufIdx : ℕ
  line : String
  offset : ℕ
  log : LogLine
  deriving DecidableEq

/-- The line of an entry, with its offset. -/
def Entry.source (e : Entry) : String × ℕ := (e.line, e.offset)

/-- The lines of the buffer that parse. -/
def entries (x : Externals) (buffer : List (String × ℕ)) : List Entry :=
  buffer.zipIdx.filterMap fun ((line, offset), i) =>
    (structuralParse x line).map fun log => ⟨i, line, offset, log⟩

/-- The event a burst is stored as; of the body of its anchor, 200 characters are kept. -/
def summaryEvent (ruleId : String) (size : ℕ) (anchorLog endLog : LogLine) : GameEvent :=
  let sample := takeChars 200 anchorLog.body
  .burstSummary ⟨anchorLog.timestamp, ruleId, size % 2 ^ 32, endLog.timestamp,
    if sample = "" then none else some sample⟩

/-- The line a summary is keyed on, in place of the line of its anchor. -/
def syntheticLine (anchorLine ruleId : String) (size : ℕ) : String :=
  anchorLine ++ "|burst:" ++ ruleId ++ ":" ++ toString size

/-- The row of a summary. -/
def summaryRow (x : Externals) (logSource ruleId : String) (size : ℕ) (anchorLine : String)
    (anchorOffset : ℕ) (anchorLog endLog : LogLine) : Option EventRow := do
  let (eventType, timestamp, payload) ←
    serialiseEvent (summaryEvent ruleId size anchorLog endLog)
  return ⟨idempotencyKey x logSource anchorOffset (syntheticLine anchorLine ruleId size), eventType,
    timestamp, anchorLine, payload, logSource, anchorOffset⟩

/-- One step of `processBuffer`: the summary of a burst, or one line. -/
inductive BufferOp where
  | summary (b : Burst Entry)
  | line (text : String) (offset : ℕ)

/-- The bursts among the lines that can be read. -/
def bufferBursts (x : Externals) (burstRules : List BurstRule) (buffer : List (String × ℕ)) :
    List (Burst Entry) :=
  burstsOf Entry.log (entries x buffer) burstRules

/-- The places in the buffer that bursts take. -/
def suppressed (x : Externals) (burstRules : List BurstRule) (buffer : List (String × ℕ)) : List ℕ :=
  (bufferBursts x burstRules buffer).flatMap fun b => b.members.map (·.bufIdx)

/-- The steps of `processBuffer`: the summaries, then the lines that no burst takes. -/
def bufferOps (x : Externals) (burstRules : List BurstRule) (buffer : List (String × ℕ)) :
    List BufferOp :=
  (bufferBursts x burstRules buffer).map .summary ++
    (buffer.zipIdx.filter fun l => l.2 ∉ suppressed x burstRules buffer).map
      fun l => .line l.1.1 l.1.2

/-- A summary row, or a line on its own. -/
def BufferOp.run (x : Externals) (rules : List CompiledRemoteRule) (logSource : String) (s : Sink) :
    BufferOp → Sink
  | .summary b =>
    match summaryRow x logSource b.ruleId b.size b.anchor.line b.anchor.offset b.anchor.log
        b.last.log with
    | none => s
    | some row => ⟨s.storage.insertEvent row, s.stats.recognised row.eventType row.timestamp⟩
  | .line text offset => processLine x rules logSource s text offset

/-- Store the lines of one drain. -/
def processBuffer (x : Externals) (rules : List CompiledRemoteRule) (burstRules : List BurstRule)
    (logSource : String) (buffer : List (String × ℕ)) (s : Sink) : Sink :=
  (bufferOps x burstRules buffer).foldl (BufferOp.run x rules logSource) s

/-! ### One drain -/

/-- What comes of opening the file. -/
inductive OpenResult where
  | found
  | notFound
  | failed
  deriving DecidableEq

/-- What the environment does to one drain: which of its calls fail. -/
structure Io where
  opened : OpenResult
  metadataFails : Bool
  seekFails : Bool
  /-- Does the call of `read_line` with this number fail? -/
  readFails : ℕ → Bool
  writeCursorFails : Bool

/-- No call fails. -/
def Io.good : Io := ⟨.found, false, false, fun _ => false, false⟩

/-- What a drain has read: all pending lines, and the offset behind them; or it has ended early, with
or without an error, and then only the offset is left of what it read. -/
inductive Reading where
  | lines (buffer : List (String × ℕ)) (offset : ℕ)
  | stop (offset : ℕ) (ok : Bool)
  deriving DecidableEq

/-- One more line in front; a reading that ended early has lost it. -/
def Reading.cons (l : String × ℕ) : Reading → Reading
  | .lines buffer offset => .lines (l :: buffer) offset
  | .stop offset ok => .stop offset ok

/-- The read loop, from the `i`-th call on. The offset moves with every complete line. -/
def readLines (fails : ℕ → Bool) : ℕ → ℕ → List (List UInt8) → Reading
  | i, offset, [] => if fails i then .stop offset false else .lines [] offset
  | i, offset, c :: cs =>
    if fails i then .stop offset false
    else match decode c with
      | none => .stop offset false
      | some buf =>
        -- a partial line is left for the next drain
        if c.getLast? ≠ some newline then .lines [] offset
        else (readLines fails (i + 1) (offset + c.length) cs).cons
          (trimEndMatches isNewline buf, offset)

/-- A drain up to the point where the lines are processed. -/
def readPending (file : List UInt8) (io : Io) (offset : ℕ) : Reading :=
  match io.opened with
  | .notFound => .stop offset true
  | .failed => .stop offset false
  | .found =>
    if io.metadataFails then .stop offset false
    else
      -- a file shorter than the offset has been rotated
      let offset := if file.length < offset then 0 else offset
      if file.length = offset then .stop offset true
      else if io.seekFails then .stop offset false
      else readLines io.readFails 0 offset (chunks (file.drop offset))

/-- The task that tails one file. -/
structure Tail where
  sink : Sink
  offset : ℕ

/-- The outcome of a drain, with the lines it has handed to `processBuffer`. -/
structure Drained where
  tail : Tail
  handed : List (String × ℕ)
  ok : Bool

/-- Process the lines of a drain, unless there are none. -/
def processRead (x : Externals) (rules : List CompiledRemoteRule) (burstRules : List BurstRule)
    (path : Path) (buffer : List (String × ℕ)) (offset : ℕ) (s : Sink) : Sink :=
  if buffer = [] then s
  else
    let s := processBuffer x rules burstRules (logSourceFromPath path) buffer s
    { s with stats := { s.stats with
        bytesRead := offset, linesProcessed := s.stats.linesProcessed + buffer.length } }

/-- One poll: the bytes behind the cursor, and the cursor that is written after them. -/
def drain (x : Externals) (rules : List CompiledRemoteRule) (burstRules : List BurstRule)
    (path : Path) (file : List UInt8) (io : Io) (t : Tail) : Drained :=
  match readPending file io t.offset with
  | .stop offset ok => ⟨⟨t.sink, offset⟩, [], ok⟩
  | .lines buffer offset =>
    let s := processRead x rules burstRules path buffer offset t.sink
    if io.writeCursorFails then ⟨⟨s, offset⟩, buffer, false⟩
    else ⟨⟨⟨s.storage.writeCursor path offset, s.stats⟩, offset⟩, buffer, true⟩

/-- A task starts at the cursor. -/
def startTail (path : Path) (st : Storage) : Tail := ⟨⟨st, .zero⟩, st.readCursor path⟩

/-- A drain in a process that dies: it has done at most `done` of the steps of `processBuffer`, and
has not written the cursor. What is left is the store, and a new process starts from it. -/
def drainCrashing (x : Externals) (rules : List CompiledRemoteRule) (burstRules : List BurstRule)
    (path : Path) (file : List UInt8) (io : Io) (done : ℕ) (t : Tail) : Tail :=
  match readPending file io t.offset with
  | .stop _ _ => startTail path t.sink.storage
  | .lines buffer _ =>
    startTail path (((bufferOps x burstRules buffer).take done).foldl
      (BufferOp.run x rules (logSourceFromPath path)) t.sink).storage

end StarStats.Client.Gamelog
