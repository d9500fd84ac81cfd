import StarStats.Lib.Tables
import StarStats.Core.UnknownLines

/-! # The local store

The tables of the client's SQLite file that the pipeline reads and writes. Events carry an
autoincrement id and a unique idempotency key; samples of unknown events are unique by source and
event name; unknown lines are unique by the hash of their shape.

`now` is what `datetime('now')` gives; a statement of SQLite itself never fails here. -/

namespace StarStats.Client.Store

open StarStats.Lib.Tables StarStats.Core.UnknownLines

/-- A row of `events`; its id is kept by the table. -/
structure EventRow where
  idempotencyKey : String
  eventType : String
  timestamp : String
  rawLine : String
  payloadJson : String
  logSource : String
  sourceOffset : ℕ
  deriving DecidableEq

/-- The columns of an event that the burst scan reads. -/
structure BurstScanRow where
  id : ℕ
  rawLine : String
  sourceOffset : ℕ
  eventType : String
  deriving DecidableEq

/-- A row of `unknown_event_samples`. -/
structure UnknownSampleRow where
  logSource : String
  eventName : String
  occurrences : ℕ
  firstSeen : String
  lastSeen : String
  sampleLine : String
  sampleBody : String
  deriving DecidableEq

/-- Samples are kept by log and event name. -/
def UnknownSampleRow.key (r : UnknownSampleRow) : String × String := (r.logSource, r.eventName)

/-- A row of `unknown_lines`. The fields of the first capture, and what later captures of the same
shape change: the sample lines, the count and the time. -/
structure UnknownLineRow where
  record : UnknownLine
  rawExamples : List String
  occurrenceCount : ℕ
  lastSeen : String
  dismissed : Bool
  submittedAt : Option String
  deriving DecidableEq

/-- Lines are kept by the hash of their shape. -/
def UnknownLineRow.key (r : UnknownLineRow) : String := r.record.shapeHash

/-- A path, as the list of its components. -/
abbrev Path := List String

/-- The table of events, one row a key. -/
abbrev Events := Table EventRow.idempotencyKey

/-- The client's database. -/
structure Storage where
  events : Events
  unknownSamples : Table UnknownSampleRow.key
  noiseList : List String
  tailCursor : List (Path × ℕ)
  syncCursor : Option ℤ
  unknownLines : Table UnknownLineRow.key
  now : String

/-- A store without rows. -/
def Storage.fresh (noiseList : List String) (now : String) : Storage :=
  ⟨Table.empty, Table.empty, noiseList, [], none, Table.empty, now⟩

namespace Storage

/-! ### Events -/

/-- `INSERT OR IGNORE` -/
def insertEvent (st : Storage) (r : EventRow) : Storage := { st with events := st.events.insert r }

/-- Up to `limit` rows with an id above `afterId`, by id. -/
def readUnsent (st : Storage) (afterId : ℤ) (limit : ℕ) : List (ℕ × EventRow) :=
  (st.events.rows.filter fun r => afterId < r.1).take limit

def setClassification (eventType timestamp payloadJson : String) (r : EventRow) : EventRow :=
  { r with eventType := eventType, timestamp := timestamp, payloadJson := payloadJson }

/-- Key and id of the row stay. -/
def updateEventClassification (st : Storage) (id : ℕ) (eventType timestamp payloadJson : String) :
    Storage :=
  { st with
    events := st.events.update id (setClassification eventType timestamp payloadJson) fun _ => rfl }

/-- The sources of the events, each once and sorted. -/
def distinctLogSources (st : Storage) : List String :=
  (st.events.contents.map (·.logSource)).dedup.insertionSort (· ≤ ·)

/-- The rows of one source, by offset; rows are kept by id, and the sort is stable. -/
def eventsForBurstScan (st : Storage) (logSource : String) : List BurstScanRow :=
  sortBy BurstScanRow.sourceOffset
    ((st.events.rows.filter fun r => r.2.logSource = logSource).map fun r =>
      ⟨r.1, r.2.rawLine, r.2.sourceOffset, r.2.eventType⟩)

/-- Delete the row with an id; the number is that of the rows deleted. -/
def deleteEventById (st : Storage) (id : ℕ) : Storage × ℕ :=
  ({ st with events := st.events.delete id }, (st.events.rows.filter (·.1 = id)).length)

/-! ### Cursors -/

/-- No cursor reads as 0, a negative one too. -/
def readSyncCursor (st : Storage) : ℤ :=
  match st.syncCursor with
  | some n => max n 0
  | none => 0

/-- The cursor is overwritten, whatever it was. -/
def writeSyncCursor (st : Storage) (lastEventId : ℤ) : Storage :=
  { st with syncCursor := some lastEventId }

/-- A file that was never read starts at 0. -/
def readCursor (st : Storage) (path : Path) : ℕ := (st.tailCursor.lookup path).getD 0

/-- One offset a file. -/
def writeCursor (st : Storage) (path : Path) (offset : ℕ) : Storage :=
  { st with tailCursor := (path, offset) :: st.tailCursor.filter (·.1 ≠ path) }

/-! ### Unknown events -/

/-- Is the name on the list of noise? -/
def isNoise (st : Storage) (eventName : String) : Bool := decide (eventName ∈ st.noiseList)

/-- Refresh the sample of an unknown event. -/
def touchUnknown (now sampleLine sampleBody : String) (r : UnknownSampleRow) : UnknownSampleRow :=
  { r with
    occurrences := r.occurrences + 1, lastSeen := now, sampleLine := sampleLine,
    sampleBody := sampleBody }

/-- A name seen again counts up, with the line it was last seen in. -/
def recordUnknown (st : Storage) (logSource eventName sampleLine sampleBody : String) : Storage :=
  { st with
    unknownSamples := st.unknownSamples.upsert
      ⟨logSource, eventName, 1, st.now, st.now, sampleLine, sampleBody⟩
      (touchUnknown st.now sampleLine sampleBody) fun _ => rfl }

/-- All samples, the most seen first, then the latest. -/
def recentUnknowns (st : Storage) : List UnknownSampleRow :=
  st.unknownSamples.contents.insertionSort fun a b =>
    b.occurrences < a.occurrences ∨ (a.occurrences = b.occurrences ∧ b.lastSeen ≤ a.lastSeen)

/-- The samples of the name in that log. -/
def deleteUnknown (st : Storage) (logSource eventName : String) : Storage :=
  { st with unknownSamples := st.unknownSamples.deleteWhere fun r =>
      r.logSource = logSource ∧ r.eventName = eventName }

/-! ### Unknown lines -/

/-- The most raw lines kept for a shape. -/
def rawExamplesCap : ℕ := 5

/-- The samples with one more, the oldest ones dropped over the cap. -/
def pushExample (samples : List String) (rawLine : String) : List String :=
  (samples ++ [rawLine]).drop ((samples ++ [rawLine]).length - rawExamplesCap)

/-- The row of a shape that was not seen before. -/
def newUnknownLine (line : UnknownLine) : UnknownLineRow :=
  ⟨line, [line.rawLine], line.occurrenceCount, line.lastSeen, line.dismissed, none⟩

/-- What a further line of the same shape does to the row; the first capture stays the record. -/
def touchUnknownLine (line : UnknownLine) (r : UnknownLineRow) : UnknownLineRow :=
  { r with
    occurrenceCount := r.occurrenceCount + 1, lastSeen := line.lastSeen,
    rawExamples := pushExample r.rawExamples line.rawLine }

theorem key_touchUnknownLine (line : UnknownLine) (r : UnknownLineRow) :
    (touchUnknownLine line r).key = r.key := rfl

/-- Upsert a captured line by the hash of its shape; its id is fresh, so the insert takes place. -/
def cacheUnknownLine (st : Storage) (line : UnknownLine) : Storage :=
  { st with
    unknownLines :=
      st.unknownLines.upsert (newUnknownLine line) (touchUnknownLine line)
        (key_touchUnknownLine line) }

/-- A row as a line again: the latest sample, and the rest of the record. -/
def decodeUnknownLine (r : UnknownLineRow) : UnknownLine :=
  { r.record with
    rawLine := r.rawExamples.getLast?.getD ""
    timestamp := none
    interestScore := min r.record.interestScore 255
    occurrenceCount := r.occurrenceCount % 2 ^ 32
    lastSeen := r.lastSeen
    dismissed := r.dismissed }

/-- The lines for review, the most interesting first, then the most seen, then the latest. -/
def listUnknownLines (st : Storage) (minInterest : ℕ) : List UnknownLine :=
  ((st.unknownLines.contents.filter fun r =>
      !r.dismissed && minInterest ≤ r.record.interestScore).insertionSort fun a b =>
    b.record.interestScore < a.record.interestScore ∨
      (a.record.interestScore = b.record.interestScore ∧
        (b.occurrenceCount < a.occurrenceCount ∨
          (a.occurrenceCount = b.occurrenceCount ∧ b.lastSeen ≤ a.lastSeen)))).map
    decodeUnknownLine

/-- The badge: what the list would show. -/
def countUnknownLines (st : Storage) (minInterest : ℕ) : ℕ :=
  (st.unknownLines.contents.filter fun r =>
    !r.dismissed && minInterest ≤ r.record.interestScore).length

/-- The row stays, out of sight. -/
def dismissUnknownLine (st : Storage) (shapeHash : String) : Storage :=
  { st with
    unknownLines :=
      st.unknownLines.updateKey shapeHash (fun r => { r with dismissed := true }) fun _ => rfl }

/-- The row stays in the list. -/
def markSubmitted (st : Storage) (shapeHash submittedAt : String) : Storage :=
  { st with
    unknownLines := st.unknownLines.updateKey shapeHash
      (fun r => { r with submittedAt := some submittedAt }) fun _ => rfl }

end Storage

end StarStats.Client.Store
