import StarStats.Client.Ingest
import StarStats.Client.Reading

/-! # Replaying rotated logs

Rotated logs are read line by line, and each line is stored on its own: once at startup
(`backfillFile`, from the cursor of the file) and on demand (`runReingest`, from its first byte). The
two share their loop, and differ in what an error of `read_line` ends. -/

namespace StarStats.Client.Backfill

open StarStats.Lib.Text StarStats.Lib.Lines StarStats.Lib.Tables
open StarStats.Core.Crates StarStats.Core.Parser StarStats.Core.ParserDefs
open StarStats.Client.Store StarStats.Client.Gamelog StarStats.Client.Ingest StarStats.Client.Reading

/-- What the read loop has done so far. -/
structure Replay where
  storage : Storage
  offset : ℕ
  lines : ℕ
  events : ℕ
  failed : Bool

/-- The events an outcome counts for. -/
def outcomeEvents : IngestOutcome → ℕ
  | .recognised _ _ => 1
  | _ => 0

section Replay
variable (x : Externals) (rules : List CompiledRemoteRule) (logSource : String) (fails : ℕ → Bool)

/-- The read loop, from the `i`-th call of `read_line` on. -/
def replayLines : ℕ → List (List UInt8) → Replay → Replay
  | i, [], r => { r with failed := fails i }
  | i, c :: cs, r =>
    if fails i then { r with failed := true }
    else match decode c with
      | none => { r with failed := true }
      | some buf =>
        -- a truncated last line is skipped
        if c.getLast? ≠ some newline then r
        else
          let (st, outcome) :=
            ingestOneLine x rules r.storage logSource r.offset (trimEndMatches isNewline buf)
          replayLines (i + 1) cs
            ⟨st, r.offset + c.length, r.lines + 1, r.events + outcomeEvents outcome, false⟩

end Replay

/-- The counters of the backfill that a file changes. -/
structure BackfillStats where
  filesProcessed : ℕ
  filesAlreadyDone : ℕ
  linesProcessed : ℕ
  eventsRecognised : ℕ
  deriving DecidableEq

/-- What is left of a file that was read. -/
structure Backfilled where
  storage : Storage
  stats : BackfillStats
  ok : Bool

/-- Replay one rotated log from its cursor. An error of `read_line` ends it without a cursor. -/
def backfillFile (x : Externals) (rules : List CompiledRemoteRule) (path : Path) (file : List UInt8)
    (io : Io) (st : Storage) (stats : BackfillStats) : Backfilled :=
  match io.opened with
  | .notFound => ⟨st, { stats with filesAlreadyDone := stats.filesAlreadyDone + 1 }, true⟩
  | .failed => ⟨st, stats, false⟩
  | .found =>
    if io.metadataFails then ⟨st, stats, false⟩
    else
      let startingOffset := st.readCursor path
      if file.length ≤ startingOffset then
        ⟨st, { stats with filesAlreadyDone := stats.filesAlreadyDone + 1 }, true⟩
      else if io.seekFails then ⟨st, stats, false⟩
      else
        let r := replayLines x rules (logSourceFromPath path) io.readFails 0
          (chunks (file.drop startingOffset)) ⟨st, startingOffset, 0, 0, false⟩
        if r.failed || io.writeCursorFails then ⟨r.storage, stats, false⟩
        else ⟨r.storage.writeCursor path r.offset,
          { stats with
            filesProcessed := stats.filesProcessed + 1
            linesProcessed := stats.linesProcessed + r.lines
            eventsRecognised := stats.eventsRecognised + r.events }, true⟩

/-- One rotated log as the discovery finds it. -/
structure ArchivedLog where
  path : Path
  file : List UInt8
  io : Io

/-- What the command reports. -/
structure ReingestStats where
  filesWalked : ℕ
  filesFailed : ℕ
  linesProcessed : ℕ
  eventsRecognised : ℕ
  deriving DecidableEq

/-- Replay one rotated log from its first byte. An error of `read_line` ends the file like its end
does, and where the cursor cannot be written nothing follows from it. -/
def reingestFile (x : Externals) (rules : List CompiledRemoteRule) (s : Storage × ReingestStats)
    (log : ArchivedLog) : Storage × ReingestStats :=
  let (st, stats) := s
  if log.io.opened ≠ .found then (st, { stats with filesFailed := stats.filesFailed + 1 })
  else
    let r := replayLines x rules (logSourceFromPath log.path) log.io.readFails 0 (chunks log.file)
      ⟨st, 0, 0, 0, false⟩
    (if log.io.writeCursorFails then r.storage else r.storage.writeCursor log.path r.offset,
      { stats with
        filesWalked := stats.filesWalked + 1
        linesProcessed := stats.linesProcessed + r.lines
        eventsRecognised := stats.eventsRecognised + r.events })

/-- The archived logs, one after the other. -/
def runReingest (x : Externals) (rules : List CompiledRemoteRule) (archived : List ArchivedLog)
    (st : Storage) : Storage × ReingestStats :=
  archived.foldl (reingestFile x rules) (st, ⟨0, 0, 0, 0⟩)

/-! ### What a replay stores -/

/-- The chunks the read loop gets past, from the `i`-th call on. -/
def readableFrom (fails : ℕ → Bool) : ℕ → List (List UInt8) → List (List UInt8)
  | _, [] => []
  | i, c :: cs =>
    if fails i = false ∧ (decode c).isSome ∧ c.getLast? = some newline then
      c :: readableFrom fails (i + 1) cs
    else []

theorem readableFrom_prefix (fails : ℕ → Bool) : ∀ (i : ℕ) (cs : List (List UInt8)),
    readableFrom fails i cs <+: cs
  | _, [] => List.prefix_rfl
  | i, c :: cs => by
    unfold readableFrom
    split_ifs
    · exact List.cons_prefix_cons.mpr ⟨rfl, readableFrom_prefix fails (i + 1) cs⟩
    · exact List.nil_prefix

theorem getLast?_of_mem_readableFrom (fails : ℕ → Bool) : ∀ {i : ℕ} {cs : List (List UInt8)}
    {c : List UInt8}, c ∈ readableFrom fails i cs → c.getLast? = some newline
  | i, d :: cs, c, h => by
    unfold readableFrom at h
    split_ifs at h with hd
    · rcases List.mem_cons.mp h with rfl | h
      · exact hd.2.2
      · exact getLast?_of_mem_readableFrom fails h
    · simp at h

section Rows
variable {x : Externals} {rules : List CompiledRemoteRule} {logSource : String}

/-- The rows of lines, each stored on its own. -/
def lineRows (x : Externals) (rules : List CompiledRemoteRule) (logSource : String)
    (ls : List (String × ℕ)) : List EventRow :=
  ls.filterMap fun l => lineRow x rules logSource l.2 l.1

/-- **The loop inserts the row of every line it gets past.** -/
theorem events_replayLines {fails : ℕ → Bool} : ∀ (i : ℕ) (cs : List (List UInt8)) (r : Replay),
    (replayLines x rules logSource fails i cs r).storage.events = r.storage.events.insertAll
      (lineRows x rules logSource (texts r.offset (readableFrom fails i cs)))
  | i, [], r => rfl
  | i, c :: cs, r => by
    unfold replayLines readableFrom
    by_cases hf : fails i
    · simp [hf, texts, lineRows]
    cases hd : decode c with
    | none => simp [hf, texts, lineRows]
    | some buf =>
      by_cases hl : c.getLast? = some newline
      · have ht : trimEndMatches isNewline buf = lineText c := by rw [lineText, hd]; rfl
        simp only [hf, hl, ht, Bool.false_eq_true, ne_eq, not_true_eq_false, if_false,
          Option.isSome_some, and_self, if_true]
        rw [events_replayLines (i + 1) cs, events_ingestOneLine, ← Table.insertAll_append]
        congr 1
        simp only [texts, lineRows, List.filterMap_cons]
        cases lineRow x rules logSource r.offset (lineText c) <;> rfl
      · simp [hf, hl, texts, lineRows]

/-- The lines a replay of a file from an offset stores, if it comes to reading at all. -/
def replayed (file : List UInt8) (io : Io) (offset : ℕ) : List (String × ℕ) :=
  texts offset (readableFrom io.readFails 0 (chunks (file.drop offset)))

theorem linesOf_replayed (file : List UInt8) (io : Io) : LinesOf file (replayed file io 0) := by
  obtain ⟨more, hmore⟩ := readableFrom_prefix io.readFails 0 (chunks (file.drop 0))
  have hread : ∀ c ∈ readableFrom io.readFails 0 (chunks (file.drop 0)), Complete c := fun c hc =>
    complete_of_mem_chunks (hmore ▸ List.mem_append_left _ hc)
      (getLast?_of_mem_readableFrom io.readFails hc)
  exact @linesOf_texts [] _ _ _ (by simp) hmore.symm hread

/-- **A backfill inserts the rows of the lines it reads**, and none if it ends before. -/
theorem events_backfillFile (path : Path) (file : List UInt8) (io : Io) (st : Storage)
    (stats : BackfillStats) :
    (backfillFile x rules path file io st stats).storage.events = st.events.insertAll
      (if io.opened = .found ∧ ¬ io.metadataFails ∧ ¬ io.seekFails then
        lineRows x rules (logSourceFromPath path) (replayed file io (st.readCursor path))
      else []) := by
  unfold backfillFile
  cases hopen : io.opened with
  | notFound => simp
  | failed => simp
  | found =>
    by_cases hmeta : io.metadataFails
    · simp [hmeta]
    by_cases hlen : file.length ≤ st.readCursor path
    · have hnil : replayed file io (st.readCursor path) = [] := by
        simp [replayed, List.drop_eq_nil_of_le hlen, chunks, readableFrom, texts]
      simp [hmeta, hlen, hnil, lineRows]
    by_cases hseek : io.seekFails
    · simp [hmeta, hlen, hseek]
    simp only [hmeta, hlen, hseek, Bool.false_eq_true, if_false, not_false_eq_true, and_self,
      if_true]
    refine Eq.trans ?_ (events_replayLines (x := x) 0
      (chunks (file.drop (st.readCursor path))) ⟨st, st.readCursor path, 0, 0, false⟩)
    split_ifs <;> rfl

/-- **So does a re-ingest**, file after file. -/
theorem events_reingestFile (s : Storage × ReingestStats) (log : ArchivedLog) :
    (reingestFile x rules s log).1.events = s.1.events.insertAll
      (if log.io.opened = .found then
        lineRows x rules (logSourceFromPath log.path) (replayed log.file log.io 0)
      else []) := by
  unfold reingestFile
  by_cases hopen : log.io.opened = .found
  · simp only [hopen, ne_eq, not_true_eq_false, if_false, if_true]
    rw [replayed, List.drop_zero]
    refine Eq.trans ?_ (events_replayLines (x := x) 0
      (chunks log.file) ⟨s.1, 0, 0, 0, false⟩)
    split_ifs <;> rfl
  · simp [hopen]

end Rows

end StarStats.Client.Backfill
