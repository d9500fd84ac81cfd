import StarStats.Core.LauncherLog
import StarStats.Client.Reading

/-! # The tail of the launcher's log

A drain reads the complete lines that were appended to the launcher's log since the last one, and stores
each as soon as it has read it: a read that fails ends the drain, and the lines before it are in the store
(`drained_drain`). What a failed insert leaves out is not tried again, as the offset moves on. -/

namespace StarStats.Client.Launcher

open StarStats.Lib.Text StarStats.Lib.Tables StarStats.Lib.Lines
open StarStats.Core.Events StarStats.Core.Crates StarStats.Core.Parser StarStats.Core.LauncherLog
open StarStats.Client.Store StarStats.Client.Gamelog StarStats.Client.Reading

/-- What the tray shows of the launcher's log. -/
structure LauncherStats where
  currentPath : Option Path
  bytesRead : ℕ
  linesProcessed : ℕ
  eventsRecognised : ℕ
  lastEventAt : Option String
  lastLevel : Option String
  lastCategory : Option String
  linesSkipped : ℕ
  deriving DecidableEq

/-- Before the first line. -/
def LauncherStats.zero : LauncherStats := ⟨none, 0, 0, 0, none, none, none, 0⟩

/-- `idempotency_key`: that of the tail of `Game.log`, written again. -/
def idempotencyKey (x : Externals) (logSource : String) (offset : ℕ) (line : String) : String :=
  x.newV5 (logSource ++ ":" ++ (toString offset ++ ":" ++ line))

/-- The category in the row. -/
def launcherCategoryStr (c : LauncherCategory) : String := c.key

/-- What fails in one drain: besides the calls of any tail, the insert of the line with a number. -/
structure Io extends Gamelog.Io where
  insertFails : ℕ → Bool

/-- What a drain works on. -/
structure Task where
  storage : Storage
  stats : LauncherStats
  offset : ℕ

section
variable (x : Externals)

/-- The row of a line. -/
def row (parsed : LauncherLogLine) (line : String) (lineOffset : ℕ) : EventRow :=
  ⟨idempotencyKey x "launcher" lineOffset line, "launcher_activity", parsed.timestamp, line,
    (GameEvent.launcherActivity (launcherActivity parsed)).toValue.render, "launcher", lineOffset⟩

/-- A line that reads as one of the launcher's is stored and counted. -/
def processLine (insertFails : Bool) (s : Storage × LauncherStats) (line : String) (lineOffset : ℕ) :
    Storage × LauncherStats :=
  match parseLauncherLine x line with
  | none => (s.1, { s.2 with linesSkipped := s.2.linesSkipped + 1 })
  | some parsed =>
    if insertFails then s
    else
      let activity := launcherActivity parsed
      (s.1.insertEvent (row x parsed line lineOffset),
        { s.2 with
          eventsRecognised := s.2.eventsRecognised + 1
          lastEventAt := some parsed.timestamp
          lastLevel := some activity.level
          lastCategory := some (launcherCategoryStr activity.category) })

/-- A complete line is processed, and then counted. -/
def Task.read (t : Task) (insertFails : Bool) (c : List UInt8) (buf : String) : Task :=
  let s := processLine x insertFails (t.storage, t.stats) (trimEndMatches isNewline buf) t.offset
  let offset := t.offset + c.length
  ⟨s.1, { s.2 with bytesRead := offset, linesProcessed := s.2.linesProcessed + 1 }, offset⟩

/-- The read loop, from the `i`-th call on. -/
def readLoop (io : Io) : ℕ → Task → List (List UInt8) → Task × Bool
  | i, t, [] => (t, !io.readFails i)
  | i, t, c :: cs =>
    if io.readFails i then (t, false)
    else match decode c with
      | none => (t, false)
      | some buf =>
        -- a partial line is left for the next drain
        if c.getLast? ≠ some newline then (t, true)
        else readLoop io (i + 1) (t.read x (io.insertFails i) c buf) cs

/-- A file shorter than the offset is that of another day. -/
def Task.rotated (t : Task) (log : List UInt8) : Task :=
  if log.length < t.offset then { t with offset := 0 } else t

/-- One poll of the launcher's log. -/
def drain (path : Path) (log : List UInt8) (io : Io) (t : Task) : Task × Bool :=
  match io.opened with
  | .notFound => (t, true)
  | .failed => (t, false)
  | .found =>
    if io.metadataFails then (t, false)
    else
      let t := t.rotated log
      if log.length = t.offset then (t, true)
      else if io.seekFails then (t, false)
      else
        let (t, ok) := readLoop x io 0 t (chunks (log.drop t.offset))
        if !ok || io.writeCursorFails then (t, false)
        else ({ t with storage := t.storage.writeCursor path t.offset }, true)

/-- A process starts at the cursor. -/
def startTail (path : Path) (st : Storage) : Task :=
  ⟨st, { LauncherStats.zero with currentPath := some path }, st.readCursor path⟩

/-- A drain in a process that dies: at most `done` lines are read. A new process starts from what is
left in the store. -/
def drainDying (path : Path) (log : List UInt8) (io : Io) (done : ℕ) (t : Task) : Task :=
  let t' := t.rotated log
  let reads := io.opened = .found && !io.metadataFails && !io.seekFails
  let cs := if reads then (chunks (log.drop t'.offset)).take done else []
  startTail path (readLoop x io 0 t' cs).1.storage

end

/-! ### What the read loop does -/

/-- The rows of several lines. -/
def storeRows (st : Storage) (rows : List EventRow) : Storage :=
  { st with events := st.events.insertAll rows }

section
variable (x : Externals)

/-- The row of a line, if it is one of the launcher. -/
def lineRow (l : String × ℕ) : Option EventRow :=
  (parseLauncherLine x l.1).map fun parsed => row x parsed l.1 l.2

/-- The rows that are inserted for some lines, read from the `i`-th call on. -/
def inserted (insertFails : ℕ → Bool) : ℕ → List (String × ℕ) → List EventRow
  | _, [] => []
  | i, l :: ls => (if insertFails i then [] else (lineRow x l).toList) ++ inserted insertFails (i + 1) ls

end

/-- The chunks that the loop gets past, from the `i`-th call on. -/
def passed (readFails : ℕ → Bool) : ℕ → List (List UInt8) → List (List UInt8)
  | _, [] => []
  | i, c :: cs =>
    if readFails i || (decode c).isNone || c.getLast? ≠ some newline then []
    else c :: passed readFails (i + 1) cs

variable {x : Externals} {io : Io}

theorem storeRows_append (st : Storage) (rows rows' : List EventRow) :
    storeRows st (rows ++ rows') = storeRows (storeRows st rows) rows' := by
  unfold storeRows
  rw [Table.insertAll_append]

theorem passed_isPrefix (readFails : ℕ → Bool) : ∀ (i : ℕ) (cs : List (List UInt8)),
    passed readFails i cs <+: cs
  | _, [] => List.prefix_rfl
  | i, c :: cs => by
    unfold passed
    split_ifs
    · exact List.nil_prefix
    · exact List.cons_prefix_cons.mpr ⟨rfl, passed_isPrefix readFails (i + 1) cs⟩

theorem getLast?_of_mem_passed {readFails : ℕ → Bool} : ∀ {i : ℕ} {cs : List (List UInt8)},
    ∀ c ∈ passed readFails i cs, c.getLast? = some newline
  | _, [], _, hc => absurd hc List.not_mem_nil
  | i, d :: cs, c, hc => by
    unfold passed at hc
    split_ifs at hc with hstop
    · exact absurd hc List.not_mem_nil
    · simp only [Bool.or_eq_true, decide_eq_true_eq, not_or, not_not] at hstop
      rcases List.mem_cons.mp hc with rfl | hc
      · exact hstop.2
      · exact getLast?_of_mem_passed c hc

theorem events_processLine (insertFails : Bool) (s : Storage × LauncherStats) (line : String)
    (lineOffset : ℕ) : (processLine x insertFails s line lineOffset).1 =
      storeRows s.1 (if insertFails then [] else (lineRow x (line, lineOffset)).toList) := by
  unfold processLine lineRow
  cases parseLauncherLine x line with
  | none => cases insertFails <;> rfl
  | some parsed => cases insertFails <;> rfl

theorem storage_read (t : Task) (insertFails : Bool) {c : List UInt8} {buf : String}
    (hdecode : decode c = some buf) : (t.read x insertFails c buf).storage =
      storeRows t.storage (if insertFails then [] else (lineRow x (lineText c, t.offset)).toList) := by
  have htext : trimEndMatches isNewline buf = lineText c := by
    unfold lineText
    rw [hdecode, Option.getD_some]
  unfold Task.read
  simp only
  rw [htext, events_processLine]

/-- **The loop stores the lines that it gets past**, and the offset is behind them. -/
theorem readLoop_spec : ∀ (i : ℕ) (t : Task) (cs : List (List UInt8)),
    (readLoop x io i t cs).1.storage =
        storeRows t.storage (inserted x io.insertFails i (texts t.offset (passed io.readFails i cs))) ∧
      (readLoop x io i t cs).1.offset = t.offset + (passed io.readFails i cs).flatten.length
  | i, t, [] => ⟨rfl, rfl⟩
  | i, t, c :: cs => by
    unfold readLoop passed
    by_cases hfails : io.readFails i = true
    · rw [if_pos hfails]
      simp only [hfails, Bool.true_or, if_true]
      exact ⟨rfl, rfl⟩
    · rw [if_neg hfails]
      cases hdecode : decode c with
      | none =>
        simp only [hfails, Option.isNone_none, Bool.or_true, Bool.true_or, if_true]
        exact ⟨rfl, rfl⟩
      | some buf =>
        by_cases hlast : c.getLast? = some newline
        · obtain ⟨hstorage, hoffset⟩ := readLoop_spec (i + 1) (t.read x (io.insertFails i) c buf) cs
          have hone := @storage_read x t (io.insertFails i) c buf hdecode
          have hnext : (t.read x (io.insertFails i) c buf).offset = t.offset + c.length := rfl
          have hgo : (io.readFails i || (some buf).isNone || decide (c.getLast? ≠ some newline)) = false := by
            simp [hfails, hlast]
          dsimp only
          rw [if_neg (not_not.mpr hlast), hgo, if_neg Bool.false_ne_true, hstorage, hoffset, hone, hnext,
            texts, inserted, storeRows_append, List.flatten_cons, List.length_append, Nat.add_assoc]
          exact ⟨rfl, rfl⟩
        · simp only [hlast, ne_eq, not_false_eq_true, if_true, decide_true, Bool.or_true]
          exact ⟨rfl, rfl⟩

theorem mem_inserted {insertFails : ℕ → Bool} {r : EventRow} : ∀ {i : ℕ} {ls : List (String × ℕ)},
    r ∈ inserted x insertFails i ls ↔
      ∃ j l, ls[j]? = some l ∧ insertFails (i + j) = false ∧ lineRow x l = some r
  | i, [] => by simp [inserted]
  | i, l :: ls => by
    rw [inserted, List.mem_append, @mem_inserted _ _ (i + 1) ls]
    constructor
    · rintro (hfirst | ⟨j, l', hj, hok, hrow⟩)
      · split_ifs at hfirst with hfails
        · exact absurd hfirst List.not_mem_nil
        · exact ⟨0, l, rfl, Bool.not_eq_true _ ▸ hfails, Option.mem_toList.mp hfirst⟩
      · exact ⟨j + 1, l', hj, by rwa [Nat.add_right_comm] at hok, hrow⟩
    · rintro ⟨j, l', hj, hok, hrow⟩
      cases j with
      | zero =>
        obtain rfl : l = l' := by simpa using hj
        rw [Nat.add_zero] at hok
        rw [hok]
        exact Or.inl (Option.mem_toList.mpr hrow)
      | succ j => exact Or.inr ⟨j, l', hj, by rwa [Nat.add_right_comm], hrow⟩

theorem exists_of_mem_inserted {insertFails : ℕ → Bool} {r : EventRow} {i : ℕ} {ls : List (String × ℕ)}
    (h : r ∈ inserted x insertFails i ls) : ∃ l ∈ ls, lineRow x l = some r := by
  obtain ⟨j, l, hj, -, hrow⟩ := mem_inserted.mp h
  exact ⟨l, List.mem_of_getElem? hj, hrow⟩

/-! ### What a drain does -/

/-- The chunks that a drain gets past. -/
def readChunks (log : List UInt8) (io : Io) (offset : ℕ) : List (List UInt8) :=
  if io.opened = .found && !io.metadataFails && !io.seekFails then
    passed io.readFails 0 (chunks (log.drop offset))
  else []

theorem readChunks_prefix (log : List UInt8) (io : Io) (offset : ℕ) :
    readChunks log io offset <+: chunks (log.drop offset) := by
  unfold readChunks
  split_ifs
  · exact passed_isPrefix _ _ _
  · exact List.nil_prefix

theorem getLast?_of_mem_readChunks {log : List UInt8} {offset : ℕ} :
    ∀ c ∈ readChunks log io offset, c.getLast? = some newline := by
  intro c hc
  unfold readChunks at hc
  split_ifs at hc
  · exact getLast?_of_mem_passed c hc
  · exact absurd hc List.not_mem_nil

variable (x) in
/-- The store after the lines of some chunks, the first one at an offset. -/
def afterLines (io : Io) (st : Storage) (offset : ℕ) (read : List (List UInt8)) : Storage :=
  storeRows st (inserted x io.insertFails 0 (texts offset read))

theorem rotated_of_le {t : Task} {log : List UInt8} (h : t.offset ≤ log.length) : t.rotated log = t := by
  unfold Task.rotated
  rw [if_neg (not_lt.mpr h)]

variable (x) in
/-- A drain that has stored the lines that it has got past. -/
structure Drained (path : Path) (log : List UInt8) (io : Io) (t t' : Task) : Prop where
  offset : t'.offset = t.offset + (readChunks log io t.offset).flatten.length
  storage : t'.storage = afterLines x io t.storage t.offset (readChunks log io t.offset) ∨
    t'.storage = (afterLines x io t.storage t.offset (readChunks log io t.offset)).writeCursor path t'.offset

theorem drained_of_nil {path : Path} {log : List UInt8} {t : Task} (h : readChunks log io t.offset = []) :
    Drained x path log io t t := by
  constructor
  · rw [h]
    rfl
  · rw [h]
    exact Or.inl rfl

/-- The loop of a drain that comes to it. -/
theorem readLoop_readChunks {log : List UInt8} (t : Task) (hopen : io.opened = .found)
    (hmeta : ¬ io.metadataFails = true) (hseek : ¬ io.seekFails = true) :
    (readLoop x io 0 t (chunks (log.drop t.offset))).1.storage =
        afterLines x io t.storage t.offset (readChunks log io t.offset) ∧
      (readLoop x io 0 t (chunks (log.drop t.offset))).1.offset =
        t.offset + (readChunks log io t.offset).flatten.length := by
  have hread : readChunks log io t.offset = passed io.readFails 0 (chunks (log.drop t.offset)) := by
    simp [readChunks, hopen, hmeta, hseek]
  rw [hread]
  exact readLoop_spec 0 t (chunks (log.drop t.offset))

/-- **A drain of a log that has grown stores what it reads**, whether or not it ends with an error. -/
theorem drained_drain (path : Path) {log : List UInt8} (io : Io) {t : Task} (h : t.offset ≤ log.length) :
    Drained x path log io t (drain x path log io t).1 := by
  unfold drain
  cases hopen : io.opened with
  | notFound => exact drained_of_nil (by simp [readChunks, hopen])
  | failed => exact drained_of_nil (by simp [readChunks, hopen])
  | found =>
    simp only [rotated_of_le h]
    split_ifs with hmeta hend hseek hwrite
    · exact drained_of_nil (by simp [readChunks, hmeta])
    · refine drained_of_nil ?_
      unfold readChunks
      rw [← hend, List.drop_length]
      exact ite_self _
    · exact drained_of_nil (by simp [readChunks, hseek])
    · obtain ⟨hstorage, hoffset⟩ := readLoop_readChunks (x := x) t hopen hmeta hseek
      exact ⟨hoffset, Or.inl hstorage⟩
    · obtain ⟨hstorage, hoffset⟩ := readLoop_readChunks (x := x) t hopen hmeta hseek
      refine ⟨hoffset, Or.inr ?_⟩
      show (readLoop x io 0 t (chunks (log.drop t.offset))).1.storage.writeCursor path _ = _
      rw [hstorage]

/-- A drain that its process does not survive has stored the first lines that it would have read. -/
theorem drainDying_spec (path : Path) {log : List UInt8} (io : Io) (done : ℕ) {t : Task}
    (h : t.offset ≤ log.length) : ∃ read, read <+: chunks (log.drop t.offset) ∧
      (∀ c ∈ read, c.getLast? = some newline) ∧
      drainDying x path log io done t = startTail path (afterLines x io t.storage t.offset read) := by
  unfold drainDying
  simp only [rotated_of_le h]
  split_ifs
  · obtain ⟨hstorage, -⟩ := @readLoop_spec x io 0 t ((chunks (log.drop t.offset)).take done)
    refine ⟨passed io.readFails 0 ((chunks (log.drop t.offset)).take done),
      (passed_isPrefix _ _ _).trans (List.take_prefix _ _), getLast?_of_mem_passed, ?_⟩
    rw [hstorage]
    rfl
  · exact ⟨[], List.nil_prefix, fun _ hc => absurd hc List.not_mem_nil, rfl⟩

end StarStats.Client.Launcher
