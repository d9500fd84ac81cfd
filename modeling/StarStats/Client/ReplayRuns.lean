import StarStats.Client.Backfill
import StarStats.Client.BurstRules
import StarStats.Client.TailRuns

/-! # Replaying what was tailed

A log is tailed as it grows, rotated, and then replayed line by line under the path of the rotated
copy. The copy is of the same source, so a line has the same key both times; but the tail has stored
nothing under the key of a line that a burst has taken. The replay adds nothing exactly if every line
it reads that is recognised has its key in the store from before, or was handed to `processBuffer` in
a window in which no burst takes it (`replay_adds_nothing_iff`). -/

namespace StarStats.Client.ReplayRuns

open StarStats.Lib.Tables StarStats.Lib.Lines
open StarStats.Core.Crates StarStats.Core.Parser StarStats.Core.ParserDefs StarStats.Core.Templates
open StarStats.Core.Bursts
open StarStats.Client.Store StarStats.Client.Gamelog StarStats.Client.Ingest StarStats.Client.Reading
open StarStats.Client.TailRuns StarStats.Client.Backfill StarStats.Client.BurstRules

/-! ### Paths -/

/-- The directories a log can be in. -/
def channels : List String := ["LIVE", "PTU", "EPTU", "HOTFIX", "TECH-PREVIEW"]

/-- The log that is being written. -/
def livePath (base : Path) (channel : String) : Path := base ++ [channel, "Game.log"]

/-- A log that was put aside. -/
def rotatedPath (base : Path) (channel name : String) : Path := base ++ [channel, "Logs", name]

/-- A rotated log has the source of the live one. -/
theorem logSource_rotatedPath (base : Path) {channel : String} (h : channel ∈ channels)
    (name : String) :
    logSourceFromPath (rotatedPath base channel name) =
      logSourceFromPath (livePath base channel) := by
  have hlive : (livePath base channel).dropLast = base ++ [channel] := by
    simp [livePath, List.dropLast_append_of_ne_nil]
  have hrot : (rotatedPath base channel name).dropLast = base ++ [channel] ++ ["Logs"] := by
    simp [rotatedPath, List.dropLast_append_of_ne_nil]
  simp only [logSourceFromPath, hlive, hrot, List.getLast?_concat, List.dropLast_concat]
  simp only [channels, List.mem_cons, List.not_mem_nil, or_false] at h
  rcases h with rfl | rfl | rfl | rfl | rfl <;> rfl

theorem rotatedPath_ne (base : Path) (channel name : String) :
    rotatedPath base channel name ≠ livePath base channel := by
  simp [rotatedPath, livePath]

/-! ### What the tail has stored -/

section Stored
variable (x : Externals) (rules : List CompiledRemoteRule) (burstRules : List BurstRule)
  (path : Path)

/-- The line was handed to `processBuffer`, and no burst of its window took it. -/
def TakenAlone (w : World) (l : String × ℕ) : Prop :=
  ∃ W ∈ w.windows, BufferOp.line l.1 l.2 ∈ bufferOps x burstRules W

/-- What holds in every state of a run that began with the store `st`. -/
structure Stored (st : Storage) (w : World) : Prop where
  offset : Boundary w.file w.tail.offset
  lines : ∀ W ∈ w.windows, LinesOf w.file W
  keys : ∀ k, k ∈ w.tail.sink.storage.events.keys ↔ k ∈ st.events.keys ∨
    ∃ W ∈ w.windows, ∃ op ∈ bufferOps x burstRules W, ∃ r,
      BufferOp.row x rules (logSourceFromPath path) op = some r ∧ r.idempotencyKey = k
  cursors : ∀ p, p ≠ path → w.tail.sink.storage.readCursor p = st.readCursor p

variable {x rules burstRules path}

theorem stored_start (s : Sink) : Stored x rules burstRules path s.storage (World.start s) where
  offset := boundary_zero _
  lines := by simp [World.start]
  keys := by simp [World.start]
  cursors _ _ := rfl

theorem linesOf_append {file : List UInt8} {W : List (String × ℕ)} (h : LinesOf file W)
    (more : List UInt8) : LinesOf (file ++ more) W :=
  ⟨fun l hl => (h.isLine l hl).append more, h.ordered⟩

theorem readCursor_writeCursor_of_ne {st : Storage} {p q : Path} (h : p ≠ q) (offset : ℕ) :
    (st.writeCursor q offset).readCursor p = st.readCursor p := by
  have hpq : (p == q) = false := by simpa using h
  simp only [Storage.readCursor, Storage.writeCursor, List.lookup_cons, hpq]
  induction st.tailCursor with
  | nil => rfl
  | cons a l ih =>
    by_cases ha : a.1 = q
    · rw [List.filter_cons_of_neg (by simp [ha]), ih, List.lookup_cons]
      have : (p == a.1) = false := by rw [ha]; exact hpq
      simp [this]
    · rw [List.filter_cons_of_pos (by simp [ha]), List.lookup_cons, List.lookup_cons]
      cases p == a.1
      · exact ih
      · rfl

/-- The rows of one more window. -/
theorem Stored.extend {st : Storage} {w w' : World} {W : List (String × ℕ)}
    (h : Stored x rules burstRules path st w) (hoff : Boundary w'.file w'.tail.offset)
    (hfile : ∃ more, w'.file = w.file ++ more) (hwin : w'.windows = w.windows ++ [W])
    (hW : LinesOf w'.file W)
    (hev : w'.tail.sink.storage.events = w.tail.sink.storage.events.insertAll
      ((bufferOps x burstRules W).filterMap (BufferOp.row x rules (logSourceFromPath path))))
    (hcur : ∀ p, p ≠ path →
      w'.tail.sink.storage.readCursor p = w.tail.sink.storage.readCursor p) :
    Stored x rules burstRules path st w' := by
  obtain ⟨more, hfile⟩ := hfile
  refine ⟨hoff, fun V hV => ?_, fun k => ?_, fun p hp => (hcur p hp).trans (h.cursors p hp)⟩
  · rw [hwin, List.mem_append, List.mem_singleton] at hV
    rcases hV with hV | rfl
    · rw [hfile]; exact linesOf_append (h.lines V hV) more
    · exact hW
  · rw [hev, Table.mem_keys_insertAll, h.keys, hwin, or_assoc]
    refine or_congr_right ?_
    simp only [List.mem_append, List.mem_singleton, or_and_right, exists_or, exists_eq_left]
    refine or_congr_right ?_
    constructor
    · rintro ⟨r, hr, rfl⟩
      obtain ⟨op, hop, hrow⟩ := List.mem_filterMap.mp hr
      exact ⟨op, hop, r, hrow, rfl⟩
    · rintro ⟨op, hop, r, hrow, rfl⟩
      exact ⟨r, List.mem_filterMap.mpr ⟨op, hop, hrow⟩, rfl⟩

theorem Stored.step {st : Storage} {w : World} (h : Stored x rules burstRules path st w) (s : Step) :
    Stored x rules burstRules path st (w.step x rules burstRules path s) := by
  have hspec := @readPending_spec _ s.io _ (h.offset.append s.appended)
  have hfile : ∃ more, (w.step x rules burstRules path s).file = w.file ++ more := ⟨_, rfl⟩
  cases hr : readPending (w.file ++ s.appended) s.io w.tail.offset with
  | stop o ok =>
    rw [hr] at hspec
    have hd := @drain_of_stop x rules burstRules path _ _ _ _ _ hr
    refine h.extend (W := []) ?_ hfile (by simp [World.step, hd]) ⟨by simp, List.Pairwise.nil⟩ ?_ ?_
    · simpa [World.step, hd] using hspec
    · simp [World.step, hd, bufferOps_nil]
    · simp [World.step, hd]
  | lines buffer o =>
    rw [hr] at hspec
    obtain ⟨hoff, hhanded⟩ := @drain_of_lines x rules burstRules path _ _ _ _ _ hr
    have hev := @events_processRead x rules burstRules path buffer o w.tail.sink
    have hcur := @tailCursor_processRead x rules burstRules path buffer o
      w.tail.sink
    refine h.extend (W := buffer) ?_ hfile (by simp [World.step, hhanded]) hspec.1 ?_ ?_
    · simpa only [World.step, hoff] using hspec.2
    · simp only [World.step, drain, hr]
      split_ifs <;> exact hev
    · intro p hp
      simp only [World.step, drain, hr]
      split_ifs
      · simp [Storage.readCursor, hcur]
      · rw [readCursor_writeCursor_of_ne hp]
        simp [Storage.readCursor, hcur]

theorem stored_run {st : Storage} {w : World} (h : Stored x rules burstRules path st w) :
    ∀ steps : List Step, Stored x rules burstRules path st (w.run x rules burstRules path steps)
  | [] => h
  | s :: steps => stored_run (h.step s) steps

/-- The key of a line of the log is in the store exactly if it was there before, or the line was
stored alone and is recognised. -/
theorem Stored.key_mem_iff {st : Storage} {w : World} (h : Stored x rules burstRules path st w)
    {l : String × ℕ} (hl : IsLine w.file l) (hrec : (recognise x rules l.1).isSome) :
    idempotencyKey x (logSourceFromPath path) l.2 l.1 ∈ w.tail.sink.storage.events.keys ↔
      idempotencyKey x (logSourceFromPath path) l.2 l.1 ∈ st.events.keys ∨
        TakenAlone x burstRules w l := by
  rw [h.keys]
  refine or_congr_right ⟨?_, ?_⟩
  · rintro ⟨W, hW, op, hop, r, hrow, hk⟩
    cases op with
    | summary b =>
      -- at the offset of its anchor stands the anchor, not what the summary is keyed on
      cases hrow
      have hb := mem_bufferOps_summary.mp hop
      have hanchor := (h.lines W hW).isLine _ (List.mem_of_getElem? (mem_entries.mp
        (mem_of_mem_members hb (burstIn_of_mem hb).anchor_mem)).1)
      obtain ⟨ho, hs⟩ := idempotencyKey_inj hk
      have hsrc : b.anchor.line = l.1 := congrArg Prod.fst (hanchor.unique hl ho)
      rw [← hsrc] at hs
      exact absurd hs (syntheticLine_ne _ _ _)
    | line text offset =>
      obtain ⟨ho, ht⟩ := idempotencyKey_inj ((lineRow_eq_some hrow).2.symm.trans hk)
      exact ⟨W, hW, by rw [← ho, ← ht]; exact hop⟩
  · rintro ⟨W, hW, hop⟩
    obtain ⟨r, hr⟩ := exists_lineRow hrec
    exact ⟨W, hW, _, hop, r, hr, (lineRow_eq_some hr).2⟩

end Stored

/-! ### The replay -/

section Replay
variable (x : Externals) (rules : List CompiledRemoteRule) (burstRules : List BurstRule)
  (base : Path) (channel name : String)

/-- The line was in the store before the log was tailed, or no burst took it when it was. -/
def KeptAlone (st : Storage) (w : World) (l : String × ℕ) : Prop :=
  idempotencyKey x (logSourceFromPath (livePath base channel)) l.2 l.1 ∈ st.events.keys ∨
    TakenAlone x burstRules w l

variable {x rules burstRules base channel}

/-- Storing lines of the log once more adds nothing exactly if all that are recognised were kept. -/
theorem insertAll_lineRows_iff {st : Storage} {w : World}
    (h : Stored x rules burstRules (livePath base channel) st w) {ls : List (String × ℕ)}
    (hls : ∀ l ∈ ls, IsLine w.file l) :
    w.tail.sink.storage.events.insertAll
        (lineRows x rules (logSourceFromPath (livePath base channel)) ls) =
      w.tail.sink.storage.events ↔
    ∀ l ∈ ls, (recognise x rules l.1).isSome → KeptAlone x burstRules base channel st w l := by
  rw [Table.insertAll_eq_self_iff]
  constructor
  · intro hall l hl hrec
    obtain ⟨r, hr⟩ := exists_lineRow hrec
    have hk := hall r (List.mem_filterMap.mpr ⟨l, hl, hr⟩)
    rw [(lineRow_eq_some hr).2] at hk
    exact (h.key_mem_iff (hls l hl) hrec).mp hk
  · intro hall r hr
    obtain ⟨l, hl, hrow⟩ := List.mem_filterMap.mp hr
    obtain ⟨hrec, hk⟩ := lineRow_eq_some hrow
    rw [hk]
    exact (h.key_mem_iff (hls l hl) hrec).mpr (hall l hl hrec)

/-- **A replay of the rotated copy adds nothing exactly if every recognised line it reads was kept
alone**: by `backfillFile` where the copy was not backfilled before, and by `runReingest`. -/
theorem replay_adds_nothing_iff (x : Externals) (rules : List CompiledRemoteRule)
    (burstRules : List BurstRule) (base : Path) (channel name : String) (hch : channel ∈ channels)
    (s : Sink) (hcur : s.storage.readCursor (rotatedPath base channel name) = 0)
    (steps : List Step) (io : Io) (stats : BackfillStats) :
    let w := (World.start s).run x rules burstRules (livePath base channel) steps
    let kept := ∀ l ∈ replayed w.file io 0, (recognise x rules l.1).isSome →
      KeptAlone x burstRules base channel s.storage w l
    ((backfillFile x rules (rotatedPath base channel name) w.file io w.tail.sink.storage
        stats).storage.events = w.tail.sink.storage.events ↔
      (io.opened = .found ∧ ¬ io.metadataFails ∧ ¬ io.seekFails → kept)) ∧
    ((runReingest x rules [⟨rotatedPath base channel name, w.file, io⟩]
        w.tail.sink.storage).1.events = w.tail.sink.storage.events ↔
      (io.opened = .found → kept)) := by
  intro w kept
  have hst : Stored x rules burstRules (livePath base channel) s.storage w :=
    stored_run (stored_start s) steps
  have hsrc := logSource_rotatedPath base hch name
  have hzero : w.tail.sink.storage.readCursor (rotatedPath base channel name) = 0 :=
    (hst.cursors _ (rotatedPath_ne base channel name)).trans hcur
  have hkept := insertAll_lineRows_iff hst (linesOf_replayed w.file io).isLine
  constructor
  · rw [events_backfillFile, hzero, hsrc]
    by_cases hopen : io.opened = .found ∧ ¬ io.metadataFails ∧ ¬ io.seekFails
    · rw [if_pos hopen, hkept]
      exact ⟨fun h _ => h, fun h => h hopen⟩
    · rw [if_neg hopen]
      exact ⟨fun _ h => absurd h hopen, fun _ => rfl⟩
  · rw [runReingest, List.foldl_cons, List.foldl_nil, events_reingestFile, hsrc]
    by_cases hopen : io.opened = .found
    · rw [if_pos hopen, hkept]
      exact ⟨fun h _ => h, fun h => h hopen⟩
    · rw [if_neg hopen]
      exact ⟨fun _ h => absurd h hopen, fun _ => rfl⟩

end Replay

/-! ### Three notifications -/

/-- The bytes of a notification. -/
def notifiedBytes : List UInt8 := notifiedLine.toUTF8.data.toList ++ [newline]

/-- A log that is tailed in one drain. -/
def tailed (file : List UInt8) : World :=
  (World.start ⟨.fresh [] "", .zero⟩).run .std [] builtinBurstRules (livePath [] "LIVE")
    [⟨file, .good⟩]

theorem file_tailed (file : List UInt8) : (tailed file).file = file := rfl

theorem windows_tailed {file : List UInt8} {buffer : List (String × ℕ)} {offset : ℕ}
    (h : readPending file .good 0 = .lines buffer offset) : (tailed file).windows = [buffer] := by
  simp [tailed, World.run, World.step, World.start,
    (drain_of_lines (t := ⟨⟨.fresh [] "", .zero⟩, 0⟩) h).2]

theorem readPending_notified :
    readPending notifiedBytes .good 0 = .lines [(notifiedLine, 0)] 58 ∧
    readPending (notifiedBytes ++ notifiedBytes ++ notifiedBytes) .good 0 =
      .lines [(notifiedLine, 0), (notifiedLine, 58), (notifiedLine, 116)] 174 := by
  decide

theorem replayed_notified :
    replayed notifiedBytes .good 0 = [(notifiedLine, 0)] ∧
    replayed (notifiedBytes ++ notifiedBytes ++ notifiedBytes) .good 0 =
      [(notifiedLine, 0), (notifiedLine, 58), (notifiedLine, 116)] := by
  decide

/-- One notification is no burst, and three are. -/
theorem suppressed_notified :
    suppressed .std builtinBurstRules [(notifiedLine, 0)] = [] ∧
    suppressed .std builtinBurstRules
      [(notifiedLine, 0), (notifiedLine, 58), (notifiedLine, 116)] = [0, 1, 2] := by
  simp only [suppressed, bufferBursts, entries, List.zipIdx_cons, List.zipIdx_nil,
    List.filterMap_cons, List.filterMap_nil, structuralParse_notifiedLine, Option.map_some]
  decide

/-- A log of one notification is replayed without a new row. -/
theorem replay_adds_nothing_notified :
    (backfillFile .std [] (rotatedPath [] "LIVE" "Game-1.log") (tailed notifiedBytes).file .good
      (tailed notifiedBytes).tail.sink.storage ⟨0, 0, 0, 0⟩).storage.events =
        (tailed notifiedBytes).tail.sink.storage.events := by
  have hiff := (replay_adds_nothing_iff .std [] builtinBurstRules [] "LIVE" "Game-1.log"
    (by simp [channels]) ⟨.fresh [] "", .zero⟩ rfl [⟨notifiedBytes, .good⟩] .good
    ⟨0, 0, 0, 0⟩).1
  have hw : (World.start ⟨.fresh [] "", .zero⟩).run .std [] builtinBurstRules (livePath [] "LIVE")
      [⟨notifiedBytes, .good⟩] = tailed notifiedBytes := rfl
  rw [hw] at hiff
  refine hiff.mpr fun _ l hl _ => ?_
  rw [file_tailed, replayed_notified.1, List.mem_singleton] at hl
  subst hl
  refine Or.inr ⟨[(notifiedLine, 0)], ?_, ?_⟩
  · rw [windows_tailed readPending_notified.1]
    exact List.mem_singleton_self _
  · exact mem_bufferOps_line.mpr ⟨0, rfl, by rw [suppressed_notified.1]; simp⟩

/-- Three are stored as one summary, and a replay adds each of them. -/
theorem not_replay_adds_nothing_notified :
    (backfillFile .std [] (rotatedPath [] "LIVE" "Game-1.log")
      (tailed (notifiedBytes ++ notifiedBytes ++ notifiedBytes)).file .good
      (tailed (notifiedBytes ++ notifiedBytes ++ notifiedBytes)).tail.sink.storage
      ⟨0, 0, 0, 0⟩).storage.events ≠
        (tailed (notifiedBytes ++ notifiedBytes ++ notifiedBytes)).tail.sink.storage.events := by
  have hst : Stored .std [] builtinBurstRules (livePath [] "LIVE") (.fresh [] "")
      (tailed (notifiedBytes ++ notifiedBytes ++ notifiedBytes)) :=
    stored_run (stored_start ⟨.fresh [] "", .zero⟩) _
  have hcur := hst.cursors _ (rotatedPath_ne [] "LIVE" "Game-1.log")
  rw [events_backfillFile, if_pos ⟨rfl, by decide, by decide⟩, hcur,
    logSource_rotatedPath [] (by simp [channels]),
    show Storage.readCursor (.fresh [] "") (rotatedPath [] "LIVE" "Game-1.log") = 0 from rfl,
    Ne, insertAll_lineRows_iff hst (linesOf_replayed _ .good).isLine]
  intro hkept
  rcases hkept (notifiedLine, 0) (by rw [file_tailed, replayed_notified.2]; simp)
    (by rw [recognise_notifiedLine]; rfl) with h | ⟨W, hW, hop⟩
  · cases h
  · rw [windows_tailed readPending_notified.2, List.mem_singleton] at hW
    subst hW
    obtain ⟨i, hi, hns⟩ := mem_bufferOps_line.mp hop
    rw [suppressed_notified.2] at hns
    match i with
    | 0 | 1 | 2 => simp at hns
    | i + 3 => simp at hi

end StarStats.Client.ReplayRuns
