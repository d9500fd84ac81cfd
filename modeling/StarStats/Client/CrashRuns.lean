import StarStats.Client.BurstRules
import StarStats.Client.Ingest
import StarStats.Client.Reading
import StarStats.Lib.Runs

/-! # Runs of the tail with crashes

The log grows, and is drained by a process that may die between two steps of `processBuffer`, or after
the last one before the cursor is written; a new process then starts from the cursor. `done` collects
the steps done so far.

In such a run every line is counted once (`CountedOnce`) exactly as long as no drain puts a line that
an earlier one has stored into another burst, or in or out of one (`Regroups`). What decides is that
the key of a summary has the size of the burst in it, and that the window of the retry ends somewhere
else. -/

namespace StarStats.Client.CrashRuns

open StarStats.Lib.Tables StarStats.Lib.Lines StarStats.Lib.Runs
open StarStats.Core.Crates StarStats.Core.ParserDefs StarStats.Core.Templates StarStats.Core.Bursts
open StarStats.Core.Parser
open StarStats.Client.Store StarStats.Client.Gamelog StarStats.Client.Ingest StarStats.Client.Reading
open StarStats.Client.BurstRules

/-- What the process does with one drain: finish it, or die after some steps of `processBuffer`. -/
inductive Act where
  | drain (io : Io)
  | crash (io : Io) (steps : ℕ)

/-- What the game appends, and what the client does then. -/
structure Step where
  appended : List UInt8
  act : Act

/-- A log, the process that tails it, and the steps done so far. -/
structure World where
  file : List UInt8
  tail : Tail
  done : List BufferOp

/-- Two steps that count their lines under the same row, or both count lines on their own. -/
def SameGroup : BufferOp → BufferOp → Prop
  | .summary b, .summary b' => b.ruleId = b'.ruleId ∧ b.size = b'.size ∧
      b.anchor.line = b'.anchor.line ∧ b.anchor.offset = b'.anchor.offset
  | .line _ _, .line _ _ => True
  | _, _ => False

theorem SameGroup.refl : ∀ op, SameGroup op op
  | .summary _ => ⟨rfl, rfl, rfl, rfl⟩
  | .line _ _ => trivial

theorem SameGroup.symm : ∀ {op op'}, SameGroup op op' → SameGroup op' op
  | .summary _, .summary _, ⟨hr, hn, hl, ho⟩ => ⟨hr.symm, hn.symm, hl.symm, ho.symm⟩
  | .line _ _, .line _ _, _ => trivial

section Run
variable (x : Externals) (rules : List CompiledRemoteRule) (burstRules : List BurstRule)
  (path : Path)

/-- The steps of `processBuffer` a drain does. -/
def executed (file : List UInt8) (offset : ℕ) : Act → List BufferOp
  | .drain io =>
    match readPending file io offset with
    | .lines buffer _ => bufferOps x burstRules buffer
    | .stop _ _ => []
  | .crash io steps =>
    match readPending file io offset with
    | .lines buffer _ => (bufferOps x burstRules buffer).take steps
    | .stop _ _ => []

def World.step (w : World) (s : Step) : World :=
  let file := w.file ++ s.appended
  { file := file
    tail := match s.act with
      | .drain io => (Gamelog.drain x rules burstRules path file io w.tail).tail
      | .crash io steps => drainCrashing x rules burstRules path file io steps w.tail
    done := w.done ++ executed x burstRules file w.tail.offset s.act }

def World.run (w : World) (steps : List Step) : World :=
  steps.foldl (World.step x rules burstRules path) w

/-- A new log, and a process that starts on a fresh store. -/
def World.start (noiseList : List String) (now : String) : World :=
  ⟨[], startTail path (.fresh noiseList now), []⟩

/-- The row is the summary of a burst that the line was a member of when it was stored. -/
def InSummary (w : World) (r : EventRow) (l : String × ℕ) : Prop :=
  ∃ b, BufferOp.summary b ∈ w.done ∧ l ∈ b.members.map Entry.source ∧
    r.idempotencyKey = summaryKey x (logSourceFromPath path) b

/-- The row is the one of the line alone. -/
def OwnRow (r : EventRow) (l : String × ℕ) : Prop :=
  r.idempotencyKey = idempotencyKey x (logSourceFromPath path) l.2 l.1

/-- No line is in the events table by two summaries, nor by a summary and on its own. -/
def CountedOnce (w : World) : Prop :=
  ∀ l, ∀ r ∈ w.tail.sink.storage.events.contents, InSummary x path w r l →
    ∀ r' ∈ w.tail.sink.storage.events.contents,
      (InSummary x path w r' l → r' = r) ∧ ¬ OwnRow x path r' l

/-- The drain stores a line that an earlier one has stored, and groups it in another way: in a burst
of another rule, anchor or size, or in a burst once and on its own the other time. -/
def Regroups (w : World) (s : Step) : Prop :=
  ∃ op ∈ executed x burstRules (w.file ++ s.appended) w.tail.offset s.act, ∃ op' ∈ w.done,
    ∃ l, BufferOp.Covers x rules op l ∧ BufferOp.Covers x rules op' l ∧ ¬ SameGroup op op'

/-- No line is covered by two steps of different groups. -/
def Coherent (ops : List BufferOp) : Prop :=
  ∀ op ∈ ops, ∀ op' ∈ ops, ∀ l, BufferOp.Covers x rules op l → BufferOp.Covers x rules op' l →
    SameGroup op op'

/-- What holds in every state of a run. -/
structure Inv (w : World) : Prop where
  offset : Boundary w.file w.tail.offset
  cursor : Boundary w.file (w.tail.sink.storage.readCursor path)
  isLine : ∀ op ∈ w.done, ∀ l, BufferOp.Covers x rules op l → IsLine w.file l
  anchored : ∀ b, BufferOp.summary b ∈ w.done → b.anchor ∈ b.members
  keys : ∀ k, k ∈ w.tail.sink.storage.events.keys ↔
    ∃ op ∈ w.done, ∃ r, BufferOp.row x rules (logSourceFromPath path) op = some r ∧
      r.idempotencyKey = k

variable {x rules burstRules path}

theorem inv_start (noiseList : List String) (now : String) :
    Inv x rules path (World.start path noiseList now) where
  offset := boundary_zero _
  cursor := boundary_zero _
  isLine := by simp [World.start]
  anchored := by simp [World.start]
  keys := by simp [World.start, startTail, Storage.fresh, Table.empty, Table.keys]

/-! ### Steps of one buffer -/

theorem coherent_bufferOps {buffer : List (String × ℕ)} (hlt : buffer.Pairwise fun a b => a.2 < b.2) :
    Coherent x rules (bufferOps x burstRules buffer) := by
  have hplace : ∀ {i j : ℕ} {l : String × ℕ}, buffer[i]? = some l → buffer[j]? = some l → i = j := by
    intro i j l hi hj
    obtain ⟨hil, rfl⟩ := List.getElem?_eq_some_iff.mp hi
    obtain ⟨hjl, he⟩ := List.getElem?_eq_some_iff.mp hj
    have hp := List.pairwise_iff_getElem.mp hlt
    rcases Nat.lt_trichotomy i j with h | h | h
    · have := hp i j hil hjl h
      rw [he] at this; omega
    · exact h
    · have := hp j i hjl hil h
      rw [he] at this; omega
  have hentry : ∀ {b : Burst Entry} {l : String × ℕ}, BufferOp.summary b ∈ bufferOps x burstRules buffer →
      l ∈ b.members.map Entry.source → ∃ m ∈ b.members, m.source = l ∧ m ∈ entries x buffer := by
    intro b l hb hl
    obtain ⟨m, hm, rfl⟩ := List.mem_map.mp hl
    exact ⟨m, hm, rfl, source_mem_of_member (mem_bufferOps_summary.mp hb) hm⟩
  have hmixed : ∀ {b : Burst Entry} {text : String} {offset : ℕ},
      BufferOp.summary b ∈ bufferOps x burstRules buffer →
      BufferOp.line text offset ∈ bufferOps x burstRules buffer →
      (text, offset) ∉ b.members.map Entry.source := by
    intro b text offset hb hline hl
    obtain ⟨m, hm, hs, hme⟩ := hentry hb hl
    obtain ⟨i, hi, hns⟩ := mem_bufferOps_line.mp hline
    have := hplace hi (hs ▸ (mem_entries.mp hme).1)
    exact hns (mem_suppressed.mpr ⟨b, mem_bufferOps_summary.mp hb, m, hm, this.symm⟩)
  intro op hop op' hop' l hl hl'
  cases op with
  | summary b =>
    cases op' with
    | summary b' =>
      obtain ⟨m, hm, hs, hme⟩ := hentry hop hl
      obtain ⟨m', hm', hs', hme'⟩ := hentry hop' hl'
      have hme₁ := mem_entries.mp hme
      have hme₂ := mem_entries.mp hme'
      have hidx : m.bufIdx = m'.bufIdx := hplace (hs ▸ hme₁.1) (hs' ▸ hme₂.1)
      have heq : m = m' := by
        have hsrc : m.source = m'.source := hs.trans hs'.symm
        have hline : m.line = m'.line := congrArg Prod.fst hsrc
        have hlog := hme₁.2
        rw [hline, hme₂.2] at hlog
        cases m; cases m'
        simp only [Entry.source, Prod.mk.injEq] at hsrc
        simp_all
      subst heq
      rw [burst_unique (mem_bufferOps_summary.mp hop) (mem_bufferOps_summary.mp hop') hm hm']
      exact SameGroup.refl _
    | line text offset =>
      obtain ⟨rfl, -⟩ := hl'
      exact absurd hl (hmixed hop hop')
  | line text offset =>
    cases op' with
    | summary b' =>
      obtain ⟨rfl, -⟩ := hl
      exact absurd hl' (hmixed hop' hop)
    | line text' offset' => trivial

/-- What a drain from a boundary does: steps on lines of the file, each line once. -/
structure Sane (x : Externals) (rules : List CompiledRemoteRule) (file : List UInt8)
    (ops : List BufferOp) : Prop where
  isLine : ∀ op ∈ ops, ∀ l, BufferOp.Covers x rules op l → IsLine file l
  anchored : ∀ b, BufferOp.summary b ∈ ops → b.anchor ∈ b.members
  coherent : Coherent x rules ops

theorem Sane.take {file : List UInt8} {ops : List BufferOp} (h : Sane x rules file ops) (n : ℕ) :
    Sane x rules file (ops.take n) where
  isLine _ hop := h.isLine _ (List.mem_of_mem_take hop)
  anchored _ hb := h.anchored _ (List.mem_of_mem_take hb)
  coherent _ hop _ hop' := h.coherent _ (List.mem_of_mem_take hop) _ (List.mem_of_mem_take hop')

theorem sane_bufferOps {file : List UInt8} {buffer : List (String × ℕ)} (h : LinesOf file buffer) :
    Sane x rules file (bufferOps x burstRules buffer) where
  isLine _ hop l hl := h.isLine l (mem_buffer_of_covers hop hl)
  anchored _ hb := (burstIn_of_mem (mem_bufferOps_summary.mp hb)).anchor_mem
  coherent := coherent_bufferOps h.ordered

theorem sane_executed {file : List UInt8} {offset : ℕ} (h : Boundary file offset) (a : Act) :
    Sane x rules file (executed x burstRules file offset a) := by
  have hnil : Sane x rules file [] := ⟨by simp, by simp, by simp [Coherent]⟩
  cases a with
  | drain io =>
    have hspec := @readPending_spec _ io _ h
    simp only [executed]
    cases hr : readPending file io offset with
    | lines buffer o => rw [hr] at hspec; exact sane_bufferOps hspec.1
    | stop o ok => exact hnil
  | crash io n =>
    have hspec := @readPending_spec _ io _ h
    simp only [executed]
    cases hr : readPending file io offset with
    | lines buffer o => rw [hr] at hspec; exact (sane_bufferOps hspec.1).take n
    | stop o ok => exact hnil

/-! ### The invariant -/

/-- Rows inserted for steps are in the table under the keys of the steps. -/
theorem mem_keys_insertAll_rows {events : Events} {logSource : String} {ops : List BufferOp}
    {k : String} :
    k ∈ (events.insertAll (ops.filterMap (BufferOp.row x rules logSource))).keys ↔ k ∈ events.keys ∨
      ∃ op ∈ ops, ∃ r, BufferOp.row x rules logSource op = some r ∧ r.idempotencyKey = k := by
  rw [Table.mem_keys_insertAll]
  refine or_congr_right ⟨?_, ?_⟩
  · rintro ⟨r, hr, rfl⟩
    obtain ⟨op, hop, hrow⟩ := List.mem_filterMap.mp hr
    exact ⟨op, hop, r, hrow, rfl⟩
  · rintro ⟨op, hop, r, hrow, rfl⟩
    exact ⟨r, List.mem_filterMap.mpr ⟨op, hop, hrow⟩, rfl⟩

theorem readCursor_writeCursor (st : Storage) (path : Path) (offset : ℕ) :
    (st.writeCursor path offset).readCursor path = offset := by
  simp [Storage.writeCursor, Storage.readCursor]

theorem readCursor_congr {st st' : Storage} (h : st'.tailCursor = st.tailCursor) (path : Path) :
    st'.readCursor path = st.readCursor path := by
  simp [Storage.readCursor, h]

/-- The store after a step holds what it held, and the rows of the steps done; offset and cursor are
at boundaries. -/
theorem step_spec {w : World} {s : Step} (h : Inv x rules path w) :
    let w' := w.step x rules burstRules path s
    Boundary w'.file w'.tail.offset ∧ Boundary w'.file (w'.tail.sink.storage.readCursor path) ∧
      w'.tail.sink.storage.events = w.tail.sink.storage.events.insertAll
        ((executed x burstRules (w.file ++ s.appended) w.tail.offset s.act).filterMap
          (BufferOp.row x rules (logSourceFromPath path))) := by
  have hoff := h.offset.append s.appended
  have hcur := h.cursor.append s.appended
  obtain ⟨appended, act⟩ := s
  cases act with
  | drain io =>
    have hspec := @readPending_spec _ io _ hoff
    simp only [World.step, executed, Gamelog.drain]
    cases hr : readPending (w.file ++ appended) io w.tail.offset with
    | stop o ok => rw [hr] at hspec; exact ⟨hspec, hcur, rfl⟩
    | lines buffer o =>
      rw [hr] at hspec
      have hev := @events_processRead x rules burstRules path buffer o w.tail.sink
      by_cases hw : io.writeCursorFails
      · simp only [hw, if_true]
        refine ⟨hspec.2, ?_, hev⟩
        rwa [readCursor_congr (tailCursor_processRead burstRules path buffer o w.tail.sink)]
      · simp only [hw, Bool.false_eq_true, if_false]
        refine ⟨hspec.2, ?_, hev⟩
        rw [readCursor_writeCursor]
        exact hspec.2
  | crash io n =>
    simp only [World.step, executed, drainCrashing]
    cases hr : readPending (w.file ++ appended) io w.tail.offset with
    | stop o ok => exact ⟨hcur, hcur, rfl⟩
    | lines buffer o =>
      have htail := readCursor_congr (@tailCursor_foldl_run x rules
        (logSourceFromPath path) ((bufferOps x burstRules buffer).take n) w.tail.sink) path
      have hb : Boundary (w.file ++ appended) ((((bufferOps x burstRules buffer).take n).foldl
          (BufferOp.run x rules (logSourceFromPath path)) w.tail.sink).storage.readCursor path) := by
        rwa [htail]
      exact ⟨hb, hb, events_foldl_run _ _⟩

theorem Inv.step {w : World} (h : Inv x rules path w) (s : Step) :
    Inv x rules path (w.step x rules burstRules path s) := by
  obtain ⟨hoff, hcur, hev⟩ := step_spec (s := s) h
  have hsane := @sane_executed x rules burstRules _ _
    (h.offset.append s.appended) s.act
  refine ⟨hoff, hcur, ?_, ?_, ?_⟩
  · intro op hop l hl
    rcases List.mem_append.mp hop with hop | hop
    · exact (h.isLine op hop l hl).append s.appended
    · exact hsane.isLine op hop l hl
  · intro b hb
    exact (List.mem_append.mp hb).elim (h.anchored b) (hsane.anchored b)
  · intro k
    rw [hev, mem_keys_insertAll_rows, h.keys]
    simp only [World.step, List.mem_append, or_and_right, exists_or]

theorem inv_run {w : World} (h : Inv x rules path w) :
    ∀ steps : List Step, Inv x rules path (w.run x rules burstRules path steps)
  | [] => h
  | s :: steps => inv_run (h.step s) steps

/-! ### Rows and groups -/

/-- The lines of a step that inserts a row. -/
theorem covers_of_row {logSource : String} {op : BufferOp} {r : EventRow}
    (h : BufferOp.row x rules logSource op = some r) :
    match op with
    | .summary b => r.idempotencyKey = summaryKey x logSource b
    | .line text offset => BufferOp.Covers x rules op (text, offset) ∧
        r.idempotencyKey = idempotencyKey x logSource offset text := by
  cases op with
  | summary b => cases h; rfl
  | line text offset =>
    obtain ⟨hrec, hk⟩ := lineRow_eq_some h
    exact ⟨⟨rfl, hrec⟩, hk⟩

theorem Inv.exists_summary {w : World} (h : Inv x rules path w) {b : Burst Entry}
    (hb : BufferOp.summary b ∈ w.done) : ∃ r ∈ w.tail.sink.storage.events.contents,
      r.idempotencyKey = summaryKey x (logSourceFromPath path) b := by
  obtain ⟨a, ha, hk⟩ := Table.mem_keys.mp ((h.keys _).mpr ⟨_, hb, _, rfl, rfl⟩)
  exact ⟨a.2, List.mem_map_of_mem ha, hk⟩

theorem Inv.exists_ownRow {w : World} (h : Inv x rules path w) {text : String} {offset : ℕ}
    (hl : BufferOp.line text offset ∈ w.done) (hrec : (recognise x rules text).isSome) :
    ∃ r ∈ w.tail.sink.storage.events.contents, OwnRow x path r (text, offset) := by
  obtain ⟨r, hr⟩ := exists_lineRow hrec
  obtain ⟨a, ha, hk⟩ := Table.mem_keys.mp ((h.keys _).mpr ⟨_, hl, r, hr, rfl⟩)
  exact ⟨a.2, List.mem_map_of_mem ha, hk.trans (lineRow_eq_some hr).2⟩

theorem Inv.isLine_anchor {w : World} (h : Inv x rules path w) {b : Burst Entry}
    (hb : BufferOp.summary b ∈ w.done) : IsLine w.file b.anchor.source :=
  h.isLine _ hb _ (List.mem_map_of_mem (h.anchored b hb))

/-- Two summaries under one key are of one group. -/
theorem Inv.sameGroup_of_key {w : World} (h : Inv x rules path w) {b b' : Burst Entry}
    (hb : BufferOp.summary b ∈ w.done) (hb' : BufferOp.summary b' ∈ w.done) {logSource : String}
    (hk : summaryKey x logSource b = summaryKey x logSource b') :
    SameGroup (.summary b) (.summary b') := by
  obtain ⟨ho, hs⟩ := idempotencyKey_inj hk
  have hsrc := (h.isLine_anchor hb).unique (h.isLine_anchor hb') ho
  have hline : b.anchor.line = b'.anchor.line := congrArg Prod.fst hsrc
  rw [hline] at hs
  obtain ⟨hr, hn⟩ := syntheticLine_inj hs
  exact ⟨hr, hn, hline, ho⟩

theorem summaryKey_of_sameGroup {b b' : Burst Entry} (h : SameGroup (.summary b) (.summary b'))
    (logSource : String) : summaryKey x logSource b = summaryKey x logSource b' := by
  obtain ⟨hr, hn, hl, ho⟩ := h
  unfold summaryKey
  rw [hr, hn, hl, ho]

theorem eq_of_key_eq {events : Events} {r r' : EventRow} (hr : r ∈ events.contents)
    (hr' : r' ∈ events.contents) (hk : r.idempotencyKey = r'.idempotencyKey) : r = r' := by
  obtain ⟨a, ha, rfl⟩ := List.mem_map.mp hr
  obtain ⟨a', ha', rfl⟩ := List.mem_map.mp hr'
  exact congrArg Prod.snd (Table.eq_of_key_eq ha ha' hk)

/-- **Every line is counted once exactly if no line was stored in two groups.** -/
theorem Inv.countedOnce_iff {w : World} (h : Inv x rules path w) :
    CountedOnce x path w ↔ Coherent x rules w.done := by
  constructor
  · intro hone op hop op' hop' l hl hl'
    cases op with
    | summary b =>
      obtain ⟨r, hr, hrk⟩ := h.exists_summary hop
      have hin : InSummary x path w r l := ⟨b, hop, hl, hrk⟩
      cases op' with
      | summary b' =>
        obtain ⟨r', hr', hrk'⟩ := h.exists_summary hop'
        have heq := (hone l r hr hin r' hr').1 ⟨b', hop', hl', hrk'⟩
        exact h.sameGroup_of_key hop hop' (hrk.symm.trans ((congrArg _ heq).symm.trans hrk'))
      | line text offset =>
        obtain ⟨rfl, hrec⟩ := hl'
        obtain ⟨r', hr', hown⟩ := h.exists_ownRow hop' hrec
        exact absurd hown (hone _ r hr hin r' hr').2
    | line text offset =>
      cases op' with
      | summary b' =>
        obtain ⟨r, hr, hrk⟩ := h.exists_summary hop'
        obtain ⟨rfl, hrec⟩ := hl
        obtain ⟨r', hr', hown⟩ := h.exists_ownRow hop hrec
        exact absurd hown (hone _ r hr ⟨b', hop', hl', hrk⟩ r' hr').2
      | line text' offset' => trivial
  · rintro hco l r hr ⟨b, hb, hl, hrk⟩ r' hr'
    constructor
    · rintro ⟨b', hb', hl', hrk'⟩
      have := summaryKey_of_sameGroup (x := x) (hco _ hb' _ hb l hl' hl) (logSourceFromPath path)
      exact eq_of_key_eq hr' hr (hrk'.trans (this.trans hrk.symm))
    · intro hown
      have hkey : r'.idempotencyKey ∈ w.tail.sink.storage.events.keys := by
        obtain ⟨a, ha, rfl⟩ := List.mem_map.mp hr'
        exact Table.mem_keys.mpr ⟨a, ha, rfl⟩
      obtain ⟨op, hop, q, hq, hqk⟩ := (h.keys _).mp hkey
      have hcov := covers_of_row hq
      cases op with
      | summary b' =>
        -- the key of a summary is never the key of the line at its anchor
        obtain ⟨ho, hs⟩ := idempotencyKey_inj (hcov.symm.trans (hqk.trans hown))
        have hsrc := (h.isLine_anchor hop).unique (h.isLine _ hb l hl) ho
        have hline : b'.anchor.line = l.1 := congrArg Prod.fst hsrc
        rw [← hline] at hs
        exact syntheticLine_ne _ _ _ hs
      | line text offset =>
        obtain ⟨ho, ht⟩ := idempotencyKey_inj (hcov.2.symm.trans (hqk.trans hown))
        have hcl : BufferOp.Covers x rules (.line text offset) l := by
          rw [show l = (text, offset) from Prod.ext ht.symm ho.symm]; exact hcov.1
        exact hco _ hb _ hop l hl hcl

theorem Inv.coherent_step_iff {w : World} {s : Step} (h : Inv x rules path w)
    (hco : Coherent x rules w.done) :
    Coherent x rules (w.step x rules burstRules path s).done ↔ ¬ Regroups x rules burstRules w s := by
  have hsane := @sane_executed x rules burstRules _ _
    (h.offset.append s.appended) s.act
  constructor
  · rintro hall ⟨op, hop, op', hop', l, hl, hl', hne⟩
    exact hne (hall op (List.mem_append_right _ hop) op' (List.mem_append_left _ hop') l hl hl')
  · intro hno op hop op' hop' l hl hl'
    by_contra hne
    rcases List.mem_append.mp hop with hop | hop <;> rcases List.mem_append.mp hop' with hop' | hop'
    · exact hne (hco op hop op' hop' l hl hl')
    · exact hno ⟨op', hop', op, hop, l, hl', hl, fun hs => hne hs.symm⟩
    · exact hno ⟨op, hop, op', hop', l, hl, hl', hne⟩
    · exact hne (hsane.coherent op hop op' hop' l hl hl')

/-- **In a run with crashes every line is counted once, in every state, exactly if no drain regroups
a line that was stored before.** -/
theorem countedOnce_run_iff (x : Externals) (rules : List CompiledRemoteRule)
    (burstRules : List BurstRule) (path : Path) (noiseList : List String) (now : String)
    (steps : List Step) :
    (∀ n, CountedOnce x path
        ((World.start path noiseList now).run x rules burstRules path (steps.take n))) ↔
      ∀ n step, steps[n]? = some step → ¬ Regroups x rules burstRules
        ((World.start path noiseList now).run x rules burstRules path (steps.take n)) step := by
  have hinv := fun n => @inv_run x rules burstRules path _
    (inv_start noiseList now) (steps.take n)
  have hcoherent : (∀ n, CountedOnce x path
      ((World.start path noiseList now).run x rules burstRules path (steps.take n))) ↔
      ∀ n, Coherent x rules
        ((World.start path noiseList now).run x rules burstRules path (steps.take n)).done :=
    forall_congr' fun n => (hinv n).countedOnce_iff
  rw [hcoherent]
  refine @forall_take_iff _ _ _ _ (Inv x rules path) (fun w => Coherent x rules w.done) _
    (inv_start noiseList now) (fun w step h => h.step step) ?_
    (fun w step h hco => h.coherent_step_iff hco) steps
  simp [Coherent, World.start]

end Run

/-! ### A retry with one more line -/

/-- A line that the last built-in rule collapses, and its bytes. -/
def stowedLine : String := "<1> <VehicleStowed>"

def stowedBytes : List UInt8 :=
  [60, 49, 62, 32, 60, 86, 101, 104, 105, 99, 108, 101, 83, 116, 111, 119, 101, 100, 62, 10]

theorem structuralParse_stowedLine : structuralParse .std stowedLine =
    some ⟨"1", none, some "VehicleStowed", "", []⟩ := by decide +kernel

/-- The bursts of three and of four such lines. -/
theorem bursts_stowed :
    (bufferBursts .std builtinBurstRules
        [(stowedLine, 0), (stowedLine, 20), (stowedLine, 40)]).map
      (fun b => (b.size, b.members.map Entry.source)) =
        [(3, [(stowedLine, 0), (stowedLine, 20), (stowedLine, 40)])] ∧
    (bufferBursts .std builtinBurstRules
        [(stowedLine, 0), (stowedLine, 20), (stowedLine, 40), (stowedLine, 60)]).map
      (fun b => (b.size, b.members.map Entry.source)) =
        [(4, [(stowedLine, 0), (stowedLine, 20), (stowedLine, 40), (stowedLine, 60)])] := by
  simp only [bufferBursts, entries, List.zipIdx_cons, List.zipIdx_nil, List.filterMap_cons,
    List.filterMap_nil, structuralParse_stowedLine, Option.map_some]
  decide

/-- The process dies behind the summary of three lines; when the next one starts, there are four: the
first line is in the table by two summaries. -/
theorem not_countedOnce_longerRetry : ¬ CountedOnce .std ["LIVE", "Game.log"]
    ((World.start ["LIVE", "Game.log"] [] "").run .std [] builtinBurstRules ["LIVE", "Game.log"]
      [⟨stowedBytes ++ stowedBytes ++ stowedBytes, .crash .good 1⟩,
        ⟨stowedBytes, .drain .good⟩]) := by
  rw [(inv_run (inv_start [] "") _).countedOnce_iff]
  intro hco
  have hread₁ : readPending ([] ++ (stowedBytes ++ stowedBytes ++ stowedBytes)) .good 0 =
      .lines [(stowedLine, 0), (stowedLine, 20), (stowedLine, 40)] 60 := by decide
  have hread₂ : readPending ([] ++ (stowedBytes ++ stowedBytes ++ stowedBytes) ++ stowedBytes)
      .good 0 = .lines
        [(stowedLine, 0), (stowedLine, 20), (stowedLine, 40), (stowedLine, 60)] 80 := by
    decide
  obtain ⟨b, hb, hbs⟩ := List.map_eq_singleton_iff.mp bursts_stowed.1
  obtain ⟨b', hb', hbs'⟩ := List.map_eq_singleton_iff.mp bursts_stowed.2
  simp only [Prod.mk.injEq] at hbs hbs'
  have hgroup := hco (.summary b) ?_ (.summary b') ?_ (stowedLine, 0) ?_ ?_
  · have := hgroup.2.1
    omega
  · refine List.mem_append_left _ (List.mem_append_right _ ?_)
    simp only [executed, World.start, startTail, Storage.fresh, Storage.readCursor, List.lookup_nil,
      Option.getD_none, hread₁, bufferOps, hb]
    simp
  · refine List.mem_append_right _ ?_
    simp only [executed, World.start, World.step, drainCrashing, startTail, Storage.fresh,
      Storage.readCursor, List.lookup_nil, Option.getD_none, hread₁, tailCursor_foldl_run, hread₂,
      bufferOps, hb']
    simp
  · simp [BufferOp.Covers, hbs.2]
  · simp [BufferOp.Covers, hbs'.2]

end StarStats.Client.CrashRuns
