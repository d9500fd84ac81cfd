import StarStats.Client.Gamelog

/-! # What gets stored

Every step of the tail comes down to at most one insert into the events table: `lineRow` for a line,
`BufferOp.row` for a step of `processBuffer`. The keys of these rows tell lines at different offsets
apart, and tell a summary from its anchor and from a summary of another rule or size. -/

namespace StarStats.Client.Ingest

open StarStats.Lib.Text StarStats.Lib.Tables
open StarStats.Core.Events StarStats.Core.Crates StarStats.Core.Parser StarStats.Core.ParserDefs
open StarStats.Core.Templates StarStats.Core.Bursts
open StarStats.Client.Store StarStats.Client.Gamelog

/-! ### Rows -/

/-- The row of a line under a key, if the line is recognised. -/
def rowUnder (x : Externals) (rules : List CompiledRemoteRule) (key logSource : String)
    (offset : ℕ) (line : String) : Option EventRow :=
  (recognise x rules line).map fun e =>
    ⟨key, e.eventTypeKey, e.timestamp, line, e.toValue.render, logSource, offset⟩

/-- The row of a line. -/
def lineRow (x : Externals) (rules : List CompiledRemoteRule) (logSource : String) (offset : ℕ)
    (line : String) : Option EventRow :=
  rowUnder x rules (idempotencyKey x logSource offset line) logSource offset line

/-- The key of the summary of a burst. -/
def summaryKey (x : Externals) (logSource : String) (b : Burst Entry) : String :=
  idempotencyKey x logSource b.anchor.offset (syntheticLine b.anchor.line b.ruleId b.size)

/-- The row of the summary of a burst. -/
def burstRow (x : Externals) (logSource : String) (b : Burst Entry) : EventRow :=
  let e := summaryEvent b.ruleId b.size b.anchor.log b.last.log
  ⟨summaryKey x logSource b, e.eventTypeKey, e.timestamp, b.anchor.line, e.toValue.render, logSource,
    b.anchor.offset⟩

/-- The row a step inserts. -/
def BufferOp.row (x : Externals) (rules : List CompiledRemoteRule) (logSource : String) :
    BufferOp → Option EventRow
  | .summary b => some (burstRow x logSource b)
  | .line text offset => lineRow x rules logSource offset text

section Rows
variable {x : Externals} {rules : List CompiledRemoteRule} {logSource : String}

theorem lineRow_eq_some {offset : ℕ} {line : String} {r : EventRow}
    (h : lineRow x rules logSource offset line = some r) :
    (recognise x rules line).isSome ∧ r.idempotencyKey = idempotencyKey x logSource offset line := by
  obtain ⟨e, he, rfl⟩ := Option.map_eq_some_iff.mp h
  exact ⟨by simp [he], rfl⟩

theorem exists_lineRow {offset : ℕ} {line : String} (h : (recognise x rules line).isSome) :
    ∃ r, lineRow x rules logSource offset line = some r := by
  obtain ⟨e, he⟩ := Option.isSome_iff_exists.mp h
  exact ⟨_, by rw [lineRow, rowUnder, he]; rfl⟩

theorem summaryRow_eq (ruleId : String) (size : ℕ) (anchorLine : String) (anchorOffset : ℕ)
    (anchorLog endLog : LogLine) :
    summaryRow x logSource ruleId size anchorLine anchorOffset anchorLog endLog =
      some ⟨idempotencyKey x logSource anchorOffset (syntheticLine anchorLine ruleId size),
        "burst_summary", anchorLog.timestamp, anchorLine,
        (summaryEvent ruleId size anchorLog endLog).toValue.render, logSource, anchorOffset⟩ := by
  rw [summaryRow, serialiseEvent_eq]
  rfl

/-- **One line inserts its row**, if it has one. -/
theorem events_ingestOneLine (st : Storage) (offset : ℕ) (line : String) :
    (ingestOneLine x rules st logSource offset line).1.events =
      st.events.insertAll (lineRow x rules logSource offset line).toList := by
  unfold ingestOneLine lineRow rowUnder recognise
  cases structuralParse x line with
  | none => rfl
  | some p =>
    simp only [Option.bind_some]
    cases hr : recogniseParsed x rules p with
    | none =>
      simp only [Option.map_none, Option.toList_none, Table.insertAll_nil]
      cases p.eventName with
      | none => rfl
      | some n =>
        by_cases hn : st.isNoise n
        · simp [hn]
        · simp only [hn, Bool.false_eq_true, if_false]
          rfl
    | some e => simp [serialiseEvent_eq, Storage.insertEvent]

theorem tailCursor_ingestOneLine (st : Storage) (offset : ℕ) (line : String) :
    (ingestOneLine x rules st logSource offset line).1.tailCursor = st.tailCursor := by
  unfold ingestOneLine
  cases structuralParse x line with
  | none => rfl
  | some p =>
    cases hr : recogniseParsed x rules p with
    | none =>
      simp only [hr]
      cases p.eventName with
      | none => rfl
      | some n =>
        by_cases hn : st.isNoise n
        · simp [hn]
        · simp only [hn, Bool.false_eq_true, if_false]
          rfl
    | some e => simp only [hr, serialiseEvent_eq]; rfl

theorem storage_processLine (s : Sink) (line : String) (offset : ℕ) :
    (processLine x rules logSource s line offset).storage =
      (ingestOneLine x rules s.storage logSource offset line).1 := by
  unfold processLine
  split <;> simp_all

/-- **One step of `processBuffer` inserts its row.** -/
theorem events_run (s : Sink) (op : BufferOp) :
    (op.run x rules logSource s).storage.events =
      s.storage.events.insertAll (BufferOp.row x rules logSource op).toList := by
  cases op with
  | summary b => simp only [BufferOp.run, summaryRow_eq]; rfl
  | line text offset => rw [BufferOp.run, storage_processLine, events_ingestOneLine]; rfl

theorem tailCursor_run (s : Sink) (op : BufferOp) :
    (op.run x rules logSource s).storage.tailCursor = s.storage.tailCursor := by
  cases op with
  | summary b => simp only [BufferOp.run, summaryRow_eq]; rfl
  | line text offset => rw [BufferOp.run, storage_processLine, tailCursor_ingestOneLine]

/-- **Steps of `processBuffer` insert their rows one after another.** -/
theorem events_foldl_run : ∀ (ops : List BufferOp) (s : Sink),
    (ops.foldl (BufferOp.run x rules logSource) s).storage.events =
      s.storage.events.insertAll (ops.filterMap (BufferOp.row x rules logSource))
  | [], s => rfl
  | op :: ops, s => by
    rw [List.foldl_cons, events_foldl_run ops, events_run]
    cases h : BufferOp.row x rules logSource op <;> simp [h]

theorem tailCursor_foldl_run : ∀ (ops : List BufferOp) (s : Sink),
    (ops.foldl (BufferOp.run x rules logSource) s).storage.tailCursor = s.storage.tailCursor
  | [], s => rfl
  | op :: ops, s => by rw [List.foldl_cons, tailCursor_foldl_run ops, tailCursor_run]

theorem bufferOps_nil (burstRules : List BurstRule) : bufferOps x burstRules [] = [] := by
  have : bufferBursts x burstRules [] = [] :=
    List.eq_nil_iff_forall_not_mem.mpr fun b hb =>
      absurd (mem_of_mem_members hb (burstIn_of_mem hb).anchor_mem) (by simp [entries])
  simp [bufferOps, this]

theorem events_processRead (burstRules : List BurstRule) (path : Path) (buffer : List (String × ℕ))
    (offset : ℕ) (s : Sink) :
    (processRead x rules burstRules path buffer offset s).storage.events =
      s.storage.events.insertAll
        ((bufferOps x burstRules buffer).filterMap (BufferOp.row x rules (logSourceFromPath path))) := by
  unfold processRead
  by_cases h : buffer = []
  · simp [h, bufferOps_nil]
  · rw [if_neg h]
    exact events_foldl_run _ s

theorem tailCursor_processRead (burstRules : List BurstRule) (path : Path)
    (buffer : List (String × ℕ)) (offset : ℕ) (s : Sink) :
    (processRead x rules burstRules path buffer offset s).storage.tailCursor =
      s.storage.tailCursor := by
  unfold processRead
  by_cases h : buffer = []
  · subst h; rfl
  · rw [if_neg h]
    exact tailCursor_foldl_run _ s

end Rows

/-! ### Keys -/

section Keys
variable {x : Externals} {logSource : String}

theorem idempotencyKey_inj {o o' : ℕ} {l l' : String}
    (h : idempotencyKey x logSource o l = idempotencyKey x logSource o' l') : o = o' ∧ l = l' :=
  number_before_inj (c := ':') (by decide) ((String.append_right_inj _).mp (x.newV5_injective h))

/-- What a summary is keyed on tells the rule and the size. -/
theorem syntheticLine_inj {line r r' : String} {n n' : ℕ}
    (h : syntheticLine line r n = syntheticLine line r' n') : r = r' ∧ n = n' := by
  obtain ⟨hr, hn⟩ := number_after_inj (c := ':') (by decide) h
  exact ⟨(String.append_right_inj _).mp hr, hn⟩

/-- What a summary is keyed on is not the line of its anchor. -/
theorem syntheticLine_ne (line r : String) (n : ℕ) : syntheticLine line r n ≠ line := by
  intro h
  have hl := congrArg (fun s => s.toList.length) h
  simp only [syntheticLine, String.toList_append, List.length_append] at hl
  have : ("|burst:" : String).toList.length = 7 := by decide
  omega

end Keys

/-! ### The lines of a step -/

/-- The lines that the row of a step stands for. -/
def BufferOp.Covers (x : Externals) (rules : List CompiledRemoteRule) (op : BufferOp)
    (l : String × ℕ) : Prop :=
  match op with
  | .summary b => l ∈ b.members.map Entry.source
  | .line text offset => l = (text, offset) ∧ (recognise x rules text).isSome

section Cover
variable {x : Externals} {burstRules : List BurstRule} {buffer : List (String × ℕ)}

theorem mem_entries {e : Entry} : e ∈ entries x buffer ↔
    buffer[e.bufIdx]? = some e.source ∧ structuralParse x e.line = some e.log := by
  unfold entries
  simp only [List.mem_filterMap, Option.map_eq_some_iff]
  constructor
  · rintro ⟨⟨⟨l, o⟩, i⟩, hm, log, hlog, rfl⟩
    exact ⟨List.mem_zipIdx_iff_getElem?.mp hm, hlog⟩
  · rintro ⟨hb, hp⟩
    exact ⟨(e.source, e.bufIdx), List.mem_zipIdx_iff_getElem?.mpr hb, e.log, hp, rfl⟩

theorem entries_nodup : (entries x buffer).Nodup := by
  have hidx : (buffer.zipIdx).Pairwise fun a b => a.2 ≠ b.2 := by
    refine List.pairwise_map.mp ?_
    rw [List.zipIdx_map_snd]
    exact List.nodup_range'
  refine List.Pairwise.filterMap (R := fun a b : (String × ℕ) × ℕ => a.2 ≠ b.2) _ ?_ hidx
  rintro ⟨⟨l, o⟩, i⟩ ⟨⟨l', o'⟩, i'⟩ hne e he e' he' rfl
  obtain ⟨log, -, rfl⟩ := Option.map_eq_some_iff.mp he
  obtain ⟨log', -, h⟩ := Option.map_eq_some_iff.mp he'
  exact hne (congrArg Entry.bufIdx h).symm

theorem source_mem_of_member {b : Burst Entry} (hb : b ∈ bufferBursts x burstRules buffer)
    {m : Entry} (hm : m ∈ b.members) : m ∈ entries x buffer := mem_of_mem_members hb hm

theorem burst_unique {b b' : Burst Entry} (hb : b ∈ bufferBursts x burstRules buffer)
    (hb' : b' ∈ bufferBursts x burstRules buffer) {m : Entry} (hm : m ∈ b.members)
    (hm' : m ∈ b'.members) : b = b' :=
  eq_of_mem_members entries_nodup hb hb' hm hm'

theorem mem_bufferOps_summary {b : Burst Entry} :
    BufferOp.summary b ∈ bufferOps x burstRules buffer ↔ b ∈ bufferBursts x burstRules buffer := by
  simp [bufferOps]

theorem mem_suppressed {i : ℕ} : i ∈ suppressed x burstRules buffer ↔
    ∃ b ∈ bufferBursts x burstRules buffer, ∃ m ∈ b.members, m.bufIdx = i := by
  simp [suppressed]

theorem mem_bufferOps_line {text : String} {offset : ℕ} :
    BufferOp.line text offset ∈ bufferOps x burstRules buffer ↔
      ∃ i, buffer[i]? = some (text, offset) ∧ i ∉ suppressed x burstRules buffer := by
  simp only [bufferOps, List.mem_append, List.mem_map, reduceCtorEq, and_false, exists_false, false_or,
    List.mem_filter, decide_eq_true_eq, BufferOp.line.injEq]
  constructor
  · rintro ⟨⟨⟨l, o⟩, i⟩, ⟨hm, hi⟩, rfl, rfl⟩
    exact ⟨i, List.mem_zipIdx_iff_getElem?.mp hm, hi⟩
  · rintro ⟨i, hb, hi⟩
    exact ⟨((text, offset), i), ⟨List.mem_zipIdx_iff_getElem?.mpr hb, hi⟩, rfl, rfl⟩

theorem mem_buffer_of_covers {rules : List CompiledRemoteRule} {op : BufferOp}
    (hop : op ∈ bufferOps x burstRules buffer) {l : String × ℕ} (hl : BufferOp.Covers x rules op l) :
    l ∈ buffer := by
  cases op with
  | summary b =>
    obtain ⟨m, hm, rfl⟩ := List.mem_map.mp hl
    have hme := source_mem_of_member (mem_bufferOps_summary.mp hop) hm
    exact List.mem_of_getElem? (mem_entries.mp hme).1
  | line text offset =>
    obtain ⟨i, hi, -⟩ := mem_bufferOps_line.mp hop
    obtain ⟨rfl, -⟩ := hl
    exact List.mem_of_getElem? hi

theorem getElem?_of_member {b : Burst Entry} (hb : b ∈ bufferBursts x burstRules buffer) {m : Entry}
    (hm : m ∈ b.members) : buffer[m.bufIdx]? = some (m.line, m.offset) :=
  (mem_entries.mp (source_mem_of_member hb hm)).1

/-- Entries of the buffer at one place are one. -/
theorem entry_unique {m m' : Entry} (hm : m ∈ entries x buffer) (hm' : m' ∈ entries x buffer)
    (hidx : m.bufIdx = m'.bufIdx) : m = m' := by
  obtain ⟨hb, hp⟩ := mem_entries.mp hm
  obtain ⟨hb', hp'⟩ := mem_entries.mp hm'
  rw [← hidx, hb] at hb'
  obtain ⟨hline, hoffset⟩ := Prod.mk.inj (Option.some.inj hb')
  rw [← hline, hp] at hp'
  rcases m with ⟨i, line, offset, log⟩
  rcases m' with ⟨i', line', offset', log'⟩
  simp_all

section Ordered
variable (hord : buffer.Pairwise fun a b => a.2 < b.2)
include hord

theorem idx_eq_of_offset {i j offset : ℕ} {text text' : String}
    (hi : buffer[i]? = some (text, offset)) (hj : buffer[j]? = some (text', offset)) : i = j := by
  obtain ⟨hilt, hi⟩ := List.getElem?_eq_some_iff.mp hi
  obtain ⟨hjlt, hj⟩ := List.getElem?_eq_some_iff.mp hj
  have hpair := List.pairwise_iff_getElem.mp hord
  rcases Nat.lt_trichotomy i j with hlt | heq | hlt
  · have := hpair i j hilt hjlt hlt
    rw [hi, hj] at this
    omega
  · exact heq
  · have := hpair j i hjlt hilt hlt
    rw [hi, hj] at this
    omega

/-- The text of a summary's key is on no line of the buffer at that offset. -/
theorem ne_syntheticLine {b : Burst Entry} (hb : b ∈ bufferBursts x burstRules buffer) {i : ℕ}
    {text : String} (hi : buffer[i]? = some (text, b.anchor.offset)) (ruleId : String) (size : ℕ) :
    syntheticLine b.anchor.line ruleId size ≠ text := by
  have ha := getElem?_of_member hb (burstIn_of_mem hb).anchor_mem
  obtain rfl := idx_eq_of_offset hord hi ha
  obtain rfl : text = b.anchor.line := (Prod.mk.inj (Option.some.inj (hi.symm.trans ha))).1
  exact syntheticLine_ne _ _ _

end Ordered

end Cover

end StarStats.Client.Ingest
