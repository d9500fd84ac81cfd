import StarStats.Client.BurstRules
import StarStats.Client.Ingest
import StarStats.Client.Reading

/-! # Summaries that are not stored

`process_buffer` sets the members of all bursts aside before it stores a summary, and when the insert
of a summary fails it goes on with the next. The members of that burst are then stored neither way,
while the drain moves the cursor past them (`represented_iff`). -/

namespace StarStats.Client.SummaryFaults

open StarStats.Lib.Tables StarStats.Lib.Lines
open StarStats.Core.Events StarStats.Core.Crates StarStats.Core.Parser StarStats.Core.ParserDefs
open StarStats.Core.Templates StarStats.Core.Bursts
open StarStats.Client.Store StarStats.Client.Gamelog StarStats.Client.Ingest
open StarStats.Client.BurstRules StarStats.Client.Reading

/-! ### Steps that may fail -/

/-- Is the step done? Of the summaries, the insert of the `i`-th one may fail. -/
def isDone (fails : ℕ → Bool) : BufferOp × ℕ → Bool
  | (.summary _, i) => !fails i
  | (.line _ _, _) => true

section Defs
variable (x : Externals) (rules : List CompiledRemoteRule) (burstRules : List BurstRule)
  (fails : ℕ → Bool)

/-- A summary whose insert fails is passed over. -/
def tryOp (logSource : String) (s : Sink) (op : BufferOp × ℕ) : Sink :=
  if isDone fails op then op.1.run x rules logSource s else s

/-- `processBuffer`, where inserts of summaries may fail. -/
def processBufferFailing (logSource : String) (buffer : List (String × ℕ)) (s : Sink) : Sink :=
  (bufferOps x burstRules buffer).zipIdx.foldl (tryOp x rules fails logSource) s

/-- `processRead`, where inserts of summaries may fail. -/
def processReadFailing (path : Path) (buffer : List (String × ℕ)) (offset : ℕ) (s : Sink) : Sink :=
  if buffer = [] then s
  else
    let s := processBufferFailing x rules burstRules fails (logSourceFromPath path) buffer s
    { s with stats := { s.stats with
        bytesRead := offset, linesProcessed := s.stats.linesProcessed + buffer.length } }

/-- `drain`, where inserts of summaries may fail. -/
def drainFailing (path : Path) (file : List UInt8) (io : Io) (t : Tail) : Drained :=
  match readPending file io t.offset with
  | .stop offset ok => ⟨⟨t.sink, offset⟩, [], ok⟩
  | .lines buffer offset =>
    let s := processReadFailing x rules burstRules fails path buffer offset t.sink
    if io.writeCursorFails then ⟨⟨s, offset⟩, buffer, false⟩
    else ⟨⟨⟨s.storage.writeCursor path offset, s.stats⟩, offset⟩, buffer, true⟩

/-- The steps that are done. -/
def doneOps (buffer : List (String × ℕ)) : List BufferOp :=
  ((bufferOps x burstRules buffer).zipIdx.filter (isDone fails)).map (·.1)

end Defs

section Steps
variable {x : Externals} {rules : List CompiledRemoteRule} {burstRules : List BurstRule}
  {fails : ℕ → Bool}

theorem processBufferFailing_eq (logSource : String) (buffer : List (String × ℕ)) (s : Sink) :
    processBufferFailing x rules burstRules fails logSource buffer s =
      (doneOps x burstRules fails buffer).foldl (BufferOp.run x rules logSource) s := by
  unfold processBufferFailing doneOps
  rw [List.foldl_map, List.foldl_filter]
  rfl

/-- Without a failure every step is done. -/
theorem processBufferFailing_of_not (logSource : String) (buffer : List (String × ℕ)) (s : Sink) :
    processBufferFailing x rules burstRules (fun _ => false) logSource buffer s =
      processBuffer x rules burstRules logSource buffer s := by
  have hall : (bufferOps x burstRules buffer).zipIdx.filter (isDone fun _ => false) =
      (bufferOps x burstRules buffer).zipIdx :=
    List.filter_eq_self.mpr fun op _ => by rcases op with ⟨_ | _, i⟩ <;> rfl
  rw [processBufferFailing_eq, doneOps, hall, List.zipIdx_map_fst]
  rfl

theorem drainFailing_of_not (path : Path) (file : List UInt8) (io : Io) (t : Tail) :
    drainFailing x rules burstRules (fun _ => false) path file io t =
      drain x rules burstRules path file io t := by
  simp only [drainFailing, processReadFailing, processBufferFailing_of_not]
  rfl

theorem mem_doneOps {buffer : List (String × ℕ)} {op : BufferOp} :
    op ∈ doneOps x burstRules fails buffer ↔
      ∃ i, (bufferOps x burstRules buffer)[i]? = some op ∧ isDone fails (op, i) := by
  simp only [doneOps, List.mem_map, List.mem_filter, Prod.exists, exists_and_right, exists_eq_right,
    List.mem_zipIdx_iff_getElem?]

theorem mem_doneOps_line {buffer : List (String × ℕ)} {text : String} {offset : ℕ} :
    BufferOp.line text offset ∈ doneOps x burstRules fails buffer ↔
      BufferOp.line text offset ∈ bufferOps x burstRules buffer := by
  rw [mem_doneOps, List.mem_iff_getElem?]
  exact ⟨fun ⟨i, hi, _⟩ => ⟨i, hi⟩, fun ⟨i, hi⟩ => ⟨i, hi, rfl⟩⟩

/-- The summaries are the first steps, in the order of the bursts. -/
theorem getElem?_bufferOps_summary {buffer : List (String × ℕ)} {i : ℕ} {b : Burst Entry} :
    (bufferOps x burstRules buffer)[i]? = some (.summary b) ↔
      (bufferBursts x burstRules buffer)[i]? = some b := by
  unfold bufferOps
  by_cases hi : i < (bufferBursts x burstRules buffer).length
  · rw [List.getElem?_append_left (by simpa using hi), List.getElem?_map, Option.map_eq_some_iff]
    simp
  · have hlen := Nat.le_of_not_lt hi
    rw [List.getElem?_append_right (by simpa using hlen), List.getElem?_map,
      List.getElem?_eq_none hlen]
    simp

theorem mem_doneOps_summary {buffer : List (String × ℕ)} {b : Burst Entry} :
    BufferOp.summary b ∈ doneOps x burstRules fails buffer ↔
      ∃ i, (bufferBursts x burstRules buffer)[i]? = some b ∧ fails i = false := by
  rw [mem_doneOps]
  simp [getElem?_bufferOps_summary, isDone]

end Steps

/-! ### Statement -/

section Statement
variable (x : Externals) (rules : List CompiledRemoteRule) (burstRules : List BurstRule)
  (logSource : String) (buffer : List (String × ℕ))

/-- The line at a place of the buffer is stored, or a summary of a burst that it is a member of. -/
def Represented (st : Storage) (i : ℕ) (l : String × ℕ) : Prop :=
  idempotencyKey x logSource l.2 l.1 ∈ st.events.keys ∨
    ∃ b ∈ bufferBursts x burstRules buffer, (∃ m ∈ b.members, m.bufIdx = i) ∧
      summaryKey x logSource b ∈ st.events.keys

/-- Every line of the buffer that is recognised is represented in the store. -/
def AllRepresented (st : Storage) : Prop :=
  ∀ i l, buffer[i]? = some l → (recognise x rules l.1).isSome →
    Represented x burstRules logSource buffer st i l

/-- The row under a key is there before, or a step that is done inserts it. -/
def Given (fails : ℕ → Bool) (st : Storage) (key : String) : Prop :=
  key ∈ st.events.keys ∨ ∃ op ∈ doneOps x burstRules fails buffer,
    ∃ r, BufferOp.row x rules logSource op = some r ∧ r.idempotencyKey = key

/-- Where the insert of a summary fails, the rows of the recognised members or that of the summary
are there anyway. -/
def NoneVanishes (fails : ℕ → Bool) (there : String → Prop) : Prop :=
  ∀ i b, (bufferBursts x burstRules buffer)[i]? = some b → fails i = true →
    ∀ m ∈ b.members, (recognise x rules m.line).isSome →
      there (idempotencyKey x logSource m.offset m.line) ∨ there (summaryKey x logSource b)

end Statement

section Buffer
variable {x : Externals} {rules : List CompiledRemoteRule} {burstRules : List BurstRule}
  {fails : ℕ → Bool} {logSource : String} {buffer : List (String × ℕ)}

theorem mem_keys_processBufferFailing {s : Sink} {key : String} :
    key ∈ (processBufferFailing x rules burstRules fails logSource buffer s).storage.events.keys ↔
      Given x rules burstRules logSource buffer fails s.storage key := by
  rw [processBufferFailing_eq, events_foldl_run, Table.mem_keys_insertAll]
  simp only [List.mem_filterMap, Given]
  refine or_congr_right ⟨?_, ?_⟩
  · rintro ⟨r, ⟨op, hop, hr⟩, hk⟩
    exact ⟨op, hop, r, hr, hk⟩
  · rintro ⟨op, hop, r, hr, hk⟩
    exact ⟨r, ⟨op, hop, hr⟩, hk⟩

/-- **In any buffer, the recognised lines are represented exactly if no member of a burst vanishes
with its summary.** -/
theorem allRepresented_processBufferFailing_iff (s : Sink) :
    AllRepresented x rules burstRules logSource buffer
        (processBufferFailing x rules burstRules fails logSource buffer s).storage ↔
      NoneVanishes x rules burstRules logSource buffer fails
        (Given x rules burstRules logSource buffer fails s.storage) := by
  constructor
  · intro hall i b hi hfails m hm hrec
    have hb := List.mem_of_getElem? hi
    rcases hall m.bufIdx (m.line, m.offset) (getElem?_of_member hb hm) hrec with
      hown | ⟨b', hb', ⟨m', hm', hidx⟩, hsum⟩
    · exact Or.inl (mem_keys_processBufferFailing.mp hown)
    · have hmm : m' = m :=
        entry_unique (source_mem_of_member hb' hm') (source_mem_of_member hb hm) hidx
      obtain rfl := burst_unique hb hb' hm (hmm ▸ hm')
      exact Or.inr (mem_keys_processBufferFailing.mp hsum)
  · intro hnone i l hi hrec
    by_cases hsup : i ∈ suppressed x burstRules buffer
    · obtain ⟨b, hb, m, hm, rfl⟩ := mem_suppressed.mp hsup
      obtain rfl : l = (m.line, m.offset) :=
        Option.some.inj (hi.symm.trans (getElem?_of_member hb hm))
      have hsummary : Given x rules burstRules logSource buffer fails s.storage
          (summaryKey x logSource b) → Represented x burstRules logSource buffer
            (processBufferFailing x rules burstRules fails logSource buffer s).storage m.bufIdx
            (m.line, m.offset) := fun h =>
        Or.inr ⟨b, hb, ⟨m, hm, rfl⟩, mem_keys_processBufferFailing.mpr h⟩
      obtain ⟨j, hj⟩ := List.mem_iff_getElem?.mp hb
      by_cases hfails : fails j = true
      · rcases hnone j b hj hfails m hm hrec with hown | hsum
        · exact Or.inl (mem_keys_processBufferFailing.mpr hown)
        · exact hsummary hsum
      · have hdone := mem_doneOps_summary.mpr ⟨j, hj, Bool.eq_false_iff.mpr hfails⟩
        exact hsummary (Or.inr ⟨_, hdone, _, rfl, rfl⟩)
    · obtain ⟨r, hr⟩ := @exists_lineRow x rules logSource l.2 l.1 hrec
      have hop : BufferOp.line l.1 l.2 ∈ doneOps x burstRules fails buffer :=
        mem_doneOps_line.mpr (mem_bufferOps_line.mpr ⟨i, hi, hsup⟩)
      exact Or.inl (mem_keys_processBufferFailing.mpr
        (Or.inr ⟨_, hop, r, hr, (lineRow_eq_some hr).2⟩))

/-! ### Lines at growing offsets -/

section Ordered
variable (hord : buffer.Pairwise fun a b => a.2 < b.2)
include hord

/-- Nothing else in the buffer gives the row of a member. -/
theorem given_member_iff {b : Burst Entry} (hb : b ∈ bufferBursts x burstRules buffer) {m : Entry}
    (hm : m ∈ b.members) {st : Storage} :
    Given x rules burstRules logSource buffer fails st (idempotencyKey x logSource m.offset m.line) ↔
      idempotencyKey x logSource m.offset m.line ∈ st.events.keys := by
  refine or_iff_left ?_
  have hmidx := getElem?_of_member hb hm
  rintro ⟨op, hop, r, hr, hkey⟩
  cases op with
  | line text offset =>
    obtain ⟨rfl, rfl⟩ := idempotencyKey_inj ((lineRow_eq_some hr).2.symm.trans hkey)
    obtain ⟨i, hi, hnot⟩ := mem_bufferOps_line.mp (mem_doneOps_line.mp hop)
    have hidx := idx_eq_of_offset hord hi hmidx
    exact hnot (mem_suppressed.mpr ⟨b, hb, m, hm, hidx.symm⟩)
  | summary b' =>
    obtain ⟨j, hj, -⟩ := mem_doneOps_summary.mp hop
    obtain rfl := Option.some.inj hr
    obtain ⟨hoffset, hline⟩ := idempotencyKey_inj hkey
    rw [← hoffset] at hmidx
    exact ne_syntheticLine hord (List.mem_of_getElem? hj) hmidx _ _ hline

/-- Nothing else in the buffer gives the row of a summary. -/
theorem given_summary_iff {b : Burst Entry} {i : ℕ}
    (hi : (bufferBursts x burstRules buffer)[i]? = some b) (hfails : fails i = true) {st : Storage} :
    Given x rules burstRules logSource buffer fails st (summaryKey x logSource b) ↔
      summaryKey x logSource b ∈ st.events.keys := by
  refine or_iff_left ?_
  have hb := List.mem_of_getElem? hi
  have hanchor := (burstIn_of_mem hb).anchor_mem
  rintro ⟨op, hop, r, hr, hkey⟩
  cases op with
  | line text offset =>
    obtain ⟨hoffset, hline⟩ := idempotencyKey_inj ((lineRow_eq_some hr).2.symm.trans hkey)
    obtain ⟨k, hk, -⟩ := mem_bufferOps_line.mp (mem_doneOps_line.mp hop)
    rw [hoffset] at hk
    exact ne_syntheticLine hord hb hk _ _ hline.symm
  | summary b' =>
    obtain ⟨j, hj, hdone⟩ := mem_doneOps_summary.mp hop
    have hb' := List.mem_of_getElem? hj
    have hanchor' := (burstIn_of_mem hb').anchor_mem
    obtain rfl := Option.some.inj hr
    have hoffset : b'.anchor.offset = b.anchor.offset := (idempotencyKey_inj hkey).1
    have hidx : b'.anchor.bufIdx = b.anchor.bufIdx :=
      idx_eq_of_offset hord (getElem?_of_member hb' hanchor')
        (hoffset ▸ getElem?_of_member hb hanchor)
    have heq : b'.anchor = b.anchor :=
      entry_unique (source_mem_of_member hb' hanchor') (source_mem_of_member hb hanchor) hidx
    obtain rfl := burst_unique hb' hb hanchor' (heq ▸ hanchor)
    have hij : i = j := (List.getElem?_inj (List.getElem?_eq_some_iff.mp hi).1
      (nodup_burstsOf entries_nodup)).mp (hi.trans hj.symm)
    rw [hij, hdone] at hfails
    exact absurd hfails Bool.false_ne_true

theorem noneVanishes_iff_of_ordered {st : Storage} :
    NoneVanishes x rules burstRules logSource buffer fails
        (Given x rules burstRules logSource buffer fails st) ↔
      NoneVanishes x rules burstRules logSource buffer fails (· ∈ st.events.keys) := by
  refine forall₄_congr fun i b hi hfails => forall₃_congr fun m hm _ => ?_
  rw [given_member_iff hord (List.mem_of_getElem? hi) hm, given_summary_iff hord hi hfails]

end Ordered

end Buffer

/-! ### Drains -/

/-- Nothing can go wrong with no lines. -/
theorem allRepresented_nil_iff (x : Externals) (rules : List CompiledRemoteRule)
    (burstRules : List BurstRule) (fails : ℕ → Bool) (logSource : String) (st : Storage)
    (there : String → Prop) :
    AllRepresented x rules burstRules logSource [] st ↔
      NoneVanishes x rules burstRules logSource [] fails there := by
  refine iff_of_true (fun i l hi => by simp at hi) fun i b hi _ m hm _ => ?_
  have := getElem?_of_member (List.mem_of_getElem? hi) hm
  simp at this

/-- What a drain has done, by what it has read. -/
theorem drainFailing_spec (x : Externals) (rules : List CompiledRemoteRule)
    (burstRules : List BurstRule) (fails : ℕ → Bool) (path : Path) (file : List UInt8) (io : Io)
    (t : Tail) :
    (drainFailing x rules burstRules fails path file io t).handed = [] ∨
      ∃ buffer offset, readPending file io t.offset = .lines buffer offset ∧
        (drainFailing x rules burstRules fails path file io t).handed = buffer ∧
        (drainFailing x rules burstRules fails path file io t).tail.offset = offset ∧
        (drainFailing x rules burstRules fails path file io t).tail.sink.storage.events =
          (processBufferFailing x rules burstRules fails (logSourceFromPath path) buffer
            t.sink).storage.events := by
  unfold drainFailing
  cases hread : readPending file io t.offset with
  | stop offset ok => exact Or.inl rfl
  | lines buffer offset =>
    by_cases hnil : buffer = []
    · left
      subst hnil
      simp only
      split_ifs <;> rfl
    · right
      refine ⟨buffer, offset, rfl, ?_⟩
      simp only [processReadFailing, if_neg hnil]
      split_ifs <;> exact ⟨rfl, rfl, rfl⟩

/-- **No recognised line is lost exactly if none vanishes with a summary that is not stored**, in a
buffer as in a drain, which ends behind the lines it has handed over. -/
theorem represented_iff (x : Externals) (rules : List CompiledRemoteRule)
    (burstRules : List BurstRule) (fails : ℕ → Bool) :
    (∀ (logSource : String) (buffer : List (String × ℕ)) (s : Sink),
      AllRepresented x rules burstRules logSource buffer
          (processBufferFailing x rules burstRules fails logSource buffer s).storage ↔
        NoneVanishes x rules burstRules logSource buffer fails
          (Given x rules burstRules logSource buffer fails s.storage)) ∧
    ∀ (path : Path) (file : List UInt8) (io : Io) (t : Tail),
      let d := drainFailing x rules burstRules fails path file io t
      (∀ l ∈ d.handed, l.2 < d.tail.offset) ∧
        (AllRepresented x rules burstRules (logSourceFromPath path) d.handed d.tail.sink.storage ↔
          NoneVanishes x rules burstRules (logSourceFromPath path) d.handed fails
            (· ∈ t.sink.storage.events.keys)) := by
  refine ⟨fun logSource buffer s => allRepresented_processBufferFailing_iff s,
    fun path file io t => ?_⟩
  intro d
  rcases drainFailing_spec x rules burstRules fails path file io t with
    hnil | ⟨buffer, offset, hread, hhanded, hoffset, hevents⟩
  · rw [show d.handed = [] from hnil]
    exact ⟨fun l hl => absurd hl List.not_mem_nil, allRepresented_nil_iff x rules burstRules _ _ _ _⟩
  · obtain ⟨hord, hlt⟩ := ordered_of_readPending hread
    rw [show d.handed = buffer from hhanded, show d.tail.offset = offset from hoffset]
    refine ⟨hlt, ?_⟩
    rw [← noneVanishes_iff_of_ordered hord, ← allRepresented_processBufferFailing_iff t.sink]
    simp only [AllRepresented, Represented]
    rw [show d.tail.sink.storage.events = _ from hevents]

/-! ### Three notifications -/

/-- Three notifications, one behind the other. -/
def notifiedBuffer : List (String × ℕ) := [(notifiedLine, 0), (notifiedLine, 58), (notifiedLine, 116)]

/-- They are one burst; when its summary is not stored, nothing is. -/
theorem not_allRepresented_notified :
    ¬ AllRepresented .std [] builtinBurstRules "live" notifiedBuffer
      (processBufferFailing .std [] builtinBurstRules (fun _ => true) "live" notifiedBuffer
        ⟨.fresh [] "", .zero⟩).storage := by
  intro hall
  have hkeys : (processBufferFailing .std [] builtinBurstRules (fun _ => true) "live" notifiedBuffer
      ⟨.fresh [] "", .zero⟩).storage.events.keys = [] := by decide +kernel
  have hrec : (recognise .std [] notifiedLine).isSome := by
    rw [recognise_notifiedLine]
    rfl
  have hrep := hall 0 (notifiedLine, 0) rfl hrec
  unfold Represented at hrep
  rw [hkeys] at hrep
  rcases hrep with hown | ⟨b, -, -, hsum⟩
  · exact absurd hown List.not_mem_nil
  · exact absurd hsum List.not_mem_nil

end StarStats.Client.SummaryFaults
