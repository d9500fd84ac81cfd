import Mathlib.Data.List.Dedup
import StarStats.Client.ReparsePhases

/-! # Collapsing bursts of stored lines

What the third phase of a re-parse does. Each source is scanned on its own, and the summary of every
burst found takes the place of its members. The bursts are those there are before the phase begins,
as neither the summaries nor the members of one source are lines of another (`collapseBursts_spec`).

A summary is inserted unless its key is in use; `held` are the keys in use after some bursts, and
`AnchorsHeld` says that no summary is inserted whose line is recognised. `Collapsed` relates the store
after some bursts to the one before. -/

namespace StarStats.Client.RetroBursts

open StarStats.Lib.Tables
open StarStats.Core.Crates StarStats.Core.Parser StarStats.Core.ParserDefs StarStats.Core.Bursts
open StarStats.Client.Store StarStats.Client.Gamelog StarStats.Client.Ingest
open StarStats.Client.BurstRules StarStats.Client.Reparse StarStats.Client.ReparsePhases

section
variable {x : Externals} {rules : List CompiledRemoteRule}

/-! ### One burst -/

variable (x) in
/-- The summary of a burst of stored lines. -/
def retroRow (source : String) (b : Burst ScanEntry) : EventRow :=
  ⟨idempotencyKey x source b.anchor.sourceOffset (syntheticLine b.anchor.rawLine b.ruleId b.size),
    "burst_summary", b.anchor.log.timestamp, b.anchor.rawLine,
    (summaryEvent b.ruleId b.size b.anchor.log b.last.log).toValue.render, source,
    b.anchor.sourceOffset⟩

/-- The rows that bursts are made of. -/
def memberIds (ps : List (String × Burst ScanEntry)) : List ℕ :=
  ps.flatMap fun p => p.2.members.map (·.id)

variable (x) in
/-- A burst, put in the place of its members. -/
def storeBurst (t : Events) (p : String × Burst ScanEntry) : Events :=
  (t.insert (retroRow x p.1 p.2)).deleteAll (p.2.members.map (·.id))

theorem foldl_deleteMember : ∀ (ids : List ℕ) (s : Storage × ReparseStats), ∃ m,
    ids.foldl deleteMember s =
      ({ s.1 with events := s.1.events.deleteAll ids }, { s.2 with membersSuppressed := m })
  | [], s => ⟨s.2.membersSuppressed, rfl⟩
  | i :: ids, s => by
    obtain ⟨m, h⟩ := foldl_deleteMember ids (deleteMember s i)
    exact ⟨m, h⟩

theorem collapseBurst_spec (source : String) (s : Storage × ReparseStats) (b : Burst ScanEntry) :
    ∃ m, collapseBurst x source s b =
      ({ s.1 with events := storeBurst x s.1.events (source, b) },
        { s.2 with burstsCollapsed := s.2.burstsCollapsed + 1, membersSuppressed := m }) := by
  obtain ⟨m, h⟩ := foldl_deleteMember (b.members.map (·.id))
    (s.1.insertEvent (retroRow x source b), s.2)
  exact ⟨m, by rw [collapseBurst, summaryRow_eq]; simp only; rw [← retroRow, h]; rfl⟩

theorem foldl_collapseBurst_spec (source : String) : ∀ (bs : List (Burst ScanEntry))
    (s : Storage × ReparseStats), ∃ m, bs.foldl (collapseBurst x source) s =
      ({ s.1 with events := (bs.map (source, ·)).foldl (storeBurst x) s.1.events },
        { s.2 with burstsCollapsed := s.2.burstsCollapsed + bs.length, membersSuppressed := m }) ∧
      (bs = [] → m = s.2.membersSuppressed)
  | [], s => ⟨s.2.membersSuppressed, rfl, fun _ => rfl⟩
  | b :: bs, s => by
    obtain ⟨m₁, h₁⟩ := collapseBurst_spec (x := x) source s b
    obtain ⟨m, h, -⟩ := foldl_collapseBurst_spec source bs (collapseBurst x source s b)
    refine ⟨m, ?_, by simp⟩
    rw [List.foldl_cons, h, h₁]
    simp only [List.map_cons, List.foldl_cons, List.length_cons, Nat.add_assoc, Nat.add_comm 1]

/-! ### What is scanned -/

variable (x rules) in
/-- A line of a source as the scan sees it. Summaries are skipped; a row whose line is recognised is no
summary at this point, whatever it was before. -/
def entryFor (source : String) (a : ℕ × EventRow) : Option ScanEntry :=
  if a.2.logSource = source ∧ (a.2.eventType = "burst_summary" → (eventOf x rules a.2).isSome) then
    (structuralParse x a.2.rawLine).map fun log => ⟨a.1, a.2.rawLine, a.2.sourceOffset, log⟩
  else none

variable (x rules) in
/-- The lines of a source that are scanned. -/
def scanned (t : Events) (source : String) : List ScanEntry :=
  sortBy ScanEntry.sourceOffset (t.rows.filterMap (entryFor x rules source))

variable (x rules) in
/-- The bursts among the stored lines of a source. -/
def burstsIn (t : Events) (source : String) : List (Burst ScanEntry) :=
  burstsOf ScanEntry.log (scanned x rules t source) builtinBurstRules

/-- The logs of the rows, each once. -/
def logSources (t : Events) : List String :=
  (t.contents.map (·.logSource)).dedup.insertionSort (· ≤ ·)

variable (x rules) in
/-- The bursts of some sources, one source after another. -/
def burstsOfSources (t : Events) (sources : List String) : List (String × Burst ScanEntry) :=
  sources.flatMap fun source => (burstsIn x rules t source).map (source, ·)

variable (x rules) in
/-- All bursts among the stored lines. -/
def retroBursts (t : Events) : List (String × Burst ScanEntry) :=
  burstsOfSources x rules t (logSources t)

/-- No row of the source is a summary if its line is recognised. -/
def Classified (x : Externals) (rules : List CompiledRemoteRule) (t : Events) (source : String) :
    Prop :=
  ∀ a ∈ t.rows, a.2.logSource = source → (eventOf x rules a.2).isSome →
    a.2.eventType ≠ "burst_summary"

theorem scanEntries_eq {st : Storage} {source : String}
    (h : Classified x rules st.events source) :
    scanEntries x st source = scanned x rules st.events source := by
  unfold scanEntries Storage.eventsForBurstScan scanned
  rw [filterMap_sortBy (q := ScanEntry.sourceOffset), List.filterMap_map, List.filterMap_filter]
  · congr 1
    refine List.filterMap_congr fun a ha => ?_
    have hc := h a ha
    simp only [Function.comp, scanEntry, entryFor]
    by_cases hs : a.2.logSource = source <;> by_cases ht : a.2.eventType = "burst_summary" <;>
      simp_all
  · intro r e he
    unfold scanEntry at he
    split_ifs at he
    obtain ⟨log, -, rfl⟩ := Option.map_eq_some_iff.mp he
    rfl

theorem three_le_size {items : List ScanEntry} {b : Burst ScanEntry}
    (hb : b ∈ burstsOf ScanEntry.log items builtinBurstRules) : 3 ≤ b.size := by
  obtain ⟨rule, hrule, -, hle, -⟩ := (burstIn_of_mem hb).matches_rule
  simp only [builtinBurstRules, List.mem_cons, List.not_mem_nil, or_false] at hrule
  rcases hrule with rfl | rfl | rfl | rfl <;> simp only [eventNameRule] at hle <;> omega

theorem burstsOf_eq_nil_of_length_lt {items : List ScanEntry} (h : items.length < 2) :
    burstsOf ScanEntry.log items builtinBurstRules = [] := by
  refine List.eq_nil_iff_forall_not_mem.mpr fun b hb => ?_
  have := three_le_size hb
  have := size_le_length hb
  omega

theorem collapseSource_spec {s : Storage × ReparseStats} {source : String}
    (h : Classified x rules s.1.events source) :
    ∃ m, collapseSource x s source =
      ({ s.1 with
          events := ((burstsIn x rules s.1.events source).map (source, ·)).foldl (storeBurst x)
            s.1.events },
        { s.2 with
          burstsCollapsed := s.2.burstsCollapsed + (burstsIn x rules s.1.events source).length
          membersSuppressed := m }) ∧
      (burstsIn x rules s.1.events source = [] → m = s.2.membersSuppressed) := by
  rw [collapseSource, scanEntries_eq h]
  simp only
  split_ifs with hlen
  · rw [burstsIn, burstsOf_eq_nil_of_length_lt hlen]
    exact ⟨s.2.membersSuppressed, rfl, fun _ => rfl⟩
  · exact foldl_collapseBurst_spec source (burstsIn x rules s.1.events source) s

/-! ### The members -/

/-- An entry is made of a row of its source, and of the parts of its line. -/
theorem entryFor_eq_some {source : String} {a : ℕ × EventRow} {m : ScanEntry}
    (h : entryFor x rules source a = some m) :
    a.2.logSource = source ∧ m = ⟨a.1, a.2.rawLine, a.2.sourceOffset, m.log⟩ ∧
      structuralParse x a.2.rawLine = some m.log := by
  unfold entryFor at h
  split_ifs at h with hs
  obtain ⟨log, hlog, rfl⟩ := Option.map_eq_some_iff.mp h
  exact ⟨hs.1, rfl, hlog⟩

theorem id_of_entryFor {source : String} {a : ℕ × EventRow} {m : ScanEntry}
    (h : entryFor x rules source a = some m) : m.id = a.1 := by
  rw [(entryFor_eq_some h).2.1]

theorem exists_row_of_mem_scanned {t : Events} {source : String} {m : ScanEntry}
    (h : m ∈ scanned x rules t source) :
    ∃ a ∈ t.rows, a.1 = m.id ∧ entryFor x rules source a = some m := by
  obtain ⟨a, ha, he⟩ := List.mem_filterMap.mp (mem_sortBy.mp h)
  exact ⟨a, ha, (id_of_entryFor he).symm, he⟩

theorem map_id_scanned_nodup (t : Events) (source : String) :
    ((scanned x rules t source).map (·.id)).Nodup := by
  refine ((perm_sortBy _ _).map _).nodup_iff.mpr (t.ids_nodup.sublist ?_)
  induction t.rows with
  | nil => exact List.Sublist.refl _
  | cons a rows ih =>
    cases he : entryFor x rules source a with
    | none =>
      rw [List.filterMap_cons_none he, List.map_cons]
      exact ih.cons _
    | some m =>
      rw [List.filterMap_cons_some he, List.map_cons, List.map_cons, id_of_entryFor he]
      exact ih.cons_cons _

theorem memberIds_append (ps qs : List (String × Burst ScanEntry)) :
    memberIds (ps ++ qs) = memberIds ps ++ memberIds qs := List.flatMap_append

theorem mem_memberIds {ps : List (String × Burst ScanEntry)} {i : ℕ} :
    i ∈ memberIds ps ↔ ∃ p ∈ ps, ∃ m ∈ p.2.members, m.id = i := by
  simp [memberIds]

theorem exists_row_of_mem_memberIds {t : Events} {sources : List String} {i : ℕ}
    (h : i ∈ memberIds (burstsOfSources x rules t sources)) :
    ∃ a ∈ t.rows, a.1 = i ∧ a.2.logSource ∈ sources := by
  obtain ⟨p, hp, m, hm, rfl⟩ := mem_memberIds.mp h
  obtain ⟨source, hsource, hp⟩ := List.mem_flatMap.mp hp
  obtain ⟨b, hb, rfl⟩ := List.mem_map.mp hp
  obtain ⟨a, ha, hid, he⟩ := exists_row_of_mem_scanned (mem_of_mem_members hb hm)
  exact ⟨a, ha, hid, (entryFor_eq_some he).1 ▸ hsource⟩

/-- A row whose id is that of a member is the member of a burst of its source. -/
theorem exists_member {t : Events} {sources : List String} {a : ℕ × EventRow} (ha : a ∈ t.rows)
    (hi : a.1 ∈ memberIds (burstsOfSources x rules t sources)) :
    ∃ source ∈ sources, ∃ b ∈ burstsIn x rules t source, ∃ m ∈ b.members,
      entryFor x rules source a = some m := by
  obtain ⟨p, hp, m, hm, hid⟩ := mem_memberIds.mp hi
  obtain ⟨source, hsource, hp⟩ := List.mem_flatMap.mp hp
  obtain ⟨b, hb, rfl⟩ := List.mem_map.mp hp
  obtain ⟨c, hc, hcid, he⟩ := exists_row_of_mem_scanned (mem_of_mem_members hb hm)
  obtain rfl := Table.eq_of_id_eq hc ha (hcid.trans hid)
  exact ⟨source, hsource, b, hb, m, hm, he⟩

/-- **No row is a member twice**, within one source or across them. -/
theorem memberIds_nodup (t : Events) : ∀ {sources : List String}, sources.Nodup →
    (memberIds (burstsOfSources x rules t sources)).Nodup
  | [], _ => List.nodup_nil
  | source :: sources, h => by
    obtain ⟨hnot, h⟩ := List.nodup_cons.mp h
    rw [burstsOfSources, List.flatMap_cons, ← burstsOfSources, memberIds_append]
    refine List.nodup_append.mpr ⟨?_, memberIds_nodup t h, ?_⟩
    · have hmap : memberIds ((burstsIn x rules t source).map (source, ·)) =
          ((burstsIn x rules t source).flatMap (·.members)).map (·.id) := by
        simp [memberIds, List.flatMap_map, List.map_flatMap]
      obtain ⟨l, hperm, hsub⟩ := burstsOf_subperm ScanEntry.log (scanned x rules t source)
        builtinBurstRules
      rw [hmap, burstsIn]
      exact (hperm.map _).nodup_iff.mp ((map_id_scanned_nodup t source).sublist (hsub.map _))
    · rintro i hi j hj rfl
      have hone : burstsOfSources x rules t [source] =
          (burstsIn x rules t source).map (source, ·) := by simp [burstsOfSources]
      rw [← hone] at hi
      obtain ⟨a, ha, hai, has⟩ := exists_row_of_mem_memberIds hi
      obtain ⟨b, hb, hbi, hbs⟩ := exists_row_of_mem_memberIds hj
      have := Table.eq_of_id_eq ha hb (hai.trans hbi.symm)
      subst this
      exact hnot (List.mem_singleton.mp has ▸ hbs)

theorem nodup_logSources (t : Events) : (logSources t).Nodup :=
  (List.perm_insertionSort _ _).nodup_iff.mpr (List.nodup_dedup _)

theorem mem_logSources {t : Events} {source : String} :
    source ∈ logSources t ↔ ∃ a ∈ t.rows, a.2.logSource = source := by
  simp [logSources, List.mem_dedup, Table.contents]

/-! ### The store after some bursts -/

/-- The keys of the members of a burst. -/
def memberKeys (t : Events) (p : String × Burst ScanEntry) : List String :=
  (t.rows.filter fun a => a.1 ∈ p.2.members.map (·.id)).map fun a => a.2.idempotencyKey

variable (x) in
/-- The keys in use after some bursts: those in use before, and those of the summaries, less those of
the members. -/
def held (t : Events) (ps : List (String × Burst ScanEntry)) : List String :=
  ps.foldl (fun ks p => ((retroRow x p.1 p.2).idempotencyKey :: ks).filter (· ∉ memberKeys t p))
    t.keys

variable (x rules) in
/-- A burst whose anchor is recognised finds the key of its summary in use. -/
def AnchorsHeld (t : Events) (ps : List (String × Burst ScanEntry)) : Prop :=
  ∀ i p, ps[i]? = some p → (recognise x rules p.2.anchor.rawLine).isSome →
    (retroRow x p.1 p.2).idempotencyKey ∈ held x t (ps.take i)

theorem held_concat (t : Events) (ps : List (String × Burst ScanEntry))
    (p : String × Burst ScanEntry) : held x t (ps ++ [p]) =
      ((retroRow x p.1 p.2).idempotencyKey :: held x t ps).filter (· ∉ memberKeys t p) := by
  rw [held, List.foldl_append]
  rfl

theorem mem_held_iff {t : Events} {k : String} (ps : List (String × Burst ScanEntry))
    (hk : ∀ p ∈ ps, k ∉ memberKeys t p) :
    k ∈ held x t ps ↔ k ∈ t.keys ∨ ∃ p ∈ ps, (retroRow x p.1 p.2).idempotencyKey = k := by
  induction ps using List.reverseRecOn with
  | nil => simp [held]
  | append_singleton ps p ih =>
    have hp := hk p (by simp)
    rw [held_concat, List.mem_filter, List.mem_cons, ih fun q hq => hk q (by simp [hq])]
    simp only [hp, not_false_eq_true, decide_true, and_true, List.mem_append, List.mem_singleton,
      or_and_right, exists_or, exists_eq_left]
    rw [or_left_comm, or_comm (a := k = _), eq_comm]

theorem anchorsHeld_concat {t : Events} {ps : List (String × Burst ScanEntry)}
    {p : String × Burst ScanEntry} : AnchorsHeld x rules t (ps ++ [p]) ↔ AnchorsHeld x rules t ps ∧
      ((recognise x rules p.2.anchor.rawLine).isSome →
        (retroRow x p.1 p.2).idempotencyKey ∈ held x t ps) := by
  constructor
  · intro h
    constructor
    · intro i q hq hrec
      have hi := (List.getElem?_eq_some_iff.mp hq).1
      have := h i q (by rw [List.getElem?_append_left hi, hq]) hrec
      rwa [List.take_append_of_le_length hi.le] at this
    · intro hrec
      have := h ps.length p (by simp) hrec
      rwa [List.take_left] at this
  · rintro ⟨h, hp⟩ i q hq hrec
    by_cases hi : i < ps.length
    · rw [List.getElem?_append_left hi] at hq
      rw [List.take_append_of_le_length hi.le]
      exact h i q hq hrec
    · have hlen := (List.getElem?_eq_some_iff.mp hq).1
      rw [List.length_append, List.length_singleton] at hlen
      obtain rfl : i = ps.length := by omega
      rw [List.getElem?_concat_length, Option.some.injEq] at hq
      subst hq
      rw [List.take_left]
      exact hp hrec

variable (x rules) in
/-- The store `u` that some bursts make of the store `t`. -/
structure Collapsed (t : Events) (ps : List (String × Burst ScanEntry)) (u : Events) : Prop where
  rows : ∃ news, u.rows = (t.rows.filter fun a => a.1 ∉ memberIds ps) ++ news ∧
    (∀ a ∈ news, t.seq < a.1 ∧ ∃ p ∈ ps, a.2 = retroRow x p.1 p.2) ∧
    ((∀ a ∈ news, eventOf x rules a.2 = none) ↔ AnchorsHeld x rules t ps)
  keys : ∀ k, k ∈ u.keys ↔ k ∈ held x t ps
  seq_le : t.seq ≤ u.seq

theorem collapsed_nil (t : Events) : Collapsed x rules t [] t where
  rows := ⟨[], by simp [memberIds], by simp, by simp [AnchorsHeld]⟩
  keys _ := Iff.rfl
  seq_le := Nat.le_refl _

theorem rows_insert_cases (t : Events) (r : EventRow) :
    ∃ new, (t.insert r).rows = t.rows ++ new ∧ (∀ a ∈ new, a = (t.seq + 1, r)) ∧
      (new = [] ↔ r.idempotencyKey ∈ t.keys) ∧ t.seq ≤ (t.insert r).seq := by
  by_cases h : r.idempotencyKey ∈ t.keys
  · exact ⟨[], by simp [Table.insert_of_mem h], by simp, by simp [h],
      by rw [Table.insert_of_mem h]⟩
  · exact ⟨[(t.seq + 1, r)], Table.rows_insert_of_not_mem h, by simp, by simp [h],
      by rw [Table.insert, dif_neg h]; exact Nat.le_succ _⟩

/-- **One more burst.** -/
theorem Collapsed.store {t u : Events} {ps : List (String × Burst ScanEntry)}
    {p : String × Burst ScanEntry} (h : Collapsed x rules t ps u)
    (hmem : ∀ i ∈ p.2.members.map (·.id), ∃ a ∈ t.rows, a.1 = i)
    (hnew : ∀ i ∈ p.2.members.map (·.id), i ∉ memberIds ps) :
    Collapsed x rules t (ps ++ [p]) (storeBurst x u p) := by
  obtain ⟨news, hrows, hnews, hquiet⟩ := h.rows
  obtain ⟨new, hins, hnewrow, hnewkey, hseq⟩ := rows_insert_cases u (retroRow x p.1 p.2)
  have hle : ∀ i ∈ p.2.members.map (·.id), i ≤ t.seq := fun i hi => by
    obtain ⟨a, ha, rfl⟩ := hmem i hi
    exact (t.bounded a ha).2
  have habove : ∀ a ∈ news ++ new, t.seq < a.1 := by
    intro a ha
    rcases List.mem_append.mp ha with ha | ha
    · exact (hnews a ha).1
    · rw [hnewrow a ha]
      exact Nat.lt_succ_of_le h.seq_le
  have hids : ∀ a : ℕ × EventRow, a.1 ∉ memberIds (ps ++ [p]) ↔
      a.1 ∉ memberIds ps ∧ a.1 ∉ p.2.members.map (·.id) := by
    intro a
    rw [memberIds_append, List.mem_append, not_or]
    simp [memberIds]
  refine ⟨⟨news ++ new, ?_, ?_, ?_⟩, fun k => ?_, ?_⟩
  · rw [storeBurst, Table.rows_deleteAll, hins, hrows, List.append_assoc, List.filter_append,
      List.filter_filter]
    congr 1
    · refine List.filter_congr fun a _ => ?_
      rw [← Bool.decide_and]
      exact decide_eq_decide.mpr ((and_comm).trans (hids a).symm)
    · refine List.filter_eq_self.mpr fun a ha => ?_
      have := habove a ha
      simp only [decide_eq_true_eq]
      exact fun hi => absurd (hle _ hi) (by omega)
  · intro a ha
    refine ⟨habove a ha, ?_⟩
    rcases List.mem_append.mp ha with ha | ha
    · obtain ⟨-, q, hq, hs⟩ := hnews a ha
      exact ⟨q, List.mem_append_left _ hq, hs⟩
    · rw [hnewrow a ha]
      exact ⟨p, by simp, rfl⟩
  · rw [anchorsHeld_concat, ← hquiet, ← h.keys, ← hnewkey]
    constructor
    · intro hall
      refine ⟨fun a ha => hall a (List.mem_append_left _ ha), fun hrec => ?_⟩
      refine List.eq_nil_iff_forall_not_mem.mpr fun a ha => ?_
      have hnone := hall a (List.mem_append_right _ ha)
      rw [hnewrow a ha] at hnone
      exact absurd hrec (by rw [show recognise x rules p.2.anchor.rawLine = none from hnone]; simp)
    · rintro ⟨hold, hp⟩ a ha
      rcases List.mem_append.mp ha with ha | ha
      · exact hold a ha
      · by_contra hne
        rw [hnewrow a ha] at hne
        have := hp (Option.isSome_iff_ne_none.mpr hne)
        rw [this] at ha
        cases ha
  · rw [held_concat, List.mem_filter, List.mem_cons, ← h.keys, decide_eq_true_eq, or_comm,
      ← Table.mem_keys_insert, storeBurst, Table.mem_keys, Table.rows_deleteAll]
    have hback : ∀ a ∈ (u.insert (retroRow x p.1 p.2)).rows, a.1 ∈ p.2.members.map (·.id) →
        a ∈ t.rows := by
      intro a ha hi
      rw [hins, hrows, List.append_assoc] at ha
      rcases List.mem_append.mp ha with ha | ha
      · exact List.mem_of_mem_filter ha
      · exact absurd (hle _ hi) (by have := habove a ha; omega)
    constructor
    · rintro ⟨a, ha, rfl⟩
      obtain ⟨ha, hi⟩ := List.mem_filter.mp ha
      refine ⟨Table.mem_keys.mpr ⟨a, ha, rfl⟩, fun hk => ?_⟩
      obtain ⟨b, hb, hkey⟩ := List.mem_map.mp hk
      obtain ⟨hb, hbi⟩ := List.mem_filter.mp hb
      have hbu : b ∈ (u.insert (retroRow x p.1 p.2)).rows := by
        rw [hins, hrows]
        refine List.mem_append_left _ (List.mem_append_left _ (List.mem_filter.mpr ⟨hb, ?_⟩))
        exact decide_eq_true (hnew _ (by simpa using hbi))
      rw [Table.eq_of_key_eq hbu ha hkey] at hbi
      simp only [decide_eq_true_eq] at hi hbi
      exact hi hbi
    · rintro ⟨hk, hnot⟩
      obtain ⟨a, ha, rfl⟩ := Table.mem_keys.mp hk
      refine ⟨a, List.mem_filter.mpr ⟨ha, decide_eq_true fun hi => hnot ?_⟩, rfl⟩
      exact List.mem_map.mpr ⟨a, List.mem_filter.mpr ⟨hback a ha hi, by simpa using hi⟩, rfl⟩
  · rw [storeBurst, Table.seq_deleteAll]
    exact h.seq_le.trans hseq

theorem collapsed_foldl {t : Events} (ps : List (String × Burst ScanEntry))
    (hmem : ∀ i ∈ memberIds ps, ∃ a ∈ t.rows, a.1 = i) (hnd : (memberIds ps).Nodup) :
    Collapsed x rules t ps (ps.foldl (storeBurst x) t) := by
  induction ps using List.reverseRecOn with
  | nil => exact collapsed_nil t
  | append_singleton ps p ih =>
    have hp : memberIds [p] = p.2.members.map (·.id) := by simp [memberIds]
    rw [memberIds_append, hp] at hmem hnd
    rw [List.foldl_append]
    refine (ih (fun i hi => hmem i (List.mem_append_left _ hi)) hnd.of_append_left).store
      (fun i hi => hmem i (List.mem_append_right _ hi)) fun i hi hi' => ?_
    exact (List.nodup_append.mp hnd).2.2 i hi' i hi rfl

/-- The bursts of all sources, put in the place of their members. -/
theorem collapsed_sources (t : Events) {sources : List String} (h : sources.Nodup) :
    Collapsed x rules t (burstsOfSources x rules t sources)
      ((burstsOfSources x rules t sources).foldl (storeBurst x) t) :=
  collapsed_foldl _ (fun _ hi =>
    let ⟨a, ha, hai, _⟩ := exists_row_of_mem_memberIds hi
    ⟨a, ha, hai⟩) (memberIds_nodup t h)

theorem mem_sources_of_mem {t : Events} {sources : List String} {p : String × Burst ScanEntry}
    (h : p ∈ burstsOfSources x rules t sources) : p.1 ∈ sources := by
  obtain ⟨source, hs, hp⟩ := List.mem_flatMap.mp h
  obtain ⟨b, -, rfl⟩ := List.mem_map.mp hp
  exact hs

/-- Collapsing the bursts of some sources leaves the lines of another one. -/
theorem filterMap_entryFor_of_not_mem {t u : Events} {sources : List String} {source : String}
    (h : Collapsed x rules t (burstsOfSources x rules t sources) u) (hs : source ∉ sources) :
    u.rows.filterMap (entryFor x rules source) = t.rows.filterMap (entryFor x rules source) := by
  obtain ⟨news, hrows, hnews, -⟩ := h.rows
  have hother : ∀ {a : ℕ × EventRow}, a.2.logSource ∈ sources → entryFor x rules source a = none := by
    intro a ha
    rw [entryFor, if_neg]
    rintro ⟨rfl, -⟩
    exact hs ha
  have hnone : news.filterMap (entryFor x rules source) = [] := by
    refine List.filterMap_eq_nil_iff.mpr fun a ha => hother ?_
    obtain ⟨-, p, hp, hrow⟩ := hnews a ha
    exact hrow ▸ mem_sources_of_mem hp
  rw [hrows, List.filterMap_append, hnone, List.append_nil, List.filterMap_filter]
  refine List.filterMap_congr fun a ha => ?_
  split_ifs with hi
  · rfl
  · refine (hother ?_).symm
    obtain ⟨b, hb, hid, hsrc⟩ := exists_row_of_mem_memberIds (by simpa using hi)
    exact Table.eq_of_id_eq hb ha hid ▸ hsrc

theorem classified_of_not_mem {t u : Events} {sources : List String} {source : String}
    (h : Collapsed x rules t (burstsOfSources x rules t sources) u) (hs : source ∉ sources)
    (hcl : Classified x rules t source) : Classified x rules u source := by
  obtain ⟨news, hrows, hnews, -⟩ := h.rows
  intro a ha hsrc
  rw [hrows] at ha
  rcases List.mem_append.mp ha with ha | ha
  · exact hcl a (List.mem_of_mem_filter ha) hsrc
  · obtain ⟨-, p, hp, hrow⟩ := hnews a ha
    have hp1 : p.1 = source := by rw [← hsrc, hrow]; rfl
    exact absurd (mem_sources_of_mem hp) (hp1 ▸ hs)

theorem burstsOfSources_append (t : Events) (ss ss' : List String) :
    burstsOfSources x rules t (ss ++ ss') =
      burstsOfSources x rules t ss ++ burstsOfSources x rules t ss' := List.flatMap_append

theorem burstsOfSources_singleton (t : Events) (source : String) :
    burstsOfSources x rules t [source] = (burstsIn x rules t source).map (source, ·) := by
  simp [burstsOfSources]

/-- **The loop over the sources** collapses the bursts there are before it begins. -/
theorem foldl_collapseSource_spec {t : Events} (hcl : ∀ source, Classified x rules t source) :
    ∀ (sources done : List String) (s : Storage × ReparseStats), (done ++ sources).Nodup →
    s.1.events = (burstsOfSources x rules t done).foldl (storeBurst x) t →
    ∃ m, sources.foldl (collapseSource x) s =
      ({ s.1 with
          events := (burstsOfSources x rules t (done ++ sources)).foldl (storeBurst x) t },
        { s.2 with
          burstsCollapsed := s.2.burstsCollapsed + (burstsOfSources x rules t sources).length
          membersSuppressed := m }) ∧
      (burstsOfSources x rules t sources = [] → m = s.2.membersSuppressed)
  | [], done, s, _, h => ⟨s.2.membersSuppressed, by rw [List.append_nil, ← h]; rfl, fun _ => rfl⟩
  | source :: sources, done, s, hnd, h => by
    have hcol := @collapsed_sources x rules t _ hnd.of_append_left
    have hs : source ∉ done := fun hd =>
      (List.nodup_append.mp hnd).2.2 source hd source List.mem_cons_self rfl
    rw [← h] at hcol
    have hsame : burstsIn x rules s.1.events source = burstsIn x rules t source := by
      rw [burstsIn, scanned, filterMap_entryFor_of_not_mem hcol hs]
      rfl
    obtain ⟨m₁, h₁, hm₁⟩ :=
      collapseSource_spec (classified_of_not_mem hcol hs (hcl source))
    rw [hsame] at h₁ hm₁
    have hev : (collapseSource x s source).1.events =
        (burstsOfSources x rules t (done ++ [source])).foldl (storeBurst x) t := by
      rw [h₁, burstsOfSources_append, burstsOfSources_singleton, List.foldl_append, ← h]
    obtain ⟨m, h₂, hm⟩ := foldl_collapseSource_spec hcl sources (done ++ [source])
      (collapseSource x s source) (by simpa using hnd) hev
    have hcons : burstsOfSources x rules t (source :: sources) =
        (burstsIn x rules t source).map (source, ·) ++ burstsOfSources x rules t sources :=
      List.flatMap_cons
    refine ⟨m, ?_, fun hnil => ?_⟩
    · rw [List.foldl_cons, h₂, h₁, hcons]
      simp only [List.append_assoc, List.singleton_append, List.length_append, List.length_map,
        Nat.add_assoc]
    · rw [hcons, List.append_eq_nil_iff, List.map_eq_nil_iff] at hnil
      rw [hm hnil.2, h₁, ← hm₁ hnil.1]

/-- **Phase 3.** -/
theorem collapseBursts_spec {s : Storage × ReparseStats}
    (hcl : ∀ source, Classified x rules s.1.events source) :
    ∃ m, collapseBursts x s =
      ({ s.1 with
          events := (retroBursts x rules s.1.events).foldl (storeBurst x) s.1.events },
        { s.2 with
          burstsCollapsed := s.2.burstsCollapsed + (retroBursts x rules s.1.events).length
          membersSuppressed := m }) ∧
      (retroBursts x rules s.1.events = [] → m = s.2.membersSuppressed) :=
  foldl_collapseSource_spec hcl (logSources s.1.events) [] s (nodup_logSources _) rfl

end

end StarStats.Client.RetroBursts
