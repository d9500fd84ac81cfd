import StarStats.Client.Interrupted

/-! # Re-parsing what was cut off

Cutting a re-parse off and running it again gives the events of one re-parse exactly if there are no
bursts to collapse and no promoted death has a zone to get (`harmless_iff`). The first two phases can be
taken up again wherever they were left (`rows_of_resumes`). A burst cannot: cut off when all its members
but one are gone, it is not found again, and that member stays. -/

namespace StarStats.Client.InterruptedRuns

open StarStats.Lib.Tables
open StarStats.Core.Events StarStats.Core.Crates StarStats.Core.Parser StarStats.Core.ParserDefs
open StarStats.Core.Bursts
open StarStats.Client.Store StarStats.Client.Gamelog StarStats.Client.Ingest
open StarStats.Client.BurstRules StarStats.Client.Reparse StarStats.Client.ReparsePhases
open StarStats.Client.RetroBursts StarStats.Client.ReparseTwice StarStats.Client.Interrupted

section
variable {x : Externals} {rules : List CompiledRemoteRule}

/-! ### Cut off in the first two phases -/

/-- The first phase, cut off: the rows are those there were, up to how they are classified. -/
theorem foldl_take_reclassifyAllOps : ∀ {rows before : List (ℕ × EventRow)} {z : Option String}
    {v : Storage} (n : ℕ), v.events.rows = before ++ rows →
    ∃ events rows', ((reclassifyAllOps x rules z rows).take n).foldl StoreOp.run v =
        { v with events := events } ∧
      events.rows = before ++ rows' ∧ events.seq = v.events.seq ∧
      reclassifiedAll x rules z rows' = reclassifiedAll x rules z rows
  | [], before, z, v, n, h => ⟨v.events, [], by simp [reclassifyAllOps], h, rfl, rfl⟩
  | a :: rows, before, z, v, n, h => by
    obtain ⟨ev, k, m, hstep, hrows, hseq⟩ :=
      @reclassifyRow_spec x rules ⟨v, z, .zero⟩ _ _ _ h
    obtain ⟨hst, -⟩ := @reclassifyRow_eq x rules ⟨v, z, .zero⟩ a
    rw [hstep] at hst
    have hlen : (reclassifyOps x rules z a).length ≤ 1 := by
      unfold reclassifyOps
      cases eventOf x rules a.2 with
      | none => simp
      | some e => simp only; split_ifs <;> simp
    by_cases hn : n < (reclassifyOps x rules z a).length
    · -- the statement of this row is the one that does not come any more
      have hzero : n = 0 := by omega
      subst hzero
      exact ⟨v.events, a :: rows, by simp, h, rfl, rfl⟩
    · have htake : (reclassifyAllOps x rules z (a :: rows)).take n = reclassifyOps x rules z a ++
          (reclassifyAllOps x rules (zoneBehind x rules z a.2) rows).take
            (n - (reclassifyOps x rules z a).length) := by
        rw [reclassifyAllOps, List.take_append, List.take_of_length_le (by omega)]
      obtain ⟨events, rows', hrun, hrows', hseq', hall⟩ := @foldl_take_reclassifyAllOps rows
        (before ++ [(a.1, reclassified x rules z a.2)]) (zoneBehind x rules z a.2)
        { v with events := ev } (n - (reclassifyOps x rules z a).length)
        (by rw [List.append_assoc]; exact hrows)
      refine ⟨events, (a.1, reclassified x rules z a.2) :: rows', ?_, ?_, hseq'.trans hseq, ?_⟩
      · rw [htake, List.foldl_append, ← hst, hrun]
      · rw [hrows', List.append_assoc]
        rfl
      · simp only [reclassifiedAll, reclassified_reclassified, zoneBehind_reclassified, hall]

theorem recentUnknowns_deleteUnknown (v : Storage) (source name : String) :
    (v.deleteUnknown source name).recentUnknowns =
      v.recentUnknowns.filter fun r => !(r.logSource = source ∧ r.eventName = name : Bool) := by
  have htot : Std.Total fun a b : UnknownSampleRow => b.occurrences < a.occurrences ∨
      (a.occurrences = b.occurrences ∧ b.lastSeen ≤ a.lastSeen) := ⟨fun a b => by
    rcases lt_trichotomy a.occurrences b.occurrences with h | h | h
    · exact Or.inr (Or.inl h)
    · exact (String.le_total b.lastSeen a.lastSeen).imp (fun hle => Or.inr ⟨h, hle⟩)
        fun hle => Or.inr ⟨h.symm, hle⟩
    · exact Or.inl (Or.inl h)⟩
  have htrans : IsTrans UnknownSampleRow fun a b => b.occurrences < a.occurrences ∨
      (a.occurrences = b.occurrences ∧ b.lastSeen ≤ a.lastSeen) := ⟨fun a b c hab hbc => by
    rcases hab with hab | ⟨hab, hab'⟩ <;> rcases hbc with hbc | ⟨hbc, hbc'⟩
    · exact Or.inl (hbc.trans hab)
    · exact Or.inl (hbc ▸ hab)
    · exact Or.inl (hab ▸ hbc)
    · exact Or.inr ⟨hab.trans hbc, String.le_trans hbc' hab'⟩⟩
  unfold Storage.recentUnknowns
  rw [filter_insertionSort]
  congr 1
  simp [Storage.deleteUnknown, Table.deleteWhere, Table.contents, List.filter_map, Function.comp_def]

theorem nodup_recentUnknowns (v : Storage) : (v.recentUnknowns.map UnknownSampleRow.key).Nodup := by
  have hnd : (v.unknownSamples.contents.map UnknownSampleRow.key).Nodup := by
    rw [Table.contents, List.map_map]
    exact v.unknownSamples.unique
  exact ((List.perm_insertionSort _ _).map _).nodup_iff.mpr hnd

/-- Deleting a sample leaves the others. -/
theorem filter_of_recentUnknowns {v : Storage} {kept ls : List UnknownSampleRow}
    {l : UnknownSampleRow} (h : v.recentUnknowns = kept ++ l :: ls) :
    (v.recentUnknowns.filter fun r =>
      !(r.logSource = l.logSource ∧ r.eventName = l.eventName : Bool)) = kept ++ ls := by
  have hnd := nodup_recentUnknowns v
  rw [h, List.map_append, List.map_cons, List.nodup_append, List.nodup_cons] at hnd
  obtain ⟨-, ⟨hls, -⟩, hkept⟩ := hnd
  have hother : ∀ r : UnknownSampleRow, r.key ≠ l.key →
      (!(r.logSource = l.logSource ∧ r.eventName = l.eventName : Bool)) = true := fun r hr => by
    simp only [Bool.not_eq_true', decide_eq_false_iff_not]
    exact fun heq => hr (Prod.ext heq.1 heq.2)
  rw [h, List.filter_append, List.filter_cons_of_neg (by simp)]
  congr 1
  · refine List.filter_eq_self.mpr fun r hr => hother r ?_
    exact hkept _ (List.mem_map_of_mem hr) _ List.mem_cons_self
  · refine List.filter_eq_self.mpr fun r hr => hother r fun heq => ?_
    exact hls (heq ▸ List.mem_map_of_mem hr)

/-- The second phase, cut off: what the samples that are left are promoted to is what is missing. -/
theorem foldl_take_promoteOps : ∀ {ls kept : List UnknownSampleRow} {v : Storage} (n : ℕ),
    v.recentUnknowns = kept ++ ls → (∀ r ∈ kept, promotion x rules r = none) →
    ∃ w ps, ((ls.flatMap (promoteOps x rules)).take n).foldl StoreOp.run v = w ∧
      w.events = v.events.insertAll ps ∧
      w.events.insertAll (promotions x rules w) =
        v.events.insertAll (ls.filterMap (promotion x rules))
  | [], kept, v, n, h, hkept => by
    refine ⟨v, [], by simp, rfl, ?_⟩
    rw [promotions, h, List.append_nil, List.filterMap_eq_nil_iff.mpr hkept]
    rfl
  | l :: ls, kept, v, n, h, hkept => by
    have hnone : kept.filterMap (promotion x rules) = [] := List.filterMap_eq_nil_iff.mpr hkept
    cases hl : promotion x rules l with
    | none =>
      obtain ⟨w, ps, hrun, hev, hrest⟩ := @foldl_take_promoteOps ls (kept ++ [l]) v n
        (by rw [h, List.append_assoc]; rfl) (by
          intro r hr
          rcases List.mem_append.mp hr with hr | hr
          · exact hkept r hr
          · rw [List.mem_singleton.mp hr, hl])
      refine ⟨w, ps, ?_, hev, by rw [hrest, List.filterMap_cons_none hl]⟩
      rw [List.flatMap_cons, show promoteOps x rules l = [] by rw [promoteOps, hl], List.nil_append,
        hrun]
    | some row =>
      have hops : (l :: ls).flatMap (promoteOps x rules) = .insertEvent row ::
          .deleteUnknown l.logSource l.eventName :: ls.flatMap (promoteOps x rules) := by
        rw [List.flatMap_cons, promoteOps, hl]
        rfl
      have hprom : ∀ u : Storage, u.recentUnknowns = v.recentUnknowns →
          promotions x rules u = row :: ls.filterMap (promotion x rules) := fun u hu => by
        rw [promotions, hu, h, List.filterMap_append, hnone, List.nil_append,
          List.filterMap_cons_some hl]
      rw [hops, List.filterMap_cons_some hl]
      match n with
      | 0 => exact ⟨v, [], rfl, rfl, by rw [hprom v rfl]⟩
      | 1 =>
        refine ⟨v.insertEvent row, [row], rfl, rfl, ?_⟩
        rw [hprom (v.insertEvent row) rfl, Table.insertAll_cons, Table.insertAll_cons]
        exact congrArg (fun t => Table.insertAll t _) (Table.insert_insert_self v.events row)
      | n + 2 =>
        obtain ⟨w, ps, hrun, hev, hrest⟩ := @foldl_take_promoteOps ls kept
          ((v.insertEvent row).deleteUnknown l.logSource l.eventName) n (by
            rw [recentUnknowns_deleteUnknown]
            exact filter_of_recentUnknowns h) hkept
        exact ⟨w, row :: ps, hrun, hev, hrest⟩

/-- What a re-parse of `st` that was cut off in its first two phases has left: events `E` that are those
of `st` up to how they are classified, some samples promoted, and the others still there. -/
structure Resumes (x : Externals) (rules : List CompiledRemoteRule) (st v : Storage) (E : Events)
    (ps : List EventRow) : Prop where
  events : v.events = E.insertAll ps
  seq : E.seq = st.events.seq
  rows : reclassifiedAll x rules none E.rows = reclassifiedAll x rules none st.events.rows
  rest : v.events.insertAll (promotions x rules v) = E.insertAll (promotions x rules st)

theorem keys_eq_of_reclassifiedAll {t u : Events}
    (h : reclassifiedAll x rules none t.rows = reclassifiedAll x rules none u.rows) :
    t.keys = u.keys := by
  have hmap := congrArg (List.map fun a => a.2.idempotencyKey) h
  rwa [map_reclassifiedAll fun a z => (reclassified_frame z a.2).1,
    map_reclassifiedAll fun a z => (reclassified_frame z a.2).1] at hmap

/-- The first phase rewrites the events, and leaves the samples. -/
theorem afterFirst_spec (st : Storage) : ∃ events, afterFirst x rules st =
      { st with events := events } ∧
    events.rows = reclassifiedAll x rules none st.events.rows ∧ events.seq = st.events.seq := by
  obtain ⟨events, z, n, k, h, hrows, hseq⟩ := @reclassifyEvents_spec x rules st
  refine ⟨events, ?_, hrows, hseq⟩
  rw [← reclassifyEvents_storage, h]

/-- **Wherever the first two phases are cut off, they can be resumed.** -/
theorem exists_resumes (st : Storage) (n : ℕ) : ∃ E ps, Resumes x rules st
    (((firstOps x rules st ++ secondOps x rules st).take n).foldl StoreOp.run st) E ps := by
  by_cases hn : n ≤ (firstOps x rules st).length
  · obtain ⟨events, rows', hrun, hrows, hseq, hall⟩ :=
      @foldl_take_reclassifyAllOps x rules st.events.rows [] none st n rfl
    rw [List.take_append_of_le_length hn, firstOps, hrun]
    have hall' : reclassifiedAll x rules none events.rows =
        reclassifiedAll x rules none st.events.rows := by rw [hrows]; exact hall
    exact ⟨events, [], rfl, hseq, hall', rfl⟩
  · obtain ⟨events, hfirst, hrows, hseq⟩ := @afterFirst_spec x rules st
    have hsamples : (afterFirst x rules st).recentUnknowns = [] ++ st.recentUnknowns := by
      rw [hfirst]
      rfl
    obtain ⟨w, ps, hrun, hev, hrest⟩ := @foldl_take_promoteOps x rules _ _ _
      (n - (firstOps x rules st).length) hsamples (by simp)
    have hcut : ((firstOps x rules st ++ secondOps x rules st).take n).foldl StoreOp.run st = w := by
      rw [List.take_append, List.take_of_length_le (by omega), List.foldl_append, ← afterFirst,
        secondOps, hsamples, List.nil_append, hrun]
    rw [hcut]
    refine ⟨events, ps, ?_, hseq, ?_, ?_⟩
    · rw [hev, hfirst]
    · rw [hrows, reclassifiedAll_reclassifiedAll]
    · rw [hrest, hfirst]
      rfl

theorem retroBursts_congr {t u : Events} (h : t.rows = u.rows) :
    retroBursts x rules t = retroBursts x rules u := by
  simp only [retroBursts, burstsOfSources, burstsIn, scanned, logSources, Table.contents, h]

/-- **What was resumed ends with the same rows**, if there are no bursts and no promoted death has a zone
to get. -/
theorem rows_of_resumes {st v : Storage} {E : Events} {ps : List EventRow}
    (h : Resumes x rules st v E ps) (hb : retroBursts x rules (promoted x rules st) = [])
    (hd : DeathsSettled x rules st) :
    (runReparse x rules v).1.events.rows = (runReparse x rules st).1.events.rows := by
  obtain ⟨t, samples, n, k, m, ht, hrun, -, -⟩ := @runReparse_spec x rules st
  obtain ⟨t', samples', n', k', m', ht', hrun', -, -⟩ :=
    @runReparse_spec x rules v
  have hnil : retroBursts x rules t = [] := ht.retroBursts_eq.trans hb
  obtain ⟨new, hrows, hst, hnew⟩ := ht.rows
  obtain ⟨new₂, hrows', hv, -⟩ := ht'.rows
  -- the promoted rows are those of the whole run, the first of them there already
  obtain ⟨new₁, hE, -⟩ := Table.rows_insertAll E ps
  have hall : new = new₁ ++ new₂ := by
    obtain ⟨both, hbE, hbst, -⟩ := Table.insertAll_congr (keys_eq_of_reclassifiedAll h.rows) h.seq
      (promotions x rules st)
    have hboth : both = new := List.append_cancel_left (hbst.symm.trans hst)
    have hpv : E.rows ++ (new₁ ++ new₂) = E.rows ++ both := by
      rw [← hbE, ← h.rest, ← List.append_assoc, ← hE, ← h.events]
      exact hv.symm
    rw [← hboth]
    exact (List.append_cancel_left hpv).symm
  have hzone : zoneAfter x rules none E.rows = zoneAfter x rules none st.events.rows := by
    rw [← zoneAfter_reclassifiedAll none none E.rows, h.rows, zoneAfter_reclassifiedAll]
  have hsettled : reclassifiedAll x rules (zoneAfter x rules none st.events.rows) new₁ = new₁ := by
    have hkept := (ht.filter_new_iff hst hnew).mpr hd
    simp only [hnil, memberIds, List.flatMap_nil, List.not_mem_nil, not_false_eq_true, decide_true,
      List.filter_true] at hkept
    rw [hall, reclassifiedAll_append] at hkept
    exact (List.append_inj hkept (length_reclassifiedAll _ _)).1
  have hsame : t'.rows = t.rows := by
    rw [hrows', h.events, hE, reclassifiedAll_append, h.rows, hzone, hsettled, hrows, hall,
      List.append_assoc]
  have hnil' : retroBursts x rules t' = [] := (retroBursts_congr hsame).trans hnil
  rw [hrun, hrun', hnil, hnil']
  exact hsame

/-! ### The statements of the third phase -/

theorem burstOps_eq (p : String × Burst ScanEntry) : burstOps x p.1 p.2 =
    .insertEvent (retroRow x p.1 p.2) :: p.2.members.map fun m => .deleteEventById m.id := by
  rw [burstOps, summaryRow_eq]
  rfl

theorem foldl_deleteEventById : ∀ (ms : List ScanEntry) (s : Storage),
    (ms.map fun m => StoreOp.deleteEventById m.id).foldl StoreOp.run s =
      { s with events := s.events.deleteAll (ms.map (·.id)) }
  | [], _ => rfl
  | m :: ms, s => foldl_deleteEventById ms (StoreOp.run s (.deleteEventById m.id))

/-- The statements for some bursts store them. -/
theorem foldl_flatMap_burstOps : ∀ (ps : List (String × Burst ScanEntry)) (s : Storage),
    (ps.flatMap fun p => burstOps x p.1 p.2).foldl StoreOp.run s =
      { s with events := ps.foldl (storeBurst x) s.events }
  | [], _ => rfl
  | p :: ps, s => by
    have hone : (burstOps x p.1 p.2).foldl StoreOp.run s =
        { s with events := storeBurst x s.events p } := by
      rw [burstOps_eq, List.foldl_cons, foldl_deleteEventById]
      rfl
    rw [List.flatMap_cons, List.foldl_append, hone, foldl_flatMap_burstOps ps]
    rfl

theorem sourceOps_eq {st : Storage} {source : String} (h : Classified x rules st.events source) :
    sourceOps x st source =
      (burstsOfSources x rules st.events [source]).flatMap fun p => burstOps x p.1 p.2 := by
  rw [sourceOps, scanEntries_eq h, burstsOfSources_singleton, List.flatMap_map]
  simp only
  split_ifs with hlen
  · rw [burstsIn, burstsOf_eq_nil_of_length_lt hlen]
    rfl
  · rfl

/-- The sources are read one after another, but the bursts are those there are from the start. -/
theorem collapseOps_eq {t : Events} (hcl : ∀ source, Classified x rules t source) :
    ∀ (sources done : List String) (s : Storage), (done ++ sources).Nodup →
    s.events = (burstsOfSources x rules t done).foldl (storeBurst x) t →
    collapseOps x sources s =
      (burstsOfSources x rules t sources).flatMap fun p => burstOps x p.1 p.2
  | [], _, _, _, _ => rfl
  | source :: sources, done, s, hnd, h => by
    have hcol := @collapsed_sources x rules t _ hnd.of_append_left
    have hs : source ∉ done := fun hd =>
      (List.nodup_append.mp hnd).2.2 source hd source List.mem_cons_self rfl
    rw [← h] at hcol
    have hsame : burstsOfSources x rules s.events [source] = burstsOfSources x rules t [source] := by
      rw [burstsOfSources_singleton, burstsOfSources_singleton, burstsIn, burstsIn, scanned, scanned,
        filterMap_entryFor_of_not_mem hcol hs]
    have hops := sourceOps_eq (classified_of_not_mem hcol hs (hcl source))
    rw [hsame] at hops
    have hev : ((sourceOps x s source).foldl StoreOp.run s).events =
        (burstsOfSources x rules t (done ++ [source])).foldl (storeBurst x) t := by
      rw [hops, foldl_flatMap_burstOps, burstsOfSources_append, List.foldl_append, ← h]
    have ih := collapseOps_eq hcl sources (done ++ [source]) _ (by simpa using hnd) hev
    rw [collapseOps, ih, hops, ← List.flatMap_append, ← burstsOfSources_append]
    rfl

/-- The store that the third phase begins with, and its statements. -/
theorem afterSecond_spec (st : Storage) : ∃ t samples, Reclassified x rules st t ∧
      afterSecond x rules st = { st with events := t, unknownSamples := samples } ∧
      (∀ r ∈ samples.contents, promotion x rules r = none) ∧
      thirdOps x rules st =
        (retroBursts x rules t).flatMap fun p => burstOps x p.1 p.2 := by
  obtain ⟨t, samples, n, k, ht, hrun, hleft⟩ := @promoteUnknowns_reclassifyEvents x rules st
  have hsecond : afterSecond x rules st = { st with events := t, unknownSamples := samples } := by
    rw [← promoteUnknowns_fst, hrun]
  refine ⟨t, samples, ht, hsecond, hleft, ?_⟩
  rw [thirdOps, hsecond]
  exact collapseOps_eq ht.classified (logSources t) [] _ (nodup_logSources t) rfl

/-! ### Rows, counted -/

/-- The same rows, whatever their ids. -/
def SameEvents (t u : Events) : Prop := ∀ r, r ∈ t.contents ↔ r ∈ u.contents

theorem nodup_contents (t : Events) : t.contents.Nodup :=
  List.Nodup.of_map EventRow.idempotencyKey (by
    rw [Table.contents, List.map_map]
    exact t.unique)

theorem SameEvents.length_eq {t u : Events} (h : SameEvents t u) :
    t.rows.length = u.rows.length := by
  have hperm := (List.perm_ext_iff_of_nodup (nodup_contents t) (nodup_contents u)).mpr h
  simpa [Table.contents] using hperm.length_eq

theorem length_filter_not_mem {t : Events} {is : List ℕ} (hnd : is.Nodup)
    (hin : ∀ i ∈ is, ∃ a ∈ t.rows, a.1 = i) :
    (t.rows.filter fun a => a.1 ∉ is).length + is.length = t.rows.length := by
  have hperm : ((t.rows.filter fun a => a.1 ∈ is).map Prod.fst).Perm is := by
    refine (List.perm_ext_iff_of_nodup (t.ids_nodup.sublist (List.filter_sublist.map _)) hnd).mpr ?_
    intro i
    constructor
    · intro hi
      obtain ⟨a, ha, rfl⟩ := List.mem_map.mp hi
      exact of_decide_eq_true (List.mem_filter.mp ha).2
    · intro hi
      obtain ⟨a, ha, rfl⟩ := hin i hi
      exact List.mem_map.mpr ⟨a, List.mem_filter.mpr ⟨ha, decide_eq_true hi⟩, rfl⟩
  have hlen := hperm.length_eq
  rw [List.length_map] at hlen
  have hsum := List.length_eq_length_filter_add (l := t.rows) fun a => decide (a.1 ∈ is)
  simp only [decide_not]
  omega

theorem exists_stored {t : Events} {i : ℕ} (hi : i ∈ memberIds (retroBursts x rules t)) :
    ∃ a ∈ t.rows, a.1 = i := by
  obtain ⟨a, ha, hai, -⟩ := exists_row_of_mem_memberIds hi
  exact ⟨a, ha, hai⟩

/-- A burst takes three rows at least and gives one. -/
theorem length_storeBursts (t : Events) :
    ((retroBursts x rules t).foldl (storeBurst x) t).rows.length +
      2 * (retroBursts x rules t).length ≤ t.rows.length := by
  have hcol := @collapsed_sources x rules t _ (nodup_logSources t)
  rw [← retroBursts] at hcol
  obtain ⟨news, hrows, hnews, -⟩ := hcol.rows
  have hfew : news.length ≤ (retroBursts x rules t).length := by
    have hnd := ((retroBursts x rules t).foldl (storeBurst x) t).unique
    rw [hrows, List.map_append] at hnd
    have hsub : news.map (fun a => a.2.idempotencyKey) ⊆
        (retroBursts x rules t).map fun p => (retroRow x p.1 p.2).idempotencyKey := by
      intro k hk
      obtain ⟨a, ha, rfl⟩ := List.mem_map.mp hk
      obtain ⟨-, p, hp, hrow⟩ := hnews a ha
      exact List.mem_map.mpr ⟨p, hp, by rw [hrow]⟩
    have hle := (List.subperm_of_subset hnd.of_append_right hsub).length_le
    simpa only [List.length_map] using hle
  have hmany : 3 * (retroBursts x rules t).length ≤ (memberIds (retroBursts x rules t)).length := by
    have hsize : ∀ p ∈ retroBursts x rules t, 3 ≤ (p.2.members.map (·.id)).length := by
      intro p hp
      obtain ⟨source, -, hp⟩ := List.mem_flatMap.mp hp
      obtain ⟨b, hb, rfl⟩ := List.mem_map.mp hp
      have hthree := three_le_size hb
      rwa [(burstIn_of_mem hb).size_eq, ← List.length_map (f := (·.id))] at hthree
    rw [memberIds, List.length_flatMap]
    generalize retroBursts x rules t = ps at hsize
    induction ps with
    | nil => simp
    | cons p ps ih =>
      obtain ⟨hp, hps⟩ := List.forall_mem_cons.mp hsize
      have := ih hps
      simp only [List.length_cons, List.map_cons, List.sum_cons]
      omega
  have hgone := length_filter_not_mem (@memberIds_nodup x rules t _ (nodup_logSources t)) fun i hi =>
    exists_stored hi
  rw [← retroBursts] at hgone
  rw [hrows, List.length_append]
  omega

/-! ### Cut off before the last statement -/

variable (x rules) in
/-- **Cutting a re-parse off and running it again is harmless**: it gives the rows of one re-parse, as
does running it again after one in which a row could not be deleted. -/
def Harmless (st : Storage) : Prop :=
  (∀ n < (reparseOps x rules st).length,
    SameEvents (runReparse x rules (interrupted x rules st n)).1.events
      (runReparse x rules st).1.events) ∧
  ∀ d, SameEvents (runReparse x rules (runReparseFailing x rules d st)).1.events
    (runReparse x rules st).1.events

theorem interrupted_of_eq {st : Storage} {init : List StoreOp} {op : StoreOp}
    (h : reparseOps x rules st = init ++ [op]) :
    init.length < (reparseOps x rules st).length ∧
      interrupted x rules st init.length = init.foldl StoreOp.run st ∧
      (runReparse x rules st).1 = StoreOp.run (init.foldl StoreOp.run st) op := by
  refine ⟨by simp [h], ?_, ?_⟩
  · rw [interrupted, h, List.take_left]
  · rw [← foldl_reparseOps, h, List.foldl_append]
    rfl

/-- A store whose samples are all recognised by keys in use has nothing to promote. -/
theorem reparse_of_promoted {v : Storage} (hv : (promoted x rules v).rows = v.events.rows) :
    ∃ t, Reclassified x rules v t ∧ t.rows = reclassifiedAll x rules none v.events.rows ∧
      (runReparse x rules v).1.events = (retroBursts x rules t).foldl (storeBurst x) t := by
  obtain ⟨t, samples, n, k, m, ht, hrun, -, -⟩ := @runReparse_spec x rules v
  obtain ⟨new, hrows, hst, -⟩ := ht.rows
  obtain rfl : new = [] := List.append_right_eq_self.mp (hst.symm.trans hv)
  exact ⟨t, ht, by rw [hrows, List.append_nil], by rw [hrun]⟩

/-- **A burst is not taken up again**: when the last of its members is left, a second run does not
delete just that row. -/
theorem not_same_of_burst {st : Storage} (hb : retroBursts x rules (promoted x rules st) ≠ []) :
    ∃ n < (reparseOps x rules st).length,
      ¬ SameEvents (runReparse x rules (interrupted x rules st n)).1.events
        (runReparse x rules st).1.events := by
  obtain ⟨t, samples, ht, hsecond, hleft, hthird⟩ := @afterSecond_spec x rules st
  rw [← ht.retroBursts_eq] at hb
  obtain ⟨qs, p, hps⟩ := (List.eq_nil_or_concat' _).resolve_left hb
  have hp : p ∈ retroBursts x rules t := by rw [hps]; simp
  have hmembers : p.2.members ≠ [] := by
    obtain ⟨source, -, hp⟩ := List.mem_flatMap.mp hp
    obtain ⟨b, hb, rfl⟩ := List.mem_map.mp hp
    exact List.ne_nil_of_mem (burstIn_of_mem hb).anchor_mem
  obtain ⟨front, m, hfront⟩ := (List.eq_nil_or_concat' _).resolve_left hmembers
  -- the last burst, its last member left out
  have hcut : ∃ p' : String × Burst ScanEntry, p'.2.members = front ∧
      burstOps x p.1 p.2 = burstOps x p'.1 p'.2 ++ [.deleteEventById m.id] := by
    refine ⟨(p.1, { p.2 with members := front }), rfl, ?_⟩
    rw [burstOps_eq, burstOps_eq, hfront, List.map_append]
    rfl
  obtain ⟨p', hmem', hops⟩ := hcut
  have hops' : reparseOps x rules st = (firstOps x rules st ++ secondOps x rules st ++
      (qs ++ [p']).flatMap fun p => burstOps x p.1 p.2) ++ [.deleteEventById m.id] := by
    rw [reparseOps, hthird, hps]
    simp [hops]
  obtain ⟨hlt, hint, hrun⟩ := interrupted_of_eq hops'
  refine ⟨_, hlt, fun hsame => ?_⟩
  rw [hint, hrun, List.foldl_append, List.foldl_append, ← afterFirst, ← afterSecond, hsecond,
    foldl_flatMap_burstOps] at hsame
  have hids : memberIds (retroBursts x rules t) = memberIds (qs ++ [p']) ++ [m.id] := by
    rw [hps, memberIds_append, memberIds_append, List.append_assoc]
    simp [memberIds, hfront, hmem']
  have hnd := @memberIds_nodup x rules t _ (nodup_logSources t)
  have hin : ∀ i ∈ memberIds (retroBursts x rules t), ∃ a ∈ t.rows, a.1 = i :=
    fun i hi => exists_stored hi
  rw [← retroBursts, hids] at hnd
  rw [hids] at hin
  have hcol : Collapsed x rules t (qs ++ [p']) ((qs ++ [p']).foldl (storeBurst x) t) :=
    collapsed_foldl _ (fun i hi => hin i (List.mem_append_left _ hi)) hnd.of_append_left
  generalize (qs ++ [p']).foldl (storeBurst x) t = w at hsame hcol
  have hthere : ∃ a ∈ w.rows, a.1 = m.id := by
    obtain ⟨a, ha, hai⟩ := hin m.id (by simp)
    obtain ⟨news, hrows, -⟩ := hcol.rows
    refine ⟨a, ?_, hai⟩
    rw [hrows]
    refine List.mem_append_left _ (List.mem_filter.mpr ⟨ha, decide_eq_true fun hi => ?_⟩)
    exact (List.nodup_append.mp hnd).2.2 _ (hai ▸ hi) _ (List.mem_singleton_self _) rfl
  have hone : (w.delete m.id).rows.length + 1 = w.rows.length := by
    have hlen := @length_filter_not_mem w [m.id] (List.nodup_singleton _)
      (by simpa using hthere)
    simpa [Table.delete] using hlen
  -- the second run takes two rows away for each burst it finds, and not just the one
  obtain ⟨-, hsame'⟩ := @promotions_eq_nil x rules
    { st with events := w, unknownSamples := samples } hleft
  obtain ⟨t', -, hrows', hrun'⟩ := reparse_of_promoted (congrArg Table.rows hsame')
  have hlen := hsame.length_eq
  rw [hrun'] at hlen
  change _ = (w.delete m.id).rows.length at hlen
  have htwo := @length_storeBursts x rules t'
  have hsize : t'.rows.length = w.rows.length := by rw [hrows', length_reclassifiedAll]
  by_cases hnil : retroBursts x rules t' = []
  · rw [hnil, List.foldl_nil] at hlen
    omega
  · have hpos := List.length_pos_iff.mpr hnil
    omega

/-- The second phase ends with a sample that is done with. -/
theorem flatMap_promoteOps_cases (ls : List UnknownSampleRow) :
    ls.filterMap (promotion x rules) = [] ∨
      ∃ init source name, ls.flatMap (promoteOps x rules) = init ++ [.deleteUnknown source name] := by
  induction ls using List.reverseRecOn with
  | nil => exact Or.inl rfl
  | append_singleton ls l ih =>
    cases hl : promotion x rules l with
    | none => simpa [promoteOps, hl] using ih
    | some row =>
      refine Or.inr ⟨ls.flatMap (promoteOps x rules) ++ [.insertEvent row], l.logSource,
        l.eventName, ?_⟩
      simp [promoteOps, hl]

/-- Rows that stay the same rows, classified again, stay as they are. -/
theorem reclassifiedAll_eq_self {t : Events} : ∀ {rows : List (ℕ × EventRow)} {z : Option String},
    (∀ a ∈ rows, a ∈ t.rows) → (∀ b ∈ reclassifiedAll x rules z rows, b.2 ∈ t.contents) →
    reclassifiedAll x rules z rows = rows
  | [], _, _, _ => rfl
  | a :: rows, z, hrows, h => by
    obtain ⟨ha, hrows⟩ := List.forall_mem_cons.mp hrows
    obtain ⟨hb, h⟩ := List.forall_mem_cons.mp h
    obtain ⟨c, hc, hcr⟩ := Table.mem_contents.mp hb
    have hkey : c.2.idempotencyKey = a.2.idempotencyKey := by
      rw [hcr]
      exact (reclassified_frame z a.2).1
    have hsame : reclassified x rules z a.2 = a.2 := by
      rw [← show c.2 = reclassified x rules z a.2 from hcr, Table.eq_of_key_eq hc ha hkey]
    rw [reclassifiedAll, reclassifiedAll_eq_self hrows h, hsame]

/-- **A promoted death gets a zone**: a second run classifies it as an event that was there. -/
theorem not_same_of_death {st : Storage} (hb : retroBursts x rules (promoted x rules st) = [])
    (hd : ¬ DeathsSettled x rules st) :
    ∃ n < (reparseOps x rules st).length,
      ¬ SameEvents (runReparse x rules (interrupted x rules st n)).1.events
        (runReparse x rules st).1.events := by
  obtain ⟨t, samples, ht, hsecond, hleft, hthird⟩ := @afterSecond_spec x rules st
  have hnil : retroBursts x rules t = [] := ht.retroBursts_eq.trans hb
  obtain ⟨new, hrows, hst, hnew⟩ := ht.rows
  rw [hnil, List.flatMap_nil] at hthird
  have hsamples : (afterFirst x rules st).recentUnknowns = st.recentUnknowns := by
    obtain ⟨events, hfirst, -⟩ := @afterFirst_spec x rules st
    rw [hfirst]
    rfl
  have hsome : promotions x rules st ≠ [] := by
    intro hnone
    refine hd fun pre a post hsplit hlt => ?_
    rw [promoted, hnone, Table.insertAll_nil] at hsplit
    have hle := (st.events.bounded a (by rw [hsplit]; simp)).2
    omega
  obtain ⟨init, source, name, hinit⟩ := (flatMap_promoteOps_cases _).resolve_left hsome
  have hops : reparseOps x rules st =
      (firstOps x rules st ++ init) ++ [.deleteUnknown source name] := by
    rw [reparseOps, hthird, secondOps, hsamples, hinit, List.append_nil, List.append_assoc]
  obtain ⟨hlt, hint, hrun⟩ := interrupted_of_eq hops
  refine ⟨_, hlt, fun hsame => hd ?_⟩
  -- all samples are promoted already
  have hevents : (interrupted x rules st (firstOps x rules st ++ init).length).events = t := by
    have hafter : (runReparse x rules st).1.events = t := by
      rw [← foldl_reparseOps, reparseOps, hthird, List.append_nil, List.foldl_append, ← afterFirst,
        ← afterSecond, hsecond]
    rw [hrun] at hafter
    rw [hint]
    exact hafter
  have hfinal : (runReparse x rules st).1.events = t := by
    rw [hrun, ← hint]
    exact hevents
  have hres : ∃ E ps, Resumes x rules st
      (interrupted x rules st (firstOps x rules st ++ init).length) E ps := by
    have h := @exists_resumes x rules st (firstOps x rules st ++ init).length
    rwa [show firstOps x rules st ++ secondOps x rules st = reparseOps x rules st by
      rw [reparseOps, hthird, List.append_nil], ← interrupted] at h
  obtain ⟨E, ps, hres⟩ := hres
  generalize interrupted x rules st (firstOps x rules st ++ init).length = v at hsame hevents hres
  have hv : (promoted x rules v).rows = v.events.rows := by
    obtain ⟨more, hmore, -⟩ := Table.rows_insertAll v.events (promotions x rules v)
    obtain ⟨both, hE, hbst, -⟩ := Table.insertAll_congr (keys_eq_of_reclassifiedAll hres.rows)
      hres.seq (promotions x rules st)
    obtain rfl : both = new := List.append_cancel_left (hbst.symm.trans hst)
    have hlen := congrArg List.length hmore
    have hrowsE := congrArg List.length hres.rows
    rw [length_reclassifiedAll, length_reclassifiedAll] at hrowsE
    rw [hres.rest, hE, hevents, hrows, List.length_append, List.length_append, List.length_append,
      length_reclassifiedAll, hrowsE] at hlen
    obtain rfl : more = [] := List.eq_nil_of_length_eq_zero (by omega)
    rw [promoted, hmore, List.append_nil]
  obtain ⟨t', ht', hrows', hrun'⟩ := reparse_of_promoted hv
  have hnil' : retroBursts x rules t' = [] := by
    rw [ht'.retroBursts_eq, retroBursts_congr hv, hevents, hnil]
  rw [hnil', List.foldl_nil] at hrun'
  rw [hrun', hfinal] at hsame
  rw [hevents] at hrows'
  have hself : reclassifiedAll x rules none t.rows = t.rows :=
    reclassifiedAll_eq_self (fun _ ha => ha) fun b hb =>
      (hsame b.2).mp (Table.mem_contents.mpr ⟨b, hrows' ▸ hb, rfl⟩)
  have hzero := ReparsePhases.changes_eq_zero_iff.mpr hself
  have hiff := ht.changes_eq_zero_iff
  rw [hnil, List.foldl_nil] at hiff
  exact (hiff.mp hzero).1

/-- A row that cannot be deleted makes no difference where none is to be deleted. -/
theorem runReparseFailing_of_nil {st : Storage} (d : ℕ)
    (hb : retroBursts x rules (promoted x rules st) = []) :
    runReparseFailing x rules d st = (runReparse x rules st).1 := by
  obtain ⟨t, samples, ht, hsecond, hleft, hthird⟩ := @afterSecond_spec x rules st
  have hnil : retroBursts x rules t = [] := ht.retroBursts_eq.trans hb
  rw [hnil, List.flatMap_nil] at hthird
  rw [← foldl_reparseOps, reparseOps, hthird, List.append_nil, List.foldl_append, ← afterFirst,
    ← afterSecond, runReparseFailing, hsecond]
  have hsource : ∀ source ∈ logSources t, sourceOps x
      { st with events := t, unknownSamples := samples } source = [] := fun source hs => by
    rw [sourceOps_eq (ht.classified source), burstsOfSources_singleton,
      List.map_eq_nil_iff.mp (List.flatMap_eq_nil_iff.mp hnil source hs)]
    rfl
  change (logSources t).foldl _ _ = _
  generalize logSources t = sources at hsource
  induction sources with
  | nil => rfl
  | cons source sources ih =>
    rw [List.foldl_cons, hsource source List.mem_cons_self]
    exact ih fun s hs => hsource s (List.mem_cons_of_mem _ hs)

/-- **Interrupting a re-parse is harmless exactly if it collapses no burst and no promoted death has a
zone to get.** -/
theorem harmless_iff (x : Externals) (rules : List CompiledRemoteRule) (st : Storage) :
    Harmless x rules st ↔
      retroBursts x rules (promoted x rules st) = [] ∧ DeathsSettled x rules st := by
  constructor
  · rintro ⟨hcut, -⟩
    have hb : retroBursts x rules (promoted x rules st) = [] := by
      by_contra hb
      obtain ⟨n, hn, hne⟩ := not_same_of_burst hb
      exact hne (hcut n hn)
    refine ⟨hb, ?_⟩
    by_contra hd
    obtain ⟨n, hn, hne⟩ := not_same_of_death hb hd
    exact hne (hcut n hn)
  · rintro ⟨hb, hd⟩
    have hnil : thirdOps x rules st = [] := by
      obtain ⟨t, samples, ht, -, -, hthird⟩ := @afterSecond_spec x rules st
      rw [hthird, ht.retroBursts_eq, hb, List.flatMap_nil]
    have hops : reparseOps x rules st = firstOps x rules st ++ secondOps x rules st := by
      rw [reparseOps, hnil, List.append_nil]
    have hcut : ∀ n, (runReparse x rules (interrupted x rules st n)).1.events.rows =
        (runReparse x rules st).1.events.rows := fun n => by
      obtain ⟨E, ps, hres⟩ := @exists_resumes x rules st n
      rw [← hops] at hres
      exact rows_of_resumes hres hb hd
    refine ⟨fun n _ r => by simp only [Table.contents, hcut n], fun d r => ?_⟩
    have hwhole := hcut (reparseOps x rules st).length
    rw [interrupted, List.take_length, foldl_reparseOps] at hwhole
    simp only [runReparseFailing_of_nil d hb, Table.contents, hwhole]

/-- Of three notifications two are deleted, and the third stays. -/
theorem not_harmless_notified : ¬ Harmless .std [] notifiedStore := by
  rintro ⟨hcut, -⟩
  obtain ⟨n, hn, hne⟩ := @not_same_of_burst .std [] notifiedStore (by
    intro hnil
    have hmap := retroBursts_notified
    rw [← show promoted .std [] notifiedStore = notifiedStore.events from rfl, hnil] at hmap
    cases hmap)
  exact hne (hcut n hn)

end

end StarStats.Client.InterruptedRuns
