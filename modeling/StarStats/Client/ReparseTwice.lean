import StarStats.Client.RetroBursts

/-! # Re-parsing once, and twice

A re-parse keeps every summary exactly if the line of none is recognised (`summaries_kept_iff`): the
first phase classifies a summary by the line of its anchor, as it does any other row.

A second pass does nothing exactly if three things hold of the store before the first
(`idempotent_iff`): no promoted death has a zone to get, no summary is written for an anchor that is
recognised, and no bursts come about where the members of others have gone. -/

namespace StarStats.Client.ReparseTwice

open StarStats.Lib.Tables
open StarStats.Core.Events StarStats.Core.Crates StarStats.Core.Parser StarStats.Core.ParserDefs
open StarStats.Core.Bursts
open StarStats.Client.Store StarStats.Client.Gamelog StarStats.Client.Ingest
open StarStats.Client.BurstRules StarStats.Client.Reparse StarStats.Client.ReparsePhases
open StarStats.Client.RetroBursts

section
variable (x : Externals) (rules : List CompiledRemoteRule)

/-- The events, and the samples that are recognised. -/
def promoted (st : Storage) : Events := st.events.insertAll (promotions x rules st)

/-- The events as the third phase finds them. -/
structure Reclassified (st : Storage) (t : Events) : Prop where
  rows : ∃ new, t.rows = reclassifiedAll x rules none st.events.rows ++ new ∧
    (promoted x rules st).rows = st.events.rows ++ new ∧
    ∀ a ∈ new, st.events.seq < a.1 ∧ a.2 ∈ promotions x rules st

variable {x rules}

theorem eventTypeKey_enrichZone (z : Option String) (e : GameEvent) :
    (enrichZone z e).eventTypeKey = e.eventTypeKey := by
  cases e <;> rfl

theorem eventType_reclassified_ne {z : Option String} {r : EventRow}
    (h : (eventOf x rules r).isSome) :
    (reclassified x rules z r).eventType ≠ "burst_summary" := by
  obtain ⟨e, he⟩ := Option.isSome_iff_exists.mp h
  rw [reclassified_of_some he]
  exact (eventTypeKey_enrichZone _ e).symm ▸ eventTypeKey_ne_burstSummary he

theorem exists_of_mem_reclassifiedAll : ∀ {z : Option String} {rows : List (ℕ × EventRow)}
    {a : ℕ × EventRow}, a ∈ reclassifiedAll x rules z rows →
    ∃ z' b, b ∈ rows ∧ a = (b.1, reclassified x rules z' b.2)
  | _, [], _, h => by cases h
  | z, b :: rows, a, h => by
    rcases List.mem_cons.mp h with rfl | h
    · exact ⟨z, b, List.mem_cons_self, rfl⟩
    · obtain ⟨z', c, hc, rfl⟩ := exists_of_mem_reclassifiedAll h
      exact ⟨z', c, List.mem_cons_of_mem _ hc, rfl⟩

theorem exists_mem_reclassifiedAll : ∀ {z : Option String} {rows : List (ℕ × EventRow)}
    {b : ℕ × EventRow}, b ∈ rows →
    ∃ z', (b.1, reclassified x rules z' b.2) ∈ reclassifiedAll x rules z rows
  | z, a :: rows, b, h => by
    rcases List.mem_cons.mp h with rfl | h
    · exact ⟨z, List.mem_cons_self⟩
    · obtain ⟨z', hz'⟩ := exists_mem_reclassifiedAll (z := zoneBehind x rules z a.2) h
      exact ⟨z', List.mem_cons_of_mem _ hz'⟩

theorem promotions_eq_nil {st : Storage}
    (h : ∀ r ∈ st.unknownSamples.contents, promotion x rules r = none) :
    promotions x rules st = [] ∧ promoted x rules st = st.events := by
  have hnil : promotions x rules st = [] := List.filterMap_eq_nil_iff.mpr fun r hr =>
    h r ((List.perm_insertionSort _ _).mem_iff.mp hr)
  exact ⟨hnil, by rw [promoted, hnil, Table.insertAll_nil]⟩

theorem exists_rowUnder_of_mem_promotions {st : Storage} {r : EventRow}
    (h : r ∈ promotions x rules st) :
    ∃ key logSource line, rowUnder x rules key logSource 0 line = some r := by
  obtain ⟨s, -, hs⟩ := List.mem_filterMap.mp h
  exact ⟨_, _, _, hs⟩

theorem Reclassified.classified {st : Storage} {t : Events} (h : Reclassified x rules st t)
    (source : String) : Classified x rules t source := by
  obtain ⟨new, hrows, -, hnew⟩ := h.rows
  intro a ha _ hrec
  rw [hrows] at ha
  rcases List.mem_append.mp ha with ha | ha
  · obtain ⟨z, b, -, rfl⟩ := exists_of_mem_reclassifiedAll ha
    rw [eventOf_reclassified] at hrec
    exact eventType_reclassified_ne hrec
  · obtain ⟨key, src, line, hr⟩ := exists_rowUnder_of_mem_promotions (hnew a ha).2
    obtain ⟨e, he, hae⟩ := Option.map_eq_some_iff.mp hr
    rw [← hae]
    exact eventTypeKey_ne_burstSummary he

/-- The first two phases. -/
theorem promoteUnknowns_reclassifyEvents (st : Storage) :
    ∃ t samples n k, Reclassified x rules st t ∧
      promoteUnknowns x rules ((reclassifyEvents x rules st).storage,
          (reclassifyEvents x rules st).stats) =
        ({ st with events := t, unknownSamples := samples },
          ⟨n, changes x rules none st.events.rows, k, (promotions x rules st).length, 0, 0⟩) ∧
      ∀ r ∈ samples.contents, promotion x rules r = none := by
  obtain ⟨events, z, n, k, h₁, hrows, hseq⟩ := @reclassifyEvents_spec x rules st
  obtain ⟨samples, h₂, hleft⟩ := promoteUnknowns_spec (x := x)
    (({ st with events := events } : Storage),
      ⟨n, changes x rules none st.events.rows, k, 0, 0, 0⟩)
  have hkeys : events.keys = st.events.keys := by
    rw [Table.keys, hrows]
    exact map_reclassifiedAll (fun a z => (reclassified_frame z a.2).1) none st.events.rows
  obtain ⟨new, hev, hst, hnew⟩ := Table.insertAll_congr hkeys hseq (promotions x rules st)
  have ht : Reclassified x rules st (events.insertAll (promotions x rules st)) :=
    ⟨new, by rw [hev, hrows], hst, fun a ha => ⟨hseq ▸ (hnew a ha).1, (hnew a ha).2⟩⟩
  refine ⟨_, samples, n, k, ht, ?_, hleft⟩
  rw [h₁]
  simp only
  rw [h₂]
  simp only [Nat.zero_add]
  rfl

/-- **A re-parse**, phase by phase. -/
theorem runReparse_spec (st : Storage) :
    ∃ t samples n k m, Reclassified x rules st t ∧
      runReparse x rules st =
        ({ st with
            events := (retroBursts x rules t).foldl (storeBurst x) t, unknownSamples := samples },
          ⟨n, changes x rules none st.events.rows, k, (promotions x rules st).length,
            (retroBursts x rules t).length, m⟩) ∧
      (retroBursts x rules t = [] → m = 0) ∧
      ∀ r ∈ samples.contents, promotion x rules r = none := by
  obtain ⟨t, samples, n, k, ht, h₂, hleft⟩ := @promoteUnknowns_reclassifyEvents x rules st
  obtain ⟨m, h₃, hm⟩ := collapseBursts_spec (x := x)
    (s := promoteUnknowns x rules ((reclassifyEvents x rules st).storage,
      (reclassifyEvents x rules st).stats)) (by rw [h₂]; exact ht.classified)
  rw [h₂] at h₃ hm
  refine ⟨t, samples, n, k, m, ht, ?_, hm, hleft⟩
  rw [runReparse]
  rw [h₂, h₃, Nat.zero_add]

/-! ### Summaries -/

/-- A summary whose line is not recognised is not scanned. -/
theorem not_mem_memberIds {t : Events} {sources : List String} {a : ℕ × EventRow} (ha : a ∈ t.rows)
    (ht : a.2.eventType = "burst_summary") (hn : eventOf x rules a.2 = none) :
    a.1 ∉ memberIds (burstsOfSources x rules t sources) := by
  intro hi
  obtain ⟨source, -, b, -, m, -, he⟩ := exists_member ha hi
  rw [entryFor, if_neg] at he
  · cases he
  · rintro ⟨-, h⟩
    have := h ht
    rw [hn] at this
    cases this

/-- A summary is kept exactly if its line is not recognised. -/
theorem summary_mem_iff {st : Storage} {a : ℕ × EventRow} (ha : a ∈ st.events.rows)
    (hbs : a.2.eventType = "burst_summary") :
    a ∈ (runReparse x rules st).1.events.rows ↔ recognise x rules a.2.rawLine = none := by
  obtain ⟨t, samples, n, k, m, ht, hrun, -, -⟩ := runReparse_spec (x := x) st
  obtain ⟨new, hrows, -, hnew⟩ := ht.rows
  obtain ⟨news, hfinal, hnews, -⟩ :=
    (collapsed_sources (x := x) t (nodup_logSources t)).rows
  obtain ⟨z, hz⟩ := exists_mem_reclassifiedAll (x := x) (z := none) ha
  have hzt : (a.1, reclassified x rules z a.2) ∈ t.rows := by
    rw [hrows]; exact List.mem_append_left _ hz
  rw [hrun]
  change a ∈ ((burstsOfSources x rules t (logSources t)).foldl (storeBurst x) t).rows ↔ _
  rw [hfinal]
  constructor
  · intro hkept
    by_contra hrec
    have hrec : (eventOf x rules a.2).isSome := Option.isSome_iff_ne_none.mpr hrec
    have hat : a ∈ t.rows := by
      rcases List.mem_append.mp hkept with h | h
      · exact List.mem_of_mem_filter h
      · -- the ids of the new summaries lie above all ids of the store
        have := (hnews a h).1
        have := (t.bounded _ hzt).2
        omega
    refine eventType_reclassified_ne (z := z) hrec ?_
    rw [show reclassified x rules z a.2 = a.2 from
      congrArg Prod.snd (Table.eq_of_id_eq hzt hat rfl), hbs]
  · intro hnone
    rw [reclassified_of_none hnone] at hzt
    refine List.mem_append_left _ (List.mem_filter.mpr ⟨hzt, decide_eq_true ?_⟩)
    exact not_mem_memberIds hzt hbs hnone

/-- **A re-parse keeps the summaries exactly if the line of none is recognised.** -/
theorem summaries_kept_iff (x : Externals) (rules : List CompiledRemoteRule) (st : Storage) :
    (∀ a ∈ st.events.rows, a.2.eventType = "burst_summary" →
        a ∈ (runReparse x rules st).1.events.rows) ↔
      ∀ a ∈ st.events.rows, a.2.eventType = "burst_summary" →
        recognise x rules a.2.rawLine = none :=
  forall_congr' fun _ => forall_congr' fun ha => forall_congr' fun hbs => summary_mem_iff ha hbs

/-- The summary that the tail stores for three notifications at the start of a log. -/
def notifiedSummary : EventRow :=
  ⟨idempotencyKey .std "live" 0 (syntheticLine notifiedLine "hud_notification_burst" 3),
    "burst_summary", "1", notifiedLine,
    (summaryEvent "hud_notification_burst" 3 notifiedLog notifiedLog).toValue.render, "live", 0⟩

/-- The line of its anchor is a notification, and so is the row after a re-parse. -/
theorem not_summaries_kept_notified : ¬ ∀ a ∈ ((Storage.fresh [] "").insertEvent
      notifiedSummary).events.rows, a.2.eventType = "burst_summary" →
    a ∈ (runReparse .std [] ((Storage.fresh [] "").insertEvent notifiedSummary)).1.events.rows := by
  intro h
  have ha : (1, notifiedSummary) ∈ ((Storage.fresh [] "").insertEvent notifiedSummary).events.rows :=
    List.mem_singleton_self _
  have hnone := (summary_mem_iff ha rfl).mp (h _ ha rfl)
  rw [show (1, notifiedSummary).2.rawLine = notifiedLine from rfl, recognise_notifiedLine] at hnone
  cases hnone

/-! ### The second pass -/

/-- A second pass finds nothing to do. -/
def Idempotent (x : Externals) (rules : List CompiledRemoteRule) (st : Storage) : Prop :=
  let once := (runReparse x rules st).1
  let twice := runReparse x rules once
  twice.1.events.rows = once.events.rows ∧ twice.2.updated = 0 ∧ twice.2.promotedUnknowns = 0 ∧
    twice.2.burstsCollapsed = 0 ∧ twice.2.membersSuppressed = 0

variable (x rules) in
/-- Every promoted death that is no member of a burst comes before all rows that tell a zone. -/
def DeathsSettled (st : Storage) : Prop :=
  ∀ pre a post, (promoted x rules st).rows = pre ++ a :: post → st.events.seq < a.1 →
    a.1 ∉ memberIds (retroBursts x rules (promoted x rules st)) →
    (∃ e, eventOf x rules a.2 = some e ∧ isDeath e) →
    ∀ b ∈ pre, (eventOf x rules b.2).bind zoneSignal = none

variable (x rules) in
/-- The lines that no burst takes have no bursts. -/
def NoneLeft (t : Events) : Prop :=
  ∀ source, burstsOf ScanEntry.log
    ((scanned x rules t source).filter fun m => m.id ∉ memberIds (retroBursts x rules t))
    builtinBurstRules = []

section Same
variable {st : Storage} {t : Events}

/-- What does not depend on how the rows are classified is there from the start. -/
theorem Reclassified.map_eq (h : Reclassified x rules st t) {α : Type} {f : ℕ × EventRow → α}
    (hf : ∀ a z, f (a.1, reclassified x rules z a.2) = f a) :
    t.rows.map f = (promoted x rules st).rows.map f := by
  obtain ⟨new, hrows, hst, -⟩ := h.rows
  rw [hrows, hst, List.map_append, List.map_append, map_reclassifiedAll hf]

theorem entryFor_reclassified (source : String) (a : ℕ × EventRow) (z : Option String) :
    entryFor x rules source (a.1, reclassified x rules z a.2) = entryFor x rules source a := by
  obtain ⟨-, hraw, hsrc, hoff⟩ := @reclassified_frame x rules z a.2
  cases h : eventOf x rules a.2 with
  | none => rw [reclassified_of_none h]
  | some e =>
    have hrec := (eventOf_reclassified (x := x) z a.2).trans h
    simp only [entryFor, hraw, hsrc, hoff, hrec, h, Option.isSome_some, implies_true, and_true]

theorem Reclassified.scanned_eq (h : Reclassified x rules st t) (source : String) :
    scanned x rules t source = scanned x rules (promoted x rules st) source := by
  have hmap := h.map_eq fun a z => entryFor_reclassified (x := x) source a z
  have := congrArg (List.filterMap id) hmap
  rw [List.filterMap_map, List.filterMap_map] at this
  rw [scanned, scanned]
  exact congrArg _ this

theorem Reclassified.retroBursts_eq (h : Reclassified x rules st t) :
    retroBursts x rules t = retroBursts x rules (promoted x rules st) := by
  have hsrc : logSources t = logSources (promoted x rules st) := by
    have := h.map_eq (f := fun a => a.2.logSource) fun a z => (reclassified_frame z a.2).2.2.1
    simp only [logSources, Table.contents, List.map_map, Function.comp_def]
    rw [this]
  rw [retroBursts, retroBursts, hsrc]
  refine List.flatMap_congr fun source _ => ?_
  rw [burstsIn, burstsIn, h.scanned_eq]

theorem Reclassified.held_eq (h : Reclassified x rules st t)
    (ps : List (String × Burst ScanEntry)) : held x t ps = held x (promoted x rules st) ps := by
  have hmap := h.map_eq (f := fun a => (a.1, a.2.idempotencyKey)) fun a z =>
    congrArg (a.1, ·) (reclassified_frame z a.2).1
  have hkeys : t.keys = (promoted x rules st).keys := by
    simpa [Table.keys, Function.comp_def] using congrArg (List.map Prod.snd) hmap
  have hmem : ∀ p, memberKeys t p = memberKeys (promoted x rules st) p := fun p => by
    have := congrArg (fun l => (l.filter fun a => a.1 ∈ p.2.members.map (·.id)).map Prod.snd) hmap
    rw [memberKeys, memberKeys]
    simpa only [List.filter_map, List.map_map, Function.comp_def] using this
  rw [held, held, hkeys]
  simp only [hmem]

theorem Reclassified.anchorsHeld_iff (h : Reclassified x rules st t) :
    AnchorsHeld x rules t (retroBursts x rules t) ↔
      AnchorsHeld x rules (promoted x rules st) (retroBursts x rules (promoted x rules st)) := by
  rw [h.retroBursts_eq]
  simp only [AnchorsHeld, h.held_eq]

theorem Reclassified.noneLeft_iff (h : Reclassified x rules st t) :
    NoneLeft x rules t ↔ NoneLeft x rules (promoted x rules st) := by
  simp only [NoneLeft, h.scanned_eq, h.retroBursts_eq]

end Same

/-- A line that a built-in rule takes tells no zone. -/
theorem zoneSignal_eq_none_of_burst {log : LogLine} {e : GameEvent}
    (he : recogniseParsed x rules log = some e)
    (hn : ∃ name ∈ burstEventNames, log.eventName = some name) : zoneSignal e = none := by
  obtain ⟨name, hname, hlog⟩ := hn
  have hp := produced_of_recogniseParsed he
  cases e with
  | planetTerrainLoad t =>
    rw [Produced, hlog, Option.some.injEq] at hp
    subst hp
    simp [burstEventNames] at hname
  | locationInventoryRequested l =>
    rw [Produced, hlog, Option.some.injEq] at hp
    subst hp
    simp [burstEventNames] at hname
  | _ => rfl

theorem zone_eq_none_of_member {t : Events} {sources : List String} {a : ℕ × EventRow}
    (ha : a ∈ t.rows) (hi : a.1 ∈ memberIds (burstsOfSources x rules t sources)) :
    (eventOf x rules a.2).bind zoneSignal = none := by
  obtain ⟨source, -, b, hb, m, hm, he⟩ := exists_member ha hi
  obtain ⟨-, -, hlog⟩ := entryFor_eq_some he
  obtain ⟨rule, hrule, -, -, hanchor, hmember⟩ := (burstIn_of_mem hb).matches_rule
  have hname : ∃ name ∈ burstEventNames, m.log.eventName = some name := by
    refine eventName_of_lineMatches hrule ?_
    by_cases hma : m = b.anchor
    · rw [← hma] at hanchor
      exact Or.inl hanchor
    · exact Or.inr (hmember _ hm hma)
  refine Option.bind_eq_none_iff.mpr fun e hev => ?_
  obtain ⟨log', hlog', hrec⟩ := recognise_eq_some.mp hev
  rw [hlog, Option.some.injEq] at hlog'
  subst hlog'
  exact zoneSignal_eq_none_of_burst hrec hname

/-- Summaries stay exactly if none of their lines is recognised. -/
theorem reclassifiedAll_summaries_iff : ∀ {z : Option String} {rows : List (ℕ × EventRow)},
    (∀ a ∈ rows, a.2.eventType = "burst_summary") →
    (reclassifiedAll x rules z rows = rows ↔ ∀ a ∈ rows, eventOf x rules a.2 = none)
  | _, [], _ => by simp [reclassifiedAll]
  | z, a :: rows, h => by
    obtain ⟨ha, h⟩ := List.forall_mem_cons.mp h
    rw [reclassifiedAll, List.cons.injEq, List.forall_mem_cons, reclassifiedAll_summaries_iff h]
    refine and_congr_left fun _ => ⟨fun heq => ?_, fun hn => by rw [reclassified_of_none hn]⟩
    by_contra hrec
    have hrow : reclassified x rules z a.2 = a.2 := congrArg Prod.snd heq
    refine eventType_reclassified_ne (z := z) (Option.isSome_iff_ne_none.mpr hrec) ?_
    rw [hrow, ha]

theorem length_reclassifiedAll : ∀ (z : Option String) (rows : List (ℕ × EventRow)),
    (reclassifiedAll x rules z rows).length = rows.length
  | _, [] => rfl
  | _, _ :: rows => congrArg (· + 1) (length_reclassifiedAll _ rows)

theorem eventType_of_eq_retroRow {ps : List (String × Burst ScanEntry)} {a : ℕ × EventRow}
    (h : ∃ p ∈ ps, a.2 = retroRow x p.1 p.2) : a.2.eventType = "burst_summary" := by
  obtain ⟨p, -, hrow⟩ := h
  rw [hrow]
  rfl

section Second
variable {st : Storage} {t : Events}

/-- The promoted samples stay as they are exactly if the deaths among them are settled. -/
theorem Reclassified.filter_new_iff (h : Reclassified x rules st t) {new : List (ℕ × EventRow)}
    (hst : (promoted x rules st).rows = st.events.rows ++ new)
    (hnew : ∀ a ∈ new, st.events.seq < a.1 ∧ a.2 ∈ promotions x rules st) :
    (reclassifiedAll x rules (zoneAfter x rules none st.events.rows) new).filter
        (fun a => a.1 ∉ memberIds (retroBursts x rules t)) =
      new.filter (fun a => a.1 ∉ memberIds (retroBursts x rules t)) ↔
    DeathsSettled x rules st := by
  rw [filter_reclassifiedAll_eq_iff (q := fun i => i ∉ memberIds (retroBursts x rules t))]
  have hstays : ∀ pre a, a ∈ new →
      (reclassified x rules (zoneAfter x rules (zoneAfter x rules none st.events.rows) pre) a.2 =
          a.2 ↔
        ((∃ e, eventOf x rules a.2 = some e ∧ isDeath e) →
          ∀ b ∈ st.events.rows ++ pre, (eventOf x rules b.2).bind zoneSignal = none)) := by
    intro pre a ha
    obtain ⟨key, src, line, hrow⟩ := exists_rowUnder_of_mem_promotions (hnew a ha).2
    have hz : zoneAfter x rules (zoneAfter x rules none st.events.rows) pre =
        zoneAfter x rules none (st.events.rows ++ pre) := by
      rw [zoneAfter, zoneAfter, zoneAfter, List.foldl_append]
    rw [reclassified_eq_self_iff hrow, hz, zoneAfter_eq_none_iff]
    simp only [true_and, forall_exists_index, and_imp]
  rw [DeathsSettled, ← h.retroBursts_eq, hst]
  constructor
  · intro hall pre a post hsplit hid hfree hdeath
    obtain ⟨pre', rfl, hnew'⟩ | ⟨c, hc, hac⟩ := List.append_eq_append_iff.mp hsplit
    · exact (hstays pre' a (by rw [hnew']; simp)).mp
        (hall pre' a post hnew' (decide_eq_true hfree)) hdeath
    · cases c with
      | nil =>
        have := (hstays [] a (by rw [← List.nil_append new, ← hac]; simp)).mp
          (hall [] a post hac.symm (decide_eq_true hfree)) hdeath
        exact fun b hb => this b (by rw [hc]; simpa using hb)
      | cons d c =>
        obtain ⟨rfl, -⟩ := List.cons.inj hac
        have := (st.events.bounded a (by rw [hc]; simp)).2
        omega
  · intro hall pre a post hsplit hfree
    have ha : a ∈ new := by rw [hsplit]; simp
    refine (hstays pre a ha).mpr fun hdeath => ?_
    exact hall (st.events.rows ++ pre) a post (by rw [hsplit, List.append_assoc]) (hnew a ha).1
      (of_decide_eq_true hfree) hdeath

/-- **The second walk changes no row** exactly if the deaths are settled and the anchors held. -/
theorem Reclassified.changes_eq_zero_iff (h : Reclassified x rules st t) :
    changes x rules none ((retroBursts x rules t).foldl (storeBurst x) t).rows = 0 ↔
      DeathsSettled x rules st ∧ AnchorsHeld x rules t (retroBursts x rules t) := by
  obtain ⟨new, hrows, hst, hnew⟩ := h.rows
  obtain ⟨news, hfinal, hnews, hquiet⟩ :=
    (collapsed_sources (x := x) t (nodup_logSources t)).rows
  rw [← retroBursts] at hfinal hquiet
  have hzone : ∀ a ∈ t.rows, decide (a.1 ∉ memberIds (retroBursts x rules t)) = false →
      (eventOf x rules a.2).bind zoneSignal = none := fun a ha hi =>
    zone_eq_none_of_member ha (of_not_not (of_decide_eq_false hi))
  rw [ReparsePhases.changes_eq_zero_iff, hfinal, reclassifiedAll_append,
    (reclassifiedAll_filter (q := fun i => i ∉ memberIds (retroBursts x rules t)) hzone).1, hrows,
    reclassifiedAll_append, reclassifiedAll_reclassifiedAll, zoneAfter_reclassifiedAll,
    List.filter_append, List.filter_append, List.append_assoc, List.append_assoc,
    List.append_cancel_left_eq, ← h.filter_new_iff hst hnew, ← hquiet,
    ← reclassifiedAll_summaries_iff fun a ha => eventType_of_eq_retroRow (hnews a ha).2]
  exact ⟨fun he => List.append_inj' he (length_reclassifiedAll _ _), fun ⟨h₁, h₂⟩ => by rw [h₁, h₂]⟩

/-- **There are no bursts left** exactly if the lines that no burst has taken have none. -/
theorem retroBursts_eq_nil_iff (hq : AnchorsHeld x rules t (retroBursts x rules t)) :
    retroBursts x rules ((retroBursts x rules t).foldl (storeBurst x) t) = [] ↔
      NoneLeft x rules t := by
  obtain ⟨news, hfinal, hnews, hquiet⟩ :=
    (collapsed_sources (x := x) t (nodup_logSources t)).rows
  rw [← retroBursts] at hfinal hquiet
  have hnone := hquiet.mpr hq
  generalize (retroBursts x rules t).foldl (storeBurst x) t = u at hfinal
  have hscan : ∀ source, scanned x rules u source = (scanned x rules t source).filter
      fun m => m.id ∉ memberIds (retroBursts x rules t) := by
    intro source
    have hnil : news.filterMap (entryFor x rules source) = [] := by
      refine List.filterMap_eq_nil_iff.mpr fun a ha => ?_
      rw [entryFor, if_neg]
      rintro ⟨-, hrec⟩
      have := hrec (eventType_of_eq_retroRow (hnews a ha).2)
      rw [hnone a ha] at this
      cases this
    rw [scanned, scanned, filter_sortBy, hfinal, List.filterMap_append, hnil, List.append_nil,
      List.filterMap_filter, List.filter_filterMap]
    congr 1
    refine List.filterMap_congr fun a _ => ?_
    cases he : entryFor x rules source a with
    | none => simp
    | some m =>
      have hid := id_of_entryFor he
      by_cases hi : a.1 ∈ memberIds (retroBursts x rules t) <;> simp [hi, hid, Option.filter]
  have hbursts : ∀ source, burstsIn x rules u source = burstsOf ScanEntry.log
      ((scanned x rules t source).filter fun m => m.id ∉ memberIds (retroBursts x rules t))
      builtinBurstRules := fun source => by rw [burstsIn, hscan]
  rw [retroBursts, burstsOfSources, List.flatMap_eq_nil_iff, NoneLeft]
  simp only [List.map_eq_nil_iff, ← hbursts]
  refine ⟨fun hall source => ?_, fun hall source _ => hall source⟩
  by_cases hs : source ∈ logSources u
  · exact hall source hs
  · have hempty : u.rows.filterMap (entryFor x rules source) = [] := by
      refine List.filterMap_eq_nil_iff.mpr fun a ha => ?_
      rw [entryFor, if_neg]
      rintro ⟨hsrc, -⟩
      exact hs (mem_logSources.mpr ⟨a, ha, hsrc⟩)
    rw [burstsIn, scanned, hempty]
    exact burstsOf_eq_nil_of_length_lt (by simp [sortBy])

/-- A second pass finds nothing to do exactly if its walk changes no row, and no bursts are left. -/
theorem exists_idempotent_iff (st : Storage) : ∃ t, Reclassified x rules st t ∧
    (Idempotent x rules st ↔
      changes x rules none ((retroBursts x rules t).foldl (storeBurst x) t).rows = 0 ∧
        retroBursts x rules ((retroBursts x rules t).foldl (storeBurst x) t) = []) := by
  obtain ⟨t, samples, n, k, m, ht, hrun, -, hleft⟩ := runReparse_spec (x := x) st
  refine ⟨t, ht, ?_⟩
  rw [Idempotent, hrun]
  generalize (retroBursts x rules t).foldl (storeBurst x) t = u
  obtain ⟨t₁, samples₁, n₁, k₁, m₁, ht₁, hrun₁, hm₁, -⟩ := runReparse_spec (x := x)
    { st with events := u, unknownSamples := samples }
  obtain ⟨hnil, hsame⟩ := @promotions_eq_nil x rules
    { st with events := u, unknownSamples := samples } hleft
  have hretro : retroBursts x rules t₁ = retroBursts x rules u := by
    rw [ht₁.retroBursts_eq, hsame]
  simp only [hrun₁, hnil, List.length_nil, hretro]
  constructor
  · rintro ⟨-, hch, -, hbursts, -⟩
    exact ⟨hch, List.eq_nil_of_length_eq_zero hbursts⟩
  · rintro ⟨hch, hbursts⟩
    obtain ⟨new, hrows, hst, -⟩ := ht₁.rows
    rw [hsame] at hst
    obtain rfl : new = [] := List.append_right_eq_self.mp hst.symm
    rw [List.append_nil, ReparsePhases.changes_eq_zero_iff.mp hch] at hrows
    exact ⟨by rw [hbursts]; exact hrows, hch, trivial, by rw [hbursts]; rfl,
      hm₁ (hretro.trans hbursts)⟩

end Second

/-- **A second pass does nothing exactly if the promoted deaths are settled, no summary is written for
an anchor that is recognised, and the lines that no burst takes have no bursts.** -/
theorem idempotent_iff (x : Externals) (rules : List CompiledRemoteRule) (st : Storage) :
    Idempotent x rules st ↔
      DeathsSettled x rules st ∧
      AnchorsHeld x rules (promoted x rules st) (retroBursts x rules (promoted x rules st)) ∧
      NoneLeft x rules (promoted x rules st) := by
  obtain ⟨t, ht, hiff⟩ := exists_idempotent_iff (x := x) st
  rw [hiff, ht.changes_eq_zero_iff, ← ht.anchorsHeld_iff, ← ht.noneLeft_iff, and_assoc]
  exact and_congr_right fun _ => and_congr_right fun hq => retroBursts_eq_nil_iff hq

/-- A notification, stored on its own. -/
def notifiedRow (offset : ℕ) : EventRow :=
  ⟨idempotencyKey .std "live" offset notifiedLine, "hud_notification", "1", notifiedLine,
    notifiedEvent.toValue.render, "live", offset⟩

/-- A store of three notifications. -/
def notifiedStore : Storage :=
  (((Storage.fresh [] "").insertEvent (notifiedRow 0)).insertEvent (notifiedRow 58)).insertEvent
    (notifiedRow 116)

theorem rows_notifiedStore : notifiedStore.events.rows =
    [(1, notifiedRow 0), (2, notifiedRow 58), (3, notifiedRow 116)] := by decide

theorem retroBursts_notified :
    (retroBursts .std [] notifiedStore.events).map (fun p => (p.1, p.2.anchor, p.2.size)) =
      [("live", ⟨1, notifiedLine, 0, notifiedLog⟩, 3)] := by
  have hsources : logSources notifiedStore.events = ["live"] := by
    rw [logSources, Table.contents, rows_notifiedStore]
    decide
  have hentry : ∀ i o, entryFor .std [] "live" (i, notifiedRow o) =
      some ⟨i, notifiedLine, o, notifiedLog⟩ := fun i o => by
    simp [entryFor, notifiedRow, structuralParse_notifiedLine]
  have hscan : scanned .std [] notifiedStore.events "live" =
      [⟨1, notifiedLine, 0, notifiedLog⟩, ⟨2, notifiedLine, 58, notifiedLog⟩,
        ⟨3, notifiedLine, 116, notifiedLog⟩] := by
    rw [scanned, rows_notifiedStore]
    simp only [List.filterMap_cons, hentry, List.filterMap_nil]
    decide
  rw [retroBursts, burstsOfSources, hsources]
  simp only [List.flatMap_cons, List.flatMap_nil, List.append_nil, burstsIn, hscan]
  decide

/-- The three are collapsed into one summary, and the second pass makes a notification of it. -/
theorem not_idempotent_notified : ¬ Idempotent .std [] notifiedStore := by
  intro h
  obtain ⟨t, ht, hiff⟩ := exists_idempotent_iff (x := .std) notifiedStore
  have hq := ht.anchorsHeld_iff.mp (ht.changes_eq_zero_iff.mp (hiff.mp h).1).2
  rw [show promoted .std [] notifiedStore = notifiedStore.events from rfl] at hq
  obtain ⟨⟨source, b⟩, hp, hpb⟩ := List.map_eq_singleton_iff.mp retroBursts_notified
  simp only [Prod.mk.injEq] at hpb
  obtain ⟨rfl, hanchor, hsize⟩ := hpb
  have hheld := hq 0 _ (by rw [hp]; rfl) (by rw [hanchor, recognise_notifiedLine]; rfl)
  rw [List.take_zero, held, List.foldl_nil, retroRow, hanchor, hsize, Table.mem_keys,
    rows_notifiedStore] at hheld
  obtain ⟨a, ha, hkey⟩ := hheld
  have hne : ∀ o, (notifiedRow o).idempotencyKey ≠
      idempotencyKey .std "live" 0 (syntheticLine notifiedLine b.ruleId 3) := fun o h =>
    syntheticLine_ne _ _ _ (idempotencyKey_inj (x := .std) h).2.symm
  simp only [List.mem_cons, List.not_mem_nil, or_false] at ha
  rcases ha with rfl | rfl | rfl <;> exact hne _ hkey

end

end StarStats.Client.ReparseTwice
