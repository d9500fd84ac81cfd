import StarStats.Core.BurstOrder
import StarStats.Client.RetroBursts

/-! # Rows that are no lines of a game log

The store has rows of other origin too, of the launcher and of crashes. A re-parse reads the lines of game
logs, and leaves every row that does not parse as one as it is (`runReparse_side`). Those that do parse
stay apart from the others, as far as keys and sources go (`runReparse_apart`). -/

namespace StarStats.Client.SideRows

open StarStats.Lib.Tables
open StarStats.Core.Events StarStats.Core.Crates StarStats.Core.Parser StarStats.Core.ParserDefs
open StarStats.Core.Bursts StarStats.Core.BurstOrder
open StarStats.Client.Store StarStats.Client.Gamelog StarStats.Client.Ingest StarStats.Client.BurstRules
open StarStats.Client.Reparse StarStats.Client.ReparsePhases StarStats.Client.RetroBursts

/-- The line has the shell of a line of a game log. -/
def Parses (x : Externals) (line : String) : Prop := (structuralParse x line).isSome = true

/-- The rows that do not parse are the same. -/
def SameSide (x : Externals) (t u : Events) : Prop :=
  ∀ a : ℕ × EventRow, ¬ Parses x a.2.rawLine → (a ∈ u.rows ↔ a ∈ t.rows)

/-- No line of the source gets one of the keys. -/
def Free (x : Externals) (K : String → Prop) (source : String) : Prop :=
  ∀ offset line, ¬ K (idempotencyKey x source offset line)

/-- What parses is not under the keys, and of a source whose lines are not. -/
def ApartRow (x : Externals) (K : String → Prop) (r : EventRow) : Prop :=
  Parses x r.rawLine → ¬ K r.idempotencyKey ∧ Free x K r.logSource

/-- Rows and samples keep clear of the keys. -/
structure Apart (x : Externals) (K : String → Prop) (st : Storage) : Prop where
  rows : ∀ a ∈ st.events.rows, ApartRow x K a.2
  samples : ∀ s ∈ st.unknownSamples.contents, Free x K s.logSource

variable {x : Externals} {rules : List CompiledRemoteRule} {K : String → Prop}

theorem SameSide.refl (t : Events) : SameSide x t t := fun _ _ => Iff.rfl

theorem SameSide.trans {t u v : Events} (htu : SameSide x t u) (huv : SameSide x u v) : SameSide x t v :=
  fun a ha => (huv a ha).trans (htu a ha)

theorem parses_of_recognise {line : String} {e : GameEvent} (h : recognise x rules line = some e) :
    Parses x line := by
  obtain ⟨parsed, hparsed, -⟩ := recognise_eq_some.mp h
  unfold Parses
  rw [hparsed]
  rfl

theorem sameSide_insert {t : Events} {r : EventRow} (hr : Parses x r.rawLine) :
    SameSide x t (t.insert r) := by
  intro a ha
  rw [Table.mem_rows_insert]
  constructor
  · rintro (hold | ⟨-, rfl⟩)
    · exact hold
    · exact absurd hr ha
  · exact Or.inl

theorem sameSide_insertAll : ∀ {rs : List EventRow} {t : Events}, (∀ r ∈ rs, Parses x r.rawLine) →
    SameSide x t (t.insertAll rs)
  | [], _, _ => .refl _
  | r :: rs, t, h => by
    have hfirst : SameSide x t (t.insert r) := sameSide_insert (h r List.mem_cons_self)
    exact hfirst.trans (sameSide_insertAll fun r' hr' => h r' (List.mem_cons_of_mem r hr'))

theorem apart_insert {t : Events} {r : EventRow} (ht : ∀ a ∈ t.rows, ApartRow x K a.2)
    (hr : ApartRow x K r) : ∀ a ∈ (t.insert r).rows, ApartRow x K a.2 := by
  intro a ha
  rcases Table.mem_rows_insert.mp ha with hold | ⟨-, rfl⟩
  · exact ht a hold
  · exact hr

theorem apart_insertAll : ∀ {rs : List EventRow} {t : Events}, (∀ a ∈ t.rows, ApartRow x K a.2) →
    (∀ r ∈ rs, ApartRow x K r) → ∀ a ∈ (t.insertAll rs).rows, ApartRow x K a.2
  | [], _, ht, _ => ht
  | r :: rs, t, ht, h => by
    have hfirst : ∀ a ∈ (t.insert r).rows, ApartRow x K a.2 := apart_insert ht (h r List.mem_cons_self)
    rw [Table.insertAll_cons]
    exact apart_insertAll hfirst fun r' hr' => h r' (List.mem_cons_of_mem r hr')

/-! ### Phase 1 -/

theorem mem_reclassifiedAll_of_side : ∀ {z : Option String} {rows : List (ℕ × EventRow)} {a : ℕ × EventRow},
    ¬ Parses x a.2.rawLine → (a ∈ reclassifiedAll x rules z rows ↔ a ∈ rows)
  | _, [], _, _ => Iff.rfl
  | z, b :: rows, a, ha => by
    have ih := @mem_reclassifiedAll_of_side (zoneBehind x rules z b.2) rows a ha
    rw [reclassifiedAll, List.mem_cons, List.mem_cons, ih]
    refine or_congr_left ?_
    cases hevent : eventOf x rules b.2 with
    | none => rw [reclassified_of_none hevent]
    | some e =>
      have hparses : Parses x b.2.rawLine := parses_of_recognise hevent
      have hline : (reclassified x rules z b.2).rawLine = b.2.rawLine := (reclassified_frame z b.2).2.1
      constructor
      · rintro rfl
        exact absurd (hline.symm ▸ hparses) ha
      · rintro rfl
        exact absurd hparses ha

/-- A row that is classified again has its key, its line and its source. -/
theorem exists_of_mem_reclassifiedAll : ∀ {z : Option String} {rows : List (ℕ × EventRow)}
    {a : ℕ × EventRow}, a ∈ reclassifiedAll x rules z rows → ∃ b ∈ rows,
      a.2.idempotencyKey = b.2.idempotencyKey ∧ a.2.rawLine = b.2.rawLine ∧ a.2.logSource = b.2.logSource
  | _, [], _, h => absurd h List.not_mem_nil
  | z, b :: rows, a, h => by
    rcases List.mem_cons.mp h with rfl | h
    · obtain ⟨hkey, hline, hsource, -⟩ := @reclassified_frame x rules z b.2
      exact ⟨b, List.mem_cons_self, hkey, hline, hsource⟩
    · obtain ⟨c, hc, hsame⟩ := exists_of_mem_reclassifiedAll h
      exact ⟨c, List.mem_cons_of_mem b hc, hsame⟩

theorem reclassifyEvents_side (st : Storage) :
    SameSide x st.events (reclassifyEvents x rules st).storage.events := by
  obtain ⟨events, z, n, k, heq, hrows, -⟩ := @reclassifyEvents_spec x rules st
  rw [heq]
  intro a ha
  show a ∈ events.rows ↔ a ∈ st.events.rows
  rw [hrows]
  exact mem_reclassifiedAll_of_side ha

theorem reclassifyEvents_apart {st : Storage} (h : Apart x K st) :
    Apart x K (reclassifyEvents x rules st).storage := by
  obtain ⟨events, z, n, k, heq, hrows, -⟩ := @reclassifyEvents_spec x rules st
  rw [heq]
  refine ⟨fun a ha => ?_, h.samples⟩
  have hmem : a ∈ reclassifiedAll x rules none st.events.rows := hrows ▸ ha
  obtain ⟨b, hb, hkey, hline, hsource⟩ := exists_of_mem_reclassifiedAll hmem
  have hold := h.rows b hb
  unfold ApartRow at hold ⊢
  rwa [hkey, hline, hsource]

/-! ### Phase 2 -/

theorem parses_of_mem_promotions {st : Storage} {r : EventRow} (hr : r ∈ promotions x rules st) :
    Parses x r.rawLine ∧ ∃ s ∈ st.unknownSamples.contents,
      r.idempotencyKey = reparseIdempotencyKey x s.logSource s.sampleLine ∧ r.logSource = s.logSource := by
  obtain ⟨s, hs, hpromoted⟩ := List.mem_filterMap.mp hr
  obtain ⟨e, he, rfl⟩ := Option.map_eq_some_iff.mp hpromoted
  exact ⟨parses_of_recognise he, s, (List.perm_insertionSort _ _).mem_iff.mp hs, rfl, rfl⟩

theorem promoteUnknowns_side (s : Storage × ReparseStats) :
    SameSide x s.1.events (promoteUnknowns x rules s).1.events := by
  obtain ⟨samples, heq, -⟩ := @promoteUnknowns_spec x rules s
  rw [heq]
  exact sameSide_insertAll fun r hr => (parses_of_mem_promotions hr).1

theorem promoteUnknowns_apart {s : Storage × ReparseStats} (h : Apart x K s.1)
    (hreparse : ∀ source line, ¬ K (reparseIdempotencyKey x source line)) :
    ∀ a ∈ (promoteUnknowns x rules s).1.events.rows, ApartRow x K a.2 := by
  obtain ⟨samples, heq, -⟩ := @promoteUnknowns_spec x rules s
  rw [heq]
  refine apart_insertAll h.rows fun r hr _ => ?_
  obtain ⟨-, sample, hsample, hkey, hsource⟩ := parses_of_mem_promotions hr
  rw [hkey, hsource]
  exact ⟨hreparse _ _, h.samples sample hsample⟩

/-! ### Phase 3 -/

theorem exists_row_of_mem_scanEntries {st : Storage} {source : String} {m : ScanEntry}
    (h : m ∈ scanEntries x st source) : ∃ a ∈ st.events.rows,
      a.1 = m.id ∧ a.2.rawLine = m.rawLine ∧ a.2.logSource = source ∧ Parses x a.2.rawLine := by
  obtain ⟨r, hr, hentry⟩ := List.mem_filterMap.mp h
  unfold scanEntry at hentry
  split_ifs at hentry
  obtain ⟨log, hlog, rfl⟩ := Option.map_eq_some_iff.mp hentry
  obtain ⟨a, ha, rfl⟩ := List.mem_map.mp (mem_sortBy.mp hr)
  obtain ⟨hmem, hsource⟩ := List.mem_filter.mp ha
  refine ⟨a, hmem, rfl, rfl, of_decide_eq_true hsource, ?_⟩
  unfold Parses
  rw [hlog]
  rfl

/-- The burst is one of rows of a source that parse. -/
structure OfRows (x : Externals) (t : Events) (p : String × Burst ScanEntry) : Prop where
  anchor : ∃ a ∈ t.rows, a.2.rawLine = p.2.anchor.rawLine ∧ a.2.logSource = p.1 ∧ Parses x a.2.rawLine
  members : ∀ m ∈ p.2.members, ∃ a ∈ t.rows, a.1 = m.id ∧ Parses x a.2.rawLine

theorem ofRows_burst {st : Storage} {source : String} {b : Burst ScanEntry}
    (h : b ∈ burstsOf ScanEntry.log (scanEntries x st source) builtinBurstRules) :
    OfRows x st.events (source, b) := by
  have hmem : ∀ m ∈ b.members, m ∈ scanEntries x st source := fun m hm => (members_sublist h).subset hm
  have hanchor : b.anchor ∈ b.members := List.mem_of_head? (burstIn_of_mem h).head_eq
  constructor
  · obtain ⟨a, ha, -, hline, hsource, hparses⟩ := exists_row_of_mem_scanEntries (hmem _ hanchor)
    exact ⟨a, ha, hline, hsource, hparses⟩
  · intro m hm
    obtain ⟨a, ha, hid, -, -, hparses⟩ := exists_row_of_mem_scanEntries (hmem m hm)
    exact ⟨a, ha, hid, hparses⟩

/-- Bursts of rows of a table, stored one after another over one with the same rows that do not parse. -/
theorem foldl_storeBurst_side {t : Events} : ∀ (ps : List (String × Burst ScanEntry)) (u : Events),
    (∀ p ∈ ps, OfRows x t p) → SameSide x t u → SameSide x t (ps.foldl (storeBurst x) u)
  | [], _, _, hsame => hsame
  | p :: ps, u, hps, hsame => by
    obtain ⟨⟨c, -, hline, -, hparses⟩, hmembers⟩ := hps p List.mem_cons_self
    have hrow : Parses x p.2.anchor.rawLine := hline ▸ hparses
    refine foldl_storeBurst_side ps _ (fun q hq => hps q (List.mem_cons_of_mem p hq)) fun a ha => ?_
    unfold storeBurst
    rw [Table.rows_deleteAll, List.mem_filter, decide_eq_true_eq,
      sameSide_insert (r := retroRow x p.1 p.2) hrow a ha, hsame a ha]
    refine and_iff_left_of_imp fun hmem hmember => ?_
    obtain ⟨m, hm, hid⟩ := List.mem_map.mp hmember
    obtain ⟨b, hb, hbid, hbparses⟩ := hmembers m hm
    have hab : a = b := Table.eq_of_id_eq hmem hb (by rw [← hid, hbid])
    rw [hab] at ha
    exact ha hbparses

theorem foldl_storeBurst_apart {t : Events} (ht : ∀ a ∈ t.rows, ApartRow x K a.2) :
    ∀ (ps : List (String × Burst ScanEntry)) (u : Events), (∀ p ∈ ps, OfRows x t p) →
      (∀ a ∈ u.rows, ApartRow x K a.2) → ∀ a ∈ (ps.foldl (storeBurst x) u).rows, ApartRow x K a.2
  | [], _, _, hu => hu
  | p :: ps, u, hps, hu => by
    obtain ⟨c, hc, -, hsource, hparses⟩ := (hps p List.mem_cons_self).anchor
    have hfree : Free x K p.1 := hsource ▸ (ht c hc hparses).2
    have hinserted := apart_insert hu (r := retroRow x p.1 p.2) fun _ => ⟨hfree _ _, hfree⟩
    refine foldl_storeBurst_apart ht ps _ (fun q hq => hps q (List.mem_cons_of_mem p hq)) fun a ha => ?_
    unfold storeBurst at ha
    rw [Table.rows_deleteAll] at ha
    exact hinserted a (List.mem_filter.mp ha).1

/-- A source is scanned, and its bursts are stored. -/
theorem collapseSource_events (s : Storage × ReparseStats) (source : String) :
    ∃ ps : List (String × Burst ScanEntry), (∀ p ∈ ps, OfRows x s.1.events p) ∧
      (collapseSource x s source).1 = { s.1 with events := ps.foldl (storeBurst x) s.1.events } := by
  unfold collapseSource
  simp only
  split_ifs
  · exact ⟨[], fun _ hp => absurd hp List.not_mem_nil, rfl⟩
  · obtain ⟨m, heq, -⟩ := foldl_collapseBurst_spec (x := x) source
      (burstsOf ScanEntry.log (scanEntries x s.1 source) builtinBurstRules) s
    rw [heq]
    refine ⟨_, fun p hp => ?_, rfl⟩
    obtain ⟨b, hb, rfl⟩ := List.mem_map.mp hp
    exact ofRows_burst hb

theorem foldl_collapseSource_side : ∀ (sources : List String) (s : Storage × ReparseStats),
    SameSide x s.1.events (sources.foldl (collapseSource x) s).1.events
  | [], _ => .refl _
  | source :: sources, s => by
    obtain ⟨ps, hps, heq⟩ := @collapseSource_events x s source
    have hfirst : SameSide x s.1.events (collapseSource x s source).1.events := by
      rw [heq]
      exact foldl_storeBurst_side ps _ hps (.refl _)
    exact hfirst.trans (foldl_collapseSource_side sources _)

theorem foldl_collapseSource_apart : ∀ (sources : List String) {s : Storage × ReparseStats},
    (∀ a ∈ s.1.events.rows, ApartRow x K a.2) →
      ∀ a ∈ (sources.foldl (collapseSource x) s).1.events.rows, ApartRow x K a.2
  | [], _, h => h
  | source :: sources, s, h => by
    obtain ⟨ps, hps, heq⟩ := @collapseSource_events x s source
    refine foldl_collapseSource_apart sources ?_
    rw [heq]
    exact foldl_storeBurst_apart h ps _ hps h

/-- The third phase touches no other table. -/
theorem foldl_collapseSource_only : ∀ (sources : List String) (s : Storage × ReparseStats), ∃ events,
    (sources.foldl (collapseSource x) s).1 = { s.1 with events := events }
  | [], s => ⟨s.1.events, rfl⟩
  | source :: sources, s => by
    obtain ⟨events, heq⟩ := foldl_collapseSource_only sources (collapseSource x s source)
    obtain ⟨ps, -, hone⟩ := @collapseSource_events x s source
    rw [hone] at heq
    exact ⟨events, heq⟩

/-! ### A re-parse -/

/-- **A re-parse leaves the rows that do not parse as they are.** -/
theorem runReparse_side (st : Storage) : SameSide x st.events (runReparse x rules st).1.events :=
  ((reclassifyEvents_side st).trans (promoteUnknowns_side (_, _))).trans (foldl_collapseSource_side _ _)

/-- A re-parse writes to two tables, and adds no sample. -/
theorem runReparse_only (st : Storage) : ∃ events samples,
    (runReparse x rules st).1 = { st with events := events, unknownSamples := samples } ∧
      ∀ r ∈ samples.contents, r ∈ st.unknownSamples.contents := by
  obtain ⟨events, z, n, k, hfirst, -⟩ := @reclassifyEvents_spec x rules st
  obtain ⟨samples, hsecond, hleft⟩ := @foldl_promoteUnknown_spec x rules
    (reclassifyEvents x rules st).storage.recentUnknowns
    ((reclassifyEvents x rules st).storage, (reclassifyEvents x rules st).stats)
  obtain ⟨events', hthird⟩ := @foldl_collapseSource_only x _ (promoteUnknowns x rules
    ((reclassifyEvents x rules st).storage, (reclassifyEvents x rules st).stats))
  refine ⟨events', samples, hthird.trans ?_, fun r hr => ?_⟩
  · unfold promoteUnknowns
    rw [hsecond, hfirst]
  · have hmem := (hleft r hr).1
    rw [hfirst] at hmem
    exact hmem

/-- **A re-parse keeps what parses apart.** -/
theorem runReparse_apart {st : Storage} (h : Apart x K st)
    (hreparse : ∀ source line, ¬ K (reparseIdempotencyKey x source line)) :
    Apart x K (runReparse x rules st).1 := by
  obtain ⟨events, samples, honly, hsamples⟩ := @runReparse_only x rules st
  have hfirst : Apart x K (reclassifyEvents x rules st).storage := reclassifyEvents_apart h
  have hsecond := @promoteUnknowns_apart x rules K
    ((reclassifyEvents x rules st).storage, (reclassifyEvents x rules st).stats) hfirst hreparse
  refine ⟨foldl_collapseSource_apart _ hsecond, fun r hr => h.samples r (hsamples r ?_)⟩
  rw [honly] at hr
  exact hr

end StarStats.Client.SideRows
