import Mathlib.Data.List.Forall2
import StarStats.Core.Inference

/-! # Inferred changes of location

The rule reads the events once, with the last planet and a flag for an inventory asked for since. Its rows
are those of the crossings: two planets loaded one after the other, with no inventory asked for between
them (`crossings_of_infer`). Positions are those of the envelopes in the stream. -/

namespace StarStats.Core.LocationChanges

open StarStats.Core.Events StarStats.Core.Metadata StarStats.Core.Wire StarStats.Core.Inference

/-- The row is of the rule for planets. -/
def isChange (row : InferredEvent) : Bool :=
  match row.event with
  | .locationChanged _ => true
  | _ => false

/-- The event as a planet that comes into view. -/
def planetLoad : GameEvent → Option PlanetTerrainLoad
  | .planetTerrainLoad load => some load
  | _ => none

/-- The planet loaded at a position. -/
def loadAt (events : List EventEnvelope) (i : ℕ) : Option PlanetTerrainLoad :=
  events[i]?.bind fun env => env.event.bind planetLoad

/-- An inventory is asked for at a position. -/
def AsksAt (events : List EventEnvelope) (i : ℕ) : Prop :=
  ∃ env ask, events[i]? = some env ∧ env.event = some (.locationInventoryRequested ask)

/-- Two planets loaded one after the other, with no inventory asked for between them. -/
structure Crossing (events : List EventEnvelope) (p : ℕ × ℕ) : Prop where
  lt : p.1 < p.2
  planets : ∃ load load', loadAt events p.1 = some load ∧ loadAt events p.2 = some load' ∧
    load.planet ≠ load'.planet
  consecutive : ∀ k, p.1 < k → k < p.2 → loadAt events k = none
  quiet : ∀ k, p.1 < k → k < p.2 → ¬ AsksAt events k

/-- The row is the change from one planet to the other. -/
def ChangeOf (events : List EventEnvelope) (row : InferredEvent) (p : ℕ × ℕ) : Prop :=
  ∃ env env' load load', events[p.1]? = some env ∧ events[p.2]? = some env' ∧
    env.event = some (.planetTerrainLoad load) ∧ env'.event = some (.planetTerrainLoad load') ∧
    row.event = .locationChanged ⟨load'.timestamp, some load.planet, load'.planet⟩ ∧
    row.metadata.inferenceInputs = [env.idempotencyKey, env'.idempotencyKey]

/-- The second row starts where the first one ends. -/
def Chains (row row' : InferredEvent) : Prop :=
  ∀ change change', row.event = .locationChanged change → row'.event = .locationChanged change' →
    change'.source = some change.target

section Positions
variable {events : List EventEnvelope} {env : EventEnvelope} {i : ℕ}

theorem planetLoad_eq_some {event : GameEvent} {load : PlanetTerrainLoad} :
    planetLoad event = some load ↔ event = .planetTerrainLoad load := by
  cases event <;> simp [planetLoad, eq_comm]

theorem loadAt_eq_some {load : PlanetTerrainLoad} : loadAt events i = some load ↔
    ∃ env, events[i]? = some env ∧ env.event = some (.planetTerrainLoad load) := by
  unfold loadAt
  rw [Option.bind_eq_some_iff]
  simp only [Option.bind_eq_some_iff, planetLoad_eq_some, exists_eq_right]

theorem lt_of_loadAt {load : PlanetTerrainLoad} (h : loadAt events i = some load) : i < events.length := by
  obtain ⟨env, henv, -⟩ := loadAt_eq_some.mp h
  exact (List.getElem?_eq_some_iff.mp henv).1

theorem loadAt_append_of_lt (h : i < events.length) : loadAt (events ++ [env]) i = loadAt events i := by
  unfold loadAt
  rw [List.getElem?_append_left h]

theorem loadAt_append_length :
    loadAt (events ++ [env]) events.length = env.event.bind planetLoad := by
  unfold loadAt
  rw [List.getElem?_concat_length, Option.bind_some]

theorem asksAt_append_of_lt (h : i < events.length) : AsksAt (events ++ [env]) i ↔ AsksAt events i := by
  unfold AsksAt
  rw [List.getElem?_append_left h]

theorem asksAt_append_length : AsksAt (events ++ [env]) events.length ↔
    ∃ ask, env.event = some (.locationInventoryRequested ask) := by
  unfold AsksAt
  simp

theorem lt_of_asksAt (h : AsksAt events i) : i < events.length := by
  obtain ⟨env, -, henv, -⟩ := h
  exact (List.getElem?_eq_some_iff.mp henv).1

/-- The crossings of a longer stream are those of the stream and those to its end. -/
theorem crossing_append {p : ℕ × ℕ} : Crossing (events ++ [env]) p ↔
    Crossing events p ∨ p.2 = events.length ∧ Crossing (events ++ [env]) p := by
  have hkeep : p.2 < events.length → (Crossing (events ++ [env]) p ↔ Crossing events p) := by
    intro hp
    constructor
    · rintro ⟨hlt, ⟨load, load', hload, hload', hne⟩, hconsecutive, hquiet⟩
      rw [loadAt_append_of_lt (hlt.trans hp)] at hload
      rw [loadAt_append_of_lt hp] at hload'
      refine ⟨hlt, ⟨load, load', hload, hload', hne⟩, fun k hk hk' => ?_, fun k hk hk' => ?_⟩
      · rw [← hconsecutive k hk hk', loadAt_append_of_lt (hk'.trans hp)]
      · rw [← asksAt_append_of_lt (hk'.trans hp)]
        exact hquiet k hk hk'
    · rintro ⟨hlt, ⟨load, load', hload, hload', hne⟩, hconsecutive, hquiet⟩
      rw [← loadAt_append_of_lt (hlt.trans hp)] at hload
      rw [← loadAt_append_of_lt hp] at hload'
      refine ⟨hlt, ⟨load, load', hload, hload', hne⟩, fun k hk hk' => ?_, fun k hk hk' => ?_⟩
      · rw [← hconsecutive k hk hk', loadAt_append_of_lt (hk'.trans hp)]
      · rw [asksAt_append_of_lt (hk'.trans hp)]
        exact hquiet k hk hk'
  constructor
  · intro h
    obtain ⟨-, load', -, hload', -⟩ := h.planets
    have hlt := lt_of_loadAt hload'
    rw [List.length_append, List.length_singleton] at hlt
    rcases Nat.lt_or_ge p.2 events.length with hp | hp
    · exact Or.inl ((hkeep hp).mp h)
    · exact Or.inr ⟨by omega, h⟩
  · rintro (h | ⟨-, h⟩)
    · obtain ⟨-, load', -, hload', -⟩ := h.planets
      exact (hkeep (lt_of_loadAt hload')).mpr h
    · exact h

theorem ChangeOf.append {row : InferredEvent} {p : ℕ × ℕ} (h : ChangeOf events row p) :
    ChangeOf (events ++ [env]) row p := by
  obtain ⟨first, second, load, load', hfirst, hsecond, h⟩ := h
  have hlt := (List.getElem?_eq_some_iff.mp hfirst).1
  have hlt' := (List.getElem?_eq_some_iff.mp hsecond).1
  refine ⟨first, second, load, load', ?_, ?_, h⟩
  · rw [List.getElem?_append_left hlt, hfirst]
  · rw [List.getElem?_append_left hlt', hsecond]

end Positions

/-! ### What the scan knows -/

/-- The last planet is the one at this position, and the flag is set once an inventory is asked for after
it. -/
structure LastAt (events : List EventEnvelope) (s : PlanetScan) (n : ℕ) (env : EventEnvelope)
    (load : PlanetTerrainLoad) : Prop where
  prev : s.prevPlanet = some (env, load.planet)
  here : events[n]? = some env
  event : env.event = some (.planetTerrainLoad load)
  last : ∀ k, n < k → loadAt events k = none
  asked : s.inventorySeenSincePrev = true ↔ ∃ k, n < k ∧ AsksAt events k

/-- The scan has seen no planet, or it knows the last one. -/
def Knows (events : List EventEnvelope) (s : PlanetScan) : Prop :=
  s.prevPlanet = none ∧ (∀ k, loadAt events k = none) ∨ ∃ n env load, LastAt events s n env load

/-- The crossings of the stream, in order, are those of the rows so far. -/
structure Crossed (events : List EventEnvelope) (out : List InferredEvent) (pairs : List (ℕ × ℕ)) :
    Prop where
  mem : ∀ p, p ∈ pairs ↔ Crossing events p
  ordered : pairs.Pairwise fun p q => p.2 ≤ q.1
  rows : List.Forall₂ (ChangeOf events) out pairs

section Scan
variable {events : List EventEnvelope} {env : EventEnvelope} {s : PlanetScan} {pairs : List (ℕ × ℕ)}

theorem Crossed.append_of_none (hload : env.event.bind planetLoad = none)
    (h : Crossed events s.out pairs) : Crossed (events ++ [env]) s.out pairs := by
  refine ⟨fun p => ?_, h.ordered, h.rows.imp fun row p hp => hp.append⟩
  rw [h.mem p, crossing_append]
  constructor
  · exact Or.inl
  · rintro (hp | ⟨hp, hcross⟩)
    · exact hp
    · obtain ⟨load, load', -, hload', -⟩ := hcross.planets
      rw [hp, loadAt_append_length, hload] at hload'
      cases hload'

theorem loadAt_append_none {i : ℕ} (hload : env.event.bind planetLoad = none)
    (h : loadAt events i = none) : loadAt (events ++ [env]) i = none := by
  rcases Nat.lt_trichotomy i events.length with hi | rfl | hi
  · rw [loadAt_append_of_lt hi, h]
  · rw [loadAt_append_length, hload]
  · refine Option.eq_none_iff_forall_ne_some.mpr fun load hsome => ?_
    have hlt := lt_of_loadAt hsome
    rw [List.length_append, List.length_singleton] at hlt
    omega

/-- The last planet stays the last one, and the flag says what it did or that this envelope asks. -/
theorem Knows.append_of_none {asked : Bool} (hload : env.event.bind planetLoad = none)
    (hasked : asked = true ↔ s.inventorySeenSincePrev = true ∨
      ∃ ask, env.event = some (.locationInventoryRequested ask)) (h : Knows events s) :
    Knows (events ++ [env]) { s with inventorySeenSincePrev := asked } := by
  rcases h with ⟨hprev, hnone⟩ | ⟨n, last, load, h⟩
  · exact Or.inl ⟨hprev, fun k => loadAt_append_none hload (hnone k)⟩
  · have hn := (List.getElem?_eq_some_iff.mp h.here).1
    refine Or.inr ⟨n, last, load, h.prev, ?_, h.event, ?_, ?_⟩
    · rw [List.getElem?_append_left hn, h.here]
    · exact fun k hk => loadAt_append_none hload (h.last k hk)
    · rw [hasked, h.asked]
      constructor
      · rintro (⟨k, hk, hask⟩ | hask)
        · exact ⟨k, hk, (asksAt_append_of_lt (lt_of_asksAt hask)).mpr hask⟩
        · exact ⟨events.length, hn, asksAt_append_length.mpr hask⟩
      · rintro ⟨k, hk, hask⟩
        have hlt := lt_of_asksAt hask
        rw [List.length_append, List.length_singleton] at hlt
        rcases Nat.lt_or_ge k events.length with hk' | hk'
        · exact Or.inl ⟨k, hk, (asksAt_append_of_lt hk').mp hask⟩
        · obtain rfl : k = events.length := by omega
          exact Or.inr (asksAt_append_length.mp hask)

theorem knows_of_load {load : PlanetTerrainLoad} {out : List InferredEvent}
    (hload : env.event = some (.planetTerrainLoad load)) :
    Knows (events ++ [env]) ⟨some (env, load.planet), false, out⟩ := by
  refine Or.inr ⟨events.length, env, load, rfl, List.getElem?_concat_length, hload, fun k hk => ?_, ?_⟩
  · refine Option.eq_none_iff_forall_ne_some.mpr fun load' hsome => ?_
    have hlt := lt_of_loadAt hsome
    rw [List.length_append, List.length_singleton] at hlt
    omega
  · constructor
    · exact fun h => by cases h
    · rintro ⟨k, hk, hask⟩
      have hlt := lt_of_asksAt hask
      rw [List.length_append, List.length_singleton] at hlt
      omega

/-- What crosses to a planet at the end of a stream comes from the last planet before. -/
theorem LastAt.crossing_iff {n : ℕ} {last : EventEnvelope} {load load' : PlanetTerrainLoad} {p : ℕ × ℕ}
    (h : LastAt events s n last load) (hload : env.event = some (.planetTerrainLoad load')) :
    p.2 = events.length ∧ Crossing (events ++ [env]) p ↔
      p = (n, events.length) ∧ s.inventorySeenSincePrev = false ∧ load.planet ≠ load'.planet := by
  have hn := (List.getElem?_eq_some_iff.mp h.here).1
  have hfirst : loadAt (events ++ [env]) n = some load := by
    rw [loadAt_append_of_lt hn]
    exact loadAt_eq_some.mpr ⟨last, h.here, h.event⟩
  have hsecond : loadAt (events ++ [env]) events.length = some load' := by
    rw [loadAt_append_length, hload]
    rfl
  constructor
  · rintro ⟨hp, hcross⟩
    obtain ⟨first, second, hat, hat', hne⟩ := hcross.planets
    have hlt := hcross.lt
    rw [hp] at hlt hat'
    have hstart : p.1 = n := by
      rcases Nat.lt_trichotomy p.1 n with hp' | hp' | hp'
      · have hnone := hcross.consecutive n hp' (by omega)
        rw [hfirst] at hnone
        cases hnone
      · exact hp'
      · rw [loadAt_append_of_lt hlt, h.last p.1 hp'] at hat
        cases hat
    rw [hstart, hfirst] at hat
    rw [hsecond] at hat'
    obtain rfl := Option.some.inj hat
    obtain rfl := Option.some.inj hat'
    refine ⟨Prod.ext hstart hp, Bool.eq_false_iff.mpr fun hasked => ?_, hne⟩
    obtain ⟨k, hk, hask⟩ := h.asked.mp hasked
    have hk' := lt_of_asksAt hask
    exact hcross.quiet k (by omega) (by omega) ((asksAt_append_of_lt hk').mpr hask)
  · rintro ⟨rfl, hquiet, hne⟩
    refine ⟨rfl, hn, ⟨load, load', hfirst, hsecond, hne⟩, fun k hk hk' => ?_, fun k hk hk' hask => ?_⟩
    · rw [loadAt_append_of_lt hk', h.last k hk]
    · have hasked := h.asked.mpr ⟨k, hk, (asksAt_append_of_lt hk').mp hask⟩
      rw [hquiet] at hasked
      cases hasked

/-- A planet adds the row of the crossing that it ends, if there is one. -/
theorem Crossed.append_of_load {load' : PlanetTerrainLoad}
    (hload : env.event = some (.planetTerrainLoad load')) (hknows : Knows events s)
    (h : Crossed events s.out pairs) :
    ∃ pairs', Crossed (events ++ [env]) (s.out ++ (locationChange s env load').toList) pairs' := by
  have hrows : List.Forall₂ (ChangeOf (events ++ [env])) s.out pairs :=
    h.rows.imp fun row p hp => hp.append
  have hadd : ∀ p, Crossing (events ++ [env]) p ↔ p ∈ pairs ∨
      p.2 = events.length ∧ Crossing (events ++ [env]) p := by
    intro p
    rw [h.mem p, ← crossing_append]
  rcases hknows with ⟨hprev, hnone⟩ | ⟨n, last, load, hlast⟩
  · have hrow : locationChange s env load' = none := by
      unfold locationChange
      rw [hprev, Option.bind_none]
    rw [hrow, Option.toList_none, List.append_nil]
    refine ⟨pairs, fun p => ?_, h.ordered, hrows⟩
    rw [hadd p]
    refine (or_iff_left fun hp => ?_).symm
    obtain ⟨load, -, hat, -⟩ := hp.2.planets
    have hlt := hp.2.lt
    rw [hp.1] at hlt
    rw [loadAt_append_of_lt hlt, hnone] at hat
    cases hat
  · by_cases hcross : s.inventorySeenSincePrev = false ∧ load.planet ≠ load'.planet
    · have hrow : locationChange s env load' =
          some (inferred (.locationChanged ⟨load'.timestamp, some load.planet, load'.planet⟩)
            implicitLocationChangeConfidence ruleIdImplicitLocationChange
            [last.idempotencyKey, env.idempotencyKey] env) := by
        unfold locationChange
        rw [hlast.prev, Option.bind_some, if_pos hcross]
      rw [hrow, Option.toList_some]
      have hn := (List.getElem?_eq_some_iff.mp hlast.here).1
      refine ⟨pairs ++ [(n, events.length)], fun p => ?_, ?_, ?_⟩
      · rw [hadd p, hlast.crossing_iff hload, List.mem_append, List.mem_singleton,
          and_iff_left hcross]
      · -- the crossings so far end at a planet, and the last planet is not before it
        refine List.pairwise_append.mpr ⟨h.ordered, List.pairwise_singleton _ _, fun p hp q hq => ?_⟩
        obtain rfl := List.mem_singleton.mp hq
        obtain ⟨-, second, -, hat, -⟩ := ((h.mem p).mp hp).planets
        refine Nat.le_of_not_lt fun hlate => ?_
        rw [hlast.last p.2 hlate] at hat
        cases hat
      · refine List.rel_append hrows (List.Forall₂.cons ?_ List.Forall₂.nil)
        refine ⟨last, env, load, load', ?_, List.getElem?_concat_length, hlast.event, hload, rfl, rfl⟩
        rw [List.getElem?_append_left hn, hlast.here]
    · have hrow : locationChange s env load' = none := by
        unfold locationChange
        rw [hlast.prev, Option.bind_some, if_neg hcross]
      rw [hrow, Option.toList_none, List.append_nil]
      refine ⟨pairs, fun p => ?_, h.ordered, hrows⟩
      rw [hadd p]
      exact (or_iff_left fun hp => hcross ((hlast.crossing_iff hload).mp hp).2).symm

/-- One envelope keeps what the scan knows and what it has found. -/
theorem exists_crossed_planetStep (hknows : Knows events s) (h : Crossed events s.out pairs) :
    Knows (events ++ [env]) (planetStep s env) ∧
      ∃ pairs', Crossed (events ++ [env]) (planetStep s env).out pairs' := by
  unfold planetStep
  split
  case h_1 load hload => exact ⟨knows_of_load hload, h.append_of_load hload hknows⟩
  case h_2 ask hask =>
    have hload : env.event.bind planetLoad = none := by
      rw [hask]
      rfl
    refine ⟨hknows.append_of_none hload ?_, pairs, h.append_of_none hload⟩
    exact iff_of_true rfl (Or.inr ⟨ask, hask⟩)
  case h_3 hload hask =>
    have hload : env.event.bind planetLoad = none := by
      refine Option.eq_none_iff_forall_ne_some.mpr fun load hsome => ?_
      obtain ⟨event, hevent, hplanet⟩ := Option.bind_eq_some_iff.mp hsome
      rw [planetLoad_eq_some.mp hplanet] at hevent
      exact hload load hevent
    refine ⟨hknows.append_of_none hload ?_, pairs, h.append_of_none hload⟩
    refine (or_iff_left ?_).symm
    rintro ⟨ask, hevent⟩
    exact hask ask hevent

theorem exists_crossed_rule (events : List EventEnvelope) :
    ∃ pairs, Crossed events (ruleImplicitLocationChange events) pairs := by
  have h : Knows events (events.foldl planetStep ⟨none, false, []⟩) ∧
      ∃ pairs, Crossed events (events.foldl planetStep ⟨none, false, []⟩).out pairs := by
    induction events using List.reverseRecOn with
    | nil =>
      refine ⟨Or.inl ⟨rfl, fun k => rfl⟩, [], fun p => ?_, List.Pairwise.nil, List.Forall₂.nil⟩
      refine iff_of_false List.not_mem_nil fun hp => ?_
      obtain ⟨load, -, hload, -⟩ := hp.planets
      cases hload
    | append_singleton events env ih =>
      obtain ⟨hknows, pairs, hcrossed⟩ := ih
      rw [List.foldl_append, List.foldl_cons, List.foldl_nil]
      exact exists_crossed_planetStep hknows hcrossed
  exact h.2

/-- The second of two rows starts where the first one ends if its crossing does. -/
theorem chains_of_changeOf {row row' : InferredEvent} {p q : ℕ × ℕ} (hrow : ChangeOf events row p)
    (hrow' : ChangeOf events row' q) (hpq : p.2 = q.1) : Chains row row' := by
  obtain ⟨env, mid, first, load, -, hmid, -, hload, hevent, -⟩ := hrow
  obtain ⟨mid', env', load', last, hmid', -, hload', -, hevent', -⟩ := hrow'
  intro change change' hchange hchange'
  rw [hpq, hmid'] at hmid
  obtain rfl := Option.some.inj hmid
  rw [hload'] at hload
  obtain rfl := GameEvent.planetTerrainLoad.inj (Option.some.inj hload)
  rw [hevent] at hchange
  rw [hevent'] at hchange'
  obtain rfl := GameEvent.locationChanged.inj hchange
  obtain rfl := GameEvent.locationChanged.inj hchange'
  rfl

end Scan

section Rows
variable {parseTs : String → Option ℤ} {events : List EventEnvelope} {config : InferenceConfig}

theorem filter_isChange : (infer parseTs events config).filter isChange =
    (ruleImplicitLocationChange events).map (reconcile parseTs events config) := by
  have hkeep : ∀ row row', row.event = row'.event → isChange row = isChange row' := by
    intro row row' h
    unfold isChange
    rw [h]
  have hdeaths : ∀ row ∈ ruleImplicitDeathAfterVehicleDestruction parseTs events config,
      ¬ isChange row = true := by
    intro row hrow hchange
    obtain ⟨f, -, hf⟩ := List.mem_filterMap.mp hrow
    obtain ⟨death, hevent, -⟩ := exists_of_implicitDeath hf
    unfold isChange at hchange
    rw [hevent] at hchange
    cases hchange
  have hchanges : ∀ row ∈ ruleImplicitLocationChange events, isChange row = true := by
    intro row hrow
    obtain ⟨change, hevent, -⟩ := exists_of_mem_ruleImplicitLocationChange hrow
    unfold isChange
    rw [hevent]
  have htimeouts : ∀ row ∈ ruleImplicitShopRequestTimeout parseTs events config,
      ¬ isChange row = true := by
    intro row hrow hchange
    obtain ⟨f, -, hf⟩ := List.mem_filterMap.mp hrow
    obtain ⟨req, reqTs, -, -, -, rfl⟩ := exists_of_implicitTimeout hf
    cases hchange
  rw [filter_infer hkeep, List.filter_eq_nil_iff.mpr hdeaths, List.filter_eq_self.mpr hchanges,
    List.filter_eq_nil_iff.mpr htimeouts, List.nil_append, List.append_nil]

/-- **The changes of location are exactly those of the crossings of the stream**, one for each, in order,
and each starts where the last one ends if its crossing does. -/
theorem crossings_of_infer (parseTs : String → Option ℤ) (events : List EventEnvelope)
    (config : InferenceConfig) : ∃ pairs : List (ℕ × ℕ), (∀ p, p ∈ pairs ↔ Crossing events p) ∧
      (pairs.Pairwise fun p q => p.2 ≤ q.1) ∧
      List.Forall₂ (ChangeOf events) ((infer parseTs events config).filter isChange) pairs ∧
      ∀ (i : ℕ) row row' (p q : ℕ × ℕ), ((infer parseTs events config).filter isChange)[i]? = some row →
        ((infer parseTs events config).filter isChange)[i + 1]? = some row' →
        pairs[i]? = some p → pairs[i + 1]? = some q → p.2 = q.1 → Chains row row' := by
  obtain ⟨pairs, hpairs, hordered, hrule⟩ := exists_crossed_rule events
  have hrows : List.Forall₂ (ChangeOf events) ((infer parseTs events config).filter isChange) pairs := by
    rw [filter_isChange, List.forall₂_map_left_iff]
    refine hrule.imp fun row p hp => ?_
    obtain ⟨first, second, load, load', hfirst, hsecond, hload, hload', hevent, hinputs⟩ := hp
    refine ⟨first, second, load, load', hfirst, hsecond, hload, hload', ?_, ?_⟩
    · rw [event_reconcile, hevent]
    · rw [metadata_reconcile, hinputs]
  have hget : ∀ (i : ℕ) row (p : ℕ × ℕ), ((infer parseTs events config).filter isChange)[i]? = some row →
      pairs[i]? = some p → ChangeOf events row p := by
    intro i row p hrow hp
    obtain ⟨hi, rfl⟩ := List.getElem?_eq_some_iff.mp hrow
    obtain ⟨hi', rfl⟩ := List.getElem?_eq_some_iff.mp hp
    exact hrows.get hi hi'
  refine ⟨pairs, hpairs, hordered, hrows, fun i row row' p q hrow hrow' hp hq hpq => ?_⟩
  exact chains_of_changeOf (hget i row p hrow hp) (hget (i + 1) row' q hrow' hq) hpq

end Rows

end StarStats.Core.LocationChanges
