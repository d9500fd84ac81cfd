import Mathlib.Algebra.Group.Int.Defs
import Mathlib.Algebra.Group.Prod
import Mathlib.Algebra.GroupWithZero.Nat
import Mathlib.Algebra.Order.BigOperators.Group.List
import Mathlib.Algebra.Order.Group.Int
import Mathlib.Data.Prod.Lex
import Mathlib.Data.String.Basic
import Mathlib.Data.UInt
import Mathlib.Order.WithBot
import StarStats.Lib.Ints
import StarStats.Lib.Islands
import StarStats.Lib.Tables
import StarStats.Lib.Tallies
import StarStats.Server.Locations

/-! # Dwell times

The readings of a player's location, oldest first, are collapsed to a trace of stays, and added up to the
time at each place and its visits. A gap is cut to whole seconds before it is added, and every reading
counts as a visit. So the sums are exact, and the visits the stays, exactly if there is a reading, the
fractions cut off add up to less than a second, and no reading repeats the place of the one before
(`exact_iff`), but that the counters are of 32 bits. -/

namespace StarStats.Server.Dwell

open StarStats.Lib.Ints StarStats.Lib.Islands StarStats.Lib.Json StarStats.Lib.Tables StarStats.Lib.Tallies
open StarStats.Server.Locations

/-- An event that may tell where the player is. -/
structure LatestLocationEvent where
  eventType : String
  eventTimestamp : ℤ
  payload : Value

/-- A stay: adjacent readings of one place. -/
structure TraceEntry where
  planet : Option String
  city : Option String
  system : Option String
  shard : Option String
  sourceEventType : String
  startedAt : ℤ
  endedAt : ℤ
  eventCount : UInt32
  deriving DecidableEq

/-- The time of a place, over all of its stays. -/
structure BreakdownEntry where
  planet : Option String
  city : Option String
  system : Option String
  dwellSeconds : ℤ
  visitCount : UInt32
  deriving DecidableEq

/-- `DWELL_CAP_MINUTES` -/
def dwellCapMinutes : ℤ := 30

/-- The longest gap that is counted whole, in nanoseconds. -/
def cap : ℤ := dwellCapMinutes * 60 * nsPerSec

/-- Planet, city and system. -/
abbrev Place := Option String × Option String × Option String

/-- Where a reading is. -/
def place (r : ResolvedLocation) : Place := (r.planet, r.city, r.system)

/-- Where a stay is. -/
def TraceEntry.place (e : TraceEntry) : Place := (e.planet, e.city, e.system)

/-- Which place an entry is about. -/
def BreakdownEntry.place (e : BreakdownEntry) : Place := (e.planet, e.city, e.system)

section Walks
variable (isNumeric : Char → Bool) (stream : List LatestLocationEvent)

/-- The events that resolve, each with its timestamp. -/
def readings : List (ResolvedLocation × ℤ) :=
  stream.filterMap fun ev =>
    (resolve isNumeric ev.eventType ev.payload ev.eventTimestamp none).map (·, ev.eventTimestamp)

/-- The shard is not compared. -/
def sameAsLast (prev : TraceEntry) (r : ResolvedLocation × ℤ) : Bool :=
  prev.planet = r.1.planet && prev.city = r.1.city && prev.system = r.1.system

/-- A stay goes on. -/
def extendTrace (last : TraceEntry) (r : ResolvedLocation × ℤ) : TraceEntry :=
  { last with endedAt := r.2, eventCount := last.eventCount + 1 }

/-- A stay begins. -/
def startTrace (r : ResolvedLocation × ℤ) : TraceEntry :=
  { planet := r.1.planet
    city := r.1.city
    system := r.1.system
    shard := r.1.shard
    sourceEventType := r.1.sourceEventType
    startedAt := r.2
    endedAt := r.2
    eventCount := 1 }

/-- The stays, in the order of the stream. -/
def collapseToTrace : List TraceEntry := walk sameAsLast extendTrace startTrace (readings isNumeric stream)

/-- The sums of the walk, and the reading before. -/
structure Walker where
  buckets : List (Place × (ℤ × UInt32))
  prev : Option (ResolvedLocation × ℤ)

/-- Each reading adds the gap to the place before. -/
def visit (w : Walker) (r : ResolvedLocation × ℤ) : Walker :=
  match w.prev with
  | none => ⟨w.buckets, some r⟩
  | some (prevLoc, prevTs) =>
    let gap := min (r.2 - prevTs) cap
    let secs := max (numSeconds gap) 0
    ⟨addTo w.buckets (place prevLoc, (secs, 1)), some r⟩

/-- The last place gets the cap. -/
def terminal (w : Walker) : List (Place × (ℤ × UInt32)) :=
  match w.prev with
  | none => w.buckets
  | some (lastLoc, _) => addTo w.buckets (place lastLoc, (numSeconds cap, 1))

/-- The order of optional texts, `none` first. -/
def textOrd (s : Option String) : WithBot (List Char) := s.map String.toList

/-- The order of a map with these keys. -/
def keyOrd (b : Place × (ℤ × UInt32)) :
    WithBot (List Char) ×ₗ WithBot (List Char) ×ₗ WithBot (List Char) :=
  toLex (textOrd b.1.1, toLex (textOrd b.1.2.1, textOrd b.1.2.2))

/-- What is answered of a bucket. -/
def entry (b : Place × (ℤ × UInt32)) : BreakdownEntry := ⟨b.1.1, b.1.2.1, b.1.2.2, b.2.1, b.2.2⟩

/-- The buckets in the order of their keys, then by time, longest first. -/
def aggregateDwell : List BreakdownEntry :=
  let buckets := terminal ((readings isNumeric stream).foldl visit ⟨[], none⟩)
  sortBy (fun e => OrderDual.toDual e.dwellSeconds) ((sortBy keyOrd buckets).map entry)

/-! ### What the sums should be -/

/-- The gaps between adjacent readings. -/
def gaps (rs : List (ResolvedLocation × ℤ)) : List ℤ :=
  (lag rs).filterMap fun t => t.2.map fun prev => t.1.2 - prev.2

/-- The gaps, each of at most half an hour, and half an hour. -/
def spent : ℤ := ((gaps (readings isNumeric stream)).map (min · cap)).sum + cap

/-- **The sums are exact and agree with the trace.** -/
structure Exact : Prop where
  total : |((aggregateDwell isNumeric stream).map (·.dwellSeconds)).sum * nsPerSec -
    spent isNumeric stream| < nsPerSec
  listed : ∀ p, p ∈ (aggregateDwell isNumeric stream).map (·.place) ↔
    p ∈ (collapseToTrace isNumeric stream).map (·.place)
  visits : ∀ e ∈ aggregateDwell isNumeric stream,
    e.visitCount.toNat = (collapseToTrace isNumeric stream).countP (·.place = e.place)

/-- The places of the readings. -/
def places : List Place := (readings isNumeric stream).map fun r => place r.1

/-- The fractions of seconds that are cut off. -/
def cutOff : ℤ := ((gaps (readings isNumeric stream)).map fun g => min g cap % nsPerSec).sum

/-- How many readings repeat the place of the reading before. -/
def repeats (p : Place) : ℕ := (lag (places isNumeric stream)).countP fun r => r.1 = p ∧ r.2 = some p

end Walks

/-! ### The walk of the sums -/

section Sums
variable {isNumeric : Char → Bool} {stream : List LatestLocationEvent} {rs : List (ResolvedLocation × ℤ)}

/-- What the readings before others add. -/
def legs (rs : List (ResolvedLocation × ℤ)) : List (Place × (ℤ × UInt32)) :=
  (lag rs).filterMap fun t => t.2.map fun prev =>
    (place prev.1, (max (numSeconds (min (t.1.2 - prev.2) cap)) 0, 1))

/-- What all readings add. -/
def contributions (rs : List (ResolvedLocation × ℤ)) : List (Place × (ℤ × UInt32)) :=
  legs rs ++ rs.getLast?.toList.map fun r => (place r.1, (numSeconds cap, 1))

theorem foldl_visit (rs : List (ResolvedLocation × ℤ)) :
    rs.foldl visit ⟨[], none⟩ = ⟨merge (legs rs), rs.getLast?⟩ := by
  induction rs using List.reverseRecOn with
  | nil => rfl
  | append_singleton rs r ih =>
    rw [List.foldl_append, ih, List.foldl_cons, List.foldl_nil, List.getLast?_concat]
    unfold legs visit
    rw [lag_concat, List.filterMap_append]
    cases rs.getLast? with
    | none => simp
    | some prev => simp [merge_concat]

theorem terminal_foldl (rs : List (ResolvedLocation × ℤ)) :
    terminal (rs.foldl visit ⟨[], none⟩) = merge (contributions rs) := by
  rw [foldl_visit]
  unfold terminal contributions
  cases rs.getLast? with
  | none => simp
  | some r => simp [merge_concat]

theorem keys_contributions (rs : List (ResolvedLocation × ℤ)) :
    (contributions rs).map Prod.fst = rs.map fun r => place r.1 := by
  have hlegs : (legs rs).map Prod.fst = ((lag rs).filterMap (·.2)).map fun r => place r.1 := by
    unfold legs
    rw [List.map_filterMap, List.map_filterMap]
    refine List.filterMap_congr fun t _ => ?_
    rw [Option.map_map]
    rfl
  unfold contributions
  rw [List.map_append, hlegs, List.map_map]
  show _ ++ rs.getLast?.toList.map (fun r => place r.1) = _
  rw [← List.map_append, filterMap_lag]

theorem one_visit : ∀ b ∈ contributions rs, b.2.2 = 1 := by
  intro b hb
  rcases List.mem_append.mp hb with hb | hb
  · obtain ⟨t, -, hleg⟩ := List.mem_filterMap.mp hb
    obtain ⟨prev, -, rfl⟩ := Option.map_eq_some_iff.mp hleg
    rfl
  · obtain ⟨r, -, rfl⟩ := List.mem_map.mp hb
    rfl

theorem mem_aggregateDwell {e : BreakdownEntry} : e ∈ aggregateDwell isNumeric stream ↔
    ∃ b ∈ merge (contributions (readings isNumeric stream)), entry b = e := by
  unfold aggregateDwell
  simp only [terminal_foldl, mem_sortBy, List.mem_map]

theorem mem_places_aggregateDwell {p : Place} :
    p ∈ (aggregateDwell isNumeric stream).map (·.place) ↔ p ∈ places isNumeric stream := by
  have hkeys : p ∈ places isNumeric stream ↔
      p ∈ (merge (contributions (readings isNumeric stream))).map Prod.fst := by
    rw [mem_keys_merge, keys_contributions]
    rfl
  rw [hkeys, List.mem_map, List.mem_map]
  constructor
  · rintro ⟨e, he, rfl⟩
    obtain ⟨b, hb, rfl⟩ := mem_aggregateDwell.mp he
    exact ⟨b, hb, rfl⟩
  · rintro ⟨b, hb, rfl⟩
    exact ⟨entry b, mem_aggregateDwell.mpr ⟨b, hb, rfl⟩, rfl⟩

/-! ### Visits -/

theorem toNat_amountOf {l : List (Place × (ℤ × UInt32))} (hone : ∀ b ∈ l, b.2.2 = 1) (p : Place) :
    (amountOf l p).2.toNat = (l.map Prod.fst).countP (· = p) % 2 ^ 32 := by
  induction l with
  | nil => rfl
  | cons b l ih =>
    have ih := ih fun c hc => hone c (List.mem_cons_of_mem _ hc)
    have hb := hone b (List.mem_cons_self ..)
    rw [amountOf_cons, List.map_cons, List.countP_cons, Prod.snd_add, UInt32.toNat_add, ih]
    by_cases hp : b.1 = p
    · simp [hp, hb]
      omega
    · simp [hp]

/-- The visits of a place are its readings, modulo 2^32. -/
theorem visitCount_of_mem {e : BreakdownEntry} (he : e ∈ aggregateDwell isNumeric stream) :
    e.visitCount.toNat = (places isNumeric stream).countP (· = e.place) % 2 ^ 32 := by
  obtain ⟨b, hb, rfl⟩ := mem_aggregateDwell.mp he
  have hvisits := toNat_amountOf (@one_visit (readings isNumeric stream)) b.1
  rw [amountOf_merge_of_mem hb, keys_contributions] at hvisits
  exact hvisits

/-- The trace has an entry a stay. -/
theorem places_collapseToTrace :
    (collapseToTrace isNumeric stream).map (·.place) = stays (places isNumeric stream) := by
  have hjoins : ∀ e (r : ResolvedLocation × ℤ), sameAsLast e r = decide (e.place = place r.1) := by
    intro e r
    unfold sameAsLast TraceEntry.place place
    grind
  have hextend : ∀ e r, (extendTrace e r).place = e.place := fun e r => rfl
  have hstart : ∀ r, (startTrace r).place = place r.1 := fun r => rfl
  exact map_walk hjoins hextend hstart _

theorem countP_collapseToTrace (p : Place) : (collapseToTrace isNumeric stream).countP (·.place = p) =
    (stays (places isNumeric stream)).countP (· = p) := by
  rw [← places_collapseToTrace, List.countP_map]
  rfl

/-! ### Seconds -/

theorem nonneg_gaps {rs : List (ResolvedLocation × ℤ)} (hrs : rs.Pairwise fun r s => r.2 ≤ s.2) :
    ∀ g ∈ gaps rs, 0 ≤ g := by
  induction rs using List.reverseRecOn with
  | nil => exact fun g hg => absurd hg List.not_mem_nil
  | append_singleton rs r ih =>
    obtain ⟨hrs, -, hlast⟩ := List.pairwise_append.mp hrs
    intro g hg
    unfold gaps at hg
    rw [lag_concat, List.filterMap_append, List.mem_append] at hg
    rcases hg with hg | hg
    · exact ih hrs g hg
    · obtain ⟨t, ht, hgap⟩ := List.mem_filterMap.mp hg
      obtain rfl := List.mem_singleton.mp ht
      obtain ⟨prev, hprev, rfl⟩ := Option.map_eq_some_iff.mp hgap
      exact Int.sub_nonneg.mpr (hlast prev (List.mem_of_getLast? hprev) r (List.mem_singleton_self r))

theorem seconds_of_gap {g : ℤ} (hg : 0 ≤ g) :
    max (numSeconds (min g cap)) 0 * nsPerSec = min g cap - min g cap % nsPerSec := by
  have hmin : 0 ≤ min g cap := le_min hg (by decide)
  rw [max_eq_left (numSeconds_nonneg hmin), numSeconds_mul hmin]

theorem sum_seconds : ∀ {l : List ℤ}, (∀ g ∈ l, 0 ≤ g) →
    (l.map fun g => max (numSeconds (min g cap)) 0).sum * nsPerSec =
      (l.map (min · cap)).sum - (l.map fun g => min g cap % nsPerSec).sum
  | [], _ => rfl
  | g :: l, hl => by
    have ih := sum_seconds fun g hg => hl g (List.mem_cons_of_mem _ hg)
    have hg := seconds_of_gap (hl g (List.mem_cons_self ..))
    simp only [List.map_cons, List.sum_cons]
    rw [Int.add_mul, ih, hg]
    omega

theorem fst_sum (l : List (ℤ × UInt32)) : l.sum.1 = (l.map Prod.fst).sum := by
  induction l with
  | nil => rfl
  | cons b l ih => rw [List.sum_cons, Prod.fst_add, ih, List.map_cons, List.sum_cons]

theorem seconds_legs (rs : List (ResolvedLocation × ℤ)) :
    (legs rs).map (fun b => b.2.1) = (gaps rs).map fun g => max (numSeconds (min g cap)) 0 := by
  unfold legs gaps
  rw [List.map_filterMap, List.map_filterMap]
  refine List.filterMap_congr fun t _ => ?_
  rw [Option.map_map, Option.map_map]
  rfl

/-- The sum over all places is that over the gaps, and the cap if there is a reading. -/
theorem sum_dwellSeconds : ((aggregateDwell isNumeric stream).map (·.dwellSeconds)).sum =
    ((gaps (readings isNumeric stream)).map fun g => max (numSeconds (min g cap)) 0).sum +
      if readings isNumeric stream = [] then 0 else numSeconds cap := by
  have hmerge : ((aggregateDwell isNumeric stream).map (·.dwellSeconds)).sum =
      ((merge (contributions (readings isNumeric stream))).map Prod.snd).sum.1 := by
    unfold aggregateDwell
    simp only [terminal_foldl]
    rw [((perm_sortBy _ _).map _).sum_eq, List.map_map, ((perm_sortBy _ _).map _).sum_eq, fst_sum,
      List.map_map]
    rfl
  rw [hmerge, sum_merge, fst_sum, List.map_map]
  unfold contributions
  rw [List.map_append, List.sum_append]
  show ((legs _).map fun b => b.2.1).sum + _ = _
  rw [seconds_legs]
  rcases List.eq_nil_or_concat' (readings isNumeric stream) with hnil | ⟨before, r, hlast⟩
  · rw [hnil]
    rfl
  · rw [hlast, List.getLast?_concat, if_neg (by simp)]
    simp

end Sums

/-! ### The condition -/

section Condition
variable {isNumeric : Char → Bool} {stream : List LatestLocationEvent}

theorem inOrder_readings (hstream : stream.Pairwise fun ev ev' => ev.eventTimestamp ≤ ev'.eventTimestamp) :
    (readings isNumeric stream).Pairwise fun r s => r.2 ≤ s.2 := by
  refine List.Pairwise.filterMap _ (fun ev ev' hle r hr s hs => ?_) hstream
  obtain ⟨_, -, rfl⟩ := Option.map_eq_some_iff.mp hr
  obtain ⟨_, -, rfl⟩ := Option.map_eq_some_iff.mp hs
  exact hle

/-- The sums are exact if there is a reading, and the fractions are less than a second. -/
theorem total_iff (hstream : stream.Pairwise fun ev ev' => ev.eventTimestamp ≤ ev'.eventTimestamp) :
    |((aggregateDwell isNumeric stream).map (·.dwellSeconds)).sum * nsPerSec - spent isNumeric stream| <
      nsPerSec ↔ readings isNumeric stream ≠ [] ∧ cutOff isNumeric stream < nsPerSec := by
  have hgaps := nonneg_gaps (@inOrder_readings isNumeric stream hstream)
  have hseconds := sum_seconds hgaps
  have hcut : 0 ≤ cutOff isNumeric stream := by
    unfold cutOff
    refine List.sum_nonneg fun f hf => ?_
    obtain ⟨g, -, rfl⟩ := List.mem_map.mp hf
    exact Int.emod_nonneg _ (by decide)
  have hcap : numSeconds cap * nsPerSec = cap := rfl
  have hlong : nsPerSec ≤ cap := by decide
  rw [sum_dwellSeconds, Int.add_mul, hseconds]
  show |_ - cutOff isNumeric stream + _ - (_ + cap)| < _ ↔ _
  split_ifs with hnil
  · refine iff_of_false ?_ fun h => h.1 hnil
    rw [Int.zero_mul, abs_lt]
    omega
  · rw [hcap, abs_lt]
    refine ⟨fun h => ⟨hnil, ?_⟩, fun h => ?_⟩
    · omega
    · omega

/-- The visits are the stays if no reading repeats the place of the one before. -/
theorem visits_iff : (∀ e ∈ aggregateDwell isNumeric stream,
      e.visitCount.toNat = (collapseToTrace isNumeric stream).countP (·.place = e.place)) ↔
    ∀ p, 2 ^ 32 ∣ repeats isNumeric stream p ∧
      (stays (places isNumeric stream)).countP (· = p) < 2 ^ 32 := by
  have hcount := fun p => countP_eq_stays_add (places isNumeric stream) p
  constructor
  · intro h p
    by_cases hp : p ∈ places isNumeric stream
    · obtain ⟨e, he, rfl⟩ := List.mem_map.mp (mem_places_aggregateDwell.mpr hp)
      have hvisits := h e he
      rw [visitCount_of_mem he, countP_collapseToTrace, hcount] at hvisits
      unfold repeats
      omega
    · have hnone : (places isNumeric stream).countP (· = p) = 0 := by
        refine List.countP_eq_zero.mpr fun q hq heq => hp ?_
        rwa [of_decide_eq_true heq] at hq
      have hsum := hcount p
      unfold repeats
      omega
  · intro h e he
    have hp := h e.place
    unfold repeats at hp
    rw [visitCount_of_mem he, countP_collapseToTrace, hcount]
    omega

theorem exact_iff (hstream : stream.Pairwise fun ev ev' => ev.eventTimestamp ≤ ev'.eventTimestamp) :
    Exact isNumeric stream ↔ readings isNumeric stream ≠ [] ∧ cutOff isNumeric stream < nsPerSec ∧
      ∀ p, 2 ^ 32 ∣ repeats isNumeric stream p ∧
        (stays (places isNumeric stream)).countP (· = p) < 2 ^ 32 := by
  have hlisted : ∀ p, p ∈ (aggregateDwell isNumeric stream).map (·.place) ↔
      p ∈ (collapseToTrace isNumeric stream).map (·.place) := by
    intro p
    rw [mem_places_aggregateDwell, places_collapseToTrace, mem_stays]
  have htotal := @total_iff isNumeric stream hstream
  have hvisits := @visits_iff isNumeric stream
  constructor
  · intro h
    obtain ⟨hsome, hcut⟩ := htotal.mp h.total
    exact ⟨hsome, hcut, hvisits.mp h.visits⟩
  · rintro ⟨hsome, hcut, hrepeats⟩
    exact ⟨htotal.mpr ⟨hsome, hcut⟩, hlisted, hvisits.mpr hrepeats⟩

end Condition

/-! ### Lorville and Orison -/

/-- A request of the inventory in Lorville. -/
def inLorville (ts : ℤ) : LatestLocationEvent :=
  ⟨"location_inventory_requested", ts, .obj [("location", .str "Stanton1_Lorville")]⟩

def inOrison (ts : ℤ) : LatestLocationEvent :=
  ⟨"location_inventory_requested", ts, .obj [("location", .str "Stanton2_Orison")]⟩

/-- Half a second less than ten minutes in Lorville, and then Orison. -/
def journey : List LatestLocationEvent := [inLorville 0, inOrison (599500000000)]

/-- Two requests in Lorville, ten minutes apart. -/
def stay : List LatestLocationEvent := [inLorville 0, inLorville (600000000000)]

theorem exact_journey : Exact Char.isDigit journey := by
  have hplaces : places Char.isDigit journey = [(some "Hurston", some "Lorville", some "Stanton"),
      (some "Crusader", some "Orison", some "Stanton")] := by decide +kernel
  refine (exact_iff (by decide)).mpr ⟨by decide, by decide, fun p => ⟨?_, ?_⟩⟩
  · have hnone : repeats Char.isDigit journey p = 0 := by
      unfold repeats
      rw [hplaces]
      refine List.countP_eq_zero.mpr fun r hr heq => ?_
      obtain ⟨hcur, hprev⟩ := of_decide_eq_true heq
      have hdiffer : ∀ r ∈ lag [((some "Hurston", some "Lorville", some "Stanton") : Place),
          (some "Crusader", some "Orison", some "Stanton")], r.2 ≠ some r.1 := by decide +kernel
      exact hdiffer r hr (hprev.trans (congrArg some hcur.symm))
    rw [hnone]
    exact Nat.dvd_zero _
  · have hlen := List.countP_le_length (p := (· = p)) (l := stays (places Char.isDigit journey))
    have htwo : (stays (places Char.isDigit journey)).length = 2 := by decide +kernel
    omega

/-- **Two readings of one stay count as two visits.** -/
theorem not_exact_stay : (stay.Pairwise fun ev ev' => ev.eventTimestamp ≤ ev'.eventTimestamp) ∧
    aggregateDwell Char.isDigit stay = [⟨some "Hurston", some "Lorville", some "Stanton", 2400, 2⟩] ∧
    ¬ Exact Char.isDigit stay := by
  have hdwell : aggregateDwell Char.isDigit stay =
      [⟨some "Hurston", some "Lorville", some "Stanton", 2400, 2⟩] := by decide +kernel
  have htrace : (collapseToTrace Char.isDigit stay).map (·.place) =
      [(some "Hurston", some "Lorville", some "Stanton")] := by decide +kernel
  refine ⟨by decide, hdwell, fun h => ?_⟩
  have hvisits := h.visits _ (by rw [hdwell]; exact List.mem_singleton_self _)
  revert hvisits
  decide +kernel

end StarStats.Server.Dwell
