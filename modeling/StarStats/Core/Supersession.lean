import StarStats.Core.Inference

/-! # What supersedes an inferred row

An inferred row is marked with the first observed event of the same type and entity within a window after
it. The time between the two is cut to whole seconds before it is compared, so an event that is less than a
second before the row, or less than a second after the end of the window, is taken as well. The marks are
right exactly if such an event is never the first (`exactMarks_iff`). -/

namespace StarStats.Core.Supersession

open StarStats.Core.Events StarStats.Core.Metadata StarStats.Core.Wire StarStats.Core.Inference
open StarStats.Lib.Ints

section Windows
variable (parseTs : String → Option ℤ) (events : List EventEnvelope) (config : InferenceConfig)
  (row : InferredEvent) (inferredTs : ℤ)

/-- An event of the type and the entity of the row, at one of some instants. -/
def observedAt (p : ℤ → Bool) (env : EventEnvelope) : Bool :=
  env.event.any fun observed => sameEntity row observed && (parseTs observed.timestamp).any p

/-- The event is in the window, to the nanosecond. -/
def exactly : EventEnvelope → Bool :=
  observedAt parseTs row fun ts =>
    inferredTs ≤ ts && ts ≤ inferredTs + config.reconciliationSecs * nsPerSec

/-- The event is outside of the window, by less than a second. -/
def nearMiss : EventEnvelope → Bool :=
  observedAt parseTs row fun ts =>
    (inferredTs - nsPerSec < ts && ts < inferredTs) ||
      (inferredTs + config.reconciliationSecs * nsPerSec < ts &&
        ts < inferredTs + (config.reconciliationSecs + 1) * nsPerSec)

/-- The key of the first event in the window. -/
def exactKey : Option String :=
  (parseTs row.event.timestamp).bind fun inferredTs =>
    (events.find? (exactly parseTs config row inferredTs)).map (·.idempotencyKey)

/-- **Each row is marked with the first event in its window**, and not marked if there is none. -/
def ExactMarks : Prop :=
  ∀ row ∈ infer parseTs events config, row.supersededBy = exactKey parseTs events config row

/-- Where an event outside of the window comes first, the first event in the window has its key. -/
def FirstInside : Prop :=
  ∀ before env after, events = before ++ env :: after →
    nearMiss parseTs config row inferredTs env = true →
    (∀ e ∈ before, exactly parseTs config row inferredTs e = false ∧
      nearMiss parseTs config row inferredTs e = false) →
    (events.find? (exactly parseTs config row inferredTs)).map (·.idempotencyKey) =
      some env.idempotencyKey

end Windows

/-! ### Whole seconds -/

section Marks
variable {parseTs : String → Option ℤ} {events : List EventEnvelope} {config : InferenceConfig}
  {row : InferredEvent}

/-- Within the window in whole seconds, an event is in it or misses it by less than a second. -/
theorem supersedes_eq (hsecs : 0 ≤ config.reconciliationSecs) (inferredTs : ℤ) (env : EventEnvelope) :
    supersedes parseTs config row inferredTs env =
      (exactly parseTs config row inferredTs env || nearMiss parseTs config row inferredTs env) := by
  unfold supersedes exactly nearMiss observedAt
  cases env.event with
  | none => rfl
  | some observed =>
    cases hts : parseTs observed.timestamp with
    | none => simp [hts]
    | some ts =>
      have hearly := @numSeconds_neg_iff (ts - inferredTs)
      have hlate := @lt_numSeconds_iff _ (ts - inferredTs) hsecs
      have hinside : (!(decide (numSeconds (ts - inferredTs) < 0) ||
          decide (config.reconciliationSecs < numSeconds (ts - inferredTs)))) =
        ((decide (inferredTs ≤ ts) && decide (ts ≤ inferredTs + config.reconciliationSecs * nsPerSec)) ||
          ((decide (inferredTs - nsPerSec < ts) && decide (ts < inferredTs)) ||
            (decide (inferredTs + config.reconciliationSecs * nsPerSec < ts) &&
              decide (ts < inferredTs + (config.reconciliationSecs + 1) * nsPerSec)))) := by
        rw [Bool.eq_iff_iff]
        simp only [Bool.not_eq_true', Bool.or_eq_false_iff, decide_eq_false_iff_not, Bool.or_eq_true,
          Bool.and_eq_true, decide_eq_true_eq, hearly, hlate]
        unfold nsPerSec
        omega
      simp only [Option.any_some, hts, hinside, Bool.and_or_distrib_left]

/-- The first of two kinds has the key of the first of one of them, unless one of the other comes first and
has another key. -/
theorem map_find?_iff {α β : Type} {q m : α → Bool} {key : α → β} {l : List α} :
    (l.find? fun a => q a || m a).map key = (l.find? q).map key ↔
      ∀ before a after, l = before ++ a :: after → m a = true →
        (∀ b ∈ before, q b = false ∧ m b = false) → (l.find? q).map key = some (key a) := by
  constructor
  · intro h before a after hl hm hbefore
    have hfirst : (l.find? fun a => q a || m a) = some a := by
      refine List.find?_eq_some_iff_append.mpr ⟨by simp [hm], before, after, hl, fun b hb => ?_⟩
      simp [hbefore b hb]
    rw [← h, hfirst]
    rfl
  · intro h
    cases hfind : l.find? fun a => q a || m a with
    | none =>
      have hnone : l.find? q = none := by
        refine List.find?_eq_none.mpr fun a ha hq => List.find?_eq_none.mp hfind a ha ?_
        simp [hq]
      rw [hnone]
    | some a =>
      obtain ⟨ha, before, after, hl, hbefore⟩ := List.find?_eq_some_iff_append.mp hfind
      have hbefore : ∀ b ∈ before, q b = false ∧ m b = false := fun b hb => by
        simpa using hbefore b hb
      by_cases hq : q a = true
      · have hfirst : l.find? q = some a := by
          refine List.find?_eq_some_iff_append.mpr ⟨hq, before, after, hl, fun b hb => ?_⟩
          simp [hbefore b hb]
        rw [hfirst]
      · have hm : m a = true := by simpa [hq] using ha
        exact (h before a after hl hm hbefore).symm

/-- A mark leaves the time and the entity of its row as they are. -/
theorem exactKey_reconcile :
    exactKey parseTs events config (reconcile parseTs events config row) =
      exactKey parseTs events config row := by
  unfold exactKey exactly observedAt sameEntity
  rw [event_reconcile, metadata_reconcile]

theorem supersededBy_reconcile (hrow : row.supersededBy = none) :
    (reconcile parseTs events config row).supersededBy =
      (parseTs row.event.timestamp).bind fun inferredTs =>
        (events.find? (supersedes parseTs config row inferredTs)).map (·.idempotencyKey) := by
  unfold reconcile
  cases parseTs row.event.timestamp with
  | none => exact hrow
  | some inferredTs =>
    simp only [Option.bind_some]
    cases events.find? (supersedes parseTs config row inferredTs) with
    | none => exact hrow
    | some env => rfl

/-- The mark of a row is right exactly if an event inside of its window comes first. -/
theorem exactKey_iff (hsecs : 0 ≤ config.reconciliationSecs) (hrow : row.supersededBy = none) :
    (reconcile parseTs events config row).supersededBy = exactKey parseTs events config row ↔
      ∀ inferredTs ∈ parseTs row.event.timestamp,
        FirstInside parseTs events config row inferredTs := by
  rw [supersededBy_reconcile hrow]
  unfold exactKey
  cases parseTs row.event.timestamp with
  | none => exact iff_of_true rfl fun ts hts => by cases hts
  | some inferredTs =>
    simp only [Option.bind_some, Option.mem_some_iff, forall_eq']
    have hsplit : supersedes parseTs config row inferredTs = fun env =>
        exactly parseTs config row inferredTs env || nearMiss parseTs config row inferredTs env :=
      funext (supersedes_eq hsecs inferredTs)
    rw [hsplit]
    exact map_find?_iff

theorem exactMarks_iff (hsecs : 0 ≤ config.reconciliationSecs) : ExactMarks parseTs events config ↔
    ∀ row ∈ rows parseTs events config, ∀ inferredTs ∈ parseTs row.event.timestamp,
      FirstInside parseTs events config row inferredTs := by
  unfold ExactMarks infer
  rw [List.forall_mem_map]
  refine forall₂_congr fun row hrow => ?_
  rw [exactKey_reconcile]
  exact exactKey_iff hsecs (supersededBy_of_mem_rows hrow)

end Marks

/-! ### A death half a second early -/

/-- The timestamps below, as nanoseconds since 1970. -/
def readTs (s : String) : Option ℤ :=
  [("2026-05-17T14:02:30Z", (1779026550000000000 : ℤ)), ("2026-05-17T14:02:30.500Z", 1779026550500000000),
    ("2026-05-17T14:02:33Z", 1779026553000000000), ("2026-05-17T14:02:35Z", 1779026555000000000)].lookup s

def destruction (timestamp : String) : EventEnvelope :=
  makeEnvelope (.vehicleDestruction ⟨timestamp, "Cutlass", some "v1", 2, "self", none⟩) "envA"

def spawn : EventEnvelope := makeEnvelope (.resolveSpawn ⟨"2026-05-17T14:02:35Z", "Jim", false⟩) "envB"

def death (timestamp : String) : EventEnvelope :=
  makeEnvelope (.playerDeath ⟨timestamp, "body_01_noMagicPocket", "id1", none⟩) "envObsDeath"

theorem exactMarks_later : ExactMarks readTs
    [destruction "2026-05-17T14:02:30.500Z", death "2026-05-17T14:02:33Z", spawn] .default := by
  refine (exactMarks_iff (by decide)).mpr fun row hrow ts hts before env after hevents hmiss _ => ?_
  have hnone : ∀ row ∈ rows readTs
      [destruction "2026-05-17T14:02:30.500Z", death "2026-05-17T14:02:33Z", spawn] .default,
      ∀ ts ∈ readTs row.event.timestamp,
        ∀ env ∈ [destruction "2026-05-17T14:02:30.500Z", death "2026-05-17T14:02:33Z", spawn],
          nearMiss readTs .default row ts env = false := by decide +kernel
  have hmem : env ∈ [destruction "2026-05-17T14:02:30.500Z", death "2026-05-17T14:02:33Z", spawn] := by
    rw [hevents]
    exact List.mem_append_right _ (List.mem_cons_self ..)
  rw [hnone row hrow ts hts env hmem] at hmiss
  cases hmiss

/-- **A death half a second before the inferred one supersedes it.** -/
theorem not_exactMarks_early : ¬ ExactMarks readTs
    [death "2026-05-17T14:02:30Z", destruction "2026-05-17T14:02:30.500Z", spawn] .default := by
  unfold ExactMarks
  decide +kernel

end StarStats.Core.Supersession
