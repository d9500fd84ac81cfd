import Mathlib.Data.List.Induction
import StarStats.Core.Wire
import StarStats.Lib.Ints

/-! # Inferred events

Three rules infer events from the ones around them: a death from a destroyed vehicle and a spawn, a change
of location from two planets, and a timeout from a request in a shop that nobody answers. Then each inferred
row is marked with the observed event that makes it superfluous, if there is one. `parseTs` reads a
timestamp, as `DateTime::parse_from_rfc3339` does, into nanoseconds. -/

namespace StarStats.Core.Inference

open StarStats.Core.Events StarStats.Core.Metadata StarStats.Core.Wire StarStats.Lib.Ints

/-- The limits of the inference. -/
structure InferenceConfig where
  windowSize : ℕ
  reconciliationSecs : ℤ
  deriving DecidableEq

/-- `InferenceConfig::default()` -/
def InferenceConfig.default : InferenceConfig := ⟨200, 5⟩

/-- An event that no line of the log tells. -/
structure InferredEvent where
  event : GameEvent
  metadata : EventMetadata
  triggerIdempotencyKey : String
  supersededBy : Option String
  deriving DecidableEq

/-- Its source is `inferred`, whatever it was inferred from. -/
def buildInferredMetadata (primaryEntity : EntityRef) (event : GameEvent) (confidence : F32)
    (ruleId : String) (inferenceInputs : List String) : EventMetadata where
  primaryEntity := primaryEntity
  source := .inferred
  confidence := confidence
  groupKey := event.eventTypeKey ++ ":" ++ entityKindKey primaryEntity.kind ++ ":" ++ primaryEntity.id
  fieldProvenance := []
  inferenceInputs := inferenceInputs
  ruleId := some ruleId

/-- The row every rule makes of its event. -/
def inferred (event : GameEvent) (confidence : F32) (ruleId : String) (inferenceInputs : List String)
    (trigger : EventEnvelope) : InferredEvent where
  event := event
  metadata :=
    buildInferredMetadata (primaryEntityFor event none) event confidence ruleId inferenceInputs
  triggerIdempotencyKey := trigger.idempotencyKey
  supersededBy := none

/-- Each element with those after it. -/
def followed {α : Type} : List α → List (α × List α)
  | [] => []
  | a :: l => (a, l) :: followed l

section Rules
variable (parseTs : String → Option ℤ)

/-- `envelope_timestamp(env).and_then(parse_ts)` -/
def envelopeTs (env : EventEnvelope) : Option ℤ := env.event.bind (parseTs ·.timestamp)

/-- The first envelope with an event that is wanted, up to one that is more than `limit` seconds after
`start`. -/
def scanForward (limit start : ℤ) (wanted : GameEvent → Bool) : List EventEnvelope → Option EventEnvelope
  | [] => none
  | follower :: rest =>
    match envelopeTs parseTs follower with
    | none => scanForward limit start wanted rest
    | some ts =>
      let delta := numSeconds (ts - start)
      if limit < delta then none
      else if delta < 0 then scanForward limit start wanted rest
      else if follower.event.any wanted then some follower
      else scanForward limit start wanted rest

/-! ### A death after a destroyed vehicle -/

/-- `RULE_ID_IMPLICIT_DEATH` -/
def ruleIdImplicitDeath : String := "implicit_death_after_vehicle_destruction"

/-- `IMPLICIT_DEATH_WINDOW_SECS` -/
def implicitDeathWindowSecs : ℤ := 15

/-- The binary32 nearest to 0.85. -/
def implicitDeathConfidence : F32 := .num (14260634 / 16777216)

/-- A player's spawn is resolved. -/
def isResolveSpawn : GameEvent → Bool
  | .resolveSpawn _ => true
  | _ => false

/-- What the rule makes of an envelope and those after it. -/
def implicitDeath (config : InferenceConfig) (env : EventEnvelope) (later : List EventEnvelope) :
    Option InferredEvent :=
  match env.event with
  | some (.vehicleDestruction veh) =>
    (parseTs veh.timestamp).bind fun vehTs =>
      let matchedSpawn :=
        scanForward parseTs implicitDeathWindowSecs vehTs isResolveSpawn (later.take config.windowSize)
      matchedSpawn.map fun spawn =>
        inferred
          (.playerDeath ⟨veh.timestamp, "inferred", "inferred_" ++ env.idempotencyKey, veh.zone⟩)
          implicitDeathConfidence ruleIdImplicitDeath [env.idempotencyKey, spawn.idempotencyKey] env
  | _ => none

/-- A vehicle's loss with a spawn of the player behind it. -/
def ruleImplicitDeathAfterVehicleDestruction (events : List EventEnvelope) (config : InferenceConfig) :
    List InferredEvent :=
  (followed events).filterMap fun f => implicitDeath parseTs config f.1 f.2

/-! ### A change of location -/

/-- `RULE_ID_IMPLICIT_LOCATION_CHANGE` -/
def ruleIdImplicitLocationChange : String := "implicit_location_change"

/-- The binary32 nearest to 0.70. -/
def implicitLocationChangeConfidence : F32 := .num (11744051 / 16777216)

/-- The last planet, whether an inventory has been asked for since, and the rows so far. -/
structure PlanetScan where
  prevPlanet : Option (EventEnvelope × String)
  inventorySeenSincePrev : Bool
  out : List InferredEvent

/-- The row for a planet after another one. -/
def locationChange (s : PlanetScan) (env : EventEnvelope) (load : PlanetTerrainLoad) :
    Option InferredEvent :=
  s.prevPlanet.bind fun prev =>
    if s.inventorySeenSincePrev = false ∧ prev.2 ≠ load.planet then
      some (inferred (.locationChanged ⟨load.timestamp, some prev.2, load.planet⟩)
        implicitLocationChangeConfidence ruleIdImplicitLocationChange
        [prev.1.idempotencyKey, env.idempotencyKey] env)
    else none

/-- A round of the loop: the planet seen last, and what has come of it. -/
def planetStep (s : PlanetScan) (env : EventEnvelope) : PlanetScan :=
  match env.event with
  | some (.planetTerrainLoad load) =>
    ⟨some (env, load.planet), false, s.out ++ (locationChange s env load).toList⟩
  | some (.locationInventoryRequested _) => { s with inventorySeenSincePrev := true }
  | _ => s

/-- A planet after another one, with no inventory asked for between them. -/
def ruleImplicitLocationChange (events : List EventEnvelope) : List InferredEvent :=
  (events.foldl planetStep ⟨none, false, []⟩).out

/-! ### A timeout in a shop -/

/-- `RULE_ID_IMPLICIT_SHOP_REQUEST_TIMEOUT` -/
def ruleIdImplicitShopRequestTimeout : String := "implicit_shop_request_timeout"

/-- `IMPLICIT_SHOP_REQUEST_TIMEOUT_SECS` -/
def implicitShopRequestTimeoutSecs : ℤ := 30

/-- The binary32 nearest to 0.90. -/
def implicitShopRequestTimeoutConfidence : F32 := .num (15099494 / 16777216)

/-- A response that is for the shop of the request, or where one of them names none. -/
def idMatch (req : ShopBuyRequest) : GameEvent → Bool
  | .shopFlowResponse resp =>
    match req.shopId, resp.shopId with
    | some a, some b => a = b
    | _, _ => true
  | _ => false

/-- The event of a request that timed out. -/
def timedOut (req : ShopBuyRequest) : GameEvent :=
  .shopRequestTimedOut
    ⟨req.timestamp, req.shopId, req.itemClass, implicitShopRequestTimeoutSecs.toNat⟩

/-- What the rule makes of an envelope and those after it. -/
def implicitTimeout (config : InferenceConfig) (env : EventEnvelope) (later : List EventEnvelope) :
    Option InferredEvent :=
  match env.event with
  | some (.shopBuyRequest req) =>
    (parseTs req.timestamp).bind fun reqTs =>
      let answer := scanForward parseTs implicitShopRequestTimeoutSecs reqTs (idMatch req)
        (later.take config.windowSize)
      if answer.isSome then none
      else some (inferred (timedOut req) implicitShopRequestTimeoutConfidence
        ruleIdImplicitShopRequestTimeout [env.idempotencyKey] env)
  | _ => none

/-- A request without an answer behind it. -/
def ruleImplicitShopRequestTimeout (events : List EventEnvelope) (config : InferenceConfig) :
    List InferredEvent :=
  (followed events).filterMap fun f => implicitTimeout parseTs config f.1 f.2

/-! ### What supersedes a row -/

/-- Of the same type and the same entity. -/
def sameEntity (row : InferredEvent) (observed : GameEvent) : Bool :=
  let observedEntity := primaryEntityFor observed none
  observed.eventTypeKey = row.event.eventTypeKey &&
    observedEntity.kind = row.metadata.primaryEntity.kind &&
    observedEntity.id = row.metadata.primaryEntity.id

/-- The event of the envelope supersedes a row of this time. -/
def supersedes (config : InferenceConfig) (row : InferredEvent) (inferredTs : ℤ) (env : EventEnvelope) :
    Bool :=
  env.event.any fun observed => sameEntity row observed &&
    (parseTs observed.timestamp).any fun observedTs =>
      let delta := numSeconds (observedTs - inferredTs)
      !(delta < 0 || config.reconciliationSecs < delta)

/-- A row is marked with the key of the first event that supersedes it. -/
def reconcile (events : List EventEnvelope) (config : InferenceConfig) (row : InferredEvent) :
    InferredEvent :=
  match parseTs row.event.timestamp with
  | none => row
  | some inferredTs =>
    match events.find? (supersedes parseTs config row inferredTs) with
    | none => row
    | some env => { row with supersededBy := some env.idempotencyKey }

/-- The rows of the three rules. -/
def rows (events : List EventEnvelope) (config : InferenceConfig) : List InferredEvent :=
  ruleImplicitDeathAfterVehicleDestruction parseTs events config ++ ruleImplicitLocationChange events ++
    ruleImplicitShopRequestTimeout parseTs events config

/-- The rows of the three rules, each marked if an event supersedes it. -/
def infer (events : List EventEnvelope) (config : InferenceConfig) : List InferredEvent :=
  (rows parseTs events config).map (reconcile parseTs events config)

end Rules

/-- An observed event, as the tests of the rules make it. -/
def makeEnvelope (event : GameEvent) (idk : String) : EventEnvelope :=
  ⟨idk, "synthetic_for_" ++ idk, some event, .live, 0, none⟩

/-! ### Scans -/

section Scans
variable {parseTs : String → Option ℤ} {limit start : ℤ} {wanted : GameEvent → Bool}
  {l : List EventEnvelope}

/-- The timestamps that can be read do not go down. -/
def InOrder (parseTs : String → Option ℤ) (l : List EventEnvelope) : Prop :=
  l.Pairwise fun e e' => ∀ s ∈ envelopeTs parseTs e, ∀ t ∈ envelopeTs parseTs e', s ≤ t

theorem scanForward_eq_none (h : ∀ e ∈ l, e.event.any wanted = false) :
    scanForward parseTs limit start wanted l = none := by
  induction l with
  | nil => rfl
  | cons e l ih =>
    have ih := ih fun e' he' => h e' (List.mem_cons_of_mem _ he')
    have he := h e (List.mem_cons_self ..)
    unfold scanForward
    rw [ih, he]
    cases envelopeTs parseTs e with
    | none => rfl
    | some ts => simp

/-- A scan that finds nothing has not passed over a wanted event in time: what ends the scan is too late,
and so is what comes after it. -/
theorem late_of_scanForward (hlimit : 0 ≤ limit) (hl : InOrder parseTs l)
    (h : scanForward parseTs limit start wanted l = none) : ∀ e ∈ l, e.event.any wanted = true →
      ∀ t ∈ envelopeTs parseTs e, start ≤ t → start + (limit + 1) * nsPerSec ≤ t := by
  induction l with
  | nil => exact fun e he => absurd he List.not_mem_nil
  | cons f l ih =>
    obtain ⟨hf, hl⟩ := List.pairwise_cons.mp hl
    intro e he hwanted t ht hstart
    unfold scanForward at h
    cases hts : envelopeTs parseTs f with
    | none =>
      rw [hts] at h
      rcases List.mem_cons.mp he with rfl | he
      · rw [hts] at ht
        cases ht
      · exact ih hl h e he hwanted t ht hstart
    | some ts =>
      rw [hts] at h
      simp only at h
      split_ifs at h with hlate hearly hfound
      · have hbreak := (lt_numSeconds_iff hlimit).mp hlate
        have hle : ts ≤ t := by
          rcases List.mem_cons.mp he with rfl | he
          · rw [hts] at ht
            exact Int.le_of_eq (Option.some.inj ht)
          · exact hf e he ts hts t ht
        omega
      · rcases List.mem_cons.mp he with rfl | he
        · rw [hts] at ht
          obtain rfl := Option.some.inj ht
          have hneg := numSeconds_neg_iff.mp hearly
          unfold nsPerSec at hneg
          omega
        · exact ih hl h e he hwanted t ht hstart
      · rcases List.mem_cons.mp he with rfl | he
        · exact absurd hwanted hfound
        · exact ih hl h e he hwanted t ht hstart

theorem InOrder.take (hl : InOrder parseTs l) (n : ℕ) : InOrder parseTs (l.take n) :=
  hl.sublist (List.take_sublist ..)

end Scans

/-! ### The rows -/

section Rows
variable {parseTs : String → Option ℤ} {events : List EventEnvelope} {config : InferenceConfig}
  {row : InferredEvent}

theorem mem_followed {α : Type} {l : List α} {f : α × List α} :
    f ∈ followed l ↔ ∃ before, l = before ++ f.1 :: f.2 := by
  induction l with
  | nil => simp [followed]
  | cons a l ih =>
    unfold followed
    rw [List.mem_cons, ih]
    constructor
    · rintro (rfl | ⟨before, rfl⟩)
      · exact ⟨[], rfl⟩
      · exact ⟨a :: before, rfl⟩
    · rintro ⟨before, h⟩
      cases before with
      | nil =>
        obtain ⟨rfl, rfl⟩ := List.cons.inj h
        exact Or.inl rfl
      | cons b before => exact Or.inr ⟨before, (List.cons.inj h).2⟩

/-- Only the mark of a row is changed. -/
theorem reconcile_eq : ∃ mark, reconcile parseTs events config row = { row with supersededBy := mark } := by
  unfold reconcile
  split
  · exact ⟨row.supersededBy, rfl⟩
  · split
    · exact ⟨row.supersededBy, rfl⟩
    · exact ⟨_, rfl⟩

theorem event_reconcile : (reconcile parseTs events config row).event = row.event := by
  obtain ⟨mark, hmark⟩ := @reconcile_eq parseTs events config row
  rw [hmark]

theorem metadata_reconcile : (reconcile parseTs events config row).metadata = row.metadata := by
  obtain ⟨mark, hmark⟩ := @reconcile_eq parseTs events config row
  rw [hmark]

theorem triggerIdempotencyKey_reconcile :
    (reconcile parseTs events config row).triggerIdempotencyKey = row.triggerIdempotencyKey := by
  obtain ⟨mark, hmark⟩ := @reconcile_eq parseTs events config row
  rw [hmark]

/-- A property of the events picks rows of each rule. -/
theorem filter_infer {keep : InferredEvent → Bool}
    (hkeep : ∀ row row', row.event = row'.event → keep row = keep row') :
    (infer parseTs events config).filter keep =
      ((ruleImplicitDeathAfterVehicleDestruction parseTs events config).filter keep ++
        (ruleImplicitLocationChange events).filter keep ++
        (ruleImplicitShopRequestTimeout parseTs events config).filter keep).map
          (reconcile parseTs events config) := by
  have hmark : ∀ row, keep (reconcile parseTs events config row) = keep row :=
    fun row => hkeep _ _ event_reconcile
  unfold infer rows
  rw [List.filter_map, Function.comp_def]
  simp only [hmark]
  rw [List.filter_append, List.filter_append]

theorem exists_of_implicitDeath {env : EventEnvelope} {later : List EventEnvelope}
    (h : implicitDeath parseTs config env later = some row) :
    ∃ death, row.event = .playerDeath death ∧ row.supersededBy = none := by
  unfold implicitDeath at h
  split at h
  · obtain ⟨vehTs, -, hmatched⟩ := Option.bind_eq_some_iff.mp h
    obtain ⟨spawn, -, rfl⟩ := Option.map_eq_some_iff.mp hmatched
    exact ⟨_, rfl, rfl⟩
  · cases h

theorem exists_of_locationChange {s : PlanetScan} {env : EventEnvelope} {load : PlanetTerrainLoad}
    (h : locationChange s env load = some row) :
    ∃ change, row.event = .locationChanged change ∧ row.supersededBy = none := by
  obtain ⟨prev, -, hrow⟩ := Option.bind_eq_some_iff.mp h
  split_ifs at hrow
  obtain rfl := Option.some.inj hrow
  exact ⟨_, rfl, rfl⟩

/-- A timeout is that of a request that the scan has found no answer to. -/
theorem exists_of_implicitTimeout {env : EventEnvelope} {later : List EventEnvelope}
    (h : implicitTimeout parseTs config env later = some row) :
    ∃ req reqTs, env.event = some (.shopBuyRequest req) ∧ parseTs req.timestamp = some reqTs ∧
      scanForward parseTs implicitShopRequestTimeoutSecs reqTs (idMatch req)
        (later.take config.windowSize) = none ∧
      row = inferred (timedOut req) implicitShopRequestTimeoutConfidence
        ruleIdImplicitShopRequestTimeout [env.idempotencyKey] env := by
  unfold implicitTimeout at h
  split at h
  case h_2 => cases h
  case h_1 req hreq =>
    obtain ⟨reqTs, hts, hrow⟩ := Option.bind_eq_some_iff.mp h
    simp only at hrow
    split_ifs at hrow with hanswer
    exact ⟨req, reqTs, hreq, hts, Option.not_isSome_iff_eq_none.mp hanswer, (Option.some.inj hrow).symm⟩

theorem implicitTimeout_eq {env : EventEnvelope} {later : List EventEnvelope} {req : ShopBuyRequest}
    {reqTs : ℤ} (hreq : env.event = some (.shopBuyRequest req)) (hts : parseTs req.timestamp = some reqTs)
    (hscan : scanForward parseTs implicitShopRequestTimeoutSecs reqTs (idMatch req)
      (later.take config.windowSize) = none) : implicitTimeout parseTs config env later =
      some (inferred (timedOut req) implicitShopRequestTimeoutConfidence
        ruleIdImplicitShopRequestTimeout [env.idempotencyKey] env) := by
  unfold implicitTimeout
  rw [hreq]
  simp only
  rw [hts, Option.bind_some, hscan]
  rfl

theorem exists_of_mem_ruleImplicitLocationChange (h : row ∈ ruleImplicitLocationChange events) :
    ∃ change, row.event = .locationChanged change ∧ row.supersededBy = none := by
  unfold ruleImplicitLocationChange at h
  induction events using List.reverseRecOn with
  | nil => cases h
  | append_singleton events env ih =>
    rw [List.foldl_append, List.foldl_cons, List.foldl_nil] at h
    unfold planetStep at h
    split at h
    · rcases List.mem_append.mp h with h | h
      · exact ih h
      · exact exists_of_locationChange (Option.mem_toList.mp h)
    · exact ih h
    · exact ih h

theorem mem_rows_of_implicitTimeout {env : EventEnvelope} {later : List EventEnvelope}
    (hlater : (env, later) ∈ followed events) (h : implicitTimeout parseTs config env later = some row) :
    row ∈ rows parseTs events config :=
  List.mem_append_right _ (List.mem_filterMap.mpr ⟨(env, later), hlater, h⟩)

theorem supersededBy_of_mem_rows (h : row ∈ rows parseTs events config) : row.supersededBy = none := by
  rcases List.mem_append.mp h with h | h
  · rcases List.mem_append.mp h with h | h
    · obtain ⟨f, -, hf⟩ := List.mem_filterMap.mp h
      obtain ⟨_, -, hnone⟩ := exists_of_implicitDeath hf
      exact hnone
    · obtain ⟨_, -, hnone⟩ := exists_of_mem_ruleImplicitLocationChange h
      exact hnone
  · obtain ⟨f, -, hf⟩ := List.mem_filterMap.mp h
    obtain ⟨req, reqTs, -, -, -, rfl⟩ := exists_of_implicitTimeout hf
    rfl

end Rows

end StarStats.Core.Inference
