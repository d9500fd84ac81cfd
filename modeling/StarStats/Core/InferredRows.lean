import Mathlib.Algebra.GroupWithZero.Nat
import StarStats.Core.Inference
import StarStats.Core.Validators

/-! # Inferred rows pass the gate

Every rule makes its rows of a trigger in the stream, whose timestamp it keeps, with a confidence below one
and the keys of what it has read. So a row passes the gate of its trigger, whatever the names in it. The rules
go through the stream by index: a sum that leaves the range of `usize`, or a range that leaves that of the
stream, would not return.

A row is marked with the key of the first envelope of its kind and entity, whose source is not looked at: all
rows are as they should be exactly if those that are found first have been observed (`passes_iff`). -/

namespace StarStats.Core.InferredRows

open StarStats.Core.Events StarStats.Core.Metadata StarStats.Core.Wire StarStats.Core.Inference
open StarStats.Core.Validators

/-! ### By index -/

/-- A sum in `usize`. -/
def usizeAdd (a b : ℕ) : Option ℕ := if a + b < 2 ^ 64 then some (a + b) else none

/-- `&l[start..stop]` -/
def slice {α : Type} (l : List α) (start stop : ℕ) : Option (List α) :=
  if start ≤ stop ∧ stop ≤ l.length then some ((l.take stop).drop start) else none

/-- The envelopes that are read for the one at `i`. -/
def followers (events : List EventEnvelope) (windowSize i : ℕ) : Option (List EventEnvelope) := do
  let next ← usizeAdd i 1
  let scanEnd ← usizeAdd next windowSize
  slice events next (min scanEnd events.length)

/-- The loop of a rule: for an envelope that it scans for, it reads those after it. -/
def scanLoop (scanned : EventEnvelope → Bool)
    (rule : EventEnvelope → List EventEnvelope → Option InferredEvent) (events : List EventEnvelope)
    (windowSize : ℕ) : Option (List InferredEvent) :=
  events.zipIdx.foldlM (fun out f =>
    if scanned f.1 then
      (followers events windowSize f.2).map fun later => out ++ (rule f.1 later).toList
    else some out) []

section Indexed
variable (parseTs : String → Option ℤ)

/-- A destruction with a timestamp that can be read. -/
def isReadableDestruction (env : EventEnvelope) : Bool :=
  match env.event with
  | some (.vehicleDestruction veh) => (parseTs veh.timestamp).isSome
  | _ => false

/-- A request with a timestamp that can be read. -/
def isReadableRequest (env : EventEnvelope) : Bool :=
  match env.event with
  | some (.shopBuyRequest req) => (parseTs req.timestamp).isSome
  | _ => false

/-- `infer`, with its indices. -/
def inferIndexed (events : List EventEnvelope) (config : InferenceConfig) :
    Option (List InferredEvent) := do
  let deaths ← scanLoop (isReadableDestruction parseTs) (implicitDeath parseTs config) events
    config.windowSize
  let timeouts ← scanLoop (isReadableRequest parseTs) (implicitTimeout parseTs config) events
    config.windowSize
  return (deaths ++ ruleImplicitLocationChange events ++ timeouts).map (reconcile parseTs events config)

end Indexed

/-- An envelope without metadata is one of an observed event. -/
def isObserved (env : EventEnvelope) : Bool := env.metadata.all fun m => m.source = .observed

/-- **The row passes the gate, in whatever envelope, and refers to the stream**, where only what has been
observed supersedes it. -/
structure Passes (events : List EventEnvelope) (row : InferredEvent) : Prop where
  valid : ∀ env : EventEnvelope, env.event = some row.event → env.metadata = some row.metadata →
    validateEvent env = .ok ()
  groupKey : row.metadata.groupKey = groupKeyFor row.event none
  inputs : ∀ key ∈ row.metadata.inferenceInputs, ∃ env ∈ events, env.idempotencyKey = key
  superseded : ∀ key ∈ row.supersededBy, ∃ env ∈ events, env.idempotencyKey = key ∧ isObserved env = true ∧
    ∃ observed, env.event = some observed ∧ observed.eventTypeKey = row.event.eventTypeKey ∧
      primaryEntityFor observed none = row.metadata.primaryEntity

/-- The first envelope of the stream that supersedes a row, as the rules make it, has been observed, or has
the key of one that has. -/
def FirstObserved (parseTs : String → Option ℤ) (events : List EventEnvelope) (config : InferenceConfig)
    (row : InferredEvent) : Prop :=
  ∀ inferredTs, parseTs row.event.timestamp = some inferredTs →
    ∀ first, events.find? (supersedes parseTs config row inferredTs) = some first →
      ∃ env ∈ events, env.idempotencyKey = first.idempotencyKey ∧ isObserved env = true ∧
        env.event.any (sameEntity row) = true

section Loops
variable {events : List EventEnvelope} {windowSize i : ℕ}

/-- Within these bounds neither the sum nor the range is out of range. -/
theorem followers_eq (hwindow : windowSize < 2 ^ 63) (hlength : events.length < 2 ^ 63)
    (hi : i < events.length) :
    followers events windowSize i = some ((events.drop (i + 1)).take windowSize) := by
  have hnext : usizeAdd i 1 = some (i + 1) := if_pos (by omega)
  have hend : usizeAdd (i + 1) windowSize = some (i + 1 + windowSize) := if_pos (by omega)
  have hslice : slice events (i + 1) (min (i + 1 + windowSize) events.length) =
      some ((events.take (min (i + 1 + windowSize) events.length)).drop (i + 1)) :=
    if_pos (by omega)
  have htake : (events.drop (i + 1)).take windowSize =
      (events.take (min (i + 1 + windowSize) events.length)).drop (i + 1) := by
    rw [← List.take_eq_take_min, List.drop_take, Nat.add_sub_cancel_left]
  rw [htake, ← hslice]
  unfold followers
  rw [hnext, Option.bind_eq_bind, Option.bind_some, hend]
  rfl

theorem followed_eq (l : List EventEnvelope) :
    followed l = l.zipIdx.map fun f => (f.1, l.drop (f.2 + 1)) := by
  have h : ∀ (n : ℕ) (before l : List EventEnvelope), before.length = n →
      followed l = (l.zipIdx n).map fun f => (f.1, (before ++ l).drop (f.2 + 1)) := by
    intro n before l
    induction l generalizing n before with
    | nil => exact fun _ => rfl
    | cons e l ih =>
      intro hn
      have hrest := ih (n + 1) (before ++ [e]) (by simp [hn])
      rw [List.append_assoc, List.singleton_append] at hrest
      unfold followed
      rw [List.zipIdx_cons, List.map_cons, hrest]
      simp [← hn]
  exact h 0 [] l rfl

/-- A loop that reads only what it may read yields what the rule makes of the envelopes and those after
them. -/
theorem scanLoop_eq {scanned : EventEnvelope → Bool}
    {rule : EventEnvelope → List EventEnvelope → Option InferredEvent}
    (hwindow : windowSize < 2 ^ 63) (hlength : events.length < 2 ^ 63)
    (hscanned : ∀ env later, scanned env = false → rule env later = none)
    (hrule : ∀ env later, rule env (later.take windowSize) = rule env later) :
    scanLoop scanned rule events windowSize =
      some ((followed events).filterMap fun f => rule f.1 f.2) := by
  have hloop : ∀ (l : List (EventEnvelope × ℕ)) out, (∀ f ∈ l, f.2 < events.length) →
      l.foldlM (fun out f => if scanned f.1 then
          (followers events windowSize f.2).map fun later => out ++ (rule f.1 later).toList
        else some out) out =
        some (out ++ l.filterMap fun f => rule f.1 (events.drop (f.2 + 1))) := by
    intro l
    induction l with
    | nil =>
      intro out hl
      rw [List.foldlM_nil, List.filterMap_nil, List.append_nil]
      rfl
    | cons f l ih =>
      intro out hl
      have hf := hl f (List.mem_cons_self ..)
      have hrow : (if scanned f.1 then
            (followers events windowSize f.2).map fun later => out ++ (rule f.1 later).toList
          else some out) = some (out ++ (rule f.1 (events.drop (f.2 + 1))).toList) := by
        split_ifs with h
        · rw [followers_eq hwindow hlength hf, Option.map_some, hrule]
        · rw [hscanned f.1 _ (Bool.eq_false_iff.mpr h), Option.toList_none, List.append_nil]
      rw [List.foldlM_cons, hrow, Option.bind_eq_bind, Option.bind_some,
        ih _ fun f' hf' => hl f' (List.mem_cons_of_mem _ hf'), List.append_assoc]
      cases hr : rule f.1 (events.drop (f.2 + 1)) with
      | none => simp [hr]
      | some row => simp [hr]
  unfold scanLoop
  rw [hloop _ _ fun f hf => List.snd_lt_of_mem_zipIdx hf, List.nil_append, followed_eq,
    List.filterMap_map]
  rfl

end Loops

section Infer
variable {parseTs : String → Option ℤ} {events later : List EventEnvelope} {config : InferenceConfig}
  {env : EventEnvelope} {row : InferredEvent}

theorem inferIndexed_eq (hwindow : config.windowSize < 2 ^ 63) (hlength : events.length < 2 ^ 63) :
    inferIndexed parseTs events config = some (infer parseTs events config) := by
  have hdeaths : scanLoop (isReadableDestruction parseTs) (implicitDeath parseTs config) events
      config.windowSize = some (ruleImplicitDeathAfterVehicleDestruction parseTs events config) := by
    refine scanLoop_eq hwindow hlength (fun env later h => ?_) fun env later => ?_
    · unfold isReadableDestruction at h
      unfold implicitDeath
      split
      case h_1 veh hveh =>
        rw [hveh] at h
        rw [Option.isSome_eq_false_iff.mp h |> Option.isNone_iff_eq_none.mp, Option.bind_none]
      case h_2 => rfl
    · unfold implicitDeath
      rw [List.take_take, Nat.min_self]
  have htimeouts : scanLoop (isReadableRequest parseTs) (implicitTimeout parseTs config) events
      config.windowSize = some (ruleImplicitShopRequestTimeout parseTs events config) := by
    refine scanLoop_eq hwindow hlength (fun env later h => ?_) fun env later => ?_
    · unfold isReadableRequest at h
      unfold implicitTimeout
      split
      case h_1 req hreq =>
        rw [hreq] at h
        rw [Option.isSome_eq_false_iff.mp h |> Option.isNone_iff_eq_none.mp, Option.bind_none]
      case h_2 => rfl
    · unfold implicitTimeout
      rw [List.take_take, Nat.min_self]
  unfold inferIndexed
  rw [hdeaths, htimeouts]
  rfl

/-! ### What the rules make -/

/-- The kinds of events that are inferred. -/
def inferredKeys : List String := ["player_death", "location_changed", "shop_request_timed_out"]

/-- A row is made of a trigger of the stream, at its time, and of keys of the stream. -/
structure MadeOf (events : List EventEnvelope) (trigger : EventEnvelope) (cause event : GameEvent)
    (confidence : F32) (keys : List String) : Prop where
  mem : trigger ∈ events
  origin : trigger.event = some cause
  time : event.timestamp = cause.timestamp
  kind : event.eventTypeKey ∈ inferredKeys
  fields : checkFields event = .ok ()
  unit : inUnit confidence = true
  below : atLeastOne confidence = false
  named : keys ≠ []
  ancestors : ∀ key ∈ keys, ∃ env ∈ events, env.idempotencyKey = key

/-- The row comes of two of the events. -/
def Made (events : List EventEnvelope) (row : InferredEvent) : Prop :=
  ∃ trigger cause event confidence ruleId keys, MadeOf events trigger cause event confidence keys ∧
    row = inferred event confidence ruleId keys trigger

theorem MadeOf.made {trigger : EventEnvelope} {cause event : GameEvent} {confidence : F32}
    {keys : List String} (h : MadeOf events trigger cause event confidence keys) (ruleId : String) :
    Made events (inferred event confidence ruleId keys trigger) :=
  ⟨trigger, cause, event, confidence, ruleId, keys, h, rfl⟩

theorem mem_of_scanForward {limit start : ℤ} {wanted : GameEvent → Bool} {l : List EventEnvelope}
    {e : EventEnvelope} (h : scanForward parseTs limit start wanted l = some e) : e ∈ l := by
  induction l with
  | nil => cases h
  | cons f l ih =>
    unfold scanForward at h
    cases hts : envelopeTs parseTs f with
    | none =>
      rw [hts] at h
      exact List.mem_cons_of_mem _ (ih h)
    | some ts =>
      rw [hts] at h
      simp only at h
      split_ifs at h
      · exact List.mem_cons_of_mem _ (ih h)
      · obtain rfl := Option.some.inj h
        exact List.mem_cons_self ..
      · exact List.mem_cons_of_mem _ (ih h)

theorem made_of_implicitDeath (hmem : env ∈ events) (hlater : later ⊆ events)
    (h : implicitDeath parseTs config env later = some row) : Made events row := by
  unfold implicitDeath at h
  split at h
  case h_1 veh hveh =>
    obtain ⟨vehTs, -, hmatched⟩ := Option.bind_eq_some_iff.mp h
    obtain ⟨spawn, hspawn, rfl⟩ := Option.map_eq_some_iff.mp hmatched
    have hmade := @MadeOf.mk events env _
      (.playerDeath ⟨veh.timestamp, "inferred", "inferred_" ++ env.idempotencyKey, veh.zone⟩)
      implicitDeathConfidence [env.idempotencyKey, spawn.idempotencyKey] hmem hveh rfl
      (by simp [GameEvent.eventTypeKey, inferredKeys]) rfl (by decide +kernel)
      (by decide +kernel) (List.cons_ne_nil _ _)
    refine (hmade fun key hkey => ?_).made _
    rcases List.mem_cons.mp hkey with rfl | hkey
    · exact ⟨env, hmem, rfl⟩
    · refine ⟨spawn, hlater (List.mem_of_mem_take (mem_of_scanForward hspawn)), ?_⟩
      exact (List.mem_singleton.mp hkey).symm
  case h_2 => cases h

theorem made_of_implicitTimeout (hmem : env ∈ events)
    (h : implicitTimeout parseTs config env later = some row) : Made events row := by
  obtain ⟨req, reqTs, hreq, -, -, rfl⟩ := exists_of_implicitTimeout h
  have hmade := @MadeOf.mk events env _ (timedOut req) implicitShopRequestTimeoutConfidence
    [env.idempotencyKey] hmem hreq rfl (by simp [timedOut, GameEvent.eventTypeKey, inferredKeys]) rfl
    (by decide +kernel) (by decide +kernel) (List.cons_ne_nil _ _)
  refine (hmade fun key hkey => ?_).made _
  exact ⟨env, hmem, (List.mem_singleton.mp hkey).symm⟩

/-- The last planet is one of the stream, and so are the rows so far. -/
structure ScanOf (events : List EventEnvelope) (s : PlanetScan) : Prop where
  prev : ∀ p ∈ s.prevPlanet, p.1 ∈ events
  rows : ∀ row ∈ s.out, Made events row

theorem ScanOf.planetStep {s : PlanetScan} (h : ScanOf events s) (hmem : env ∈ events) :
    ScanOf events (planetStep s env) := by
  unfold Inference.planetStep
  split
  case h_1 load hload =>
    refine ⟨fun p hp => ?_, fun row hrow => ?_⟩
    · obtain rfl := Option.some.inj hp
      exact hmem
    · rcases List.mem_append.mp hrow with hrow | hrow
      · exact h.rows row hrow
      obtain ⟨prev, hprev, hif⟩ := Option.bind_eq_some_iff.mp (Option.mem_toList.mp hrow)
      split_ifs at hif
      obtain rfl := Option.some.inj hif
      have hmade := @MadeOf.mk events env _
        (.locationChanged ⟨load.timestamp, some prev.2, load.planet⟩) implicitLocationChangeConfidence
        [prev.1.idempotencyKey, env.idempotencyKey] hmem hload rfl
        (by simp [GameEvent.eventTypeKey, inferredKeys]) rfl (by decide +kernel)
        (by decide +kernel) (List.cons_ne_nil _ _)
      refine (hmade fun key hkey => ?_).made _
      rcases List.mem_cons.mp hkey with rfl | hkey
      · exact ⟨prev.1, h.prev prev hprev, rfl⟩
      · exact ⟨env, hmem, (List.mem_singleton.mp hkey).symm⟩
  case h_2 => exact ⟨h.prev, h.rows⟩
  case h_3 => exact h

theorem made_of_mem_ruleImplicitLocationChange (h : row ∈ ruleImplicitLocationChange events) :
    Made events row := by
  have hscan : ∀ (l : List EventEnvelope) (s : PlanetScan), l ⊆ events → ScanOf events s →
      ScanOf events (l.foldl planetStep s) := by
    intro l
    induction l with
    | nil => exact fun s _ hs => hs
    | cons env l ih =>
      intro s hl hs
      have hstep := hs.planetStep (hl (List.mem_cons_self ..))
      exact ih _ (fun e he => hl (List.mem_cons_of_mem _ he)) hstep
  have hstart : ScanOf events ⟨none, false, []⟩ :=
    ⟨fun p hp => absurd hp (Option.not_mem_none p), fun row hrow => absurd hrow List.not_mem_nil⟩
  exact (hscan events _ (List.Subset.refl events) hstart).rows row h

theorem made_of_mem_rows (h : row ∈ rows parseTs events config) : Made events row := by
  have hfollowed : ∀ f ∈ followed events, f.1 ∈ events ∧ f.2 ⊆ events := by
    intro f hf
    obtain ⟨before, hevents⟩ := mem_followed.mp hf
    rw [hevents]
    exact ⟨by simp, fun e he => by simp [he]⟩
  rcases List.mem_append.mp h with h | h
  · rcases List.mem_append.mp h with h | h
    · obtain ⟨f, hf, hrow⟩ := List.mem_filterMap.mp h
      exact made_of_implicitDeath (hfollowed f hf).1 (hfollowed f hf).2 hrow
    · exact made_of_mem_ruleImplicitLocationChange h
  · obtain ⟨f, hf, hrow⟩ := List.mem_filterMap.mp h
    exact made_of_implicitTimeout (hfollowed f hf).1 hrow

/-! ### The gate -/

theorem checkTimestamp_of_validateEvent {cause : GameEvent} (hcause : env.event = some cause)
    (h : validateEvent env = .ok ()) : checkTimestamp cause.timestamp = .ok () := by
  cases htime : checkTimestamp cause.timestamp with
  | error e =>
    unfold validateEvent validateGameEvent at h
    simp only [hcause, htime] at h
    cases h
  | ok u => rfl

/-- The entities of the kinds that are inferred are shown under their identifiers. -/
theorem displayName_of_inferredKeys {event : GameEvent} (h : event.eventTypeKey ∈ inferredKeys) :
    (primaryEntityFor event none).displayName = (primaryEntityFor event none).id := by
  unfold inferredKeys at h
  cases event with
  | playerDeath e => rfl
  | locationChanged e => rfl
  | shopRequestTimedOut e => rfl
  | _ => simp [GameEvent.eventTypeKey] at h

theorem primaryEntityFor_of_sameEntity {observed : GameEvent}
    (hentity : row.metadata.primaryEntity = primaryEntityFor row.event none)
    (hkind : row.event.eventTypeKey ∈ inferredKeys) (h : sameEntity row observed = true) :
    observed.eventTypeKey = row.event.eventTypeKey ∧
      primaryEntityFor observed none = row.metadata.primaryEntity := by
  unfold sameEntity at h
  simp only [Bool.and_eq_true, decide_eq_true_eq] at h
  obtain ⟨⟨hkey, hkind'⟩, hid⟩ := h
  have hshown := displayName_of_inferredKeys hkind
  have hshown' : (primaryEntityFor observed none).displayName = (primaryEntityFor observed none).id := by
    refine displayName_of_inferredKeys ?_
    rw [hkey]
    exact hkind
  refine ⟨hkey, ?_⟩
  rw [hentity] at hkind' hid ⊢
  cases ho : primaryEntityFor observed none
  cases hr : primaryEntityFor row.event none
  simp_all

theorem sameEntity_of_primaryEntityFor {observed : GameEvent}
    (htype : observed.eventTypeKey = row.event.eventTypeKey)
    (hentity : primaryEntityFor observed none = row.metadata.primaryEntity) :
    sameEntity row observed = true := by
  unfold sameEntity
  simp [htype, hentity]

theorem supersededBy_reconcile {inferredTs : ℤ} {first : EventEnvelope}
    (hts : parseTs row.event.timestamp = some inferredTs)
    (hfirst : events.find? (supersedes parseTs config row inferredTs) = some first) :
    (reconcile parseTs events config row).supersededBy = some first.idempotencyKey := by
  unfold reconcile
  simp only [hts, hfirst]

/-- What a row is marked with, that was not marked before, is the key of the first that supersedes it. -/
theorem exists_of_mem_supersededBy {key : String} (hnone : row.supersededBy = none)
    (hkey : key ∈ (reconcile parseTs events config row).supersededBy) :
    ∃ inferredTs first, parseTs row.event.timestamp = some inferredTs ∧
      events.find? (supersedes parseTs config row inferredTs) = some first ∧ first.idempotencyKey = key := by
  unfold reconcile at hkey
  split at hkey
  · rw [hnone] at hkey
    cases hkey
  case h_2 inferredTs hts =>
    split at hkey
    · rw [hnone] at hkey
      cases hkey
    case h_2 first hfind => exact ⟨inferredTs, first, hts, hfind, Option.some.inj hkey⟩

/-- The row of a valid stream passes the gate. -/
theorem valid_of_made (hvalid : ∀ env ∈ events, validateEvent env = .ok ()) (h : Made events row)
    (henv : env.event = some row.event) (hmeta : env.metadata = some row.metadata) :
    validateEvent env = .ok () := by
  obtain ⟨trigger, cause, event, confidence, ruleId, keys, hmade, rfl⟩ := h
  have htime : checkTimestamp event.timestamp = .ok () := by
    rw [hmade.time]
    exact checkTimestamp_of_validateEvent hmade.origin (hvalid trigger hmade.mem)
  have hmetadata : validateMetadata (inferred event confidence ruleId keys trigger).metadata = .ok () := by
    unfold validateMetadata inferred buildInferredMetadata
    simp [hmade.unit, hmade.below, hmade.named]
  have hgame : validateGameEvent event = .ok () := by
    unfold validateGameEvent
    rw [htime]
    exact hmade.fields
  unfold validateEvent
  simp only [henv, hmeta]
  show (do validateGameEvent event; validateMetadata _) = _
  rw [hgame]
  exact hmetadata

theorem passes_of_made (hvalid : ∀ env ∈ events, validateEvent env = .ok ())
    (h : Made events row) (hnone : row.supersededBy = none) :
    Passes events (reconcile parseTs events config row) ↔ FirstObserved parseTs events config row := by
  have hrow := h
  obtain ⟨trigger, cause, event, confidence, ruleId, keys, hmade, hmadeOf⟩ := h
  have hentity : row.metadata.primaryEntity = primaryEntityFor row.event none := by rw [hmadeOf]; rfl
  have hkind : row.event.eventTypeKey ∈ inferredKeys := by rw [hmadeOf]; exact hmade.kind
  constructor
  · rintro hpasses inferredTs hts first hfirst
    have hmark := supersededBy_reconcile hts hfirst
    obtain ⟨env, hmem, hkey, hobserved, observed, hevent, htype, hsame⟩ := hpasses.superseded _ hmark
    rw [event_reconcile] at htype
    rw [metadata_reconcile] at hsame
    refine ⟨env, hmem, hkey, hobserved, ?_⟩
    rw [hevent, Option.any_some]
    exact sameEntity_of_primaryEntityFor htype hsame
  · intro hfirst
    refine ⟨fun env henv hmeta => ?_, ?_, fun key hkey => ?_, fun key hkey => ?_⟩
    · rw [event_reconcile] at henv
      rw [metadata_reconcile] at hmeta
      exact valid_of_made hvalid hrow henv hmeta
    · rw [event_reconcile, metadata_reconcile, hmadeOf]
      rfl
    · rw [metadata_reconcile, hmadeOf] at hkey
      exact hmade.ancestors key hkey
    · rw [event_reconcile, metadata_reconcile]
      obtain ⟨inferredTs, first, hts, hfind, rfl⟩ := exists_of_mem_supersededBy hnone hkey
      obtain ⟨env, hmem, hkey, hobserved, hsame⟩ := hfirst inferredTs hts first hfind
      obtain ⟨observed, hevent, hsame⟩ := (Option.any_eq_true _ _).mp hsame
      exact ⟨env, hmem, hkey, hobserved, observed, hevent,
        primaryEntityFor_of_sameEntity hentity hkind hsame⟩

/-- **Every inferred row of a valid stream passes the gate and refers to the stream exactly if what
supersedes a row first has been observed**, and no index or sum on the way is out of range. -/
theorem passes_iff (hvalid : ∀ env ∈ events, validateEvent env = .ok ())
    (hwindow : config.windowSize < 2 ^ 63) (hlength : events.length < 2 ^ 63) :
    (inferIndexed parseTs events config = some (infer parseTs events config) ∧
      ∀ row ∈ infer parseTs events config, Passes events row) ↔
        ∀ row ∈ rows parseTs events config, FirstObserved parseTs events config row := by
  have hrow : ∀ row ∈ rows parseTs events config,
      (Passes events (reconcile parseTs events config row) ↔ FirstObserved parseTs events config row) :=
    fun row hrow => passes_of_made hvalid (made_of_mem_rows hrow) (supersededBy_of_mem_rows hrow)
  constructor
  · rintro ⟨-, hpasses⟩ row hmem
    exact (hrow row hmem).mp (hpasses _ (List.mem_map_of_mem hmem))
  · intro hfirst
    refine ⟨inferIndexed_eq hwindow hlength, fun row hmem => ?_⟩
    obtain ⟨made, hmade, rfl⟩ := List.mem_map.mp hmem
    exact (hrow made hmade).mpr (hfirst made hmade)

theorem firstObserved_of_all (hobserved : ∀ env ∈ events, isObserved env = true) :
    FirstObserved parseTs events config row := by
  intro inferredTs hts first hfind
  have hmem := List.mem_of_find?_eq_some hfind
  have hsupersedes := List.find?_some hfind
  obtain ⟨observed, hevent, hboth⟩ := (Option.any_eq_true _ _).mp hsupersedes
  refine ⟨first, hmem, rfl, hobserved first hmem, (Option.any_eq_true _ _).mpr ⟨observed, hevent, ?_⟩⟩
  exact (Bool.and_eq_true_iff.mp hboth).1

end Infer

/-! ### A planet without a name -/

/-- The timestamps below, as nanoseconds since 1970. -/
def readTs (s : String) : Option ℤ :=
  [("2026-05-17T14:00:00Z", (1779026400000000000 : ℤ)),
    ("2026-05-17T14:05:00Z", 1779026700000000000)].lookup s

/-- Two planets of which the second one has no name. -/
def planets : List EventEnvelope :=
  [makeEnvelope (.planetTerrainLoad ⟨"2026-05-17T14:00:00Z", "OOC_Stanton_1_Hurston"⟩) "envA",
    makeEnvelope (.planetTerrainLoad ⟨"2026-05-17T14:05:00Z", ""⟩) "envB"]

theorem passes_planets : (∀ env ∈ planets, validateEvent env = .ok ()) ∧
    (infer readTs planets .default).length = 1 ∧
    inferIndexed readTs planets .default = some (infer readTs planets .default) ∧
    ∀ row ∈ infer readTs planets .default, Passes planets row := by
  have hvalid : ∀ env ∈ planets, validateEvent env = .ok () := by decide +kernel
  have hobserved : ∀ env ∈ planets, isObserved env = true := by decide +kernel
  exact ⟨hvalid, by decide +kernel, (passes_iff hvalid (by decide) (by decide)).mpr fun _ _ =>
    firstObserved_of_all hobserved⟩

/-- The planets, and behind them the row that was inferred of them before, in an envelope. -/
def sentBack : List EventEnvelope :=
  planets ++ (infer readTs planets .default).map fun row =>
    ⟨"envC", "", some row.event, .live, 0, some row.metadata⟩

/-- The stream is valid, and its row is superseded by the one that was inferred before. -/
theorem not_passes_sentBack : (∀ env ∈ sentBack, validateEvent env = .ok ()) ∧
    ¬ ∀ row ∈ infer readTs sentBack .default, Passes sentBack row := by
  refine ⟨by decide +kernel, fun h => ?_⟩
  have hmark : ∃ row ∈ infer readTs sentBack .default, row.supersededBy = some "envC" := by decide +kernel
  have honly : ∀ env ∈ sentBack, env.idempotencyKey = "envC" → isObserved env = false := by decide +kernel
  obtain ⟨row, hmem, hkey⟩ := hmark
  obtain ⟨env, henv, hname, hobserved, -⟩ := (h row hmem).superseded "envC" hkey
  rw [honly env henv hname] at hobserved
  cases hobserved

end StarStats.Core.InferredRows
