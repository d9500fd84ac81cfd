import StarStats.Lib.Text
import StarStats.Core.Wire

/-! # Validators

Sanity gates for an event and its metadata. A timestamp passes if it has a separator between date and
time and a colon; some kinds of event have required fields; and the confidence of the metadata has to
fit its source. -/

namespace StarStats.Core.Validators

open StarStats.Lib.Text StarStats.Core.Events StarStats.Core.Metadata StarStats.Core.Wire

/-- Which check an event fails. -/
inductive ValidationError where
  | emptyTimestamp
  | badTimestamp
  | emptyField (name : String)
  | badPort (port : ℕ)
  | invalidMetadata (reason : String)
  deriving DecidableEq

/-- The text of an error. -/
def ValidationError.message : ValidationError → String
  | emptyTimestamp => "timestamp is empty"
  | badTimestamp => "timestamp does not look like ISO-8601"
  | emptyField name => "required field " ++ name ++ " is empty"
  | badPort port => "port " ++ toString port ++ " is out of plausible range"
  | invalidMetadata reason => "invalid metadata: " ++ reason

/-- Nothing, or the check that fails. -/
abbrev Check := Except ValidationError Unit

/-- Only its shape is looked at. -/
def checkTimestamp (ts : String) : Check :=
  if ts = "" then .error .emptyTimestamp
  else
    let hasSeparator := contains ts "T" || contains ts " "
    let hasTimeColon := contains ts ":"
    if !hasSeparator || !hasTimeColon then .error .badTimestamp else .ok ()

/-- A required field. -/
def checkField (name value : String) : Check :=
  if value = "" then .error (.emptyField name) else .ok ()

/-- The checks of a payload besides its `timestamp`. -/
def checkFields : GameEvent → Check
  | .legacyLogin e => checkField "handle" e.handle
  | .joinPu e => do
    checkField "shard" e.shard
    if e.port = 0 then .error (.badPort e.port) else .ok ()
  | .actorDeath e => do
    checkField "victim" e.victim
    checkField "killer" e.killer
  | .vehicleDestruction e => checkField "vehicle_class" e.vehicleClass
  | .burstSummary e => do
    checkField "rule_id" e.ruleId
    if e.size = 0 then .error (.emptyField "size") else .ok ()
    checkTimestamp e.endTimestamp
  | _ => .ok ()

/-- The timestamp first, then the fields of the kind. -/
def validateGameEvent (event : GameEvent) : Check := do
  checkTimestamp event.timestamp
  checkFields event

/-- Is the confidence within `0.0..=1.0`? -/
def inUnit : F32 → Bool
  | .num q => 0 ≤ q && q ≤ 1
  | _ => false

/-- `f32::EPSILON`. -/
def epsilon : ℚ := 1 / 2 ^ 23

/-- Is a confidence in the unit interval off from `1.0` by more than the rounding allows? -/
def offOne : F32 → Bool
  | .num q => decide (epsilon < q - 1 ∨ epsilon < 1 - q)
  | _ => true

/-- Not so for what is no number. -/
def atLeastOne : F32 → Bool
  | .num q => decide (1 ≤ q)
  | .infinite neg => !neg
  | .nan => false

/-- The range of the confidence, then what the source asks for. -/
def validateMetadata (m : EventMetadata) : Check :=
  if !inUnit m.confidence then .error (.invalidMetadata "confidence out of range")
  else
    match m.source with
    | .observed =>
      if offOne m.confidence ∨ m.inferenceInputs ≠ [] then
        .error (.invalidMetadata
          "observed event must have confidence=1.0 and no inference_inputs")
      else .ok ()
    | .inferred =>
      if atLeastOne m.confidence ∨ m.inferenceInputs = [] then
        .error (.invalidMetadata
          "inferred event must have confidence<1.0 and at least one inference input")
      else .ok ()
    | .synthesized => .ok ()

/-- The gate: the payload if there is one, then the metadata if there is any. -/
def validateEvent (env : EventEnvelope) : Check := do
  match env.event with
  | some event => validateGameEvent event
  | none => .ok ()
  match env.metadata with
  | some m => validateMetadata m
  | none => .ok ()

/-- **Metadata that is stamped passes its own gate.** -/
theorem validateMetadata_stamp (event : GameEvent) (claimedHandle : Option String) :
    validateMetadata (stamp event claimedHandle) = .ok () := by
  have hin : inUnit (.num 1) = true := by decide +kernel
  have hone : offOne (.num 1) = false := by decide +kernel
  simp [validateMetadata, stamp, EventMetadata.observed, hin, hone]

end StarStats.Core.Validators
