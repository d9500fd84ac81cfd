import Mathlib.Data.Rat.Defs
import StarStats.Core.Events

/-! # Event metadata

Every event in the wire envelope can carry metadata: the entity it is about, where it comes from, how
confident its producer is, and a key to group it by. `stamp` builds the metadata of an observed
event. -/

namespace StarStats.Core.Metadata

open StarStats.Core.Events

/-- What an event is about. -/
inductive EntityKind where
  | player
  | vehicle
  | item
  | location
  | shop
  | mission
  | session
  | system
  deriving DecidableEq

/-- The kind as it stands in a group key. -/
def entityKindKey : EntityKind → String
  | .player => "player"
  | .vehicle => "vehicle"
  | .item => "item"
  | .location => "location"
  | .shop => "shop"
  | .mission => "mission"
  | .session => "session"
  | .system => "system"

/-- What an event is about, and how it is shown. -/
structure EntityRef where
  kind : EntityKind
  id : String
  displayName : String
  deriving DecidableEq

/-- Where an event comes from. -/
inductive EventSource where
  | observed
  | inferred
  | synthesized
  deriving DecidableEq

/-- Where a field comes from. -/
inductive FieldProvenance where
  | observed
  | inferredFrom (sourceEventIds : List String) (ruleId : String)
  deriving DecidableEq

/-- A binary32: a rational, an infinity of either sign, or not a number. -/
inductive F32 where
  | num (q : ℚ)
  | infinite (neg : Bool)
  | nan
  deriving DecidableEq

/-- What is told of an event beside its fields. -/
structure EventMetadata where
  primaryEntity : EntityRef
  source : EventSource
  confidence : F32
  groupKey : String
  fieldProvenance : List (String × FieldProvenance)
  inferenceInputs : List String
  ruleId : Option String
  deriving DecidableEq

/-- The metadata of an observed event. -/
def EventMetadata.observed (primaryEntity : EntityRef) (groupKey : String) : EventMetadata where
  primaryEntity := primaryEntity
  source := .observed
  confidence := .num 1
  groupKey := groupKey
  fieldProvenance := []
  inferenceInputs := []
  ruleId := none

/-- The id of what is not known. -/
def unknownId : String := "unknown"

/-- Without a name the id is shown. -/
def entityWithFallback (kind : EntityKind) (id displayName : Option String) : EntityRef :=
  let id := id.getD unknownId
  ⟨kind, id, displayName.getD id⟩

/-- An entity that is shown under its identifier. -/
def EntityRef.named (kind : EntityKind) (id : String) : EntityRef := ⟨kind, id, id⟩

/-- The entity an event is about. -/
def primaryEntityFor (event : GameEvent) (claimedHandle : Option String) : EntityRef :=
  match event with
  | .playerDeath _ | .playerIncapacitated _ => .named .player (claimedHandle.getD unknownId)
  | .legacyLogin e => .named .player e.handle
  | .actorDeath e => .named .player e.victim
  | .resolveSpawn e => .named .player e.playerGeid
  | .vehicleDestruction e => ⟨.vehicle, e.vehicleId.getD unknownId, e.vehicleClass⟩
  | .vehicleStowed e => .named .vehicle e.vehicleId
  | .quantumTargetSelected e => ⟨.vehicle, e.vehicleId, e.vehicleClass⟩
  | .attachmentReceived e => ⟨.item, e.itemId, e.itemClass⟩
  | .locationInventoryRequested e => .named .location e.location
  | .planetTerrainLoad e => .named .location e.planet
  | .seedSolarSystem e => .named .location e.solarSystem
  | .shopBuyRequest e => entityWithFallback .shop e.shopId none
  | .shopFlowResponse e => entityWithFallback .shop e.shopId none
  | .commodityBuyRequest e => entityWithFallback .shop e.commodity none
  | .commoditySellRequest e => entityWithFallback .shop e.commodity none
  | .missionStart e => ⟨.mission, e.missionId, e.missionName.getD e.missionId⟩
  | .missionEnd e => entityWithFallback .mission e.missionId none
  | .processInit e => .named .session e.localSession
  | .joinPu e => .named .session e.shard
  | .changeServer _ | .sessionEnd _ => .named .session "session"
  | .hudNotification _ => ⟨.system, "hud", "HUD"⟩
  | .gameCrash _ => .named .system "crash"
  | .launcherActivity _ => .named .system "launcher"
  | .remoteMatch e => .named .system e.eventName
  | .burstSummary e => .named .system e.ruleId
  | .locationChanged e => .named .location e.target
  | .shopRequestTimedOut e => entityWithFallback .shop e.shopId none

/-- The key near-duplicates within a session are collapsed under. -/
def groupKeyFor (event : GameEvent) (claimedHandle : Option String) : String :=
  let entity := primaryEntityFor event claimedHandle
  event.eventTypeKey ++ ":" ++ entityKindKey entity.kind ++ ":" ++ entity.id

/-- The metadata of an event parsed off a log line. -/
def stamp (event : GameEvent) (claimedHandle : Option String) : EventMetadata :=
  .observed (primaryEntityFor event claimedHandle) (groupKeyFor event claimedHandle)

end StarStats.Core.Metadata
