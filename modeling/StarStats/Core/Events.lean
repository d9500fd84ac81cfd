import StarStats.Lib.Json

/-! # Gameplay events

The payloads the parser produces, one structure a kind, and the JSON value each is serialised to:
an object whose first field is `type`, the kind in snake case, followed by the fields of the
payload in the order they are declared. -/

namespace StarStats.Core.Events

open StarStats.Lib.Json

/-- A binary64, named by the shortest decimal that is read back as it. -/
structure F64 where
  repr : String
  deriving DecidableEq

/-- The game's process has started. -/
structure ProcessInit where
  timestamp : String
  localSession : String
  envSession : String
  online : Bool
  deriving DecidableEq

/-- A player has logged in. -/
structure LegacyLogin where
  timestamp : String
  handle : String
  serverTime : Option String
  deriving DecidableEq

/-- A server of the universe is joined. -/
structure JoinPu where
  timestamp : String
  address : String
  port : ℕ
  shard : String
  locationId : String
  deriving DecidableEq

/-- A change of server begins or ends. -/
inductive ServerPhase where
  | start
  | stop
  deriving DecidableEq

/-- A change of server, with the flags of the line. -/
structure ChangeServer where
  timestamp : String
  phase : ServerPhase
  isShardPersisted : Bool
  isServer : Bool
  isMultiplayer : Bool
  isOnline : Option Bool
  deriving DecidableEq

/-- A solar system is set up for a shard. -/
structure SeedSolarSystem where
  timestamp : String
  solarSystem : String
  shard : String
  success : Bool
  deriving DecidableEq

/-- A player's spawn is resolved. -/
structure ResolveSpawn where
  timestamp : String
  playerGeid : String
  fallback : Bool
  deriving DecidableEq

/-- A death, known by the corpse it leaves. -/
structure PlayerDeath where
  timestamp : String
  bodyClass : String
  bodyId : String
  zone : Option String
  deriving DecidableEq

/-- A notification that the player is down. -/
structure PlayerIncapacitated where
  timestamp : String
  queueId : ℕ
  zone : Option String
  deriving DecidableEq

/-- A kill as the log of older versions tells it. -/
structure ActorDeath where
  timestamp : String
  victim : String
  victimGeid : Option String
  zone : String
  killer : String
  killerGeid : Option String
  weapon : String
  damageType : String
  deriving DecidableEq

/-- A vehicle is disabled or destroyed. -/
structure VehicleDestruction where
  timestamp : String
  vehicleClass : String
  vehicleId : Option String
  destroyLevel : ℕ
  causedBy : String
  zone : Option String
  deriving DecidableEq

/-- A text shown on the player's display. -/
structure HudNotification where
  timestamp : String
  text : String
  notificationId : ℕ
  missionId : Option String
  deriving DecidableEq

/-- An inventory is opened at a place. -/
structure LocationInventoryRequested where
  timestamp : String
  player : String
  location : String
  deriving DecidableEq

/-- A planet comes into view. -/
structure PlanetTerrainLoad where
  timestamp : String
  planet : String
  deriving DecidableEq

/-- A jump's target is chosen, or its fuel is reckoned. -/
inductive QuantumTargetPhase where
  | fuelRequested
  | selected
  deriving DecidableEq

/-- A jump is prepared. -/
structure QuantumTargetSelected where
  timestamp : String
  phase : QuantumTargetPhase
  vehicleClass : String
  vehicleId : String
  destination : String
  deriving DecidableEq

/-- A vehicle is put away. -/
structure VehicleStowed where
  timestamp : String
  vehicleId : String
  landingArea : String
  landingAreaId : String
  zoneHostId : Option String
  deriving DecidableEq

/-- An item is attached to the player. -/
structure AttachmentReceived where
  timestamp : String
  player : String
  itemClass : String
  itemId : String
  status : String
  port : String
  elapsedSeconds : F64
  deriving DecidableEq

/-- A directory of a crash was found. -/
structure GameCrash where
  timestamp : String
  channel : String
  crashDirName : String
  primaryLogName : Option String
  totalSizeBytes : ℕ
  deriving DecidableEq

/-- What a line of the launcher's log is about. -/
inductive LauncherCategory where
  | auth
  | install
  | patch
  | update
  | error
  | info
  deriving DecidableEq

/-- A line of the launcher's log. -/
structure LauncherActivity where
  timestamp : String
  level : String
  message : String
  category : LauncherCategory
  deriving DecidableEq

/-- The two markers that a mission's start is read from. -/
inductive MissionMarkerKind where
  | phase
  | objective
  deriving DecidableEq

/-- A mission has a marker. -/
structure MissionStart where
  timestamp : String
  missionId : String
  markerKind : MissionMarkerKind
  missionName : Option String
  deriving DecidableEq

/-- A mission is over. -/
structure MissionEnd where
  timestamp : String
  missionId : Option String
  outcome : Option String
  deriving DecidableEq

/-- A purchase is asked for. -/
structure ShopBuyRequest where
  timestamp : String
  shopId : Option String
  itemClass : Option String
  quantity : Option ℕ
  raw : String
  deriving DecidableEq

/-- The shop has answered; `success` is missing where the result is not known. -/
structure ShopFlowResponse where
  timestamp : String
  shopId : Option String
  success : Option Bool
  raw : String
  deriving DecidableEq

/-- A commodity is to be bought. -/
structure CommodityBuyRequest where
  timestamp : String
  commodity : Option String
  quantity : Option F64
  raw : String
  deriving DecidableEq

/-- A commodity is to be sold. -/
structure CommoditySellRequest where
  timestamp : String
  commodity : Option String
  quantity : Option F64
  raw : String
  deriving DecidableEq

/-- How a session ended. -/
inductive SessionEndKind where
  | systemQuit
  | fastShutdown
  deriving DecidableEq

/-- The game is left. -/
structure SessionEnd where
  timestamp : String
  kind : SessionEndKind
  deriving DecidableEq

/-- What a remote rule extracts; `fields` is a map, kept sorted by name. -/
structure RemoteMatch where
  timestamp : String
  ruleId : String
  eventName : String
  fields : List (String × String)
  deriving DecidableEq

/-- One row that stands for a collapsed run of lines. -/
structure BurstSummary where
  timestamp : String
  ruleId : String
  size : ℕ
  endTimestamp : String
  anchorBodySample : Option String
  deriving DecidableEq

/-- A move inferred from two events; no line of the log tells it. -/
structure LocationChanged where
  timestamp : String
  source : Option String
  target : String
  deriving DecidableEq

/-- A request inferred to have gone without an answer. -/
structure ShopRequestTimedOut where
  timestamp : String
  shopId : Option String
  itemClass : Option String
  timedOutAfterSecs : ℕ
  deriving DecidableEq

/-- The events of the client, parsed or inferred. -/
inductive GameEvent where
  | processInit (e : ProcessInit)
  | legacyLogin (e : LegacyLogin)
  | joinPu (e : JoinPu)
  | changeServer (e : ChangeServer)
  | seedSolarSystem (e : SeedSolarSystem)
  | resolveSpawn (e : ResolveSpawn)
  | actorDeath (e : ActorDeath)
  | playerDeath (e : PlayerDeath)
  | playerIncapacitated (e : PlayerIncapacitated)
  | vehicleDestruction (e : VehicleDestruction)
  | hudNotification (e : HudNotification)
  | locationInventoryRequested (e : LocationInventoryRequested)
  | planetTerrainLoad (e : PlanetTerrainLoad)
  | quantumTargetSelected (e : QuantumTargetSelected)
  | attachmentReceived (e : AttachmentReceived)
  | vehicleStowed (e : VehicleStowed)
  | gameCrash (e : GameCrash)
  | launcherActivity (e : LauncherActivity)
  | missionStart (e : MissionStart)
  | missionEnd (e : MissionEnd)
  | shopBuyRequest (e : ShopBuyRequest)
  | shopFlowResponse (e : ShopFlowResponse)
  | commodityBuyRequest (e : CommodityBuyRequest)
  | commoditySellRequest (e : CommoditySellRequest)
  | sessionEnd (e : SessionEnd)
  | remoteMatch (e : RemoteMatch)
  | burstSummary (e : BurstSummary)
  | locationChanged (e : LocationChanged)
  | shopRequestTimedOut (e : ShopRequestTimedOut)
  deriving DecidableEq

namespace GameEvent

/-- The `timestamp` every kind of event carries. -/
def timestamp : GameEvent → String
  | processInit e => e.timestamp
  | legacyLogin e => e.timestamp
  | joinPu e => e.timestamp
  | changeServer e => e.timestamp
  | seedSolarSystem e => e.timestamp
  | resolveSpawn e => e.timestamp
  | actorDeath e => e.timestamp
  | playerDeath e => e.timestamp
  | playerIncapacitated e => e.timestamp
  | vehicleDestruction e => e.timestamp
  | hudNotification e => e.timestamp
  | locationInventoryRequested e => e.timestamp
  | planetTerrainLoad e => e.timestamp
  | quantumTargetSelected e => e.timestamp
  | attachmentReceived e => e.timestamp
  | vehicleStowed e => e.timestamp
  | gameCrash e => e.timestamp
  | launcherActivity e => e.timestamp
  | missionStart e => e.timestamp
  | missionEnd e => e.timestamp
  | shopBuyRequest e => e.timestamp
  | shopFlowResponse e => e.timestamp
  | commodityBuyRequest e => e.timestamp
  | commoditySellRequest e => e.timestamp
  | sessionEnd e => e.timestamp
  | remoteMatch e => e.timestamp
  | burstSummary e => e.timestamp
  | locationChanged e => e.timestamp
  | shopRequestTimedOut e => e.timestamp

/-- The kind of an event in snake case, the `type` of its JSON form. -/
def eventTypeKey : GameEvent → String
  | processInit _ => "process_init"
  | legacyLogin _ => "legacy_login"
  | joinPu _ => "join_pu"
  | changeServer _ => "change_server"
  | seedSolarSystem _ => "seed_solar_system"
  | resolveSpawn _ => "resolve_spawn"
  | actorDeath _ => "actor_death"
  | playerDeath _ => "player_death"
  | playerIncapacitated _ => "player_incapacitated"
  | vehicleDestruction _ => "vehicle_destruction"
  | hudNotification _ => "hud_notification"
  | locationInventoryRequested _ => "location_inventory_requested"
  | planetTerrainLoad _ => "planet_terrain_load"
  | quantumTargetSelected _ => "quantum_target_selected"
  | attachmentReceived _ => "attachment_received"
  | vehicleStowed _ => "vehicle_stowed"
  | gameCrash _ => "game_crash"
  | launcherActivity _ => "launcher_activity"
  | missionStart _ => "mission_start"
  | missionEnd _ => "mission_end"
  | shopBuyRequest _ => "shop_buy_request"
  | shopFlowResponse _ => "shop_flow_response"
  | commodityBuyRequest _ => "commodity_buy_request"
  | commoditySellRequest _ => "commodity_sell_request"
  | sessionEnd _ => "session_end"
  | remoteMatch _ => "remote_match"
  | burstSummary _ => "burst_summary"
  | locationChanged _ => "location_changed"
  | shopRequestTimedOut _ => "shop_request_timed_out"

end GameEvent

/-! ### JSON -/

/-- The phase as it is serialised. -/
def ServerPhase.key : ServerPhase → String
  | start => "start"
  | stop => "end"

/-- The phase as it is serialised. -/
def QuantumTargetPhase.key : QuantumTargetPhase → String
  | fuelRequested => "fuel_requested"
  | selected => "selected"

/-- The category as it is serialised. -/
def LauncherCategory.key : LauncherCategory → String
  | auth => "auth"
  | install => "install"
  | patch => "patch"
  | update => "update"
  | error => "error"
  | info => "info"

/-- The marker as it is serialised. -/
def MissionMarkerKind.key : MissionMarkerKind → String
  | phase => "phase"
  | objective => "objective"

/-- The kind as it is serialised. -/
def SessionEndKind.key : SessionEndKind → String
  | systemQuit => "system_quit"
  | fastShutdown => "fast_shutdown"

/-- A string that may be absent, written as `null`. -/
abbrev optStr (o : Option String) : Value := .ofOption .str o

/-- A count. -/
abbrev nat (n : ℕ) : Value := .int n

/-- A binary64; what is not finite is written as `null`. -/
def F64.value (f : F64) : Value :=
  if f.repr ∈ ["NaN", "inf", "-inf"] then .null else .float f.repr

/-- The fields of the payload after its `timestamp`. -/
def GameEvent.fields : GameEvent → List (String × Value)
  | processInit e => [("local_session", .str e.localSession), ("env_session", .str e.envSession),
      ("online", .bool e.online)]
  | legacyLogin e => [("handle", .str e.handle), ("server_time", optStr e.serverTime)]
  | joinPu e => [("address", .str e.address), ("port", nat e.port), ("shard", .str e.shard),
      ("location_id", .str e.locationId)]
  | changeServer e => [("phase", .str e.phase.key), ("is_shard_persisted", .bool e.isShardPersisted),
      ("is_server", .bool e.isServer), ("is_multiplayer", .bool e.isMultiplayer),
      ("is_online", .ofOption .bool e.isOnline)]
  | seedSolarSystem e => [("solar_system", .str e.solarSystem), ("shard", .str e.shard),
      ("success", .bool e.success)]
  | resolveSpawn e => [("player_geid", .str e.playerGeid), ("fallback", .bool e.fallback)]
  | actorDeath e => [("victim", .str e.victim), ("victim_geid", optStr e.victimGeid),
      ("zone", .str e.zone), ("killer", .str e.killer), ("killer_geid", optStr e.killerGeid),
      ("weapon", .str e.weapon), ("damage_type", .str e.damageType)]
  | playerDeath e => [("body_class", .str e.bodyClass), ("body_id", .str e.bodyId),
      ("zone", optStr e.zone)]
  | playerIncapacitated e => [("queue_id", nat e.queueId), ("zone", optStr e.zone)]
  | vehicleDestruction e => [("vehicle_class", .str e.vehicleClass),
      ("vehicle_id", optStr e.vehicleId), ("destroy_level", nat e.destroyLevel),
      ("caused_by", .str e.causedBy), ("zone", optStr e.zone)]
  | hudNotification e => [("text", .str e.text), ("notification_id", nat e.notificationId),
      ("mission_id", optStr e.missionId)]
  | locationInventoryRequested e => [("player", .str e.player), ("location", .str e.location)]
  | planetTerrainLoad e => [("planet", .str e.planet)]
  | quantumTargetSelected e => [("phase", .str e.phase.key), ("vehicle_class", .str e.vehicleClass),
      ("vehicle_id", .str e.vehicleId), ("destination", .str e.destination)]
  | attachmentReceived e => [("player", .str e.player), ("item_class", .str e.itemClass),
      ("item_id", .str e.itemId), ("status", .str e.status), ("port", .str e.port),
      ("elapsed_seconds", e.elapsedSeconds.value)]
  | vehicleStowed e => [("vehicle_id", .str e.vehicleId), ("landing_area", .str e.landingArea),
      ("landing_area_id", .str e.landingAreaId), ("zone_host_id", optStr e.zoneHostId)]
  | gameCrash e => [("channel", .str e.channel), ("crash_dir_name", .str e.crashDirName),
      ("primary_log_name", optStr e.primaryLogName), ("total_size_bytes", nat e.totalSizeBytes)]
  | launcherActivity e => [("level", .str e.level), ("message", .str e.message),
      ("category", .str e.category.key)]
  | missionStart e => [("mission_id", .str e.missionId), ("marker_kind", .str e.markerKind.key),
      ("mission_name", optStr e.missionName)]
  | missionEnd e => [("mission_id", optStr e.missionId), ("outcome", optStr e.outcome)]
  | shopBuyRequest e => [("shop_id", optStr e.shopId), ("item_class", optStr e.itemClass),
      ("quantity", .ofOption nat e.quantity), ("raw", .str e.raw)]
  | shopFlowResponse e => [("shop_id", optStr e.shopId), ("success", .ofOption .bool e.success),
      ("raw", .str e.raw)]
  | commodityBuyRequest e => [("commodity", optStr e.commodity),
      ("quantity", .ofOption F64.value e.quantity), ("raw", .str e.raw)]
  | commoditySellRequest e => [("commodity", optStr e.commodity),
      ("quantity", .ofOption F64.value e.quantity), ("raw", .str e.raw)]
  | sessionEnd e => [("kind", .str e.kind.key)]
  | remoteMatch e => [("rule_id", .str e.ruleId), ("event_name", .str e.eventName),
      ("fields", .obj (e.fields.map fun (k, v) => (k, .str v)))]
  | burstSummary e => [("rule_id", .str e.ruleId), ("size", nat e.size),
      ("end_timestamp", .str e.endTimestamp)] ++
      (match e.anchorBodySample with
       | none => []
       | some s => [("anchor_body_sample", .str s)])
  | locationChanged e => [("from", optStr e.source), ("to", .str e.target)]
  | shopRequestTimedOut e => [("shop_id", optStr e.shopId), ("item_class", optStr e.itemClass),
      ("timed_out_after_secs", nat e.timedOutAfterSecs)]

/-- The value `serde_json` builds for an event. -/
def GameEvent.toValue (e : GameEvent) : Value :=
  .obj (("type", .str e.eventTypeKey) :: ("timestamp", .str e.timestamp) :: e.fields)

/-- Every event names its kind, under `type`. -/
@[simp] theorem GameEvent.get_type (e : GameEvent) :
    e.toValue.get "type" = some (.str e.eventTypeKey) := rfl

@[simp] theorem GameEvent.get_timestamp (e : GameEvent) :
    e.toValue.get "timestamp" = some (.str e.timestamp) := by
  simp [toValue, Value.get, List.lookup_cons]

end StarStats.Core.Events
