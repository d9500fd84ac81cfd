import StarStats.Lib.Text
import StarStats.Core.Crates

/-! # The two-pass parser

`structuralParse` takes the stable shell of a log line apart: timestamp, level, event name, body and
trailing tags. `classify` turns the parts into a typed event: it dispatches on the event name and
runs one small pattern for each kind; where the name is missing or has no arm, the body is searched
for function-call entries (`classifyBodyPrefix`).

An arm of the dispatch can leave the whole of `classify`: a pattern that does not match, and a field
that cannot be read, end it with no event, and nothing after the arm runs. `Arm` records both ways
out of an arm. -/

namespace StarStats.Core.Parser

open StarStats.Lib.Text StarStats.Core.Events StarStats.Core.Crates

/-- One log line, decomposed into its stable parts. -/
structure LogLine where
  timestamp : String
  level : Option String
  eventName : Option String
  body : String
  tags : List String
  deriving DecidableEq

/-! ### Pass 1 -/

/-- The shell of every line: timestamp, level, event name and the rest. -/
def shellRe : String :=
  r"^<(?P<ts>[^>]+)>\s+(?:\[(?P<level>[A-Za-z]+)\]\s+)?(?:<(?P<event>(?:[^<>]|<[^>]*>)+)>)?\s*(?P<rest>.*)$"

/-- The tags in brackets that a line ends in. -/
def tagTailRe : String := r"\s*((?:\[[A-Za-z0-9_]+\])+)\s*$"

/-- What is cut off a line's end. -/
def isNewline (c : Char) : Bool := c = '\r' || c = '\n'

/-- The body and the tags of what follows the shell. -/
def splitTags (x : Externals) (rest : String) : String × List String :=
  match x.captures tagTailRe rest with
  | some c =>
    let tagRun := ((getGroup c 1).map (·.text)).getD []
    let whole := ((getGroup c 0).map (·.text)).getD []
    let body := takeChars (rest.length - whole.length) rest
    let tags := (splitOn (fun c => c = '[' || c = ']') tagRun).filter (· ≠ [])
    (trim body, tags.map String.ofList)
  | none => (trim rest, [])

/-- The structural shell of one line; nothing for a line that does not start with a timestamp. -/
def structuralParse (x : Externals) (line : String) : Option LogLine := do
  let line := trimEndMatches isNewline line
  let c ← x.captures shellRe line
  let timestamp ← nameText c "ts"
  let rest := (nameText c "rest").getD ""
  let (body, tags) := splitTags x rest
  return ⟨timestamp, nameText c "level", nameText c "event", body, tags⟩

/-! ### Pass 2: the patterns -/

/-- The start of the game's process. -/
def processInitRe : String :=
  r"Process sc-client started\s*\(Local:\s*(?P<local>[^.]+)\.\s*Env:\s*(?P<env>[^)]+)\).*?bOnline\[(?P<online>\d)\]"

/-- A login, with the server's time where the line has it. -/
def legacyLoginRe : String :=
  r"User Login Success\s*-\s*Handle\[(?P<handle>[^\]]+)\](?:\s*-\s*Time\[(?P<time>[^\]]+)\])?"

/-- The address and shard of the server joined. -/
def joinPuRe : String :=
  r"address\[(?P<address>[^\]]+)\]\s*port\[(?P<port>\d+)\]\s*shard\[(?P<shard>[^\]]+)\]\s*locationId\[(?P<loc>[^\]]+)\]"

/-- The flags of a change of server. -/
def changeServerRe : String :=
  r"IsShardPersisted\[(?P<shard>\d)\]\s*IsServer\[(?P<server>\d)\]\s*IsMultiplayer\[(?P<mp>\d)\](?:\s*IsOnline\[(?P<online>\d)\])?"

/-- A solar system and the shard it is seeded for. -/
def seedSsRe : String := r"Solar System '(?P<ss>[^']+)' for shard (?P<shard>\S+)"

/-- The player whose spawn is resolved. -/
def resolveSpawnRe : String := r"player id:\s*\[(?P<geid>\d+)\]"

/-- A kill: victim, zone, killer, weapon and the kind of damage. -/
def actorDeathRe : String :=
  r"(?:CActor::Kill:\s*)?'(?P<victim>[^']+)'(?:\s*\[(?P<vgeid>\d+)\])?\s*in zone\s*'(?P<zone>[^']+)'\s*killed by\s*'(?P<killer>[^']+)'(?:\s*\[(?P<kgeid>\d+)\])?\s*using\s*'(?P<weapon>[^']+)'.*?with damage type\s*'(?P<dmg>[^']+)'"

/-- A vehicle's loss, with the level of its destruction and its cause. -/
def vehicleDestructionRe : String :=
  r"vehicle\s*'(?P<vclass>[^']+)'(?:\s*\[(?P<vid>[^\]]+)\])?.*?destroy(?:Level|_level)\s*[:=]?\s*(?P<level>\d+).*?caused by\s*'(?P<cause>[^']+)'(?:.*?zone\s*'(?P<zone>[^']+)')?"

/-- The corpse that a death leaves behind. -/
def playerDeathRe : String :=
  r"^Item\s*'(?P<body_class>body_[A-Za-z0-9_]+?)_(?P<body_id>\d+)\s*-\s*Class\(body_[A-Za-z0-9_]+\)"

/-- A notification's text and id, with a mission where there is one. -/
def hudNotificationRe : String :=
  r#"Added notification\s*"(?P<text>[^"]*)"\s*\[(?P<id>\d+)\](?:.*?MissionId:\s*\[(?P<mission>[^\]]+)\])?"#

/-- The inventory asked for at a place. -/
def locationInventoryRe : String :=
  r"Player\[(?P<player>[^\]]+)\]\s*requested\s*inventory\s*for\s*Location\[(?P<location>[^\]]+)\]"

/-- The planet whose terrain is loaded. -/
def planetTerrainRe : String := r"Planet\s+(?P<planet>OOC_\S+)"

/-- The vehicle and the destination of a jump. -/
def quantumTargetRe : String :=
  r"\|\s*(?P<vehicle>[A-Za-z0-9_]+?)_(?P<vid>\d+)\[(?P<vid2>\d+)\]\|.*?Player has (?:selected point|requested fuel calculation to destination)\s+(?P<dest>\S+)"

/-- A vehicle put away at a landing area. -/
def vehicleStowedRe : String :=
  r"\[STOWING\s+ON\s+UNREGISTER\]\s*(?P<area>\S+)\s*\[(?P<area_id>\d+)\]\s*-\s*Attempting to stow current vehicle\s*\[(?P<vehicle_id>\d+)\].*?Vehicle Zone Host\s*\[(?P<zone_host>\d+)\]"

/-- An item attached to a player, and how long that took. -/
def attachmentReceivedRe : String :=
  r"Player\[(?P<player>[^\]]+)\]\s*Attachment\[[^,]+,\s*(?P<class>[^,]+?),\s*(?P<id>[^\]]+)\]\s*Status\[(?P<status>[^\]]+)\]\s*Port\[(?P<port>[^\]]+)\]\s*Elapsed\[(?P<elapsed>[^\]]+)\]"

/-- A mission's phase marker; its name is optional. -/
def missionPhaseRe : String :=
  r"missionId\[(?P<id>[0-9a-fA-F-]+)\](?:.*?missionName\[(?P<name>[^\]]+)\])?"

/-- A mission's objective marker. -/
def missionObjectiveRe : String :=
  r"CreateMissionObjectiveMarker\([^)]*?(?P<id>[0-9a-fA-F]{8}-[0-9a-fA-F]{4}-[0-9a-fA-F]{4}-[0-9a-fA-F]{4}-[0-9a-fA-F]{12})"

/-- Both groups are optional, so this one is found in every line. -/
def missionEndRe : String :=
  r"(?:missionId\[(?P<id>[0-9a-fA-F-]+)\])?(?:.*?outcome\[(?P<outcome>[A-Za-z]+)\])?"

/-- A purchase at a shop; shop, item and quantity are optional. -/
def shopBuyRe : String :=
  r"Send(?:Standard)?(?:Item|Shop)?BuyRequest(?:.*?shopId=(?P<shop>[A-Za-z0-9_-]+))?(?:.*?item(?:Class)?=(?P<item>[A-Za-z0-9_]+))?(?:.*?quantity=(?P<qty>\d+))?"

/-- A shop's answer; shop and result are optional. -/
def shopResponseRe : String :=
  r"ShopFlowResponse(?:.*?shopId=(?P<shop>[A-Za-z0-9_-]+))?(?:.*?Result\[(?P<result>[A-Za-z]+)\])?"

/-- A purchase of a commodity. -/
def commodityBuyRe : String :=
  r"SendCommodityBuyRequest(?:.*?commodity=(?P<commodity>[A-Za-z0-9_]+))?(?:.*?(?:quantity|amount)=(?P<qty>[0-9.]+))?"

/-- A sale of a commodity. -/
def commoditySellRe : String :=
  r"SendCommoditySellRequest(?:.*?commodity=(?P<commodity>[A-Za-z0-9_]+))?(?:.*?(?:quantity|amount)=(?P<qty>[0-9.]+))?"

/-! ### Pass 2: the dispatch -/

/-- The outcome of an arm: `.ok` is the value of the arm, `.error` a return from `classify`. -/
abbrev Arm := Except (Option GameEvent) (Option GameEvent)

/-- The `?` operator inside `classify`: without a value, `classify` returns no event. -/
def orReturn {α : Type} : Option α → Except (Option GameEvent) α
  | some a => .ok a
  | none => .error none

/-- The mission id the game writes for no mission. -/
def zeroMission : String := "00000000-0000-0000-0000-000000000000"

/-- The `Init` arm; its guard asks for the tag `ProcessInit`. -/
def initArm (x : Externals) (line : LogLine) : Arm :=
  if "ProcessInit" ∈ line.tags then do
    let c ← orReturn (x.captures processInitRe line.body)
    return some (.processInit ⟨line.timestamp, trim (groupText c "local"), trim (groupText c "env"),
      groupText c "online" = "1"⟩)
  else return none

/-- A login: the handle, and the server's time if the line has it. -/
def legacyLoginArm (x : Externals) (line : LogLine) : Arm := do
  let c ← orReturn (x.captures legacyLoginRe line.body)
  return some (.legacyLogin ⟨line.timestamp, groupText c "handle", nameText c "time"⟩)

/-- A port that does not fit 16 bits leaves `classify`. -/
def joinPuArm (x : Externals) (line : LogLine) : Arm := do
  let c ← orReturn (x.captures joinPuRe line.body)
  let port ← orReturn (parseUnsigned (2 ^ 16) (groupText c "port"))
  return some (.joinPu ⟨line.timestamp, groupText c "address", port, groupText c "shard",
    groupText c "loc"⟩)

/-- The four flags are true when they read as `1`; the last may be missing. -/
def changeServerArm (x : Externals) (line : LogLine) (phase : ServerPhase) : Arm := do
  let c ← orReturn (x.captures changeServerRe line.body)
  return some (.changeServer ⟨line.timestamp, phase, groupText c "shard" = "1",
    groupText c "server" = "1", groupText c "mp" = "1",
    (nameText c "online").map fun m => decide (m = "1")⟩)

/-- The same line for a success and for a failure. -/
def seedSsArm (x : Externals) (line : LogLine) (success : Bool) : Arm := do
  let c ← orReturn (x.captures seedSsRe line.body)
  return some (.seedSolarSystem ⟨line.timestamp, groupText c "ss", groupText c "shard", success⟩)

/-- The spawn is always a fallback here. -/
def resolveSpawnArm (x : Externals) (line : LogLine) : Arm := do
  let c ← orReturn (x.captures resolveSpawnRe line.body)
  return some (.resolveSpawn ⟨line.timestamp, groupText c "geid", true⟩)

/-- A kill, with the ids the line gives. -/
def actorDeathArm (x : Externals) (line : LogLine) : Arm := do
  let c ← orReturn (x.captures actorDeathRe line.body)
  return some (.actorDeath ⟨line.timestamp, groupText c "victim", nameText c "vgeid",
    groupText c "zone", groupText c "killer", nameText c "kgeid", groupText c "weapon",
    groupText c "dmg"⟩)

/-- A level that does not fit 8 bits leaves `classify`. -/
def vehicleDestructionArm (x : Externals) (line : LogLine) : Arm := do
  let c ← orReturn (x.captures vehicleDestructionRe line.body)
  let level ← orReturn (parseUnsigned (2 ^ 8) (groupText c "level"))
  return some (.vehicleDestruction ⟨line.timestamp, groupText c "vclass", nameText c "vid", level,
    groupText c "cause", nameText c "zone"⟩)

/-- Notifications. A text that starts with `Incapacitated:` is promoted to the downed state of the
player; the all-zero mission is no mission. -/
def hudNotificationArm (x : Externals) (line : LogLine) : Arm := do
  let c ← orReturn (x.captures hudNotificationRe line.body)
  let text := groupText c "text"
  let id ← orReturn (parseUnsigned (2 ^ 64) (groupText c "id"))
  if startsWith text "Incapacitated:" then
    throw (some (.playerIncapacitated ⟨line.timestamp, id, none⟩))
  let mission := (nameText c "mission").filter (· ≠ zeroMission)
  return some (.hudNotification ⟨line.timestamp, text, id, mission⟩)

/-- A death seen by its corpse; the zone is not in the line. -/
def playerDeathArm (x : Externals) (line : LogLine) : Arm := do
  let c ← orReturn (x.captures playerDeathRe line.body)
  return some (.playerDeath ⟨line.timestamp, groupText c "body_class", groupText c "body_id", none⟩)

/-- An inventory asked for. -/
def locationInventoryArm (x : Externals) (line : LogLine) : Arm := do
  let c ← orReturn (x.captures locationInventoryRe line.body)
  return some (.locationInventoryRequested ⟨line.timestamp, groupText c "player",
    groupText c "location"⟩)

/-- A terrain loaded. -/
def planetTerrainArm (x : Externals) (line : LogLine) : Arm := do
  let c ← orReturn (x.captures planetTerrainRe line.body)
  return some (.planetTerrainLoad ⟨line.timestamp, groupText c "planet"⟩)

/-- Stowed vehicles; the zone host `0` is none. -/
def vehicleStowedArm (x : Externals) (line : LogLine) : Arm := do
  let c ← orReturn (x.captures vehicleStowedRe line.body)
  let zoneHost := groupText c "zone_host"
  return some (.vehicleStowed ⟨line.timestamp, groupText c "vehicle_id", groupText c "area",
    groupText c "area_id", if zoneHost = "0" then none else some zoneHost⟩)

/-- An elapsed time that is no number leaves `classify`. -/
def attachmentReceivedArm (x : Externals) (line : LogLine) : Arm := do
  let c ← orReturn (x.captures attachmentReceivedRe line.body)
  let elapsed ← orReturn (x.parseF64 (groupText c "elapsed"))
  return some (.attachmentReceived ⟨line.timestamp, groupText c "player", groupText c "class",
    groupText c "id", groupText c "status", groupText c "port", elapsed⟩)

/-- Quantum targets; a comma at the end of the destination is dropped. -/
def quantumTargetArm (x : Externals) (line : LogLine) (phase : QuantumTargetPhase) : Arm := do
  let c ← orReturn (x.captures quantumTargetRe line.body)
  let dest := groupText c "dest"
  let destination := if endsWith dest "," then takeChars (dest.length - 1) dest else dest
  return some (.quantumTargetSelected ⟨line.timestamp, phase, groupText c "vehicle",
    groupText c "vid", destination⟩)

/-- A mission's phase marker. -/
def missionPhaseArm (x : Externals) (line : LogLine) : Arm := do
  let c ← orReturn (x.captures missionPhaseRe line.body)
  return some (.missionStart ⟨line.timestamp, groupText c "id", .phase, nameText c "name"⟩)

/-- The end of a mission; both of its fields may be missing. -/
def missionEndArm (x : Externals) (line : LogLine) : Arm :=
  let c := x.captures missionEndRe line.body
  return some (.missionEnd ⟨line.timestamp, c.bind (nameText · "id"), c.bind (nameText · "outcome")⟩)

/-- The dispatch on the event name. -/
def shellMatch (x : Externals) (line : LogLine) (event : String) : Arm :=
  match event with
  | "Init" => initArm x line
  | "Legacy login response" => legacyLoginArm x line
  | "Join PU" => joinPuArm x line
  | "Change Server Start" => changeServerArm x line .start
  | "Change Server End" => changeServerArm x line .stop
  | "Seed Solar System" => seedSsArm x line false
  | "Seed Solar System Success" => seedSsArm x line true
  | "ResolveSpawnLocation Location Not Found" => resolveSpawnArm x line
  | "Actor Death" => actorDeathArm x line
  | "Vehicle Destruction" => vehicleDestructionArm x line
  | "SHUDEvent_OnNotification" => hudNotificationArm x line
  | "Adding non kept item [CSCActorCorpseUtils::PopulateItemPortForItemRecoveryEntitlement]" =>
    playerDeathArm x line
  | "RequestLocationInventory" => locationInventoryArm x line
  | "InvalidateAllTerrainCells" => planetTerrainArm x line
  | "CLandingArea::UnregisterFromExternalSystems" => vehicleStowedArm x line
  | "AttachmentReceived" => attachmentReceivedArm x line
  | "Player Selected Quantum Target - Local" => quantumTargetArm x line .selected
  | "Player Requested Fuel to Quantum Target - Server Routing" =>
    quantumTargetArm x line .fuelRequested
  | "CLocalMissionPhaseMarker::CreateMarker" => missionPhaseArm x line
  | "EndMission" => missionEndArm x line
  | "SystemQuit" => return some (.sessionEnd ⟨line.timestamp, .systemQuit⟩)
  | _ => return none

/-- The function-call entries of a body, the more specific ones first. -/
def classifyBodyPrefix (x : Externals) (ts body : String) : Option GameEvent :=
  if contains body "CreateMissionObjectiveMarker" then do
    let c ← x.captures missionObjectiveRe body
    return .missionStart ⟨ts, groupText c "id", .objective, none⟩
  else if contains body "BuyRequest" ∧ (contains body "SendShopBuyRequest" ∨
      contains body "SendStandardItemBuyRequest" ∨ contains body "SendStandardShopBuyRequest") then
    let c := x.captures shopBuyRe body
    some (.shopBuyRequest ⟨ts, c.bind (nameText · "shop"), c.bind (nameText · "item"),
      (c.bind (nameText · "qty")).bind (parseUnsigned (2 ^ 32)), trim body⟩)
  else if contains body "ShopFlowResponse" then
    let c := x.captures shopResponseRe body
    let success := (c.bind (nameText · "result")).map fun m => decide (m ∈ ["Success", "OK", "ok"])
    some (.shopFlowResponse ⟨ts, c.bind (nameText · "shop"), success, trim body⟩)
  else if contains body "SendCommodityBuyRequest" then
    let c := x.captures commodityBuyRe body
    some (.commodityBuyRequest ⟨ts, c.bind (nameText · "commodity"),
      (c.bind (nameText · "qty")).bind x.parseF64, trim body⟩)
  else if contains body "SendCommoditySellRequest" then
    let c := x.captures commoditySellRe body
    some (.commoditySellRequest ⟨ts, c.bind (nameText · "commodity"),
      (c.bind (nameText · "qty")).bind x.parseF64, trim body⟩)
  else if contains body "CCIGBroker::FastShutdown" then some (.sessionEnd ⟨ts, .fastShutdown⟩)
  else none

/-- The typed event of a line, if the built-in rules know one. -/
def classify (x : Externals) (line : LogLine) : Option GameEvent :=
  match line.eventName with
  | none => classifyBodyPrefix x line.timestamp line.body
  | some event =>
    match shellMatch x line event with
    | .error r => r
    | .ok m => m.or (classifyBodyPrefix x line.timestamp line.body)

end StarStats.Core.Parser
