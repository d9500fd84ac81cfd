import StarStats.Lib.Json
import StarStats.Lib.Text

/-! # Locations

What an event tells about where its player is: a city, a planet, or just that he is online in a shard.
Instants are counted in nanoseconds. -/

namespace StarStats.Server.Locations

open StarStats.Lib.Json StarStats.Lib.Text

/-- What one event tells of the place. -/
structure ResolvedLocation where
  planet : Option String
  city : Option String
  system : Option String
  shard : Option String
  lastSeenAt : ℤ
  sourceEventType : String
  rawPlanetKey : Option String
  rawCityKey : Option String
  deriving DecidableEq

/-- `LOCATION_EVENT_TYPES` -/
def locationEventTypes : List String := ["location_inventory_requested", "planet_terrain_load", "join_pu"]

/-- What a city's key tells. -/
structure CityParse where
  planetLabel : Option String
  cityLabel : Option String
  system : Option String
  rawPlanetKey : Option String

/-- What a planet's key tells. -/
structure PlanetParse where
  planetLabel : Option String
  system : Option String

/-- A row of the table of cities. -/
structure KnownCity where
  rawKey : String
  system : String
  planetLabel : String
  cityLabel : String
  rawPlanetKey : String

/-- `KNOWN_CITIES` -/
def knownCities : List KnownCity :=
  [⟨"Stanton1_Lorville", "Stanton", "Hurston", "Lorville", "OOC_Stanton_1_Hurston"⟩,
    ⟨"Stanton2_Orison", "Stanton", "Crusader", "Orison", "OOC_Stanton_2_Crusader"⟩,
    ⟨"Stanton3_Area18", "Stanton", "ArcCorp", "Area18", "OOC_Stanton_3_ArcCorp"⟩,
    ⟨"Stanton4_NewBabbage", "Stanton", "microTech", "New Babbage", "OOC_Stanton_4_microTech"⟩,
    ⟨"Pyro1_Ruin", "Pyro", "Pyro I", "Ruin Station", "OOC_Pyro_1"⟩,
    ⟨"Pyro5_Checkmate", "Pyro", "Pyro V", "Checkmate", "OOC_Pyro_5"⟩]

/-- One more character, the `i`-th, with a space before it if it is the first capital of several. -/
def pushHumanised (out : List Char) (c : Char × ℕ) : List Char :=
  if 0 < c.2 && c.1.isUpper && out.getLast?.any (fun prev => !prev.isUpper) then out ++ [' ', c.1]
  else out ++ [c.1]

/-- A key as it is shown to readers. -/
def humanise (raw : List Char) : String := String.ofList (raw.zipIdx.foldl pushHumanised [])

/-- `trim_start_matches("OOC_")`, which takes away every repetition. -/
def trimOoc : List Char → List Char
  | 'O' :: 'O' :: 'C' :: '_' :: cs => trimOoc cs
  | cs => cs

/-- The last part names the planet, the first the system. -/
def parsePlanetKey (raw : String) : PlanetParse :=
  let parts := splitOn (· = '_') (trimOoc raw.toList)
  ⟨parts.getLast?.map humanise, parts.head?.map String.ofList⟩

/-- No name of a shard tells a system yet. -/
def systemFromShard (_shard : String) : Option String := none

section Resolve
variable (isNumeric : Char → Bool)

/-- The letters before the number, if any are left. -/
def extractSystemPrefix (pre : List Char) : Option String :=
  let trimmed := trimEndMatches isNumeric (String.ofList pre)
  if trimmed = "" then none else some trimmed

/-- The known cities first; any other key is taken apart. -/
def parseCityKey (raw : String) : CityParse :=
  match knownCities.find? (·.rawKey = raw) with
  | some c => ⟨some c.planetLabel, some c.cityLabel, some c.system, some c.rawPlanetKey⟩
  | none =>
    match splitOnce raw '_' with
    | some (systemPart, cityPart) =>
      ⟨none, some (humanise cityPart), extractSystemPrefix isNumeric systemPart, none⟩
    | none => ⟨none, some (humanise raw.toList), none, none⟩

/-- `payload.get(name)?.as_str()?` -/
def payloadStr (payload : Value) (name : String) : Option String :=
  match payload.get name with
  | some (.str s) => some s
  | _ => none

/-- The place whose inventory is opened. -/
def resolveInventoryRequest (payload : Value) (lastSeenAt : ℤ) (shardHint : Option String) :
    Option ResolvedLocation :=
  (payloadStr payload "location").map fun rawCity =>
    if rawCity = "INVALID_LOCATION_ID" then
      { planet := none
        city := none
        system := none
        shard := shardHint
        lastSeenAt := lastSeenAt
        sourceEventType := "location_inventory_requested"
        rawPlanetKey := none
        rawCityKey := some rawCity }
    else
      let parsed := parseCityKey isNumeric rawCity
      { planet := parsed.planetLabel
        city := parsed.cityLabel
        system := parsed.system
        shard := shardHint
        lastSeenAt := lastSeenAt
        sourceEventType := "location_inventory_requested"
        rawPlanetKey := parsed.rawPlanetKey
        rawCityKey := some rawCity }

/-- The planet that comes into view; the city is not known. -/
def resolvePlanetTerrain (payload : Value) (lastSeenAt : ℤ) (shardHint : Option String) :
    Option ResolvedLocation :=
  (payloadStr payload "planet").map fun rawPlanet =>
    let parsed := parsePlanetKey rawPlanet
    { planet := parsed.planetLabel
      city := none
      system := parsed.system
      shard := shardHint
      lastSeenAt := lastSeenAt
      sourceEventType := "planet_terrain_load"
      rawPlanetKey := some rawPlanet
      rawCityKey := none }

/-- The shard and its system; neither planet nor city is known. -/
def resolveJoinPu (payload : Value) (lastSeenAt : ℤ) : Option ResolvedLocation :=
  (payloadStr payload "shard").map fun shard =>
    { planet := none
      city := none
      system := systemFromShard shard
      shard := some shard
      lastSeenAt := lastSeenAt
      sourceEventType := "join_pu"
      rawPlanetKey := none
      rawCityKey := none }

/-- The types of events that tell a place; any other tells none. -/
def resolve (eventType : String) (payload : Value) (lastSeenAt : ℤ) (shardHint : Option String) :
    Option ResolvedLocation :=
  match eventType with
  | "location_inventory_requested" => resolveInventoryRequest isNumeric payload lastSeenAt shardHint
  | "planet_terrain_load" => resolvePlanetTerrain payload lastSeenAt shardHint
  | "join_pu" => resolveJoinPu payload lastSeenAt
  | _ => none

/-- A location is one of the types of events that tell locations, and has the time of its event. -/
theorem source_of_resolve {eventType : String} {payload : Value} {lastSeenAt : ℤ}
    {shardHint : Option String} {r : ResolvedLocation}
    (h : resolve isNumeric eventType payload lastSeenAt shardHint = some r) :
    r.lastSeenAt = lastSeenAt ∧ r.sourceEventType = eventType ∧ eventType ∈ locationEventTypes := by
  unfold resolve at h
  split at h
  · obtain ⟨rawCity, -, rfl⟩ := Option.map_eq_some_iff.mp h
    split_ifs
    all_goals exact ⟨rfl, rfl, by decide⟩
  · obtain ⟨rawPlanet, -, rfl⟩ := Option.map_eq_some_iff.mp h
    exact ⟨rfl, rfl, by decide⟩
  · obtain ⟨shard, -, rfl⟩ := Option.map_eq_some_iff.mp h
    exact ⟨rfl, rfl, by decide⟩
  · cases h

end Resolve

end StarStats.Server.Locations
