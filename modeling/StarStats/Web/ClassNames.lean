import Mathlib.Data.List.Basic
import StarStats.Lib.Text

/-! # The parts of class names

The journey page groups the identifiers that the game writes to its log by what can be read off them:
the manufacturer and the model of a weapon or an item, the system, the body and the place of a location.
A location is looked for in the wiki's catalog first and in fixed dictionaries then, after the patterns
that fit neither. The case mappings and the collation of strings are given. -/

namespace StarStats.Web.ClassNames

open StarStats.Lib.Text

/-! ### Strings -/

/-- The case mappings of the language, and whether a string comes no later than another. -/
structure Strings where
  toUpperCase : String → String
  toLowerCase : String → String
  localeLe : String → String → Bool

/-- What `\s` matches and `trim` removes. -/
def isSpace (c : Char) : Bool :=
  let n := c.toNat
  (9 ≤ n && n ≤ 13) || n = 0x20 || n = 0xA0 || n = 0x1680 || (0x2000 ≤ n && n ≤ 0x200A) ||
    n = 0x2028 || n = 0x2029 || n = 0x202F || n = 0x205F || n = 0x3000 || n = 0xFEFF

/-- `trim` of the language, at both ends. -/
def trimSpaces (s : String) : String := trimStartMatches isSpace (trimEndMatches isSpace s)

/-- The pieces between the occurrences of a character. -/
def splitAt (sep : Char) (s : String) : List String :=
  (splitOn (fun c => decide (c = sep)) s.toList).map String.ofList

/-- The pieces between the runs of spaces: only the first and the last may be empty. -/
def splitSpaces (s : String) : List String :=
  match (splitOn isSpace s.toList).map String.ofList with
  | [] => []
  | first :: rest => first :: rest.dropLast.filter (fun w => decide (w ≠ "")) ++ rest.getLast?.toList

/-- `join` of an array of strings. -/
def join (sep : String) (ws : List String) : String := sep.intercalate ws

/-- A space between each small letter and a capital behind it. -/
def splitCamelChars : List Char → List Char
  | [] => []
  | [c] => [c]
  | c :: d :: cs =>
    if c.isLower && d.isUpper then c :: ' ' :: splitCamelChars (d :: cs) else c :: splitCamelChars (d :: cs)

/-- A space between a small letter and the capital after it. -/
def splitCamelCase (s : String) : String := String.ofList (splitCamelChars s.toList)

/-- Without a wrapper such as `[PROC]` at the head. -/
def dropWrapper (s : String) : String :=
  match s.toList with
  | '[' :: cs =>
    let name := cs.takeWhile fun c => c.isUpper || c = '_'
    match cs.drop name.length with
    | ']' :: rest => if name = [] then s else String.ofList rest
    | _ => s
  | _ => s

/-- The size tags: one of a few prefixes and a number. -/
def isSize (s : String) : Bool :=
  ["s", "m", "mk", "v", "f"].any fun letters =>
    let digits := s.toList.drop letters.length
    decide ((s.toList.take letters.length).map Char.toLower = letters.toList) &&
      !digits.isEmpty && digits.all Char.isDigit

/-- A number, and perhaps a letter. -/
def isPlanetIndex (s : String) : Bool :=
  !(s.toList.takeWhile Char.isDigit).isEmpty &&
    match s.toList.dropWhile Char.isDigit with
    | [] => true
    | [c] => c.isAlpha
    | _ => false

/-! ### Dictionaries -/

/-- The codes that class names start with. -/
def manufacturerNames : List (String × String) :=
  [("AEGS", "Aegis"), ("ANVL", "Anvil"), ("ARGO", "Argo"), ("BANU", "Banu"),
    ("CNOU", "Consolidated Outland"), ("CRUS", "Crusader"), ("DRAK", "Drake"), ("ESPR", "Esperia"),
    ("GAMA", "Gatac"), ("GRIN", "Greycat"), ("KRGR", "Kruger"), ("MISC", "MISC"), ("ORIG", "Origin"),
    ("RSI", "RSI"), ("TMBL", "Tumbril"), ("VNCL", "Vanduul"), ("XIAN", "Xi'an"),
    ("AMRS", "Amon & Reese"), ("APAR", "Apocalypse Arms"), ("BEHR", "Behring"), ("GMNI", "Gemini"),
    ("HRST", "Hurston Dynamics"), ("KBAR", "Kastak Arms"), ("KLWE", "Klaus & Werner"),
    ("KSAR", "Kastak Arms"), ("PRAR", "Preacher Armament"), ("JOKR", "Joker Engineering"),
    ("MXOX", "MaxOx")]

/-- The systems, by their token. -/
def knownSystems : List (String × String) :=
  [("stanton", "Stanton"), ("pyro", "Pyro"), ("nyx", "Nyx"), ("castra", "Castra"), ("terra", "Terra"),
    ("sol", "Sol")]

/-- A planet or moon and the system it is in. -/
structure BodyMeta where
  system : String
  display : String
  deriving DecidableEq

/-- The bodies, by their token. -/
def knownBodies : List (String × BodyMeta) :=
  [("hurston", ⟨"Stanton", "Hurston"⟩), ("crusader", ⟨"Stanton", "Crusader"⟩),
    ("arccorp", ⟨"Stanton", "ArcCorp"⟩), ("microtech", ⟨"Stanton", "microTech"⟩),
    ("hur", ⟨"Stanton", "Hurston"⟩), ("cru", ⟨"Stanton", "Crusader"⟩), ("arc", ⟨"Stanton", "ArcCorp"⟩),
    ("mic", ⟨"Stanton", "microTech"⟩), ("aberdeen", ⟨"Stanton", "Aberdeen"⟩),
    ("arial", ⟨"Stanton", "Arial"⟩), ("magda", ⟨"Stanton", "Magda"⟩), ("ita", ⟨"Stanton", "Ita"⟩),
    ("cellin", ⟨"Stanton", "Cellin"⟩), ("daymar", ⟨"Stanton", "Daymar"⟩), ("yela", ⟨"Stanton", "Yela"⟩),
    ("wala", ⟨"Stanton", "Wala"⟩), ("lyria", ⟨"Stanton", "Lyria"⟩),
    ("calliope", ⟨"Stanton", "Calliope"⟩), ("clio", ⟨"Stanton", "Clio"⟩),
    ("euterpe", ⟨"Stanton", "Euterpe"⟩), ("bloom", ⟨"Pyro", "Bloom"⟩), ("monox", ⟨"Pyro", "Monox"⟩),
    ("terminus", ⟨"Pyro", "Terminus"⟩), ("adir", ⟨"Pyro", "Adir"⟩), ("vatra", ⟨"Pyro", "Vatra"⟩),
    ("vuur", ⟨"Pyro", "Vuur"⟩), ("fairo", ⟨"Pyro", "Fairo"⟩), ("fuego", ⟨"Pyro", "Fuego"⟩),
    ("ignis", ⟨"Pyro", "Ignis"⟩), ("hurdyn", ⟨"Stanton", "Hurston"⟩), ("rr", ⟨"Stanton", "Rest Stops"⟩),
    ("hdms", ⟨"Stanton", "HDMS Outposts"⟩), ("shubin", ⟨"Stanton", "Shubin Outposts"⟩),
    ("stantonstar", ⟨"Stanton", "Stanton"⟩), ("pyrostar", ⟨"Pyro", "Pyro"⟩), ("nyxstar", ⟨"Nyx", "Nyx"⟩),
    ("delamar", ⟨"Nyx", "Delamar"⟩)]

/-- A landing zone or station, its body and its system. -/
structure PlaceMeta where
  system : String
  body : String
  display : String
  deriving DecidableEq

/-- The places, by their token. -/
def knownPlaces : List (String × PlaceMeta) :=
  [("lorville", ⟨"Stanton", "Hurston", "Lorville"⟩), ("orison", ⟨"Stanton", "Crusader", "Orison"⟩),
    ("area18", ⟨"Stanton", "ArcCorp", "Area18"⟩), ("newbabbage", ⟨"Stanton", "microTech", "New Babbage"⟩),
    ("babbage", ⟨"Stanton", "microTech", "New Babbage"⟩), ("grimhex", ⟨"Stanton", "Yela", "GrimHEX"⟩),
    ("portolisar", ⟨"Stanton", "Crusader", "Port Olisar"⟩),
    ("olisar", ⟨"Stanton", "Crusader", "Port Olisar"⟩),
    ("everusharbor", ⟨"Stanton", "Hurston", "Everus Harbor"⟩),
    ("porttressler", ⟨"Stanton", "microTech", "Port Tressler"⟩),
    ("baijinipoint", ⟨"Stanton", "ArcCorp", "Baijini Point"⟩),
    ("seraphim", ⟨"Stanton", "Crusader", "Seraphim Station"⟩),
    ("kareah", ⟨"Stanton", "Crusader", "Security Post Kareah"⟩),
    ("ruinstation", ⟨"Pyro", "Pyro V", "Ruin Station"⟩), ("endgame", ⟨"Pyro", "Pyro V", "Endgame"⟩),
    ("checkmate", ⟨"Pyro", "Pyro V", "Checkmate"⟩), ("rappel", ⟨"Pyro", "Pyro V", "Rappel"⟩),
    ("starlight", ⟨"Pyro", "Pyro V", "Starlight Service Station"⟩), ("levski", ⟨"Nyx", "Delamar", "Levski"⟩),
    ("rayari", ⟨"Stanton", "microTech", "Rayari Outpost"⟩)]

/-- The ends of a jump route, by their token. -/
def routeTokens : List (String × String) :=
  [("stan", "Stanton"), ("stanton", "Stanton"), ("pyro", "Pyro"), ("nyx", "Nyx"), ("castra", "Castra"),
    ("terra", "Terra"), ("sol", "Sol"), ("magnus", "Magnus"), ("cru", "Crusader")]

/-- Segments of a class name that name nothing. -/
def skipSegments : List String := ["NPC", "AI", "OOC", "PROC", "LandingArea", "LOC"]

/-! ### Tokens -/

/-- A token such as `Stanton2` is the system and the index. -/
def splitSystemIndex (segment : String) : List String :=
  match knownSystems.find? fun entry =>
      decide ((segment.toList.take entry.1.length).map Char.toLower = entry.1.toList) &&
        isPlanetIndex (String.ofList (segment.toList.drop entry.1.length)) with
  | none => [segment]
  | some entry =>
    [String.ofList (segment.toList.take entry.1.length), String.ofList (segment.toList.drop entry.1.length)]

/-- The words of a class name, without wrapper and without the segments that name nothing. -/
def stripAndSplit (raw : String) : List String :=
  let trimmed := dropWrapper (trimSpaces raw)
  let segments := ((splitAt '_' trimmed).map trimSpaces).filter fun p =>
    decide (p ≠ "") && !skipSegments.contains p
  segments.flatMap splitSystemIndex

/-- The markers of the engine that are not destinations. -/
def isNonDestination (raw : String) : Bool :=
  let v := (trimSpaces raw).toList.map Char.toLower
  let mission := "mission".toList
  (mission.isPrefixOf v && (v.length = mission.length || v[mission.length]? = some '_')) ||
    ["objectcontainer", "navpoint", "partymember"].any fun head => head.toList.isPrefixOf v

section Strings

variable (js : Strings)

/-- One word in title case. -/
def capitalise (w : String) : String :=
  match w.toList with
  | [] => w
  | c :: cs => js.toUpperCase (String.singleton c) ++ js.toLowerCase (String.ofList cs)

/-- Every word in title case. -/
def titleCase (s : String) : String := join " " ((splitSpaces s).map (capitalise js))

/-! ### Weapons and items -/

/-- The manufacturer of the first word, and the words after it; an unknown word stays. -/
def lookupManufacturer (parts : List String) : Option String × List String :=
  match parts with
  | [] => (none, [])
  | head :: rest =>
    match manufacturerNames.lookup (js.toUpperCase head) with
    | none => (none, parts)
    | some mfr => (some mfr, rest)

/-- What a weapon's class name says. -/
structure WeaponParts where
  manufacturer : Option String
  family : String
  size : Option String
  raw : String

/-- The sizes are taken out before the family is read. -/
def parseWeaponClass (raw : String) : WeaponParts :=
  let (manufacturer, rest) := lookupManufacturer js (stripAndSplit raw)
  let sizes := (rest.filter isSize).map js.toUpperCase
  let nonSize := rest.filter (!isSize ·)
  { manufacturer
    family := if nonSize = [] then "Unknown" else titleCase js (splitCamelCase (join " " nonSize))
    size := sizes.head?
    raw }

/-- What an item's class name says. -/
structure ItemParts where
  manufacturer : Option String
  model : String
  raw : String

/-- The words after the manufacturer are the model. -/
def parseItemClass (raw : String) : ItemParts :=
  let (manufacturer, rest) := lookupManufacturer js (stripAndSplit raw)
  { manufacturer
    model :=
      if rest = [] then "Unknown"
      else join " " (rest.map fun p => if isSize p then js.toUpperCase p else titleCase js (splitCamelCase p))
    raw }

/-! ### Locations -/

/-- What a place's class name says; each part may be unknown. -/
structure LocationParts where
  system : Option String
  body : Option String
  place : Option String
  raw : String

/-- What the catalog of places holds on one of them. -/
structure LocationEntry where
  displayName : String
  system : Option String
  parent : Option String
  classification : Option String

/-- The wiki's locations by tag, name and slug, and the display names by class name. -/
structure LocationCatalog where
  byName : String → Option LocationEntry
  byTag : String → Option LocationEntry
  bySlug : String → Option LocationEntry
  display : String → Option String

/-- One end of a route; a token not in the table is put in title case. -/
def prettifyRouteToken (token : String) : String :=
  (routeTokens.lookup (js.toLowerCase token)).getD (titleCase js (splitCamelCase token))

/-- A route as it is shown. -/
def prettifyRoute (route : String) : String :=
  join " ↔ " ((splitAt '-' route).map (prettifyRouteToken js))

/-- Without `jp` at the head, in either case. -/
def dropJp (token : String) : String :=
  if (token.toList.take 2).map Char.toLower = ['j', 'p'] then String.ofList (token.toList.drop 2) else token

/-- `rs_ext_…` names a jump point. -/
def matchJumpPoint (parts : List String) (raw : String) : Option LocationParts :=
  match parts with
  | head :: kind :: routeRaw :: rest =>
    if js.toLowerCase head ≠ "rs" ∨ js.toLowerCase kind ≠ "ext" then none
    else
      some
        { system := some "Jump Points"
          body := some (prettifyRoute js routeRaw)
          place := (rest.head?.filter fun t => decide (t ≠ "")).map fun t =>
            "Jump Point " ++ js.toUpperCase (dropJp t)
          raw }
  | _ => none

/-- The system a token stands for, itself or by a body in it. -/
def servedSystem (token : String) : Option String :=
  (knownSystems.lookup (js.toLowerCase token)).or
    ((knownBodies.lookup (js.toLowerCase token)).map BodyMeta.system)

/-- The words `comm` and `array` side by side name a relay. -/
def matchCommArray (parts : List String) (raw : String) : Option LocationParts :=
  let adjacent := (parts.zip parts.tail).any fun (p, q) =>
    decide (js.toLowerCase p = "comm") && decide (js.toLowerCase q = "array")
  if contains (js.toLowerCase (join "" parts)) "commarray" || adjacent then
    let tail := parts.filter fun p =>
      !(["comm", "array", "commarray"].contains (js.toLowerCase p)) && (servedSystem js p).isNone
    some
      { system := some "Communications"
        body := some ((parts.findSome? (servedSystem js)).getD "Unknown system")
        place := if tail = [] then none else some (titleCase js (splitCamelCase (join " " tail)))
        raw }
  else none

/-- The keys under which a location is looked up, in this order. -/
def candidates (parts : List String) : List String :=
  (match parts with
    | p :: q :: _ => [js.toLowerCase (p ++ q)]
    | _ => []) ++ js.toLowerCase (join "" parts) :: parts.map js.toLowerCase

/-- The first key that the catalog knows, by tag, name or slug. -/
def lookupCatalog (parts : List String) (raw : String) (catalog : LocationCatalog) :
    Option LocationParts :=
  ((candidates js parts).findSome? fun key =>
      ((catalog.byTag key).or (catalog.byName key)).or (catalog.bySlug key)).map fun hit =>
    if hit.classification = some "Star" then
      ⟨some (hit.system.getD hit.displayName), none, none, raw⟩
    else if hit.classification = some "Planet" then ⟨hit.system, some hit.displayName, none, raw⟩
    else ⟨hit.system, hit.parent, some hit.displayName, raw⟩

/-- The first token that stands for something, as what it stands for, and the tokens behind it. -/
def findToken {α : Type} (dict : List (String × α)) : List String → Option (α × List String)
  | [] => none
  | p :: ps =>
    match dict.lookup (js.toLowerCase p) with
    | some a => some (a, ps)
    | none => findToken dict ps

/-- A place by its tokens joined, or else by the first of them that is one. -/
def findPlaceMatch (parts : List String) : Option PlaceMeta :=
  (knownPlaces.lookup (js.toLowerCase (join "" parts))).or
    ((findToken js knownPlaces parts).map Prod.fst)

/-- A place's own name, else its words in title case. -/
def resolvePlace (parts : List String) : String :=
  ((findPlaceMatch js parts).map PlaceMeta.display).getD (titleCase js (splitCamelCase (join " " parts)))

/-- No words, no place. -/
def placeAfter (after : List String) : Option String :=
  if after = [] then none else some (resolvePlace js after)

/-- Once the system is known, the words after it name a body, a place or both. -/
def resolveAfterSystem (system : String) (namedTail : List String) (raw : String) : LocationParts :=
  match namedTail with
  | [] => ⟨some system, none, none, raw⟩
  | first :: rest =>
    match findToken js knownBodies namedTail with
    | some (bodyMeta, after) => ⟨some system, some bodyMeta.display, placeAfter js after, raw⟩
    | none =>
      let body := titleCase js (splitCamelCase first)
      if rest = [] then ⟨some system, some body, none, raw⟩
      else ⟨some system, some body, some (titleCase js (splitCamelCase (join " " rest))), raw⟩

/-- By the dictionaries alone. -/
def parseByDictionaries (parts : List String) (raw : String) : LocationParts :=
  match findToken js knownSystems parts with
  | some (system, tail) => resolveAfterSystem js system (tail.filter (!isPlanetIndex ·)) raw
  | none =>
    let namedParts := parts.filter (!isPlanetIndex ·)
    match findToken js knownBodies namedParts with
    | some (bodyMeta, after) =>
      ⟨some bodyMeta.system, some bodyMeta.display, placeAfter js after, raw⟩
    | none =>
      match findPlaceMatch js namedParts with
      | some hit => ⟨some hit.system, some hit.body, some hit.display, raw⟩
      | none => ⟨none, none, some (titleCase js (splitCamelCase (join " " parts))), raw⟩

/-- The patterns in the source's order: jump point, relay, catalog, then the words themselves. -/
def parseLocationClass (raw : String) (catalog : LocationCatalog) : LocationParts :=
  let parts := stripAndSplit raw
  if parts = [] then ⟨none, none, none, raw⟩
  else
    (((matchJumpPoint js parts raw).or (matchCommArray js parts raw)).or
      (lookupCatalog js parts raw catalog)).getD (parseByDictionaries js parts raw)

/-! ### Display names -/

/-- The segments that carry no meaning for a reader. -/
def noiseSegments : List String := ["NPC", "AI", "OOC", "PROC", "LandingArea"]

/-- A name that is made up from an identifier which no catalog has. -/
def toFriendlyName (raw : String) : String :=
  let trimmed := trimSpaces raw
  if trimmed = "" then ""
  else if !trimmed.toList.contains '_' && trimmed.toList.any isSpace && trimmed.toList.any Char.isLower &&
      trimmed.toList.any Char.isUpper then trimmed
  else
    let parts := (splitAt '_' (dropWrapper trimmed)).filter fun p => decide (p ≠ "")
    let (manufacturer, rest) : Option String × List String :=
      match parts with
      | [] => (none, [])
      | head :: rest =>
        match manufacturerNames.lookup head with
        | none => (none, parts)
        | some mfr => (some mfr, rest)
    let joined := join " " ((rest.filter (!noiseSegments.contains ·)).map fun p =>
      if isSize p then js.toUpperCase p
      else join " " ((splitAt ' ' (splitCamelCase p)).map (capitalise js)))
    match manufacturer with
    | none => joined
    | some mfr => trimSpaces (mfr ++ " " ++ joined)

/-- The catalog's name of an identifier, or else one that is made up. -/
def prettyClass (raw : String) (map : String → Option String) : String :=
  if raw = "" then "" else (map (js.toLowerCase raw)).getD (toFriendlyName js raw)

end Strings

end StarStats.Web.ClassNames
