import Mathlib.Data.List.TakeWhile
import StarStats.Lib.Text

/-! # The hangar worker

A cycle fetches the user's page of pledges, reads the ships off it and pushes them to the server, which
puts them in the place of the last snapshot. The parser finds no ship on a page that is not the list of
pledges, just as on an empty list, and the cycle pushes what it found, were it nothing. So only a page
with a list that has no item, or with an item whose ship a push may carry, leaves the hangar alone
(`neverEmpties_iff`). Pages are parsed and their elements selected by given functions. -/

namespace StarStats.Client.Hangar

open StarStats.Lib.Text

/-! ### The push -/

/-- A ship or item of the user's hangar. -/
structure HangarShip where
  name : String
  manufacturer : Option String
  pledgeId : Option String
  kind : Option String
  deriving DecidableEq

/-- The body of the push. -/
structure HangarPushRequest where
  schemaVersion : ℕ
  ships : List HangarShip
  deriving DecidableEq

/-- What the tray shows of the fetcher. -/
structure HangarStats where
  lastAttemptAt : Option String
  lastSuccessAt : Option String
  lastError : Option String
  shipsPushed : ℕ
  lastSkipReason : Option String
  deriving DecidableEq

/-- The largest page read. -/
def maxBodyBytes : ℕ := 5 * 1024 * 1024

/-- The longest field the server takes. -/
def maxFieldChars : ℕ := 200

/-- The most ships one push may have. -/
def maxShipsPerPush : ℕ := 5000

/-! ### The page -/

/-- The parser of pages and the selectors of elements, in document order. An item stands under its
list. -/
structure Html (Node : Type) where
  parseDocument : String → Node
  select : Node → String → List Node
  attr : Node → String → Option String
  text : Node → List String
  list_of_item : ∀ doc, select doc "ul.list-items > li" ≠ [] → select doc "ul.list-items" ≠ []

/-- A text without its surrounding white space, unless nothing is left. -/
def trimmed (s : String) : Option String := if trim s = "" then none else some (trim s)

/-- Texts are set apart by a space where neither has one. -/
def pushChunk (out chunk : String) : String :=
  if out ≠ "" ∧ ¬ out.toList.getLast?.any isWhitespace ∧ ¬ chunk.toList.head?.any isWhitespace then
    out ++ " " ++ chunk
  else out ++ chunk

/-- At most `n` pieces; the last has the separators that are left. -/
def splitn (sep : List Char) : ℕ → List Char → List (List Char)
  | 0, _ => []
  | 1, cs => [cs]
  | n + 2, cs =>
    match cutFirst sep cs with
    | none => [cs]
    | some (piece, rest) => piece :: splitn sep (n + 1) rest

/-- The first two of the parts that ` - ` cuts a name into; a name it does not cut has neither. -/
def deriveKindAndManufacturer (name : String) : Option String × Option String :=
  match splitn " - ".toList 3 name.toList with
  | kind :: manuf :: _ => (trimmed (String.ofList kind), trimmed (String.ofList manuf))
  | _ => (none, none)

section Parser

variable {Node : Type} (html : Html Node)

/-- The chunks of an element's text, joined as `push_str` does. -/
def collectText (el : Node) : String := (html.text el).foldl pushChunk ""

/-- The value of the first hidden input of a class. -/
def readInputValue (el : Node) (classHook : String) : Option String :=
  (html.select el ("input." ++ classHook)).head?.bind (html.attr · "value")

/-- The id of a block, if it has one that is not blank. -/
def pledgeId (li : Node) : Option String := (readInputValue html li "js-pledge-id").bind trimmed

/-- The name is that of the hidden input, or else the heading. -/
def pledgeName (li : Node) : Option String :=
  ((readInputValue html li "js-pledge-name").bind trimmed).or
    ((html.select li ".title-col h3").head?.bind fun el => trimmed (collectText html el))

/-- A block without a name is no ship. -/
def parsePledgeBlock (li : Node) : Option HangarShip :=
  (pledgeName html li).map fun name =>
    { name
      manufacturer := (deriveKindAndManufacturer name).2
      pledgeId := pledgeId html li
      kind := (deriveKindAndManufacturer name).1 }

/-- The lists of pledges of a page. -/
def lists (body : String) : List Node := html.select (html.parseDocument body) "ul.list-items"

/-- The items of its lists. -/
def items (body : String) : List Node := html.select (html.parseDocument body) "ul.list-items > li"

/-- The blocks of the page's list, in order. -/
def parsePledgesHtml (body : String) : List HangarShip :=
  (items html body).filterMap (parsePledgeBlock html)

end Parser

/-! ### What may be pushed -/

/-- Longer than the server takes. -/
def fieldTooLong (s : String) : Bool := maxFieldChars < s.toList.length

/-- A name, and no field longer than the server takes. -/
def fits (ship : HangarShip) : Bool :=
  trim ship.name ≠ "" && !(fieldTooLong ship.name || ship.manufacturer.any fieldTooLong ||
    ship.pledgeId.any fieldTooLong || ship.kind.any fieldTooLong)

/-- The loop over the ships; `out` are those that are kept so far. -/
def sanitiseFrom (out : List HangarShip) : List HangarShip → List HangarShip
  | [] => out
  | ship :: ships =>
    if trim ship.name = "" then sanitiseFrom out ships
    else if fieldTooLong ship.name || ship.manufacturer.any fieldTooLong ||
        ship.pledgeId.any fieldTooLong || ship.kind.any fieldTooLong then sanitiseFrom out ships
    else if maxShipsPerPush ≤ out.length then out
    else sanitiseFrom (out ++ [ship]) ships

/-- What of the parsed ships is sent. -/
def sanitiseShips (ships : List HangarShip) : List HangarShip := sanitiseFrom [] ships

/-! ### The cycle -/

/-- An answer of RSI: its status and the chunks of its body, until one cannot be read. -/
structure Response where
  status : ℕ
  chunks : List (Except Unit (List UInt8))

/-- What a cycle meets: the clock before and after, the game, the keychain, RSI by the cookie header
and the server by address, token and push. -/
structure Env where
  startedAt : String
  endedAt : String
  gameRunning : Bool
  secret : Except Unit (Option String)
  getPledges : String → Except Unit Response
  post : String → String → HangarPushRequest → Except Unit (ℕ × Option String)
  showStatus : ℕ → String

/-- `is_success`: any of the 2xx. -/
def isSuccess (status : ℕ) : Bool := 200 ≤ status && status < 300

/-- The loop over the chunks; `buf` are the bytes read so far. -/
def readChunks (buf : List UInt8) : List (Except Unit (List UInt8)) → Except String (List UInt8)
  | [] => .ok buf
  | .error _ :: _ => .error "read chunk"
  | .ok chunk :: rest =>
    if maxBodyBytes < buf.length + chunk.length then
      .error ("RSI pledges body exceeded " ++ toString maxBodyBytes ++ "-byte cap; aborting")
    else readChunks (buf ++ chunk) rest

/-- The body, given up once it is larger than the cap or no UTF-8. -/
def readCappedText (resp : Response) : Except String String :=
  match readChunks [] resp.chunks with
  | .error e => .error e
  | .ok buf =>
    match decode buf with
    | none => .error "RSI pledges body is not utf-8"
    | some body => .ok body

/-- The cookie the page is asked for with. -/
def cookieHeader (value : String) : String := "Rsi-Token=" ++ value

/-- The body of the page, unless RSI does not take the cookie; an error shows its outermost context. -/
def fetchPledges (env : Env) (cookie : String) (stats : HangarStats) :
    HangarStats × Except String (Option String) :=
  match env.getPledges (cookieHeader cookie) with
  | .error _ => (stats, .error "GET RSI pledges")
  | .ok resp =>
    if resp.status = 401 ∨ resp.status = 403 then
      ({ stats with
          lastError := some "RSI cookie expired or invalid"
          lastSkipReason := some "rsi_cookie_invalid" }, .ok none)
    else if isSuccess resp.status then
      match readCappedText resp with
      | .error _ => (stats, .error "read RSI pledges body")
      | .ok body => (stats, .ok (some body))
    else (stats, .error ("RSI pledges returned " ++ env.showStatus resp.status))

/-- How a cycle ends: the statistics, the push that was handed to the server, and the error if any. -/
structure Cycle where
  stats : HangarStats
  sent : Option HangarPushRequest
  result : Except String Unit

/-- The push: any status but a success is an error. -/
def pushHangar (env : Env) (apiUrl token : String) (stats : HangarStats) (push : HangarPushRequest) :
    Cycle :=
  match env.post (trimEndMatches (· = '/') apiUrl ++ "/v1/me/hangar") token push with
  | .error _ => ⟨stats, some push, .error "POST /v1/me/hangar"⟩
  | .ok (status, text) =>
    if isSuccess status then
      ⟨{ stats with
          lastSuccessAt := some env.endedAt
          lastError := none
          shipsPushed := push.ships.length % 2 ^ 32 }, some push, .ok ()⟩
    else
      ⟨stats, some push,
        .error ("hangar push failed: " ++ env.showStatus status ++ " " ++ text.getD "")⟩

section Refresh

variable {Node : Type} (html : Html Node) (env : Env) (apiUrl token : String) (stats : HangarStats)

/-- The cycle from where the cookie is known. -/
def refreshWith (cookie : String) : Cycle :=
  match fetchPledges env cookie { stats with lastSkipReason := none } with
  | (stats, .error e) => ⟨stats, none, .error e⟩
  | (stats, .ok none) => ⟨stats, none, .ok ()⟩
  | (stats, .ok (some body)) =>
    pushHangar env apiUrl token stats ⟨1, sanitiseShips (parsePledgesHtml html body)⟩

/-- One cycle. A skip is no error, and a page without pledges is pushed like any other. -/
def refreshOnce : Cycle :=
  let stats := { stats with lastAttemptAt := some env.startedAt }
  if env.gameRunning then ⟨{ stats with lastSkipReason := some "game running" }, none, .ok ()⟩
  else
    match env.secret with
    | .error _ => ⟨stats, none, .error "read RSI cookie from keychain"⟩
    | .ok secret =>
      match secret.filter (fun v => decide (trim v ≠ "")) with
      | none => ⟨{ stats with lastSkipReason := some "no cookie set" }, none, .ok ()⟩
      | some cookie => refreshWith html env apiUrl token stats cookie

end Refresh

/-! ### Pieces of a name -/

theorem trimmed_eq_some_iff {s t : String} : trimmed s = some t ↔ trim s ≠ "" ∧ t = trim s := by
  unfold trimmed
  split_ifs with hblank
  · simp [hblank]
  · simp [hblank, eq_comm]

theorem length_of_mem_splitn {sep : List Char} : ∀ {n : ℕ} {cs piece : List Char},
    piece ∈ splitn sep n cs → piece.length ≤ cs.length
  | 0, cs, piece, h => by simp [splitn] at h
  | 1, cs, piece, h => by
    rw [splitn, List.mem_singleton] at h
    rw [h]
  | n + 2, cs, piece, h => by
    unfold splitn at h
    split at h
    · rw [List.mem_singleton] at h
      rw [h]
    · rename_i first rest hcut
      have hlen := length_of_cutFirst hcut
      rcases List.mem_cons.mp h with rfl | hrest
      · omega
      · have := length_of_mem_splitn hrest
        omega

theorem length_of_trimmed {name cs : List Char} {piece : String} (hlen : cs.length ≤ name.length)
    (h : trimmed (String.ofList cs) = some piece) : piece.toList.length ≤ name.length := by
  obtain ⟨-, rfl⟩ := trimmed_eq_some_iff.mp h
  have htrim := length_trim_le (String.ofList cs)
  rw [String.toList_ofList] at htrim
  omega

theorem length_of_derive {name piece : String} (h : (deriveKindAndManufacturer name).1 = some piece ∨
    (deriveKindAndManufacturer name).2 = some piece) : piece.toList.length ≤ name.toList.length := by
  unfold deriveKindAndManufacturer at h
  split at h
  · rename_i kind manuf rest hsplit
    have hmem : ∀ {cs : List Char}, cs ∈ kind :: manuf :: rest → cs.length ≤ name.toList.length := by
      intro cs hcs
      rw [← hsplit] at hcs
      exact length_of_mem_splitn hcs
    simp only at h
    rcases h with h | h
    · exact length_of_trimmed (hmem List.mem_cons_self) h
    · exact length_of_trimmed (hmem (List.mem_cons_of_mem _ List.mem_cons_self)) h
  · rcases h with h | h <;> cases h

/-! ### What is kept of a page -/

/-- The loop keeps the ships that fit, up to the most that one push carries. -/
theorem sanitiseFrom_eq {ships : List HangarShip} : ∀ {out : List HangarShip},
    out.length ≤ maxShipsPerPush → sanitiseFrom out ships =
      out ++ (ships.filter fits).take (maxShipsPerPush - out.length) := by
  induction ships with
  | nil => intro out _; simp [sanitiseFrom]
  | cons ship ships ih =>
    intro out hout
    unfold sanitiseFrom
    split_ifs with hblank hlong hfull
    · rw [ih hout, List.filter_cons_of_neg (by simp [fits, hblank])]
    · rw [ih hout, List.filter_cons_of_neg (by simp [fits, hlong])]
    · rw [Nat.sub_eq_zero_of_le hfull, List.take_zero, List.append_nil]
    · have hfits : fits ship = true := by simp [fits, hblank, hlong]
      have hroom : maxShipsPerPush - out.length = maxShipsPerPush - (out ++ [ship]).length + 1 := by
        rw [List.length_append, List.length_singleton]
        omega
      rw [ih (by rw [List.length_append, List.length_singleton]; omega),
        List.filter_cons_of_pos hfits, hroom, List.take_succ_cons, List.append_assoc]
      rfl

theorem sanitiseShips_eq (ships : List HangarShip) :
    sanitiseShips ships = (ships.filter fits).take maxShipsPerPush := by
  have hroom : ([] : List HangarShip).length ≤ maxShipsPerPush := Nat.zero_le _
  exact sanitiseFrom_eq hroom

theorem sanitiseShips_eq_nil_iff {ships : List HangarShip} :
    sanitiseShips ships = [] ↔ ∀ ship ∈ ships, fits ship = false := by
  rw [sanitiseShips_eq, List.take_eq_nil_iff, List.filter_eq_nil_iff]
  have : maxShipsPerPush ≠ 0 := by decide
  simp [this]

section Parser

variable {Node : Type} {html : Html Node} {li : Node} {body : String}

theorem trim_ne_of_pledgeName {name : String} (h : pledgeName html li = some name) : trim name ≠ "" := by
  have htrimmed : ∀ {s : String}, trimmed s = some name → trim name ≠ "" := by
    intro s hs
    obtain ⟨hne, rfl⟩ := trimmed_eq_some_iff.mp hs
    exact trim_trim_ne_empty hne
  rcases Option.or_eq_some_iff.mp h with hinput | ⟨-, hheading⟩
  · obtain ⟨s, -, hs⟩ := Option.bind_eq_some_iff.mp hinput
    exact htrimmed hs
  · obtain ⟨el, -, hs⟩ := Option.bind_eq_some_iff.mp hheading
    exact htrimmed hs

/-- The item has a name, and neither it nor the pledge's number is longer than the server takes. -/
def Readable (html : Html Node) (li : Node) : Prop :=
  ∃ name, pledgeName html li = some name ∧ name.toList.length ≤ maxFieldChars ∧
    ∀ id, pledgeId html li = some id → id.toList.length ≤ maxFieldChars

theorem fieldTooLong_eq_false_iff {s : String} :
    fieldTooLong s = false ↔ s.toList.length ≤ maxFieldChars := by
  unfold fieldTooLong
  rw [decide_eq_false_iff_not, not_lt]

/-- A ship of an item may be pushed just if the item is readable. -/
theorem exists_fits_iff :
    (∃ ship, parsePledgeBlock html li = some ship ∧ fits ship = true) ↔ Readable html li := by
  unfold parsePledgeBlock Readable
  constructor
  · rintro ⟨ship, hship, hfits⟩
    obtain ⟨name, hname, rfl⟩ := Option.map_eq_some_iff.mp hship
    simp only [fits, Bool.and_eq_true, Bool.not_eq_true', Bool.or_eq_false_iff] at hfits
    obtain ⟨-, ⟨⟨hlen, -⟩, hid⟩, -⟩ := hfits
    refine ⟨name, hname, fieldTooLong_eq_false_iff.mp hlen, fun id hpledge => ?_⟩
    rw [hpledge] at hid
    exact fieldTooLong_eq_false_iff.mp hid
  · rintro ⟨name, hname, hlen, hid⟩
    have hpiece : ∀ piece, (deriveKindAndManufacturer name).1 = some piece ∨
        (deriveKindAndManufacturer name).2 = some piece → fieldTooLong piece = false :=
      fun piece hp => fieldTooLong_eq_false_iff.mpr ((length_of_derive hp).trans hlen)
    have hany : ∀ {o : Option String}, (∀ s, o = some s → fieldTooLong s = false) →
        o.any fieldTooLong = false := by
      intro o ho
      rcases o with _ | s
      · rfl
      · exact ho s rfl
    refine ⟨_, Option.map_eq_some_iff.mpr ⟨name, hname, rfl⟩, ?_⟩
    simp only [fits, Bool.and_eq_true, Bool.not_eq_true', Bool.or_eq_false_iff, decide_eq_true_eq]
    exact ⟨trim_ne_of_pledgeName hname,
      ⟨⟨fieldTooLong_eq_false_iff.mpr hlen, hany fun s hs => hpiece s (Or.inr hs)⟩,
        hany fun s hs => fieldTooLong_eq_false_iff.mpr (hid s hs)⟩, hany fun s hs => hpiece s (Or.inl hs)⟩

/-- Nothing is pushed of a page just if none of its items is readable. -/
theorem sanitiseShips_parse_eq_nil_iff :
    sanitiseShips (parsePledgesHtml html body) = [] ↔ ∀ li ∈ items html body, ¬ Readable html li := by
  rw [sanitiseShips_eq_nil_iff]
  unfold parsePledgesHtml
  constructor
  · intro hnone li hli hread
    obtain ⟨ship, hship, hfits⟩ := exists_fits_iff.mpr hread
    rw [hnone ship (List.mem_filterMap.mpr ⟨li, hli, hship⟩)] at hfits
    cases hfits
  · intro hnone ship hship
    obtain ⟨li, hli, hparse⟩ := List.mem_filterMap.mp hship
    exact Bool.eq_false_iff.mpr fun hfits => hnone li hli (exists_fits_iff.mp ⟨ship, hparse, hfits⟩)

end Parser

/-! ### What a cycle pushes -/

/-- The cycle fetches the page: the game is closed, a cookie is set and RSI answers it with the page. -/
structure Fetches (env : Env) (body : String) : Prop where
  closed : env.gameRunning = false
  answer : ∃ cookie resp, env.secret = .ok (some cookie) ∧ trim cookie ≠ "" ∧
    env.getPledges (cookieHeader cookie) = .ok resp ∧ isSuccess resp.status = true ∧
    readCappedText resp = .ok body

section Refresh

variable {Node : Type} {html : Html Node} {env : Env} {apiUrl token : String} {stats : HangarStats}
  {body : String}

theorem sent_pushHangar {push : HangarPushRequest} :
    (pushHangar env apiUrl token stats push).sent = some push := by
  unfold pushHangar
  split
  · rfl
  · split_ifs <;> rfl

theorem fetchPledges_eq {cookie : String} {resp : Response}
    (hget : env.getPledges (cookieHeader cookie) = .ok resp) (hstatus : isSuccess resp.status = true)
    (hread : readCappedText resp = .ok body) :
    fetchPledges env cookie stats = (stats, .ok (some body)) := by
  have hallowed : ¬ (resp.status = 401 ∨ resp.status = 403) := by
    rintro (h | h)
    · rw [h] at hstatus
      cases hstatus
    · rw [h] at hstatus
      cases hstatus
  unfold fetchPledges
  rw [hget]
  simp only
  rw [if_neg hallowed, if_pos hstatus, hread]

/-- A cycle that fetches a page pushes what is kept of it, whatever that is. -/
theorem sent_refreshOnce (h : Fetches env body) : (refreshOnce html env apiUrl token stats).sent =
    some ⟨1, sanitiseShips (parsePledgesHtml html body)⟩ := by
  obtain ⟨cookie, resp, hsecret, hne, hget, hstatus, hread⟩ := h.answer
  have hcookie : (some cookie).filter (fun v => decide (trim v ≠ "")) = some cookie := by
    rw [Option.filter_some, if_pos (decide_eq_true hne)]
  unfold refreshOnce
  simp only
  rw [h.closed, if_neg Bool.false_ne_true, hsecret]
  simp only
  rw [hcookie]
  simp only
  unfold refreshWith
  rw [fetchPledges_eq hget hstatus hread]
  exact sent_pushHangar

end Refresh

/-! ### Pages that say nothing of the hangar -/

section Law

variable {Node : Type}

/-- No ship is pushed only of a page that has the list with no item, and of a page without the list,
or with items of which none can be parsed, nothing is pushed. -/
structure NeverEmpties (html : Html Node) (env : Env) (apiUrl token : String) (stats : HangarStats)
    (body : String) : Prop where
  empty : ∀ push, (refreshOnce html env apiUrl token stats).sent = some push → push.ships = [] →
    lists html body ≠ [] ∧ items html body = []
  silent : lists html body = [] ∨ (items html body ≠ [] ∧
      ∀ li ∈ items html body, parsePledgeBlock html li = none) →
    (refreshOnce html env apiUrl token stats).sent = none

/-- The page has the list with no item, or one whose ship the push may carry. -/
def SaysSomething (html : Html Node) (body : String) : Prop :=
  (lists html body ≠ [] ∧ items html body = []) ∨ ∃ li ∈ items html body, Readable html li

variable {html : Html Node} {env : Env} {apiUrl token : String} {stats : HangarStats} {body : String}

/-- A page that is fetched never empties the hangar just if it says something of it. -/
theorem neverEmpties_iff (h : Fetches env body) :
    NeverEmpties html env apiUrl token stats body ↔ SaysSomething html body := by
  have hsent : (refreshOnce html env apiUrl token stats).sent =
      some ⟨1, sanitiseShips (parsePledgesHtml html body)⟩ := sent_refreshOnce h
  constructor
  · intro hlaw
    by_cases hread : ∃ li ∈ items html body, Readable html li
    · exact Or.inr hread
    · have hnone : sanitiseShips (parsePledgesHtml html body) = [] :=
        sanitiseShips_parse_eq_nil_iff.mpr fun li hli hli' => hread ⟨li, hli, hli'⟩
      exact Or.inl (hlaw.empty _ hsent hnone)
  · rintro (⟨hlists, hitems⟩ | ⟨li, hli, hread⟩)
    · exact
        { empty := fun _ _ _ => ⟨hlists, hitems⟩
          silent := fun hsilent => by
            rcases hsilent with hno | ⟨hsome, -⟩
            · exact absurd hno hlists
            · exact absurd hitems hsome }
    · have hitems : items html body ≠ [] := List.ne_nil_of_mem hli
      refine ⟨fun push hpush hships => ?_, fun hsilent => ?_⟩
      · rw [hsent] at hpush
        cases hpush
        exact absurd hread (sanitiseShips_parse_eq_nil_iff.mp hships li hli)
      · rcases hsilent with hno | ⟨-, hfail⟩
        · exact absurd hno (html.list_of_item _ hitems)
        · obtain ⟨ship, hship, -⟩ := exists_fits_iff.mpr hread
          rw [hfail li hli] at hship
          cases hship

end Law

/-- Pages with one list of pledges, each with its hidden inputs, and pages with none. -/
inductive Page
  | blank
  | pledges (inputs : List (List (String × String)))
  | list
  | item (inputs : List (String × String))
  | input (value : String)
  deriving DecidableEq

/-- The two selectors the fetcher uses, on the pages of the examples. -/
def selectPage (page : Page) (selector : String) : List Page :=
  match page with
  | .pledges inputs =>
    if selector = "ul.list-items" then [.list]
    else if selector = "ul.list-items > li" then inputs.map .item
    else []
  | .item inputs => (inputs.filter fun p => decide ("input." ++ p.1 = selector)).map (.input ·.2)
  | _ => []

def titanPage : String :=
  "<ul class=\"list-items\"><li><input class=\"js-pledge-id\" value=\"12345678\">" ++
    "<input class=\"js-pledge-name\" value=\"Aegis Avenger Titan\"></li></ul>"

def loginPage : String := "<html><body><h1>Hello</h1><p>Nothing to see here.</p></body></html>"

def pageHtml : Html Page where
  parseDocument body :=
    if body = titanPage then
      .pledges [[("js-pledge-id", "12345678"), ("js-pledge-name", "Aegis Avenger Titan")]]
    else .blank
  select := selectPage
  attr := fun page name =>
    match page with
    | .input value => if name = "value" then some value else none
    | _ => none
  text := fun _ => []
  list_of_item := fun page h => by
    rcases page with _ | inputs | _ | inputs | value
    · exact h
    · exact List.cons_ne_nil _ _
    · exact h
    · exfalso
      have hno : ∀ p : String × String, ¬ "input." ++ p.1 = "ul.list-items > li" := by
        intro p hp
        have := congrArg (fun s : String => s.toList.head?) hp
        simp at this
      exact h (by simp [selectPage, hno])
    · exact h

def pageEnv (body : String) : Env where
  startedAt := "2026-05-09T12:00:00Z"
  endedAt := "2026-05-09T12:00:04Z"
  gameRunning := false
  secret := .ok (some "cookie")
  getPledges := fun _ => .ok ⟨200, [.ok body.toUTF8.data.toList]⟩
  post := fun _ _ _ => .ok (200, none)
  showStatus := fun n => toString n

def fresh : HangarStats := ⟨none, none, none, 0, none⟩

theorem fetches_titanPage : Fetches (pageEnv titanPage) titanPage :=
  ⟨rfl, "cookie", ⟨200, [.ok titanPage.toUTF8.data.toList]⟩, rfl, by decide, rfl,
    by decide, by decide +kernel⟩

theorem fetches_loginPage : Fetches (pageEnv loginPage) loginPage :=
  ⟨rfl, "cookie", ⟨200, [.ok loginPage.toUTF8.data.toList]⟩, rfl, by decide, rfl,
    by decide, by decide⟩

theorem neverEmpties_titanPage :
    NeverEmpties pageHtml (pageEnv titanPage) "http://localhost:8080/" "token" fresh titanPage := by
  have hname : pledgeName pageHtml
      (.item [("js-pledge-id", "12345678"), ("js-pledge-name", "Aegis Avenger Titan")]) =
        some "Aegis Avenger Titan" := by decide
  refine (neverEmpties_iff fetches_titanPage).mpr (Or.inr ⟨_, ?_, _, hname, ?_, ?_⟩)
  · decide +kernel
  · decide
  · decide

/-- A page that is not the list of pledges empties the hangar. -/
theorem not_neverEmpties_loginPage : Fetches (pageEnv loginPage) loginPage ∧
    ¬ NeverEmpties pageHtml (pageEnv loginPage) "http://localhost:8080/" "token" fresh loginPage := by
  refine ⟨fetches_loginPage, fun hlaw => ?_⟩
  have hpush : (refreshOnce pageHtml (pageEnv loginPage) "http://localhost:8080/" "token" fresh).sent =
      some ⟨1, []⟩ := by
    rw [sent_refreshOnce fetches_loginPage]
    decide
  have hlists : lists pageHtml loginPage = [] := by decide
  exact (hlaw.empty _ hpush rfl).1 hlists

end StarStats.Client.Hangar
