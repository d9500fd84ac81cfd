import Mathlib.Data.Finset.Basic
import StarStats.Server.Accounts
import StarStats.Server.Queries

/-! # Shares

An owner shares with another account by a relation, kept by a permission service that compares names
byte for byte. Beside it stands a row of metadata, under both handles without regard to case: when the
share expires, a note, and a scope that says what the other may see. The two are written one after the
other, and what fails of the second is let go.

Which calls of a request fail, and what the clock and the services outside say, is its
environment. -/

namespace StarStats.Server.Sharing

open StarStats.Lib.Text StarStats.Lib.Json StarStats.Lib.Tables
open StarStats.Server.Auth StarStats.Server.Ingest StarStats.Server.Accounts
open StarStats.Server.Queries

/-! ### Scopes -/

/-- What the other may see of a share; a share without a scope shows everything. -/
structure ShareScope where
  kind : String
  tabs : Option (List String)
  windowDays : Option ℕ
  allowEventTypes : Option (List String)
  denyEventTypes : Option (List String)
  deriving DecidableEq

/-- `ALLOWED_SCOPE_TABS` -/
def allowedScopeTabs : List String :=
  ["location", "travel", "combat", "loadout", "stability", "commerce"]

/-- The longest window of a scope, in days. -/
def scopeMaxWindowDays : ℕ := 90

/-- The longest list in a scope. -/
def scopeMaxTypes : ℕ := 32

/-- A type that may stand in a list of a scope. -/
def validEventType (t : String) : Bool :=
  t ≠ "" && t.utf8ByteSize ≤ 64 && t.toList.all fun c => c.isLower || c.isDigit || c = '_'

/-- The error of a scope that is refused. -/
def validateScope (s : ShareScope) : Except String Unit :=
  if s.kind ∉ ["full", "timeline", "aggregates", "tabs"] then .error "invalid_scope_kind"
  else if s.windowDays.any fun days => days = 0 ∨ scopeMaxWindowDays < days then
    .error "invalid_scope_window"
  else if s.tabs.any fun tabs => scopeMaxTypes < tabs.length || tabs.any (· ∉ allowedScopeTabs) then
    .error "invalid_scope_tabs"
  else if [s.allowEventTypes, s.denyEventTypes].any fun list => list.any fun types =>
      scopeMaxTypes < types.length || types.any fun t => !validEventType t then
    .error "invalid_scope_types"
  else .ok ()

/-- The kinds of scope that show a timeline. -/
def scopeAllowsTimeline (s : ShareScope) : Bool := s.kind ∈ ["full", "timeline", "tabs"]

/-- The kinds of scope that show a summary. -/
def scopeAllowsAggregates (s : ShareScope) : Bool := s.kind ∈ ["full", "aggregates", "tabs"]

/-- The tighter of a window and that of the scope. -/
def clampDays (days : ℕ) (scope : Option ShareScope) : ℕ :=
  match scope.bind (·.windowDays) with
  | some w => min days w
  | none => days

/-- Does a type pass the lists of a scope? -/
def ShareScope.passes (s : ShareScope) (t : String) : Bool :=
  s.allowEventTypes.all (fun types => t ∈ types) && s.denyEventTypes.all fun types => t ∉ types

/-- The counts of the types that pass a scope, and their sum. -/
def applyEventTypeFilter (rows : List (String × ℕ)) (scope : Option ShareScope) :
    ℕ × List (String × ℕ) :=
  let rows := rows.filter fun r => scope.all (·.passes r.1)
  ((rows.map (·.2)).sum, rows)

/-! ### Scopes as they are stored -/

/-- A list of texts as JSON. -/
def strings (l : List String) : Value := .arr (l.map .str)

/-- A list of texts from JSON. -/
def ofStrings : Value → Option (List String)
  | .arr vs => vs.mapM Value.asStr
  | _ => none

/-- A number from JSON that fits 32 bits. -/
def ofU32 : Value → Option ℕ
  | .int n => if 0 ≤ n ∧ n < 2 ^ 32 then some n.toNat else none
  | _ => none

/-- A field that is left out when it is absent. -/
def optField {α : Type} (name : String) (f : α → Value) : Option α → List (String × Value)
  | none => []
  | some a => [(name, f a)]

/-- A scope as it is stored, without the fields it lacks. -/
def ShareScope.toValue (s : ShareScope) : Value :=
  .obj ([("kind", .str s.kind)] ++ optField "tabs" strings s.tabs ++
    optField "window_days" (fun n : ℕ => .int n) s.windowDays ++
    optField "allow_event_types" strings s.allowEventTypes ++
    optField "deny_event_types" strings s.denyEventTypes)

/-- A field that may be absent or null; the outer `none` is a field of the wrong shape. -/
def ofOptField {α : Type} (f : Value → Option α) (v : Value) (name : String) : Option (Option α) :=
  match v.get name with
  | none => some none
  | some .null => some none
  | some w => (f w).map some

/-- A scope as it is read from its column. -/
def scopeFromValue (v : Value) : Option ShareScope := do
  let kind ← (v.get "kind").bind Value.asStr
  let tabs ← ofOptField ofStrings v "tabs"
  let windowDays ← ofOptField ofU32 v "window_days"
  let allow ← ofOptField ofStrings v "allow_event_types"
  let deny ← ofOptField ofStrings v "deny_event_types"
  return ⟨kind, tabs, windowDays, allow, deny⟩

theorem ofStrings_strings (l : List String) : ofStrings (strings l) = some l := by
  unfold ofStrings strings
  induction l with
  | nil => rfl
  | cons s l ih =>
    simp only [List.map_cons, List.mapM_cons, ih]
    rfl

theorem ofU32_int {n : ℕ} (h : n < 2 ^ 32) : ofU32 (.int n) = some n := by
  have hn : 0 ≤ (n : ℤ) ∧ (n : ℤ) < 2 ^ 32 := by omega
  rw [ofU32, if_pos hn, Int.toNat_natCast]

/-- A field is read back as it was written. -/
theorem ofOptField_obj {α : Type} {f : Value → Option α} {g : α → Value} {name : String}
    {o : Option α} (hfg : ∀ a ∈ o, f (g a) = some a) (hnull : ∀ a, g a ≠ .null)
    {fields : List (String × Value)} (h : fields.lookup name = o.map g) :
    ofOptField f (.obj fields) name = some o := by
  have hget : (Value.obj fields).get name = o.map g := h
  unfold ofOptField
  rw [hget]
  cases o with
  | none => rfl
  | some a =>
    rw [Option.map_some]
    split
    · cases ‹some (g a) = none›
    · exact absurd (Option.some.inj ‹_›) (hnull a)
    · obtain rfl := Option.some.inj ‹some (g a) = some _›
      rw [hfg a rfl]
      rfl

theorem lookup_optField {α : Type} {name : String} {f : α → Value} {o : Option α} :
    (optField name f o).lookup name = o.map f := by
  cases o <;> simp [optField]

theorem lookup_optField_of_ne {α : Type} {name name' : String} {f : α → Value} {o : Option α}
    (h : name' ≠ name) : (optField name f o).lookup name' = none := by
  cases o with
  | none => rfl
  | some a => rw [optField, List.lookup_cons, beq_false_of_ne h]; rfl

/-- **A scope is read back as it was stored.** -/
theorem scopeFromValue_toValue {s : ShareScope} (h : ∀ w ∈ s.windowDays, w < 2 ^ 32) :
    scopeFromValue s.toValue = some s := by
  rcases s with ⟨kind, tabs, windowDays, allow, deny⟩
  have hstr : ∀ o : Option (List String), ∀ l ∈ o, ofStrings (strings l) = some l :=
    fun _ l _ => ofStrings_strings l
  have hnull : ∀ l, strings l ≠ .null := nofun
  unfold scopeFromValue ShareScope.toValue
  rw [ofOptField_obj (hstr tabs) hnull, ofOptField_obj (fun w hw => ofU32_int (h w hw)) nofun,
    ofOptField_obj (hstr allow) hnull, ofOptField_obj (hstr deny) hnull]
  · rfl
  all_goals simp [List.lookup_append, lookup_optField, lookup_optField_of_ne, List.lookup_cons]

theorem windowDays_le {s : ShareScope} (h : validateScope s = .ok ()) :
    ∀ w ∈ s.windowDays, 0 < w ∧ w ≤ scopeMaxWindowDays := by
  intro w hw
  unfold validateScope at h
  split_ifs at h with h1 h2 h3 h4
  rw [hw] at h2
  simp only [Option.any_some, decide_eq_true_eq, not_or, not_lt] at h2
  omega

/-! ### The stores -/

/-- What a share has beside its relation. -/
structure ShareMeta where
  ownerHandle : String
  recipientHandle : String
  expiresAt : Option ℤ
  note : Option String
  scope : Option Value

/-- The primary key: both handles, without regard to case. -/
def ShareMeta.key (m : ShareMeta) : List Char × List Char :=
  (lower m.ownerHandle, lower m.recipientHandle)

/-- What the handlers work on. `relations` holds `(owner, recipient)` for
`stats_record:<owner>#share_with_user@user:<recipient>`. -/
structure Stores where
  users : Users
  relations : Finset (String × String)
  metadata : Table ShareMeta.key
  events : List EventRow

/-- The calls of a request that may fail. -/
inductive Call where
  | findById | sharesPausedUntil | recentGrants | findByHandle | writeShare | upsert
  | checkPermission | findExpiry | deleteShare | deleteMeta | findScope | query
  deriving DecidableEq

/-- What a request for a share finds outside the stores. -/
structure Env where
  now : ℤ
  /-- Is the permission service configured? -/
  spicedb : Bool
  fails : Call → Bool
  isUuid : String → Bool
  rfc3339 : ℤ → String
  /-- How many rows the query for recent grants finds. -/
  recentGrants : ℕ
  /-- Does a view follow from something other than a share: the record is the viewer's own or public,
  or shared with one of their organisations? -/
  otherAccess : Bool

/-! ### Answers -/

/-- The counts of a record by type. -/
structure PublicSummaryResponse where
  claimedHandle : String
  total : ℕ
  byType : List (String × ℕ)
  deriving DecidableEq

/-- The counts of a record by day, over so many days. -/
structure PublicTimelineResponse where
  days : ℕ
  buckets : List (ℤ × ℕ)
  deriving DecidableEq

/-- Answers of the handlers of shares. -/
inductive Reply where
  | error (status : ℕ) (body : ApiErrorBody)
  /-- A 404 without a body. -/
  | notFound
  | granted (sharedWith : String)
  | revoked (revoked : Bool)
  | summary (body : PublicSummaryResponse)
  | timeline (body : PublicTimelineResponse)
  deriving DecidableEq

/-- The status of an answer. -/
def Reply.status : Reply → ℕ
  | .error status _ => status
  | .notFound => 404
  | _ => 200

/-- An error with a code and nothing else. -/
def err (status : ℕ) (code : String) : Reply := .error status ⟨code, none⟩

/-! ### Granting -/

/-- A grant as it is asked for. -/
structure ShareRequest where
  recipientHandle : String
  expiresAt : Option ℤ
  note : Option String
  scope : Option ShareScope

/-- The characters that a note may have. -/
def noteMaxLen : ℕ := 280

/-- So many grants within the window are too many. -/
def rapidGrantThreshold : ℕ := 15

/-- A refusal under a condition. -/
def refuse (c : Prop) [Decidable c] (reply : Reply) : Option Reply := if c then some reply else none

/-- The refusal of an account that has not shown that its handle is its own. -/
def requireRsiVerified (st : Stores) (env : Env) (auth : AuthenticatedUser) : Option Reply :=
  if !env.isUuid auth.sub then some (err 500 "bad_subject")
  else if env.fails .findById then some (err 500 "internal")
  else
    match findById st.users auth.sub with
    | some u => refuse (u.rsiVerifiedAt = none) (err 403 "rsi_handle_not_verified")
    | none => some (err 401 "unauthorized")

/-- Is the owner barred from sharing for the time being? -/
def sharesPaused (st : Stores) (env : Env) (auth : AuthenticatedUser) : Option Reply :=
  if env.fails .sharesPausedUntil then none
  else
    match (findByHandle st.users auth.preferredUsername).bind (·.sharesPausedUntil) with
    | some until_ => refuse (env.now < until_)
        (.error 403 ⟨"shares_paused", some ("paused until " ++ env.rfc3339 until_)⟩)
    | none => none

/-- The refusal of an owner who has granted too much of late; a count that fails is passed over. -/
def checkRapidGrant (env : Env) : Option Reply :=
  refuse (env.fails .recentGrants = false ∧ rapidGrantThreshold ≤ env.recentGrants)
    (err 429 "rate_limited_rapid_grant")

/-- The note as it is stored. -/
def noteOwned (note : Option String) : Option String := (note.map trim).filter (· ≠ "")

/-- The scope as it is stored: a full one is none. -/
def scopeOwned (scope : Option ShareScope) : Option ShareScope := scope.filter (·.kind ≠ "full")

/-- The refusal of a scope that is not valid. -/
def scopeRefusal (scope : Option ShareScope) : Option Reply :=
  match scope.elim (.ok ()) validateScope with
  | .error code => some (err 400 code)
  | .ok () => none

/-- What a grant is checked for before its recipient is looked up, in order. -/
def grantChecks (st : Stores) (env : Env) (auth : AuthenticatedUser) (req : ShareRequest) :
    List (Option Reply) :=
  [requireRsiVerified st env auth,
    sharesPaused st env auth,
    refuse (validateHandle (trim req.recipientHandle) = false) (err 400 "invalid_recipient_handle"),
    refuse (eqIgnoreAsciiCase (trim req.recipientHandle) auth.preferredUsername)
      (err 400 "cannot_share_with_self"),
    checkRapidGrant env,
    refuse (req.expiresAt.any (· ≤ env.now)) (err 400 "expires_at_in_past"),
    refuse ((noteOwned req.note).any (noteMaxLen < ·.length)) (err 400 "note_too_long"),
    scopeRefusal req.scope,
    refuse (env.fails .findByHandle) (err 500 "internal")]

/-- The answer of a grant that is refused, or else the account that it is for. -/
def grantee (st : Stores) (env : Env) (auth : AuthenticatedUser) (req : ShareRequest) :
    Except Reply User :=
  match (grantChecks st env auth req).findSome? id with
  | some reply => .error reply
  | none =>
    match findByHandle st.users (trim req.recipientHandle) with
    | none => .error (err 404 "recipient_not_found")
    | some u =>
      if !env.spicedb then .error (err 503 "spicedb_unavailable")
      else if env.fails .writeShare then .error (err 500 "spicedb_error")
      else .ok u

/-- The row of metadata that a grant writes. -/
def grantMeta (owner recipient : String) (req : ShareRequest) : ShareMeta where
  ownerHandle := owner
  recipientHandle := recipient
  expiresAt := req.expiresAt
  note := noteOwned req.note
  scope := (scopeOwned req.scope).map ShareScope.toValue

/-- `DO UPDATE SET`: the handles stay as they were. -/
def ShareMeta.set (new old : ShareMeta) : ShareMeta :=
  { old with expiresAt := new.expiresAt, note := new.note, scope := new.scope }

/-- The row of a share, new or rewritten. -/
def upsertMeta (t : Table ShareMeta.key) (m : ShareMeta) : Table ShareMeta.key :=
  t.upsert m m.set fun _ => rfl

/-- The table without the row of a share. -/
def deleteMeta (t : Table ShareMeta.key) (owner recipient : String) : Table ShareMeta.key :=
  t.deleteWhere fun m => m.key = (lower owner, lower recipient)

/-- The row of a share. -/
def findMeta (t : Table ShareMeta.key) (owner recipient : String) : Option ShareMeta :=
  (t.find? (lower owner, lower recipient)).map (·.2)

theorem findMeta_upsertMeta_self {t : Table ShareMeta.key} {m : ShareMeta} {owner recipient : String}
    (h : m.key = (lower owner, lower recipient)) :
    ∃ m', findMeta (upsertMeta t m) owner recipient = some m' ∧ m'.expiresAt = m.expiresAt ∧
      m'.note = m.note ∧ m'.scope = m.scope := by
  obtain ⟨m', hfind, hm'⟩ := @Table.map_find?_upsert_self _ _ _ _ t m m.set fun _ => rfl
  rw [h] at hfind
  refine ⟨m', hfind, ?_⟩
  rcases hm' with rfl | ⟨old, rfl⟩
  · exact ⟨rfl, rfl, rfl⟩
  · exact ⟨rfl, rfl, rfl⟩

theorem findMeta_upsertMeta_of_ne {t : Table ShareMeta.key} {m : ShareMeta} {owner recipient : String}
    (h : m.key ≠ (lower owner, lower recipient)) :
    findMeta (upsertMeta t m) owner recipient = findMeta t owner recipient :=
  Table.map_find?_upsert_of_ne (Ne.symm h)

theorem findMeta_deleteMeta {t : Table ShareMeta.key} {owner recipient owner' recipient' : String} :
    findMeta (deleteMeta t owner' recipient') owner recipient =
      if (lower owner, lower recipient) = (lower owner', lower recipient') then none
      else findMeta t owner recipient :=
  Table.map_find?_deleteWhere_key

/-- The two writes of a grant. The relation is there from the first on, whatever becomes of the
second. -/
def writeGrant (st : Stores) (env : Env) (owner recipient : String) (req : ShareRequest) : Stores :=
  { st with
    relations := insert (owner, recipient) st.relations
    metadata := if env.fails .upsert then st.metadata
      else upsertMeta st.metadata (grantMeta owner recipient req) }

/-- A grant, if nothing speaks against it. -/
def addShare (st : Stores) (env : Env) (auth : AuthenticatedUser) (req : ShareRequest) :
    Stores × Reply :=
  match grantee st env auth req with
  | .error reply => (st, reply)
  | .ok u => (writeGrant st env auth.preferredUsername u.claimedHandle req, .granted u.claimedHandle)

theorem refuse_eq_none {c : Prop} [Decidable c] {reply : Reply} : refuse c reply = none ↔ ¬ c := by
  simp [refuse]

theorem mem_refuse {c : Prop} [Decidable c] {reply r : Reply} (h : r ∈ refuse c reply) : r = reply := by
  unfold refuse at h
  split_ifs at h
  · exact (Option.some.inj h).symm
  · cases h

theorem scopeRefusal_eq_none {scope : Option ShareScope} :
    scopeRefusal scope = none ↔ ∀ s ∈ scope, validateScope s = .ok () := by
  cases scope with
  | none => exact iff_of_true rfl nofun
  | some s =>
    have hdef : scopeRefusal (some s) = match validateScope s with
      | .error code => some (err 400 code)
      | .ok () => none := rfl
    rw [hdef]
    cases h : validateScope s with
    | error code => simp [h]
    | ok _ => simp [h]

/-- A grant that is not refused is for an account with the handle of the request, and not for the
owner. -/
theorem grantee_eq_ok {st : Stores} {env : Env} {auth : AuthenticatedUser} {req : ShareRequest}
    {u : User} (h : grantee st env auth req = .ok u) :
    u ∈ st.users.contents ∧ lower u.claimedHandle = lower (trim req.recipientHandle) ∧
      lower u.claimedHandle ≠ lower auth.preferredUsername ∧
      (∀ s ∈ req.scope, validateScope s = .ok ()) ∧ env.spicedb = true := by
  unfold grantee at h
  cases hchecks : (grantChecks st env auth req).findSome? id with
  | some reply => simp [hchecks] at h
  | none =>
    have hnone := List.findSome?_eq_none_iff.mp hchecks
    simp only [grantChecks, List.forall_mem_cons, id_eq] at hnone
    obtain ⟨-, -, -, hself, -, -, -, hscope, -⟩ := hnone
    simp only [hchecks] at h
    cases hfind : findByHandle st.users (trim req.recipientHandle) with
    | none => simp [hfind] at h
    | some v =>
      simp only [hfind] at h
      split_ifs at h with hspice hwrite
      obtain rfl := Except.ok.inj h
      obtain ⟨hmem, hkey⟩ := findByHandle_eq_some.mp hfind
      refine ⟨hmem, hkey, fun he => refuse_eq_none.mp hself ?_, scopeRefusal_eq_none.mp hscope,
        by simpa using hspice⟩
      exact eqIgnoreAsciiCase_iff.mpr (hkey.symm.trans he)

theorem grantChecks_ne {st : Stores} {env : Env} {auth : AuthenticatedUser} {req : ShareRequest} :
    ∀ o ∈ grantChecks st env auth req, ∀ r ∈ o, r.status ≠ 200 := by
  have hrefuse : ∀ {c : Prop} [Decidable c] {reply : Reply}, reply.status ≠ 200 →
      ∀ r ∈ refuse c reply, r.status ≠ 200 := fun h r hr => mem_refuse hr ▸ h
  simp only [grantChecks, List.forall_mem_cons, List.not_mem_nil, false_imp_iff, implies_true,
    and_true]
  refine ⟨fun r hr => ?_, fun r hr => ?_, hrefuse (by decide), hrefuse (by decide),
    hrefuse (by decide), hrefuse (by decide), hrefuse (by decide), fun r hr => ?_,
    hrefuse (by decide)⟩
  · unfold requireRsiVerified at hr
    split_ifs at hr
    · exact Option.some.inj hr ▸ by decide
    · exact Option.some.inj hr ▸ by decide
    · split at hr
      · exact hrefuse (by decide) r hr
      · exact Option.some.inj hr ▸ by decide
  · unfold sharesPaused at hr
    split_ifs at hr
    · cases hr
    · split at hr
      · exact mem_refuse hr ▸ by simp [Reply.status]
      · cases hr
  · unfold scopeRefusal at hr
    split at hr
    · exact Option.some.inj hr ▸ by simp [err, Reply.status]
    · cases hr

theorem grantee_error {st : Stores} {env : Env} {auth : AuthenticatedUser} {req : ShareRequest}
    {reply : Reply} (h : grantee st env auth req = .error reply) : reply.status ≠ 200 := by
  unfold grantee at h
  cases hchecks : (grantChecks st env auth req).findSome? id with
  | some r =>
    obtain ⟨o, ho, hr⟩ := List.exists_of_findSome?_eq_some hchecks
    simp only [hchecks] at h
    exact Except.error.inj h ▸ grantChecks_ne o ho r hr
  | none =>
    simp only [hchecks] at h
    cases hfind : findByHandle st.users (trim req.recipientHandle) with
    | none =>
      simp only [hfind] at h
      exact Except.error.inj h ▸ by decide
    | some v =>
      simp only [hfind] at h
      split_ifs at h
      · exact Except.error.inj h ▸ by decide
      · exact Except.error.inj h ▸ by decide

/-- A grant either is refused and changes nothing, or is answered with the recipient's handle. -/
theorem addShare_cases (st : Stores) (env : Env) (auth : AuthenticatedUser) (req : ShareRequest) :
    (∃ reply, addShare st env auth req = (st, reply) ∧ reply.status ≠ 200) ∨
      ∃ u, grantee st env auth req = .ok u ∧ addShare st env auth req =
        (writeGrant st env auth.preferredUsername u.claimedHandle req, .granted u.claimedHandle) := by
  unfold addShare
  cases h : grantee st env auth req with
  | error reply => exact Or.inl ⟨reply, rfl, grantee_error h⟩
  | ok u => exact Or.inr ⟨u, rfl, rfl⟩

/-! ### Revoking -/

/-- The relation goes first, then the row; that the row stays is passed over. -/
def deleteShare (st : Stores) (env : Env) (auth : AuthenticatedUser) (recipientHandle : String) :
    Stores × Reply :=
  if !validateHandle (trim recipientHandle) then (st, err 400 "invalid_recipient_handle")
  else if !env.spicedb then (st, err 503 "spicedb_unavailable")
  else if env.fails .deleteShare then (st, err 500 "spicedb_error")
  else
    let metadata := if env.fails .deleteMeta then st.metadata
      else deleteMeta st.metadata auth.preferredUsername (trim recipientHandle)
    ({ st with
      relations := st.relations.erase (auth.preferredUsername, trim recipientHandle)
      metadata := metadata }, .revoked true)

/-! ### Reading -/

/-- May the viewer see the record of the owner? `none` is a failed check. -/
def checkView (st : Stores) (env : Env) (owner viewer : String) : Option Bool :=
  if env.fails .checkPermission then none
  else some ((owner, viewer) ∈ st.relations || env.otherAccess)

/-- What the check of an expired share does to it. -/
def lazyRevoke (st : Stores) (env : Env) (owner viewer : String) : Stores :=
  { st with
    relations := if env.fails .deleteShare then st.relations
      else st.relations.erase (owner, viewer)
    metadata := if env.fails .deleteMeta then st.metadata else deleteMeta st.metadata owner viewer }

/-- The check with the expiry of the share. A share without metadata, or whose metadata cannot be
read, does not expire. -/
def checkViewWithExpiry (st : Stores) (env : Env) (owner viewer : String) : Stores × Option Bool :=
  match checkView st env owner viewer with
  | none => (st, none)
  | some false => (st, some false)
  | some true =>
    if env.fails .findExpiry then (st, some true)
    else
      match (findMeta st.metadata owner viewer).bind (·.expiresAt) with
      | none => (st, some true)
      | some expiresAt =>
        if env.now < expiresAt then (st, some true)
        else (lazyRevoke st env owner viewer, some false)

/-- The scope of a share, read anew after the check. -/
def scopeOf (st : Stores) (env : Env) (owner viewer : String) : Option ShareScope :=
  if env.fails .findScope then none
  else ((findMeta st.metadata owner viewer).bind (·.scope)).bind scopeFromValue

/-- An answer to one who may view; to others the record is not there. -/
def renderOr404 (check : Option Bool) (then_ : Reply) : Reply :=
  match check with
  | some true => then_
  | some false => .notFound
  | none => err 503 "spicedb_unavailable"

/-- The summary of a record, as far as the scope shows it. -/
def renderSummaryScoped (st : Stores) (env : Env) (handle : String) (scope : Option ShareScope) :
    Reply :=
  if env.fails .query then err 500 "query_failed"
  else
    let (total, byType) := summaryForHandleShared st.events handle
    let (total, byType) :=
      if scope.isSome then applyEventTypeFilter byType scope else (total, byType)
    .summary ⟨handle, total, byType⟩

/-- The timeline of a record, as far as the scope shows it. -/
def renderTimelineScoped (st : Stores) (env : Env) (handle : String) (days : ℕ)
    (scope : Option ShareScope) : Reply :=
  if env.fails .query then err 500 "query_failed"
  else
    let rows := timelineSharedFiltered st.events handle env.now days
      (scope.bind (·.allowEventTypes)) (scope.bind (·.denyEventTypes))
    .timeline ⟨days, buildTimelineBuckets rows env.now days⟩

/-- A read of another's record, if the kind of the scope allows it. -/
def friendRead (st : Stores) (env : Env) (auth : AuthenticatedUser) (handle : String)
    (allows : ShareScope → Bool) (render : Stores → Option ShareScope → Reply) : Stores × Reply :=
  if !env.spicedb then (st, err 503 "spicedb_unavailable")
  else
    let (st, check) := checkViewWithExpiry st env handle auth.preferredUsername
    let scope := scopeOf st env handle auth.preferredUsername
    if scope.any (!allows ·) then (st, .notFound)
    else (st, renderOr404 check (render st scope))

/-- Another's summary. -/
def friendSummary (st : Stores) (env : Env) (auth : AuthenticatedUser) (handle : String) :
    Stores × Reply :=
  if !validateHandle handle then (st, .notFound)
  else
    friendRead st env auth handle scopeAllowsAggregates fun st scope =>
      renderSummaryScoped st env handle scope

/-- Another's timeline. -/
def friendTimeline (st : Stores) (env : Env) (auth : AuthenticatedUser) (handle : String)
    (days : Option ℕ) : Stores × Reply :=
  if !validateHandle handle then (st, .notFound)
  else
    match resolveTimelineDays days with
    | none => (st, err 400 "invalid_days")
    | some days =>
      friendRead st env auth handle scopeAllowsTimeline fun st scope =>
        renderTimelineScoped st env handle (clampDays days scope) scope

/-! ### Previews -/

/-- The scope of a preview, as text; `fromStr` reads it. -/
def parseScopeParam (fromStr : String → Option ShareScope) (raw : Option String) :
    Except Reply (Option ShareScope) :=
  match raw with
  | none => .ok none
  | some s =>
    if trim s = "" then .ok none
    else
      match fromStr (trim s) with
      | some scope => .ok (some scope)
      | none => .error (err 400 "invalid_scope")

/-- The owner's own summary under a scope that is tried out. -/
def previewSummary (fromStr : String → Option ShareScope) (st : Stores) (env : Env)
    (auth : AuthenticatedUser) (scope : Option String) : Reply :=
  match parseScopeParam fromStr scope with
  | .error reply => reply
  | .ok scope =>
    if scope.any (!scopeAllowsAggregates ·) then .summary ⟨auth.preferredUsername, 0, []⟩
    else renderSummaryScoped st env auth.preferredUsername scope

/-- The owner's own timeline under a scope that is tried out. -/
def previewTimeline (fromStr : String → Option ShareScope) (st : Stores) (env : Env)
    (auth : AuthenticatedUser) (days : Option ℕ) (scope : Option String) : Reply :=
  match parseScopeParam fromStr scope with
  | .error reply => reply
  | .ok scope =>
    match resolveTimelineDays days with
    | none => err 400 "invalid_days"
    | some days =>
      if scope.any (!scopeAllowsTimeline ·) then .timeline ⟨clampDays days scope, []⟩
      else renderTimelineScoped st env auth.preferredUsername (clampDays days scope) scope

end StarStats.Server.Sharing
