import StarStats.Client.Hangar
import StarStats.Server.Donate
import StarStats.Server.FirstAddress
import StarStats.Server.NewSubmissions
import StarStats.Server.OwnRecord
import StarStats.Server.ParserSubmissions
import StarStats.Server.RsiBadges
import StarStats.Server.ShareReports
import StarStats.Server.SmtpConfig

/-! # The routes that take any token

The handlers that do not ask what kind of token a request carries, over all stores of the server: for the
account, its record and shares, its organisations, its reports, orders, submissions and snapshots. Most
turn a request away before they write anything; those that write more than once may also fail in
between. -/

namespace StarStats.Server.Routes

open StarStats.Lib.Json StarStats.Lib.Text StarStats.Lib.Tables
open StarStats.Client.Hangar (HangarShip HangarPushRequest maxFieldChars maxShipsPerPush)
open StarStats.Server.Auth StarStats.Server.Accounts StarStats.Server.Ingest
open StarStats.Server.Credentials (Account Casing)
open StarStats.Server.NewSubmissions (SubmissionRow NewSubmission parseStatus)
open StarStats.Server.Orgs (Org World validateSlug)
open StarStats.Server.OwnRecord (Site SiteEnv)
open StarStats.Server.RsiBadges (Badge)
open StarStats.Server.Spicedb (OrgRole)
open StarStats.Server.StaffRoles (StaffRole)
open StarStats.Server.Submissions (SubmissionStatus Flag autoFlagThreshold)
open StarStats.Tray.Review (ParserSubmission)

/-! ### The stores -/

/-- What was fetched for an account, and when. -/
structure Snapshot (α : Type) where
  capturedAt : ℤ
  content : α

/-- What the profile page of a handle shows. -/
structure RsiProfile where
  displayName : Option String
  enlistmentDate : Option ℤ
  location : Option String
  badges : List Badge
  bio : Option String
  primaryOrgSummary : Option String

/-- One of the organisations that RSI shows a citizen in. -/
structure RsiOrg where
  sid : String
  name : String
  rank : Option String
  isMain : Bool

/-- How a report was resolved, and by whom. -/
structure Resolution where
  resolvedAt : ℤ
  resolvedBy : String
  resolutionNote : Option String

/-- What the registry is kept of. -/
inductive ReferenceCategory where
  | vehicle
  | weapon
  | item
  | location
  deriving DecidableEq

/-- A name of the game, and how it is shown. -/
structure ReferenceEntry where
  category : ReferenceCategory
  className : String
  displayName : String
  metadata : Value

/-- A row of `reference_registry`. -/
structure ReferenceRow where
  entry : ReferenceEntry
  updatedAt : ℤ

/-- All stores; the columns of `users` are in the site and in `logins`. The rows of snapshots go by the id
of the account, votes and flags by the ids of the submission and of the account. -/
structure Stores where
  site : Site
  logins : FirstAddress.Store
  staffRoles : String → List StaffRole
  reports : List ShareReports.ShareReport
  resolutions : List (String × Resolution)
  orders : Donate.Stores
  submissions : List SubmissionRow
  votes : List (String × String)
  flags : List (String × Flag)
  shapes : ParserSubmissions.Submissions Char
  hangars : List (String × Snapshot (List HangarShip))
  profiles : List (String × Snapshot RsiProfile)
  rsiOrgs : List (String × Snapshot (List RsiOrg))
  reference : List ReferenceRow
  smtp : SmtpConfig.Site

/-- The newest snapshot of an account: `ORDER BY captured_at DESC LIMIT 1`. -/
def latestForUser {α : Type} (rows : List (String × Snapshot α)) (userId : String) :
    Option (Snapshot α) :=
  (sortBy (fun s => -s.capturedAt) ((rows.filter (·.1 = userId)).map (·.2))).head?

/-- The rows with a snapshot in the place of those of its account. -/
def putSnapshot {α : Type} (rows : List (String × Snapshot α)) (userId : String) (s : Snapshot α) :
    List (String × Snapshot α) :=
  rows.filter (·.1 ≠ userId) ++ [(userId, s)]

/-- The stores with what a handler of organisations or shares has made of theirs. -/
def Stores.setWorld (s : Stores) (w : World) : Stores :=
  { s with site := { s.site.set w with orgs := w.orgs } }

/-- The orders of the other accounts. -/
def ordersWithout (userId : String) (o : Donate.Orders) : Donate.Orders where
  rows := o.rows.filter (·.userId ≠ userId)
  ids := o.ids.filter _
  unique := o.unique.filter _

/-- The rows of an account that is deleted go with it. -/
def Stores.cascade (s : Stores) (userId : String) : Stores :=
  { s with
    logins := { s.logins with
      accounts := s.logins.accounts.deleteWhere (·.id = userId)
      codes := Function.update s.logins.codes userId none }
    staffRoles := Function.update s.staffRoles userId []
    orders := { s.orders with
      orders := ordersWithout userId s.orders.orders
      supporters := s.orders.supporters.deleteWhere (·.userId = userId) }
    submissions := s.submissions.filter (·.submitterId ≠ userId)
    votes := s.votes.filter fun v => v.2 ≠ userId ∧ ∀ r ∈ s.submissions, r.id = v.1 → r.submitterId ≠ userId
    flags := s.flags.filter fun f =>
      f.2.userId ≠ userId ∧ ∀ r ∈ s.submissions, r.id = f.1 → r.submitterId ≠ userId
    hangars := s.hangars.filter (·.1 ≠ userId)
    profiles := s.profiles.filter (·.1 ≠ userId)
    rsiOrgs := s.rsiOrgs.filter (·.1 ≠ userId) }

/-! ### The environment -/

/-- The calls of these handlers that may fail, besides those of their own environments. -/
inductive Call where
  | updatePassword | setVerificationToken | sendMail | audit | staffRoles | findByEmail | setPendingEmail
  | listForOwner | checkView | listMembers | supporter | putSnapshot | latestForUser
  | listSubmissions | findSubmission | vote | touch | flag | withdraw
  deriving DecidableEq

/-- What RSI answers: a page, a 404, or nothing of use. -/
inductive RsiOutcome (α : Type) where
  | found (a : α)
  | handleNotFound
  | upstreamUnavailable

/-- What becomes of a page that is found. -/
def RsiOutcome.map {α β : Type} (f : α → β) : RsiOutcome α → RsiOutcome β
  | .found a => .found (f a)
  | .handleNotFound => .handleNotFound
  | .upstreamUnavailable => .upstreamUnavailable

/-- Why a request is turned away; some answers have no body. -/
structure Rejection where
  status : ℕ
  body : Option ApiErrorBody

/-- What the handlers ask of the outside, for one request. -/
structure Env where
  site : SiteEnv
  reports : ShareReports.Env
  orders : Donate.Env
  create : NewSubmissions.Env
  casing : Casing
  fails : Call → Bool
  verifyPassword : String → String → Bool
  hashPassword : String → Option String
  /-- The token that is generated for a mail. -/
  token : String
  /-- The id that is drawn for an order, and the id and the address that the payment service gives it. -/
  orderId : String
  createOrder : Option (String × String)
  rsiProfile : String → RsiOutcome RsiProfile
  rsiOrgs : String → RsiOutcome (List RsiOrg)
  rowFails : ℕ → Bool

def Env.now (env : Env) : ℤ := env.site.now

/-- Does the text read as an id? Ids that do stand in one spelling, in requests as in rows. -/
def Env.isUuid (env : Env) (s : String) : Bool := env.site.world.share.isUuid s

/-! ### Answers -/

/-- The account as its owner sees it. -/
structure MeResponse where
  userId : String
  email : String
  claimedHandle : String
  emailVerified : Bool
  pendingEmail : Option String
  rsiVerified : Bool
  totpEnabled : Bool
  staffRoles : List StaffRole

/-- A submission as a viewer sees it. -/
structure SubmissionView where
  row : SubmissionRow
  submitterHandle : String
  voteCount : ℕ
  flagCount : ℕ
  viewerVoted : Bool
  viewerFlagged : Bool

/-- What a request that is served is answered with. -/
inductive Data where
  | record (a : OwnRecord.Answer)
  | passwordChanged
  | verificationSent
  | me (response : MeResponse)
  | pendingEmail (email : String)
  | orgs (orgs : List Org)
  | org (org : Org) (members : Finset (OrgRole × String)) (yourRole : Option OrgRole)
  | reported (response : ShareReports.ReportShareResponse)
  | checkout (orderId checkoutUrl : String)
  | supporter (status : Option Donate.SupporterStatus)
  | hangar (snapshot : Snapshot (List HangarShip))
  | profile (snapshot : Snapshot RsiProfile)
  | rsiOrgs (snapshot : Snapshot (List RsiOrg))
  | submissions (views : List SubmissionView)
  | submission (view : SubmissionView)
  | created (submission : NewSubmissions.Submission)
  | voted (voted : Bool) (voteCount : ℕ)
  | flagged (flagCount : ℕ) (status : String) (escalated : Bool)
  | taken (accepted deduped : ℕ) (ids : List String)

/-- Either why a request is turned away, or what it is answered with. -/
abbrev Reply := Except Rejection Data

/-- Turn a request away with a code and a detail. -/
def rejectWith {α : Type} (status : ℕ) (code : String) (detail : Option String) : Except Rejection α :=
  .error ⟨status, some ⟨code, detail⟩⟩

/-- Turn a request away with a code. -/
def reject {α : Type} (status : ℕ) (code : String) : Except Rejection α := rejectWith status code none

/-- Turn a request away under a condition. -/
def check (c : Bool) (status : ℕ) (code : String) : Except Rejection Unit :=
  if c then reject status code else pure ()

/-- A 404 without a body under a condition. -/
def checkFound (c : Bool) : Except Rejection Unit := if c then .error ⟨404, none⟩ else pure ()

/-- A value that has to be there. -/
def ofOption {α : Type} (status : ℕ) (code : String) : Option α → Except Rejection α
  | none => reject status code
  | some a => pure a

section Handlers
variable (s : Stores) (env : Env) (auth : AuthenticatedUser)

/-- Where all checks come before the first write, nothing is written for a request that is turned away. -/
def handled {α : Type} (r : Except Rejection (Stores × α)) : Stores × Except Rejection α :=
  match r with
  | .error e => (s, .error e)
  | .ok (s', data) => (s', .ok data)

/-- The entry of a handler in the audit log; one that cannot be written is passed over. -/
def audited (action : String) (user : User) : Stores :=
  if env.fails .audit then s
  else
    { s with site.srv.audit := s.site.srv.audit ++
      [⟨some user.id, some user.claimedHandle, action, .obj [("user_id", .str user.id)]⟩] }

/-! ### The account -/

/-- The row of the account of a token. -/
def resolveUser : Except Rejection (User × Account) := do
  check (!env.isUuid auth.sub) 500 "bad_subject"
  check (env.site.world.share.fails .findById) 500 "internal"
  let user ← ofOption 401 "user_not_found" (findById s.site.users auth.sub)
  let account ← ofOption 401 "user_not_found" (s.logins.accounts.findById auth.sub)
  return (user, account)

/-- The bytes that a new password needs. -/
def minPasswordLen : ℕ := 12

/-- The old password is checked, and the new one stored as its hash. -/
def changePassword (currentPassword newPassword : String) : Except Rejection (Stores × Data) := do
  let (user, account) ← resolveUser s env auth
  check (!env.verifyPassword currentPassword account.passwordHash) 401 "invalid_credentials"
  if newPassword.utf8ByteSize < minPasswordLen then
    rejectWith 400 "password_too_short" (some ("minimum " ++ toString minPasswordLen ++ " characters"))
  else
    let newPhc ← ofOption 500 "internal" (env.hashPassword newPassword)
    check (env.fails .updatePassword) 500 "internal"
    let accounts := s.logins.accounts.set user.id (fun a => { a with
      passwordHash := newPhc
      passwordChangedAt := env.now }) fun _ => rfl
    return (audited { s with logins.accounts := accounts } env "user.password_changed" user, .passwordChanged)

/-- A new token for the address of the account, stored and then mailed. -/
def resendVerification : Except Rejection (Stores × Data) := do
  let (user, account) ← resolveUser s env auth
  check account.emailVerifiedAt.isSome 409 "already_verified"
  let codes ← ofOption 500 "internal" (if env.fails .setVerificationToken then none
    else FirstAddress.setVerificationToken ⟨env.now, false⟩ s.logins user.id env.token)
  let mails := if env.fails .sendMail then s.logins.mails
    else s.logins.mails ++ [(account.email, env.token)]
  return (audited { s with logins := { s.logins with codes := codes, mails := mails } } env
    "user.email_verification_resent" user, .verificationSent)

/-- The roles are left out where they cannot be read. -/
def getMe : Except Rejection (Stores × Data) := do
  let (user, account) ← resolveUser s env auth
  return (s, .me
    { userId := user.id
      email := account.email
      claimedHandle := user.claimedHandle
      emailVerified := account.emailVerifiedAt.isSome
      pendingEmail := account.pendingEmail
      rsiVerified := user.rsiVerifiedAt.isSome
      totpEnabled := account.totpEnabledAt.isSome
      staffRoles := if env.fails .staffRoles then [] else s.staffRoles user.id })

/-- The new address is noted with a token, which is mailed to it. -/
def emailChangeStart (newEmail : String) : Except Rejection (Stores × Data) := do
  let email := EmailChange.addressOf env.casing newEmail
  check (email = "" || !contains email "@") 400 "invalid_email"
  check (!env.isUuid auth.sub) 500 "bad_subject"
  -- A lookup that fails is passed over.
  let other := if env.fails .findByEmail then none else s.logins.accounts.findByEmail env.casing email
  check (other.any (·.id ≠ auth.sub)) 409 "email_taken"
  check (env.fails .setPendingEmail) 500 "internal"
  let accounts := s.logins.accounts.setPendingEmail env.casing auth.sub email env.token
    (env.now + EmailChange.emailChangeTtl)
  let mails := if env.fails .sendMail then s.logins.changeMails
    else s.logins.changeMails ++ [(email, env.token)]
  return ({ s with logins := { s.logins with accounts := accounts, changeMails := mails } },
    .pendingEmail email)

/-! ### The record -/

/-- Answers of the handlers of organisations and shares, apart from what they turn away. -/
def ofDirectory : Orgs.Answer → Reply
  | .share (.error status body) => .error ⟨status, some body⟩
  | .share .notFound => .error ⟨404, none⟩
  | .notFound => .error ⟨404, none⟩
  | .error status code => reject status code
  | a => .ok (.record (.directory a))

/-- Answers of the handlers of the record, apart from what they turn away. -/
def ofAnswer : OwnRecord.Answer → Reply
  | .unauthorized _ => reject 401 "unauthorized"
  | .error status code => reject status code
  | .queryFailed => reject 500 "query_failed"
  | .directory a => ofDirectory a
  | .ingested (.error status body) => .error ⟨status, some body⟩
  | a => .ok (.record a)

/-- A request of the record; what refers to an account goes with it. -/
def record (req : OwnRecord.Request) : Stores × Reply :=
  let (site, answer) := OwnRecord.handler s.site env.site auth req
  match answer with
  | .directory .accountDeleted => ({ s.cascade auth.sub with site := site }, ofAnswer answer)
  | _ => ({ s with site := site }, ofAnswer answer)

/-! ### Organisations and reports -/

/-- What a handler of organisations answers, over all stores. -/
def inWorld (r : World × Orgs.Answer) : Stores × Reply := (s.setWorld r.1, ofDirectory r.2)

/-- The organisations that the caller has made, the newest first. -/
def listOrgs : Except Rejection (Stores × Data) := do
  check (!env.isUuid auth.sub) 401 "invalid_subject"
  check (env.fails .listForOwner) 500 "internal"
  return (s, .orgs (s.site.orgs.contents.reverse.filter (·.ownerUserId = auth.sub)))

/-- The highest role of the caller among the members. -/
def yourRole (members : Finset (OrgRole × String)) (handle : String) : Option OrgRole :=
  [OrgRole.owner, .admin, .member].find? fun role =>
    decide (∃ m ∈ members, m.1 = role ∧ eqIgnoreAsciiCase m.2 handle = true)

/-- An organisation with its members, for those who may view it. -/
def getOrg (slug : String) : Except Rejection (Stores × Data) := do
  checkFound (!validateSlug slug)
  check (!env.site.world.share.spicedb) 503 "spicedb_unavailable"
  check (env.site.world.fails .findBySlug) 500 "internal"
  checkFound (Orgs.findBySlug s.site.orgs slug).isNone
  let org ← ofOption 404 "" (Orgs.findBySlug s.site.orgs slug)
  check (env.fails .checkView) 500 "spicedb_error"
  checkFound (!s.site.rel.orgView org.slug auth.preferredUsername)
  check (env.fails .listMembers) 500 "spicedb_error"
  let members := (s.site.rel.roles.filter (·.1 = org.slug)).image (·.2)
  return (s, .org org members (yourRole members auth.preferredUsername))

/-- A report on a share, over all stores. -/
def reportShare (body : ShareReports.ReportShareRequest) : Stores × Reply :=
  match ShareReports.reportShare ⟨s.site.world.stores, s.reports⟩ env.reports auth body with
  | (_, .error (.error status body)) => (s, .error ⟨status, some body⟩)
  | (_, .error _) => (s, .error ⟨404, none⟩)
  | (desk, .ok response) =>
    ({ s with site.users := desk.stores.users, reports := desk.reports }, .ok (.reported response))

/-! ### Orders -/

/-- The insert of an order refers to the account. -/
def ordersEnv : Donate.Env :=
  { env.orders with
    isUuid := env.isUuid
    fails := fun call => env.orders.fails call ||
      (call = .createPending && (findById s.site.users auth.sub).isNone) }

/-- Answers of a checkout. -/
def ofCheckout : Donate.Reply → Reply
  | .error status body => .error ⟨status, some body⟩
  | .checkout orderId checkoutUrl => .ok (.checkout orderId checkoutUrl)
  | .ack _ => reject 500 "internal"

/-- The row of an order comes first, and stays where the payment service fails. -/
def checkout (req : Donate.CheckoutRequest) : Stores × Reply :=
  match Donate.checkoutPending s.orders (ordersEnv s env auth) auth req env.orderId with
  | (orders, some reply) => ({ s with orders := orders }, ofCheckout reply)
  | (orders, none) =>
    match env.createOrder with
    | none => ({ s with orders := orders }, reject 502 "upstream_error")
    | some (revolutOrderId, checkoutUrl) =>
      let (orders, reply) := Donate.checkoutAttach orders (ordersEnv s env auth) env.orderId revolutOrderId
        checkoutUrl
      ({ s with orders := orders }, ofCheckout reply)

/-- The caller's own row of the supporters. -/
def supporterMe : Except Rejection (Stores × Data) := do
  check (!env.isUuid auth.sub) 401 "invalid_subject"
  check (env.fails .supporter) 500 "supporter_failed"
  return (s, .supporter ((s.orders.supporters.find? auth.sub).map (·.2)))

/-! ### Snapshots -/

/-- What is wrong with a ship, the `i`-th of a push. -/
def invalidShip (i : ℕ) (ship : HangarShip) : Option String :=
  let tooLong := fun (label : String) (v : Option String) =>
    if v.any (maxFieldChars < ·.length) then
      some ("ship[" ++ toString i ++ "]." ++ label ++ " exceeds " ++ toString maxFieldChars ++ " chars")
    else none
  if trim ship.name = "" then some ("ship[" ++ toString i ++ "].name is empty")
  else
    [tooLong "name" (some ship.name), tooLong "manufacturer" ship.manufacturer,
      tooLong "pledge_id" ship.pledgeId, tooLong "kind" ship.kind].findSome? id

/-- The first thing that is wrong with the ships of a push. -/
def validateShips (ships : List HangarShip) : Option String :=
  ships.zipIdx.findSome? fun (ship, i) => invalidShip i ship

/-- The row refers to the account. -/
def hangarPush (body : HangarPushRequest) : Except Rejection (Stores × Data) := do
  if body.schemaVersion ≠ 1 then
    rejectWith 400 "unsupported_schema_version"
      (some ("got " ++ toString body.schemaVersion ++ ", server speaks 1"))
  else if maxShipsPerPush < body.ships.length then
    rejectWith 400 "ships_too_large" (some ("got " ++ toString body.ships.length ++ " ships, limit is " ++
      toString maxShipsPerPush))
  else
    match validateShips body.ships with
    | some reason => rejectWith 400 "invalid_ship" (some reason)
    | none =>
      check (!env.isUuid auth.sub) 500 "bad_subject"
      check (env.fails .putSnapshot || (findById s.site.users auth.sub).isNone) 500 "internal"
      let snapshot := ⟨env.now, body.ships⟩
      return ({ s with hangars := putSnapshot s.hangars auth.sub snapshot }, .hangar snapshot)

/-- The newest snapshot of the caller. -/
def snapshotMe {α : Type} (rows : List (String × Snapshot α)) (code detail : String)
    (data : Snapshot α → Data) : Except Rejection (Stores × Data) := do
  check (!env.isUuid auth.sub) 500 "bad_subject"
  check (env.fails .latestForUser) 500 "internal"
  match latestForUser rows auth.sub with
  | none => rejectWith 404 code (some detail)
  | some snapshot => return (s, data snapshot)

/-- The caller's hangar as it was last pushed. -/
def hangarMe : Except Rejection (Stores × Data) :=
  snapshotMe s env auth s.hangars "no_hangar_yet" "push a snapshot via POST /v1/me/hangar first" .hangar

/-- The caller's profile as it was last fetched. -/
def profileMe : Except Rejection (Stores × Data) :=
  snapshotMe s env auth s.profiles "no_profile_yet"
    "call POST /v1/auth/rsi/profile/refresh to capture a snapshot" .profile

/-- The caller's organisations as they were last fetched. -/
def orgsMe : Except Rejection (Stores × Data) :=
  snapshotMe s env auth s.rsiOrgs "no_orgs_yet"
    "call POST /v1/auth/rsi/orgs/refresh to capture a snapshot" .rsiOrgs

/-- `PROFILE_REFRESH_COOLDOWN` and `RSI_ORGS_REFRESH_COOLDOWN`, in microseconds. -/
def refreshCooldown : ℤ := 3600 * 1000000

/-- A refresh of what RSI shows of the caller, at most once an hour; `what` is named in an answer. -/
def refresh {α : Type} (rows : List (String × Snapshot α)) (what : String)
    (fetch : String → RsiOutcome α) (save : String → Snapshot α → Stores) (data : Snapshot α → Data) :
    Except Rejection (Stores × Data) := do
  check (!env.isUuid auth.sub) 500 "bad_subject"
  check (env.site.world.share.fails .findById) 500 "internal"
  let user ← ofOption 401 "unauthorized" (findById s.site.users auth.sub)
  if user.rsiVerifiedAt = none then
    rejectWith 422 "rsi_handle_not_verified"
      (some ("verify your RSI handle (POST /v1/auth/rsi/start) before refreshing " ++ what))
  else
    check (env.fails .latestForUser) 500 "internal"
    let next := (latestForUser rows auth.sub).map (·.capturedAt + refreshCooldown)
    if next.any (env.now < ·) then
      rejectWith 429 "refresh_too_soon" (next.map fun next =>
        "wait " ++ toString ((next - env.now) / 1000000 / 60 + 1) ++ "m")
    else
      match fetch user.claimedHandle with
      | .handleNotFound => rejectWith 404 "rsi_handle_not_found" (some "RSI returned 404 for that handle")
      | .upstreamUnavailable =>
        rejectWith 503 "rsi_unavailable" (some "RSI is unreachable; please try again shortly")
      | .found content =>
        check (env.fails .putSnapshot) 500 "internal"
        return (save auth.sub ⟨env.now, content⟩, data ⟨env.now, content⟩)

/-- A refresh keeps the older profiles. -/
def profileRefresh : Except Rejection (Stores × Data) :=
  refresh s env auth s.profiles "the profile" env.rsiProfile
    (fun userId snapshot => { s with profiles := s.profiles ++ [(userId, snapshot)] }) .profile

/-- At most one is the main one, the first. -/
def demote : Bool → List RsiOrg → List RsiOrg
  | _, [] => []
  | seen, org :: orgs => { org with isMain := org.isMain && !seen } :: demote (seen || org.isMain) orgs

/-- The organisations whose texts are not too long, with one main one. -/
def sanitiseOrgs (orgs : List RsiOrg) : List RsiOrg :=
  demote false (orgs.filter fun org => org.sid.length ≤ maxFieldChars && org.name.length ≤ maxFieldChars &&
    org.rank.all (·.length ≤ maxFieldChars))

/-- A refresh replaces the organisations of before. -/
def orgsRefresh : Except Rejection (Stores × Data) :=
  refresh s env auth s.rsiOrgs "orgs" (fun handle => (env.rsiOrgs handle).map sanitiseOrgs)
    (fun userId snapshot => { s with rsiOrgs := putSnapshot s.rsiOrgs userId snapshot }) .rsiOrgs

/-! ### Submissions -/

/-- The ids of a request for a submission. -/
def checkIds (id : String) : Except Rejection Unit := do
  check (!env.isUuid id) 400 "invalid_id"
  check (!env.isUuid auth.sub) 401 "invalid_subject"

/-- The row of a submission, joined with its submitter, for a viewer. -/
def viewOf (viewer : String) (row : SubmissionRow) : Option SubmissionView :=
  (findById s.site.users row.submitterId).map fun user =>
    { row := row
      submitterHandle := user.claimedHandle
      voteCount := (s.votes.filter (·.1 = row.id)).length
      flagCount := (s.flags.filter (·.1 = row.id)).length
      viewerVoted := (row.id, viewer) ∈ s.votes
      viewerFlagged := s.flags.any fun f => f.1 = row.id && f.2.userId = viewer }

/-- A submission by its id, for a viewer. -/
def findSubmission (viewer id : String) : Option SubmissionView :=
  (s.submissions.find? (·.id = id)).bind (viewOf s viewer)

/-- The order of a list of submissions: by the last update, then by id. -/
def newestFirst (rows : List SubmissionRow) : List SubmissionRow :=
  rows.mergeSort fun a b => b.updatedAt < a.updatedAt || (a.updatedAt = b.updatedAt && b.id ≤ a.id)

/-- `LIST_LIMIT_MAX` -/
def listLimitMax : ℕ := 100

/-- A page of the submissions, of one status or of the caller's own. -/
def listSubmissions (status : Option String) (mine : Bool) (limit offset : ℕ) :
    Except Rejection (Stores × Data) := do
  check (!env.isUuid auth.sub) 401 "invalid_subject"
  check (status.any fun s => (parseStatus s).isNone) 400 "invalid_status"
  check (env.fails .listSubmissions) 500 "list_failed"
  let rows := s.submissions.filter fun r =>
    status.all (r.status = ·) && (!mine || r.submitterId = auth.sub)
  return (s, .submissions
    ((((newestFirst rows).filterMap (viewOf s auth.sub)).drop offset).take (min (max limit 1) listLimitMax)))

/-- The text fields of a new submission, as they are sent. -/
structure CreateSubmissionRequest where
  pattern : String
  proposedLabel : String
  description : String
  sampleLine : String
  logSource : String

/-- A text that is neither empty nor too long. -/
def fits (maxLen : ℕ) (text : String) : Bool := text ≠ "" && text.utf8ByteSize ≤ maxLen

/-- The submission of a request that passes the checks. -/
def newSubmission (req : CreateSubmissionRequest) : Except Rejection NewSubmission := do
  let logSource := env.casing.toLowercase (trim req.logSource)
  check (!env.isUuid auth.sub) 401 "invalid_subject"
  check (!fits 512 (trim req.pattern)) 400 "invalid_pattern"
  check (!fits 64 (trim req.proposedLabel) || !Queries.isValidEventType (trim req.proposedLabel)) 400
    "invalid_label"
  check (!fits 2000 (trim req.description)) 400 "invalid_description"
  check (!fits 2000 (trim req.sampleLine)) 400 "invalid_sample_line"
  check (logSource ∉ ["live", "ptu", "eptu"]) 400 "invalid_log_source"
  return ⟨auth.sub, trim req.pattern, trim req.proposedLabel, trim req.description, trim req.sampleLine,
    logSource⟩

/-- The tables as the creation of a submission sees them. -/
def database : NewSubmissions.Database where
  users := s.site.users.contents.map fun u =>
    ⟨u.id, fun column => if column = "claimed_handle" then some u.claimedHandle else none⟩
  submissions := s.submissions

/-- The row is inserted, and then the handle of its submitter looked up. -/
def createSubmission (req : CreateSubmissionRequest) : Stores × Reply :=
  match newSubmission env auth req with
  | .error e => (s, .error e)
  | .ok new =>
    let (db, result) := NewSubmissions.create (database s) env.create new
    ({ s with submissions := db.submissions },
      match result with
      | .error _ => reject 500 "create_failed"
      | .ok submission => .ok (.created submission))

/-- One submission, for any caller. -/
def submissionDetail (id : String) : Except Rejection (Stores × Data) := do
  checkIds env auth id
  check (env.fails .findSubmission) 500 "detail_failed"
  let view ← ofOption 404 "not_found" (findSubmission s auth.sub id)
  return (s, .submission view)

/-- The rows that refer to a submission and to the caller can be inserted. -/
def refersToRows (id : String) : Bool :=
  s.submissions.any (·.id = id) && (findById s.site.users auth.sub).isSome

/-- The statements of a vote, and whether they all went through. -/
def castVote (id : String) (vote : Bool) : Stores × Bool :=
  if env.fails .vote then (s, false)
  else if !vote then ({ s with votes := s.votes.filter (· ≠ (id, auth.sub)) }, true)
  else if (id, auth.sub) ∈ s.votes then (s, true)
  else if !refersToRows s auth id then (s, false)
  else
    let s := { s with votes := s.votes ++ [(id, auth.sub)] }
    if env.fails .touch then (s, false)
    else
      ({ s with submissions := s.submissions.map fun r =>
        if r.id = id then { r with updatedAt := env.now } else r }, true)

/-- The answer is read anew after the write. -/
def reread (id code : String) (data : SubmissionView → Data) : Reply :=
  if env.fails .findSubmission then reject 500 code
  else
    match findSubmission s auth.sub id with
    | none => reject 404 "not_found"
    | some view => .ok (data view)

/-- A vote, or a vote taken back. -/
def voteSubmission (id : String) (vote : Bool) : Stores × Reply :=
  match checkIds env auth id with
  | .error e => (s, .error e)
  | .ok () =>
    match castVote s env auth id vote with
    | (s, false) => (s, reject 500 "vote_failed")
    | (s, true) =>
      (s, reread s env auth id "vote_failed" fun view => .voted view.viewerVoted view.voteCount)

/-- The reason of a flag as it is stored. -/
def reasonOwned (reason : Option String) : Option String := (reason.map trim).filter (· ≠ "")

/-- The bytes that the reason of a flag may have. -/
def flagReasonMaxLen : ℕ := 1000

/-- The caller has flagged the submission before. -/
def hasFlagged (id : String) : Bool := s.flags.any fun f => f.1 = id && f.2.userId = auth.sub

/-- A flag up to the end of its transaction, with the count of all flags and whether it escalated. -/
def castFlag (id : String) (reason : Option String) : Except Rejection (Stores × ℕ × Bool) := do
  let reason := reasonOwned reason
  checkIds env auth id
  check (reason.any fun (r : String) => flagReasonMaxLen < r.utf8ByteSize) 400 "reason_too_long"
  check (env.fails .flag) 500 "flag_failed"
  let status ← ofOption 404 "not_found" ((s.submissions.find? (·.id = id)).bind (parseStatus ·.status))
  if hasFlagged s auth id then return (s, (s.flags.filter (·.1 = id)).length, false)
  else
    check (findById s.site.users auth.sub).isNone 500 "flag_failed"
    let s := { s with flags := s.flags ++ [(id, ⟨auth.sub, reason⟩)] }
    let count := (s.flags.filter (·.1 = id)).length
    if status = .review ∧ autoFlagThreshold ≤ count then
      return ({ s with submissions := s.submissions.map fun r =>
        if r.id = id then { r with status := "flagged", updatedAt := env.now } else r }, count, true)
    else return (s, count, false)

/-- A flag, after which the submission is read for the answer. -/
def flagSubmission (id : String) (reason : Option String) : Stores × Reply :=
  match castFlag s env auth id reason with
  | .error e => (s, .error e)
  | .ok (s, count, escalated) =>
    (s, reread s env auth id "flag_failed" fun view => .flagged count view.row.status escalated)

/-- A withdrawal up to the end of its transaction. -/
def castWithdrawal (id : String) : Except Rejection Stores := do
  checkIds env auth id
  check (env.fails .withdraw) 500 "withdraw_failed"
  let row ← ofOption 404 "not_found" (s.submissions.find? (·.id = id))
  check (row.submitterId ≠ auth.sub) 403 "not_submitter"
  check (parseStatus row.status ≠ some .review) 400 "bad_state"
  return { s with submissions := s.submissions.map fun r =>
    if r.id = id then { r with status := "withdrawn", updatedAt := env.now } else r }

/-- A submitter's own withdrawal, after which the submission is read for the answer. -/
def withdrawSubmission (id : String) : Stores × Reply :=
  match castWithdrawal s env auth id with
  | .error e => (s, .error e)
  | .ok s => (s, reread s env auth id "withdraw_failed" fun view =>
      .submission { view with viewerVoted := false, viewerFlagged := false })

/-! ### Shapes -/

/-- The rows of a batch one after the other, up to one that is refused: the table, the counts of rows that
were new and that were not, their ids, and whether all rows went through. -/
def writeRows (fails : ℕ → Bool) : ℕ → ParserSubmissions.Submissions Char → ℕ → ℕ → List String →
    List (ParserSubmission Char) → ParserSubmissions.Submissions Char × Option Data
  | _, t, accepted, deduped, ids, [] => (t, some (.taken accepted deduped ids))
  | i, t, accepted, deduped, ids, sub :: rest =>
    match if fails i then none else ParserSubmissions.upsertRow t sub with
    | none => (t, none)
    | some t' =>
      let key := (ParserSubmissions.newRow sub).key
      let id := ((t'.find? key).map fun a => toString a.1).toList
      if key ∈ t.keys then writeRows fails (i + 1) t' accepted (deduped + 1) (ids ++ id) rest
      else writeRows fails (i + 1) t' (accepted + 1) deduped (ids ++ id) rest

/-- The caller is not looked at. -/
def submitShapes (batch : List (ParserSubmission Char)) : Stores × Reply :=
  match ParserSubmissions.refusal ParserSubmissions.payloadBytes batch with
  | some (.error status code) => (s, reject status code)
  | some (.taken accepted deduped ids) => (s, .ok (.taken accepted deduped ids))
  | none =>
    match writeRows env.rowFails 0 s.shapes 0 0 [] batch with
    | (t, none) => ({ s with shapes := t }, reject 500 "submission_write_failed")
    | (t, some data) => ({ s with shapes := t }, .ok data)

end Handlers

end StarStats.Server.Routes
