import Mathlib.Data.Finset.Card
import StarStats.Server.GrantGate
import StarStats.Server.Routes

/-! # The routes of the staff

The handlers that ask for a role, once the caller has it, over all stores of the server: pages over the
tables, and what moderators and administrators change. Most write once, after their checks; the settings of
the mailer, the roles and the organisations are read or cleaned up in calls of their own, and one that fails
leaves what was written before. -/

namespace StarStats.Server.Routes

open StarStats.Lib.Json StarStats.Lib.Text StarStats.Lib.Tables
open StarStats.Server.Auth StarStats.Server.Accounts StarStats.Server.Ingest
open StarStats.Server.Credentials (Account)
open StarStats.Server.GrantGate (ilike)
open StarStats.Server.NewSubmissions (SubmissionRow parseStatus)
open StarStats.Server.Orgs (Org)
open StarStats.Server.Sharing (ShareMeta)
open StarStats.Server.ShareReports (ShareReport ShareReportStatus)
open StarStats.Server.SmtpConfig (SmtpConfigRequest SmtpConfigResponse)
open StarStats.Server.Spicedb (OrgRole Relations)
open StarStats.Server.StaffRoles (StaffRole)
open StarStats.Server.Submissions (SubmissionStatus SubmissionTransition)

/-! ### Requests -/

/-- The filters of a page of the audit log. -/
structure AuditListParams where
  actor : Option String
  action : Option String
  since : Option ℤ
  until_ : Option ℤ
  limit : Option ℤ
  offset : Option ℤ

/-- A request to a handler of the staff. -/
inductive StaffRequest where
  | listOrgs (q : Option String) (limit offset : Option ℤ)
  | getOrg (slug : String)
  | deleteOrg (slug : String)
  | listReferenceCategories
  | listReferenceEntries (category : String) (q : Option String) (limit offset : Option ℕ)
  | listAudit (params : AuditListParams)
  | getOverview
  | getScopeHistogram
  | getReports (status : Option String) (limit offset : Option ℤ)
  | resolveReport (id outcome : String) (note : Option String)
  | getUserSharingContext (handle : String)
  | accept (id : String)
  | rejectSubmission (id reason : String)
  | dismissFlag (id : String)
  | queue (status : Option String) (limit offset : ℕ)
  | listUsers (q : Option String) (limit offset : Option ℤ)
  | getUser (id : String)
  | grantRole (id role : String) (reason : Option String)
  | revokeRole (id role : String)
  | getSmtp
  | putSmtp (req : SmtpConfigRequest)
  | testSmtp (toAddress : Option String)

/-- The calls of these handlers that may fail, the first being that for the roles of the caller. -/
inductive StaffCall where
  | callerRoles | listAll | listOrgMembers (slug : String) | audit | categorySummaries | listCategory
  | listAudit (action : Option String) | activeShareCounts | topActiveGranters | scopeHistogram
  | listReports | resolve | listByOwner | listByRecipient | transition | listAdminQueue | listUsers
  | findById | rolesOf (userId : String) | changeRole | rolesAfter | getSmtp | putSmtp
  deriving DecidableEq

/-- What the handlers of the staff ask of the outside, for one request. -/
structure StaffEnv where
  routes : Env
  fails : StaffCall → Bool
  /-- When the rows of the audit log were written, by their numbers. -/
  occurredAt : ℕ → ℤ
  smtp : SmtpConfig.Given
  nonce : String
  /-- What goes wrong with a mail that is sent as a test. -/
  sendError : Option String

/-! ### Answers -/

/-- Some rows of a table, and whether more may come after them. -/
structure Page (α : Type) where
  items : List α
  hasMore : Bool

/-- An organisation with the count of its members. -/
structure AdminOrg where
  org : Org
  memberCount : ℕ

/-- What the registry has of a category. -/
structure CategorySummary where
  category : ReferenceCategory
  entryCount : ℕ
  latestUpdatedAt : Option ℤ

/-- A row of the audit log, without its hashes. -/
structure AuditEntryDto where
  seq : ℕ
  occurredAt : ℤ
  entry : AuditEntry

/-- Counts over all shares; rows of the log are counted for the last 30 days. -/
structure AdminSharingOverview where
  activeSharesTotal : ℕ
  activeSharesOutbound : ℕ
  activeSharesWithExpiry : ℕ
  topGranters : List (String × ℕ)
  totalGrants30d : ℕ
  totalRevocations30d : ℕ
  totalViews30d : ℕ

/-- How many shares have a scope of each kind, and how many of them show each tab. -/
structure ScopeHistogram where
  full : ℕ
  timeline : ℕ
  aggregates : ℕ
  tabs : ℕ
  tabUsage : List (String × ℕ)

/-- A report, and how it was resolved if it was. -/
structure ShareReportRow where
  report : ShareReport
  resolution : Option Resolution

/-- A share, seen from one of its sides. -/
structure UserShareEdge where
  counterpartyHandle : String
  expiresAt : Option ℤ
  note : Option String
  scopeKind : Option String

/-- What a moderator sees of the sharing of a user. -/
structure UserSharingContext where
  handle : String
  outboundShares : List UserShareEdge
  inboundShares : List UserShareEdge
  reportsFiled : List ShareReportRow
  reportsAgainst : List ShareReportRow

/-- An account as the staff sees it. -/
structure AdminUser where
  userId : String
  email : String
  claimedHandle : String
  emailVerified : Bool
  rsiVerified : Bool
  totpEnabled : Bool
  staffRoles : List String

/-- What a request of the staff is answered with. -/
inductive StaffData where
  | orgs (page : Page AdminOrg)
  | org (org : AdminOrg)
  | orgDeleted
  | categories (summaries : List CategorySummary)
  | entries (category : ReferenceCategory) (entries : List ReferenceEntry) (total : ℕ) (q : Option String)
  | audit (page : Page AuditEntryDto)
  | overview (o : AdminSharingOverview)
  | histogram (h : ScopeHistogram)
  | reports (items : List ShareReportRow)
  | report (row : ShareReportRow)
  | sharingContext (c : UserSharingContext)
  | transition (id : String) (t : SubmissionTransition)
  | queue (page : Page SubmissionView)
  | users (page : Page AdminUser)
  | user (user : AdminUser)
  | roles (changed : Bool) (staffRoles : List String)
  | smtp (response : SmtpConfigResponse)
  | sentTo (address : String)

/-- Either why a request is turned away, or what it is answered with. -/
abbrev StaffReply := Except Rejection StaffData

/-! ### Pages -/

/-- A limit within its bounds. -/
def clampLimit (limit : Option ℤ) (default max_ : ℤ) : ℕ := (min (max (limit.getD default) 1) max_).toNat

/-- So many rows from the offset on; a full page may have more after it. -/
def pageOf {α : Type} (rows : List α) (limit offset : Option ℤ) : Page α :=
  let items := (rows.drop (max (offset.getD 0) 0).toNat).take (clampLimit limit 50 200)
  ⟨items, clampLimit limit 50 200 ≤ items.length⟩

/-- A text without what is blank at its ends, if anything is left. -/
def trimmed (text : Option String) : Option String := (text.map trim).filter (· ≠ "")

/-- Some of the texts hold the one that is searched; a blank one is in all. -/
def found (q : Option String) (texts : List String) : Bool :=
  (trimmed q).all fun q => texts.any (ilike ("%" ++ q ++ "%"))

section Handlers
variable (s : Stores) (env : StaffEnv) (auth : AuthenticatedUser)

/-- The entry of a handler of the staff in the audit log; one that cannot be written is passed over. -/
def staffAudited (action : String) (payload : Value) : Stores :=
  if env.fails .audit then s
  else
    { s with site.srv.audit := s.site.srv.audit ++
      [⟨some auth.sub, some auth.preferredUsername, action, payload⟩] }

/-! ### Organisations -/

/-- The members by their names; none are counted where they cannot be read. -/
def memberCountFor (slug : String) : ℕ :=
  if !env.routes.site.world.share.spicedb || env.fails (.listOrgMembers slug) then 0
  else ((s.site.rel.roles.filter (·.1 = slug)).image (·.2.2)).card

/-- A page of the organisations, the newest first. -/
def listOrgsAdmin (q : Option String) (limit offset : Option ℤ) : Except Rejection (Stores × StaffData) := do
  check (env.fails .listAll) 500 "internal"
  let orgs := s.site.orgs.contents.reverse.filter fun o => found q [o.name, o.slug]
  let page := pageOf orgs limit offset
  return (s, .orgs ⟨page.items.map fun o => ⟨o, memberCountFor s env o.slug⟩, page.hasMore⟩)

/-- The organisation of a slug. -/
def findOrg (slug : String) : Except Rejection Org := do
  check (env.routes.site.world.fails .findBySlug) 500 "internal"
  ofOption 404 "org_not_found" (Orgs.findBySlug s.site.orgs slug)

/-- One organisation. -/
def getOrgAdmin (slug : String) : Except Rejection (Stores × StaffData) := do
  let org ← findOrg s env slug
  return (s, .org ⟨org, memberCountFor s env org.slug⟩)

/-- The relations after the cleanup of an organisation, as far as it comes. -/
def relationsWithout (slug : String) : Relations :=
  if !env.routes.site.world.share.spicedb then s.site.rel
  else (Relations.deleteAllOrgRelationships (fun role => env.routes.site.world.fails (.deleteRole role))
    (env.routes.site.world.fails .deleteShares) s.site.rel slug).1

/-- The relations go before the row, and what is left of them is let go. -/
def deleteOrgAdmin (slug : String) : Stores × StaffReply :=
  match findOrg s env slug with
  | .error e => (s, .error e)
  | .ok org =>
    let s := { s with site.rel := relationsWithout s env org.slug }
    if env.routes.site.world.fails .deleteOrg then (s, reject 500 "internal")
    else
      (staffAudited { s with site.orgs := s.site.orgs.deleteWhere (·.id = org.id) } env auth
        "admin.org.deleted"
        (.obj [("org_id", .str org.id), ("slug", .str org.slug), ("name", .str org.name)]), .ok .orgDeleted)

/-! ### The registry -/

/-- All categories, in their order. -/
def ReferenceCategory.all : List ReferenceCategory := [.vehicle, .weapon, .item, .location]

/-- Any other text is no category. -/
def ReferenceCategory.parse : String → Option ReferenceCategory
  | "vehicle" => some .vehicle
  | "weapon" => some .weapon
  | "item" => some .item
  | "location" => some .location
  | _ => none

/-- Every category with the count of its rows, and the time of the latest. -/
def listReferenceCategories : Except Rejection (Stores × StaffData) := do
  check (env.fails .categorySummaries) 500 "internal"
  return (s, .categories (ReferenceCategory.all.map fun category =>
    let rows := s.reference.filter (·.entry.category = category)
    ⟨category, rows.length, ((rows.map (·.updatedAt)).mergeSort fun a b => b ≤ a).head?⟩))

/-- A page of the entries of a category whose names hold the text, whatever its case. -/
def listReferenceEntries (category : String) (q : Option String) (limit offset : Option ℕ) :
    Except Rejection (Stores × StaffData) := do
  let category ← ofOption 400 "unknown_category" (ReferenceCategory.parse category)
  check (env.fails .listCategory) 500 "internal"
  let lowered := env.routes.casing.toLowercase
  let needle := (q.map fun q => lowered (trim q)).filter (· ≠ "")
  let entries := ((s.reference.map (·.entry)).filter (·.category = category)).mergeSort
    fun a b => a.className ≤ b.className
  let filtered := entries.filter fun e => needle.all fun n =>
    contains (lowered e.className) n || contains (lowered e.displayName) n
  return (s, .entries category
    ((filtered.drop (offset.getD 0)).take (min (max (limit.getD 100) 1) 500)) filtered.length needle)

/-! ### The audit log -/

/-- The rows of the log, the latest first. -/
def auditRows : List AuditEntryDto :=
  (s.site.srv.audit.zipIdx.map fun (entry, i) => ⟨i + 1, env.occurredAt (i + 1), entry⟩).reverse

/-- The conditions of a query over the log. -/
def AuditListParams.selects (p : AuditListParams) (r : AuditEntryDto) : Bool :=
  (trimmed p.actor).all (fun a => r.entry.actorHandle.any (ilike ("%" ++ a ++ "%"))) &&
    (trimmed p.action).all (r.entry.action = ·) && p.since.all (· ≤ r.occurredAt) &&
    p.until_.all (r.occurredAt ≤ ·)

/-- A page of the log. -/
def listAudit (params : AuditListParams) : Except Rejection (Stores × StaffData) := do
  check (env.fails (.listAudit none)) 500 "audit_query_failed"
  return (s, .audit (pageOf ((auditRows s env).filter params.selects) params.limit params.offset))

/-! ### Shares and reports -/

/-- The shares that have not expired. -/
def activeShares : List ShareMeta :=
  s.site.metadata.contents.filter fun m => m.expiresAt.all (env.routes.now < ·)

/-- The owners with the most shares; one spelling stands for all of a name. -/
def topActiveGranters (limit : ℕ) : List (String × ℕ) :=
  let owners := (activeShares s env).map (·.ownerHandle)
  let counts := (owners.map lower).dedup.map fun key =>
    let names := owners.filter (lower · = key)
    ((names.mergeSort fun a b => a ≤ b).headD "", names.length)
  (counts.mergeSort fun a b => b.2 < a.2 || (a.2 = b.2 && a.1 ≤ b.1)).take limit

/-- The rows of an action since a time, up to the longest page there is. -/
def countAuditAction (action : String) (since : ℤ) : ℕ :=
  min ((auditRows s env).countP fun r => r.entry.action = action && since ≤ r.occurredAt) 500

/-- Counts over the shares, and over the last 30 days of the log. -/
def getOverview : Except Rejection (Stores × StaffData) := do
  check (env.fails .activeShareCounts) 500 "sharing_overview_failed"
  check (env.fails .topActiveGranters) 500 "sharing_overview_failed"
  check (env.fails (.listAudit (some "share.created"))) 500 "sharing_overview_failed"
  check (env.fails (.listAudit (some "share.revoked"))) 500 "sharing_overview_failed"
  check (env.fails (.listAudit (some "share.viewed"))) 500 "sharing_overview_failed"
  let since := env.routes.now - 30 * 86400 * 1000000
  return (s, .overview
    { activeSharesTotal := (activeShares s env).length
      activeSharesOutbound := (activeShares s env).length
      activeSharesWithExpiry := (activeShares s env).countP (·.expiresAt.isSome)
      topGranters := topActiveGranters s env 20
      totalGrants30d := countAuditAction s env "share.created" since
      totalRevocations30d := countAuditAction s env "share.revoked" since
      totalViews30d := countAuditAction s env "share.viewed" since })

/-- `COALESCE(scope->>'kind', 'full')`, where that is the text of a string. -/
def kindOf (m : ShareMeta) : Option String :=
  match m.scope.bind (Value.get "kind") with
  | none | some .null => some "full"
  | some v => v.asStr

/-- The tabs of a scope that shows tabs. -/
def tabsOf (m : ShareMeta) : List String :=
  match m.scope.bind (Value.get "tabs") with
  | some (.arr vs) => if kindOf m = some "tabs" then vs.filterMap Value.asStr else []
  | _ => []

/-- What the shares show. -/
def getScopeHistogram : Except Rejection (Stores × StaffData) := do
  check (env.fails .scopeHistogram) 500 "sharing_overview_failed"
  let shares := activeShares s env
  let count := fun (kind : String) => shares.countP (kindOf · = some kind)
  let tabs := shares.flatMap tabsOf
  return (s, .histogram
    { full := count "full"
      timeline := count "timeline"
      aggregates := count "aggregates"
      tabs := count "tabs"
      tabUsage := (tabs.dedup.mergeSort fun a b => a ≤ b).map fun t => (t, tabs.count t) })

/-- The reports that a filter asks for: open ones, unless it says otherwise. -/
def reportFilter : Option String → Option (Option ShareReportStatus)
  | none | some "" | some "open" => some (some .opened)
  | some "dismissed" => some (some .dismissed)
  | some "share_revoked" => some (some .shareRevoked)
  | some "user_suspended" => some (some .userSuspended)
  | some "all" => some none
  | some _ => none

/-- A report with how it was resolved. -/
def reportRow (r : ShareReport) : ShareReportRow := ⟨r, s.resolutions.lookup r.id⟩

/-- A page of the reports. -/
def getReports (status : Option String) (limit offset : Option ℤ) :
    Except Rejection (Stores × StaffData) := do
  let status ← ofOption 400 "invalid_status" (reportFilter status)
  check (env.fails .listReports) 500 "sharing_overview_failed"
  let rows := ShareReports.list env.routes.reports s.reports status
    (min (max (limit.getD 50) 1) 200) (max (offset.getD 0) 0)
  return (s, .reports (rows.map (reportRow s)))

/-- The outcomes that a moderator may give. -/
def parseOutcome : String → Option ShareReportStatus
  | "dismissed" => some .dismissed
  | "share_revoked" => some .shareRevoked
  | "user_suspended" => some .userSuspended
  | _ => none

/-- `RESOLUTION_NOTE_MAX_LEN` -/
def resolutionNoteMaxLen : ℕ := 500

/-- A path of a report is that of an id. -/
def checkPath (id : String) : Except Rejection Unit :=
  if env.routes.isUuid id then pure () else .error ⟨400, none⟩

/-- An open report is resolved, once. -/
def resolveReport (id outcome : String) (note : Option String) : Except Rejection (Stores × StaffData) := do
  checkPath env id
  let status ← ofOption 400 "invalid_outcome" (parseOutcome outcome)
  check ((trimmed note).any (resolutionNoteMaxLen < ·.length)) 400 "note_too_long"
  check (env.fails .resolve) 500 "sharing_overview_failed"
  check (s.reports.all (·.id ≠ id)) 404 "not_found"
  let row ← ofOption 409 "already_resolved" (s.reports.find? fun r => r.id = id && r.status = .opened)
  let s := { s with
    reports := s.reports.map fun r =>
      if r.id = id ∧ r.status = .opened then { r with status := status } else r
    resolutions := (id, ⟨env.routes.now, auth.preferredUsername, trimmed note⟩) :: s.resolutions }
  return (staffAudited s env auth "share.report_resolved"
      (.obj [("report_id", .str id), ("outcome", .str outcome), ("owner_handle", .str row.ownerHandle),
        ("recipient_handle", .str row.recipientHandle)]),
    .report (reportRow s { row with status := status }))

/-- A share as one side of it sees the other. -/
def edgeOf (counterparty : ShareMeta → String) (m : ShareMeta) : UserShareEdge :=
  ⟨counterparty m, m.expiresAt, m.note, (m.scope.bind (Value.get "kind")).bind Value.asStr⟩

/-- The shares of a user, and the reports by the user or on the user's shares. -/
def getUserSharingContext (handle : String) : Except Rejection (Stores × StaffData) := do
  let needle := trim handle
  check (needle = "") 400 "invalid_handle"
  check (env.fails .listByOwner) 500 "sharing_overview_failed"
  check (env.fails .listByRecipient) 500 "sharing_overview_failed"
  check (env.fails .listReports) 500 "sharing_overview_failed"
  let reports := ShareReports.list env.routes.reports s.reports none 500 0
  let reported := fun (party : ShareReport → String) =>
    ((reports.filter fun r => eqIgnoreAsciiCase (party r) needle).take 50).map (reportRow s)
  let shares := fun (side other : ShareMeta → String) =>
    (s.site.metadata.contents.filter fun m => lower (side m) = lower needle).map (edgeOf other)
  return (s, .sharingContext
    { handle := handle
      outboundShares := shares (·.ownerHandle) (·.recipientHandle)
      inboundShares := shares (·.recipientHandle) (·.ownerHandle)
      reportsFiled := reported (·.reporterHandle)
      reportsAgainst := reported (·.ownerHandle) })

/-! ### Submissions -/

/-- The text that a status is stored as. -/
def statusText : SubmissionStatus → String
  | .review => "review"
  | .accepted => "accepted"
  | .shipped => "shipped"
  | .rejected => "rejected"
  | .withdrawn => "withdrawn"
  | .flagged => "flagged"

/-- A change of status by the staff; a reason is stored, and none leaves the one before. -/
def adminTransition (id : String) (target : SubmissionStatus) (reason : Option String)
    (legalPriors : List SubmissionStatus) : Except Rejection (Stores × SubmissionTransition) := do
  check (env.fails .transition) 500 "transition_failed"
  let row ← ofOption 404 "not_found" (s.submissions.find? (·.id = id))
  let prior ← ofOption 404 "not_found" (parseStatus row.status)
  check (prior ∉ legalPriors) 409 "illegal_transition"
  if prior = target then return (s, ⟨prior, target, false⟩)
  else
    return ({ s with submissions := s.submissions.map fun r =>
      if r.id = id then
        { r with
          status := statusText target
          rejectionReason := reason.orElse fun _ => r.rejectionReason
          updatedAt := env.routes.now }
      else r }, ⟨prior, target, true⟩)

/-- A transition with its entry in the log, if it has changed anything. -/
def moderate (action id : String) (target : SubmissionStatus) (reason : Option String)
    (legalPriors : List SubmissionStatus) : Except Rejection (Stores × StaffData) := do
  let (s, t) ← adminTransition s env id target reason legalPriors
  let payload := .obj ([("submission_id", .str id), ("previous_status", .str (statusText t.previousStatus)),
    ("new_status", .str (statusText t.newStatus))] ++ (reason.map fun r => ("reason", Value.str r)).toList)
  return (if t.wasChanged then staffAudited s env auth action payload else s, .transition id t)

/-- A submission in review or flagged is accepted. -/
def accept (id : String) : Except Rejection (Stores × StaffData) := do
  checkIds env.routes auth id
  moderate s env auth "admin.submission.accept" id .accepted none [.review, .flagged, .accepted]

/-- `REJECT_REASON_MAX_LEN` -/
def rejectReasonMaxLen : ℕ := flagReasonMaxLen

/-- A submission in review or flagged is rejected, with a reason. -/
def rejectSubmission (id reason : String) : Except Rejection (Stores × StaffData) := do
  checkIds env.routes auth id
  check (trim reason = "") 400 "missing_reason"
  check (rejectReasonMaxLen < (trim reason).utf8ByteSize) 400 "reason_too_long"
  moderate s env auth "admin.submission.reject" id .rejected (some (trim reason))
    [.review, .flagged, .rejected]

/-- A flagged submission is back in review; its flags stay. -/
def dismissFlag (id : String) : Except Rejection (Stores × StaffData) := do
  checkIds env.routes auth id
  moderate s env auth "admin.submission.dismiss_flag" id .review none [.flagged, .review]

/-- The states that a filter of the queue asks for. -/
def parseQueueFilter : Option String → Option (List String)
  | none => some ["review"]
  | some status =>
    if eqIgnoreAsciiCase status "review" then some ["review"]
    else if eqIgnoreAsciiCase status "flagged" then some ["flagged"]
    else if eqIgnoreAsciiCase status "all" then some ["review", "flagged"]
    else none

/-- A page of what waits for a moderator; one row more tells whether there are more. -/
def queue (status : Option String) (limit offset : ℕ) : Except Rejection (Stores × StaffData) := do
  let statuses ← ofOption 400 "invalid_status" (parseQueueFilter status)
  check (env.fails .listAdminQueue) 500 "queue_failed"
  let limit := min (max limit 1) 100
  let rows := (newestFirst (s.submissions.filter (·.status ∈ statuses))).filterMap (viewOf s auth.sub)
  let page := (rows.drop offset).take (limit + 1)
  let items := (page.take limit).map fun view => { view with viewerVoted := false, viewerFlagged := false }
  return (s, .queue ⟨items, limit < page.length⟩)

/-! ### Users -/

/-- The rows of `users`, the newest first. -/
def userRows : List (User × Account) :=
  s.site.users.contents.reverse.filterMap fun u => (s.logins.accounts.findById u.id).map (u, ·)

/-- A row of `users` with the roles. -/
def adminUserOf (row : User × Account) : AdminUser where
  userId := row.1.id
  email := row.2.email
  claimedHandle := row.1.claimedHandle
  emailVerified := row.2.emailVerifiedAt.isSome
  rsiVerified := row.1.rsiVerifiedAt.isSome
  totpEnabled := row.2.totpEnabledAt.isSome
  staffRoles := StaffRoles.asStrings (s.staffRoles row.1.id)

/-- The users of a page, by handle or address. -/
def listUsers (q : Option String) (limit offset : Option ℤ) : Page (User × Account) :=
  pageOf ((userRows s).filter fun row => found q [row.1.claimedHandle, row.2.email]) limit offset

/-- The roles are read for each user of the page. -/
def listUsersAdmin (q : Option String) (limit offset : Option ℤ) :
    Except Rejection (Stores × StaffData) := do
  check (env.fails .listUsers) 500 "internal"
  let page := listUsers s q limit offset
  check (page.items.any fun row => env.fails (.rolesOf row.1.id)) 500 "staff_roles_lookup_failed"
  return (s, .users ⟨page.items.map (adminUserOf s), page.hasMore⟩)

/-- One user. -/
def getUserAdmin (id : String) : Except Rejection (Stores × StaffData) := do
  check (!env.routes.isUuid id) 404 "user_not_found"
  check (env.fails .findById) 500 "internal"
  let row ← ofOption 404 "user_not_found" ((userRows s).find? (·.1.id = id))
  check (env.fails (.rolesOf row.1.id)) 500 "staff_roles_lookup_failed"
  return (s, .user (adminUserOf s row))

/-- The checks of a grant, and the role that it is for. -/
def grantTarget (id role : String) (reason : Option String) : Except Rejection StaffRole := do
  check (!env.routes.isUuid id) 404 "user_not_found"
  let role ← ofOption 400 "invalid_role" (StaffRole.fromStr role)
  check (reason.any (StaffRoles.reasonMaxLen < ·.length)) 400 "reason_too_long"
  check (env.fails .findById) 500 "internal"
  check (findById s.site.users id).isNone 404 "user_not_found"
  check (!env.routes.isUuid auth.sub) 500 "bad_subject"
  check (env.fails .changeRole) 500 "staff_store_error"
  return role

/-- The checks of a revocation; the own role of an administrator stays. -/
def revokeTarget (id role : String) : Except Rejection StaffRole := do
  check (!env.routes.isUuid id) 404 "user_not_found"
  let role ← ofOption 400 "invalid_role" (StaffRole.fromStr role)
  check (auth.sub = id && role = .admin) 400 "cannot_revoke_own_admin"
  check (env.fails .findById) 500 "internal"
  check (findById s.site.users id).isNone 404 "user_not_found"
  check (env.fails .changeRole) 500 "staff_store_error"
  return role

/-- The roles are set, logged if that has changed them, and read again. -/
def setRoles (id action : String) (payload : Value) (roles : List StaffRole) : Stores × StaffReply :=
  let changed : Bool := roles ≠ s.staffRoles id
  let s :=
    if changed then
      staffAudited { s with staffRoles := Function.update s.staffRoles id roles } env auth action payload
    else s
  (s, if env.fails .rolesAfter then reject 500 "staff_store_error"
    else .ok (.roles changed (StaffRoles.asStrings (s.staffRoles id))))

/-- A role that is there already is left as it is. -/
def grantRole (id role : String) (reason : Option String) : Stores × StaffReply :=
  match grantTarget s env auth id role reason with
  | .error e => (s, .error e)
  | .ok role =>
    setRoles s env auth id "staff.grant"
      (.obj [("target_user_id", .str id), ("role", .str role.asStr),
        ("reason", Value.ofOption .str (trimmed reason))])
      (if role ∈ s.staffRoles id then s.staffRoles id else s.staffRoles id ++ [role])

/-- A role that is not there is no error. -/
def revokeRole (id role : String) : Stores × StaffReply :=
  match revokeTarget s env auth id role with
  | .error e => (s, .error e)
  | .ok role =>
    setRoles s env auth id "staff.revoke"
      (.obj [("target_user_id", .str id), ("role", .str role.asStr)]) ((s.staffRoles id).filter (· ≠ role))

/-! ### Mail -/

/-- The settings of the mailer as they are answered. -/
def ofSmtp : SmtpConfig.Place → StaffReply
  | .answered (.error status code detail) => rejectWith status code detail
  | .answered (.config response) => .ok (.smtp response)
  | _ => reject 500 "internal"

/-- What the handlers of the settings are given. -/
def StaffEnv.given (env : StaffEnv) : SmtpConfig.Given := { env.smtp with isUuid := env.routes.isUuid }

/-- The settings as they are stored. -/
def getSmtp : Stores × StaffReply :=
  let (smtp, place) := SmtpConfig.getSmtp env.given ⟨env.nonce, env.fails .getSmtp⟩ s.smtp .asked
  ({ s with smtp := smtp }, ofSmtp place)

/-- A step of the change of the settings. -/
def smtpTurn (req : SmtpConfigRequest) (fault : Bool) (x : SmtpConfig.Site × SmtpConfig.Place) :
    SmtpConfig.Site × SmtpConfig.Place :=
  SmtpConfig.putSmtp env.given ⟨env.nonce, fault⟩ x.1 auth.sub req x.2

/-- The settings are written, read again, and put in force. -/
def putSmtp (req : SmtpConfigRequest) : Stores × StaffReply :=
  let written := smtpTurn env auth req (env.fails .putSmtp) (s.smtp, .asked)
  let reread := smtpTurn env auth req (env.fails .getSmtp) written
  let (smtp, place) := smtpTurn env auth req false reread
  ({ s with smtp := smtp }, ofSmtp place)

/-- Where a test mail goes: to the address that is given, or else to the caller's, once it is verified. -/
def recipientOf (account : Account) (toAddress : Option String) : Except Rejection String :=
  match trimmed toAddress with
  | some address =>
    if !contains address "@" || 320 < address.utf8ByteSize then
      rejectWith 400 "invalid_to_address" (some "to_address must be a valid email address")
    else pure address
  | none =>
    if account.emailVerifiedAt = none then
      rejectWith 400 "email_unverified"
        (some ("verify your email or pass `to_address` in the request body " ++
          "to send the test to a known-working external mailbox"))
    else pure account.email

/-- The mailer takes the mail, or tells why not. -/
def sendTestEmail (recipient : String) : Except Rejection (Stores × StaffData) :=
  match env.sendError with
  | some e => rejectWith 502 "smtp_send_failed" (some e)
  | none => pure (s, .sentTo recipient)

/-- A mail to see whether mail is sent. -/
def testSmtp (toAddress : Option String) : Except Rejection (Stores × StaffData) := do
  check (!env.routes.isUuid auth.sub) 500 "bad_subject"
  check (env.fails .findById) 500 "internal"
  let account ← ofOption 401 "unauthorized" (s.logins.accounts.findById auth.sub)
  let recipient ← recipientOf account toAddress
  sendTestEmail s env recipient

/-! ### All requests -/

/-- What the handler of a request does once the caller has the role. -/
def staffHandler : StaffRequest → Stores × StaffReply
  | .listOrgs q limit offset => handled s (listOrgsAdmin s env q limit offset)
  | .getOrg slug => handled s (getOrgAdmin s env slug)
  | .deleteOrg slug => deleteOrgAdmin s env auth slug
  | .listReferenceCategories => handled s (listReferenceCategories s env)
  | .listReferenceEntries category q limit offset =>
    handled s (listReferenceEntries s env category q limit offset)
  | .listAudit params => handled s (listAudit s env params)
  | .getOverview => handled s (getOverview s env)
  | .getScopeHistogram => handled s (getScopeHistogram s env)
  | .getReports status limit offset => handled s (getReports s env status limit offset)
  | .resolveReport id outcome note => handled s (resolveReport s env auth id outcome note)
  | .getUserSharingContext handle => handled s (getUserSharingContext s env handle)
  | .accept id => handled s (accept s env auth id)
  | .rejectSubmission id reason => handled s (rejectSubmission s env auth id reason)
  | .dismissFlag id => handled s (dismissFlag s env auth id)
  | .queue status limit offset => handled s (queue s env auth status limit offset)
  | .listUsers q limit offset => handled s (listUsersAdmin s env q limit offset)
  | .getUser id => handled s (getUserAdmin s env id)
  | .grantRole id role reason => grantRole s env auth id role reason
  | .revokeRole id role => revokeRole s env auth id role
  | .getSmtp => getSmtp s env
  | .putSmtp req => putSmtp s env auth req
  | .testSmtp toAddress => handled s (testSmtp s env auth toAddress)

end Handlers

end StarStats.Server.Routes
