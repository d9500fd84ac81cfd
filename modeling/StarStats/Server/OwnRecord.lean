import Mathlib.Data.Finset.Image
import StarStats.Server.Directory
import StarStats.Server.SecondFactor

/-! # The record of a token

The routes under `/v1/me` take the handle of the record from the token, as it was when the token was
minted; the deletion of the account goes by its id. The extractor looks up the device of a device token,
and nothing else: a user token is as good after its account is gone.

What a request changes lies under the handle of its token, in whatever case, but for a deletion, and for
reads of another's record (`sameData_handler`). -/

namespace StarStats.Server.OwnRecord

open StarStats.Lib.Text StarStats.Lib.Tables StarStats.Core.Wire
open StarStats.Server.Auth StarStats.Server.Accounts StarStats.Server.Ingest StarStats.Server.Repo
open StarStats.Server.Queries StarStats.Server.Sharing StarStats.Server.Spicedb StarStats.Server.Orgs
open StarStats.Server.SecondFactor (Claims Refusal fromRequestParts)

/-! ### The stores -/

/-- All that the routes of a record read and write. -/
structure Site where
  users : Users
  /-- The devices that are not revoked, each with its account. -/
  devices : Finset (String × String)
  /-- The tokens that the server has minted. -/
  tokens : List Claims
  srv : ServerState
  /-- When an event was hidden. -/
  hiddenAt : ℕ → Option ℤ
  relations : Finset (String × String)
  metadata : Table ShareMeta.key
  rel : Relations
  orgs : OrgTable

/-- Nobody has signed up. -/
def Site.start : Site :=
  ⟨Table.empty, ∅, [], ⟨Table.empty, []⟩, fun _ => none, ∅, Table.empty, .empty, Table.empty⟩

/-- The rows of the events table. -/
def Site.rows (s : Site) : List EventRow := OwnEvents.eventRows s.hiddenAt s.srv.events

/-- The stores that the handlers of shares work on. -/
def Site.world (s : Site) : World := ⟨⟨s.users, s.relations, s.metadata, s.rows⟩, s.rel, s.orgs⟩

/-- What the handlers of shares may have changed. -/
def Site.set (s : Site) (w : World) : Site :=
  { s with relations := w.stores.relations, metadata := w.stores.metadata, rel := w.rel }

/-- The calls of a request that may fail, besides those of shares and organisations. -/
inductive ReadCall where
  | query | hide | checkPublic | listShares | listMeta | listViews | listOrgShares
  | listSharedWithMe | listByRecipient
  deriving DecidableEq

/-- What a request finds outside the stores, and which of its calls fail. -/
structure SiteEnv where
  world : WorldEnv
  parseRfc3339 : String → Option ℤ
  insertFails : ℕ → Bool
  auditFails : Bool
  fails : ReadCall → Bool
  /-- How often, and when last, a recipient viewed the record, by the audit log. -/
  views : String → Option (ℕ × Option ℤ)
  fromStr : String → Option ShareScope

def SiteEnv.now (env : SiteEnv) : ℤ := env.world.share.now

/-! ### Handlers -/

/-- A share as its owner sees it. -/
structure ShareEntry where
  recipientHandle : String
  expiresAt : Option ℤ
  note : Option String
  scope : Option ShareScope
  viewCount : ℕ
  lastViewedAt : Option ℤ
  deriving DecidableEq

/-- A share as its recipient sees it. -/
structure SharedWithMeEntry where
  ownerHandle : String
  expiresAt : Option ℤ
  note : Option String
  scope : Option ShareScope
  deriving DecidableEq

/-- Answers of the routes of a record. -/
inductive Answer where
  | unauthorized (r : Refusal)
  | error (status : ℕ) (code : String)
  | queryFailed
  | directory (a : Orgs.Answer)
  | ingested (reply : Ingest.Reply)
  | events (body : EventsListResponse)
  | summary (body : SummaryResponse)
  | timeline (body : PublicTimelineResponse)
  | rows (found : List EventRow)
  | changed (b : Bool)
  | visibility (isPublic : Bool)
  /-- In no particular order. -/
  | shares (shares : Finset ShareEntry) (orgShares : Finset String)
  | sharedWithMe (owners : Finset SharedWithMeEntry)

section Handlers
variable (s : Site) (env : SiteEnv) (auth : AuthenticatedUser)

/-- The batch is stored under the handle of the token. -/
def ingest (batch : IngestBatch) : Site × Answer :=
  let (srv, reply) :=
    Ingest.handle env.parseRfc3339 env.insertFails env.auditFails s.srv auth batch
  ({ s with srv := srv }, .ingested reply)

/-- A page of the caller's events. -/
def listEvents (p : ListParams) : Answer :=
  match Queries.listEvents s.rows auth p with
  | .error code => .error 400 code
  | .ok body => if env.fails .query then .queryFailed else .events body

/-- The days within the window on which there are events of the handle, with their counts. -/
def timelineForHandle (rows : List EventRow) (handle : String) (now : ℤ) (days : ℕ) : List (ℤ × ℕ) :=
  countByDay (rows.filter fun r => r.event.claimedHandle = handle && within now days r)

/-- The caller's own timeline. -/
def timeline (days : Option ℕ) : Answer :=
  match resolveTimelineDays days with
  | none => .error 400 "invalid_days"
  | some days =>
    if env.fails .query then .queryFailed
    else
      let rows := timelineForHandle s.rows auth.preferredUsername env.now days
      .timeline ⟨days, buildTimelineBuckets rows env.now days⟩

/-- The caller's own summary. -/
def summary : Answer :=
  if env.fails .query then .queryFailed else .summary (Queries.summary s.rows auth)

/-- The other queries for the events of a handle: metrics, sessions, locations, statistics and purchases
are made of the rows that they find. -/
def readRows (keep : EventRow → Bool) : Answer :=
  if env.fails .query then .queryFailed
  else .rows (s.rows.filter fun r => r.event.claimedHandle = auth.preferredUsername && keep r)

/-- `UPDATE events SET hidden_at = ... WHERE claimed_handle = $1 AND seq = $2`, of a row that is not
so yet. -/
def setEventHidden (now : ℤ) (handle : String) (seq : ℤ) (hide : Bool) : Site × Bool :=
  match s.rows.find? fun r =>
    r.event.claimedHandle = handle && (r.seq : ℤ) = seq && r.hiddenAt.isNone == hide with
  | none => (s, false)
  | some r =>
    ({ s with hiddenAt := Function.update s.hiddenAt r.seq (if hide then some now else none) }, true)

/-- `hide_event` and `unhide_event`. -/
def toggleHidden (seq : ℤ) (hide : Bool) : Site × Answer :=
  if env.fails .hide then (s, .queryFailed)
  else
    let (s, changed) := setEventHidden s env.now auth.preferredUsername seq hide
    (s, .changed changed)

/-- Is the caller's record public? -/
def getVisibility : Answer :=
  if !env.world.share.spicedb then .error 503 "spicedb_unavailable"
  else if env.fails .checkPublic then .error 500 "spicedb_error"
  else .visibility (auth.preferredUsername ∈ s.rel.publicView)

/-- A share with its row and its views; what cannot be read is left out. -/
def shareEntry (owner recipient : String) : ShareEntry :=
  let m := if env.fails .listMeta then none else findMeta s.metadata owner recipient
  let v := if env.fails .listViews then none else env.views recipient
  { recipientHandle := recipient
    expiresAt := m.bind (·.expiresAt)
    note := m.bind (·.note)
    scope := (m.bind (·.scope)).bind scopeFromValue
    viewCount := (v.map (·.1)).getD 0
    lastViewedAt := v.bind (·.2) }

/-- All whom the caller shares with. -/
def listShares : Answer :=
  if !env.world.share.spicedb then .error 503 "spicedb_unavailable"
  else if env.fails .listShares then .error 500 "spicedb_error"
  else
    .shares
      ((s.relations.filter (·.1 = auth.preferredUsername)).image fun r => shareEntry s env r.1 r.2)
      (if env.fails .listOrgShares then ∅
        else (s.rel.shareWithOrg.filter (·.1 = auth.preferredUsername)).image (·.2))

/-- A share that the caller has been given, with its row. -/
def sharedWithMeEntry (owner recipient : String) : SharedWithMeEntry :=
  let m := if env.fails .listByRecipient then none else findMeta s.metadata owner recipient
  { ownerHandle := owner
    expiresAt := m.bind (·.expiresAt)
    note := m.bind (·.note)
    scope := (m.bind (·.scope)).bind scopeFromValue }

/-- All who share with the caller. -/
def listSharedWithMe : Answer :=
  if !env.world.share.spicedb then .error 503 "spicedb_unavailable"
  else if env.fails .listSharedWithMe then .error 500 "spicedb_error"
  else
    .sharedWithMe ((s.relations.filter (·.2 = auth.preferredUsername)).image fun r =>
      sharedWithMeEntry s env r.1 r.2)

/-- The site without the account: its devices and its organisations go with it, and its events are as they
are given. -/
def Site.without (u : User) (events : Repo.Events) : Site :=
  { s with
    users := s.users.deleteWhere (·.id = u.id)
    devices := s.devices.filter (·.2 ≠ u.id)
    orgs := s.orgs.deleteWhere (·.ownerUserId = u.id)
    srv := { s.srv with events := events } }

/-- The unique index of the events may refuse the update, and then nothing is deleted. -/
def deleteAccount (confirmHandle : String) : Site × Answer :=
  if !env.world.share.isUuid auth.sub then (s, .error 500 "bad_subject")
  else if env.world.share.fails .findById then (s, .error 500 "internal")
  else
    match findById s.users auth.sub with
    | none => (s, .error 401 "user_not_found")
    | some u =>
      if !eqIgnoreAsciiCase confirmHandle u.claimedHandle then (s, .error 400 "confirm_mismatch")
      else if env.world.fails .audit then (s, .error 500 "internal")
      else if env.world.fails .deleteUser then (s, .error 500 "internal")
      else
        match Erasure.pseudonymise s.srv.events (Erasure.pseudonymOf env.world.uuid)
          u.claimedHandle with
        | none => (s, .error 500 "internal")
        | some events => (s.without u events, .directory .accountDeleted)

/-! ### Requests -/

/-- The routes of a record, with their parameters. -/
inductive Request where
  | deleteAccount (confirmHandle : String)
  | ingest (batch : IngestBatch)
  | listEvents (p : ListParams)
  | timeline (days : Option ℕ)
  | summary
  | readRows (keep : EventRow → Bool)
  | hideEvent (seq : ℤ)
  | unhideEvent (seq : ℤ)
  | setVisibility (isPublic : Bool)
  | getVisibility
  | addShare (req : ShareRequest)
  | deleteShare (recipientHandle : String)
  | listShares
  | listSharedWithMe
  | shareWithOrg (orgSlug : String)
  | unshareWithOrg (slug : String)
  | previewSummary (scope : Option String)
  | previewTimeline (days : Option ℕ) (scope : Option String)
  | friendSummary (handle : String)
  | friendTimeline (handle : String) (days : Option ℕ)

/-- What a handler of shares or accounts answers, over the whole site. -/
def Site.did (r : World × Orgs.Answer) : Site × Answer := (s.set r.1, .directory r.2)

/-- The same for a handler that works on the stores of shares only. -/
def Site.shared (r : Stores × Sharing.Reply) : Site × Answer :=
  s.did ({ s.world with stores := r.1 }, .share r.2)

/-- The permission service answers a read of another's record by all its relations. -/
def viewEnv (handle : String) : Env :=
  { env.world.share with otherAccess := s.rel.otherView handle auth.preferredUsername }

/-- The handler of a request, for a user that the extractor let through. -/
def handler : Request → Site × Answer
  | .deleteAccount confirmHandle => deleteAccount s env auth confirmHandle
  | .ingest batch => ingest s env auth batch
  | .listEvents p => (s, listEvents s env auth p)
  | .timeline days => (s, timeline s env auth days)
  | .summary => (s, summary s env auth)
  | .readRows keep => (s, readRows s env auth keep)
  | .hideEvent seq => toggleHidden s env auth seq true
  | .unhideEvent seq => toggleHidden s env auth seq false
  | .setVisibility isPublic => s.did (Directory.setVisibility s.world env.world auth isPublic)
  | .getVisibility => (s, getVisibility s env auth)
  | .addShare req => s.shared (addShare s.world.stores env.world.share auth req)
  | .deleteShare recipientHandle =>
    s.shared (deleteShare s.world.stores env.world.share auth recipientHandle)
  | .listShares => (s, listShares s env auth)
  | .listSharedWithMe => (s, listSharedWithMe s env auth)
  | .shareWithOrg orgSlug => s.did (Directory.shareWithOrg s.world env.world auth orgSlug)
  | .unshareWithOrg slug => s.did (Directory.unshareWithOrg s.world env.world auth slug)
  | .previewSummary scope =>
    (s, .directory (.share (previewSummary env.fromStr s.world.stores env.world.share auth scope)))
  | .previewTimeline days scope =>
    (s, .directory (.share (previewTimeline env.fromStr s.world.stores env.world.share auth days scope)))
  | .friendSummary handle =>
    s.shared (friendSummary s.world.stores (viewEnv s env auth handle) auth handle)
  | .friendTimeline handle days =>
    s.shared (friendTimeline s.world.stores (viewEnv s env auth handle) auth handle days)

end Handlers

/-- A device that is not revoked. -/
def Site.isDeviceActive (s : Site) (id : String) : Bool := decide (∃ d ∈ s.devices, d.1 = id)

/-- The signature of a token says that the server has minted it; and the extractor. -/
def authenticate (s : Site) (c : Claims) : Except Refusal AuthenticatedUser :=
  if c ∈ s.tokens then fromRequestParts s.isDeviceActive (some c)
  else .error (.invalidToken "InvalidSignature")

/-- A request with a token. -/
def serve (s : Site) (env : SiteEnv) (c : Claims) (req : Request) : Site × Answer :=
  match authenticate s c with
  | .error r => (s, .unauthorized r)
  | .ok auth => handler s env auth req

/-- The token of an active device is let through, and any other token. -/
theorem authenticate_eq_ok {s : Site} {c : Claims} {auth : AuthenticatedUser}
    (h : authenticate s c = .ok auth) : auth = c.user ∧ c ∈ s.tokens ∧
      (c.tokenType = .device → ∃ id ∈ c.deviceId, ∃ d ∈ s.devices, d.1 = id) := by
  unfold authenticate at h
  split_ifs at h with hminted
  unfold fromRequestParts at h
  by_cases hdevice : c.tokenType = .device
  · simp only [hdevice, if_true] at h
    cases hid : c.deviceId with
    | none =>
      simp only [hid] at h
      cases h
    | some id =>
      simp only [hid] at h
      split_ifs at h with hactive
      have hrow : ∃ d ∈ s.devices, d.1 = id := by simpa [Site.isDeviceActive] using hactive
      exact ⟨(Except.ok.inj h).symm, hminted, fun _ => ⟨id, rfl, hrow⟩⟩
  · simp only [hdevice, if_false] at h
    exact ⟨(Except.ok.inj h).symm, hminted, fun hd => absurd hd hdevice⟩

/-! ### The data under a handle -/

/-- Two stores have the same shares of the handles that are kept. -/
structure SameShares (keep : String → Bool) (w w' : World) : Prop where
  publicView : ∀ h, keep h = true → (h ∈ w.rel.publicView ↔ h ∈ w'.rel.publicView)
  relations : ∀ h viewer, keep h = true →
    ((h, viewer) ∈ w.stores.relations ↔ (h, viewer) ∈ w'.stores.relations)
  metadata : ∀ h viewer, keep h = true →
    findMeta w.stores.metadata h viewer = findMeta w'.stores.metadata h viewer
  shareWithOrg : ∀ h slug, keep h = true →
    ((h, slug) ∈ w.rel.shareWithOrg ↔ (h, slug) ∈ w'.rel.shareWithOrg)

/-- The events, visibility and shares of the handles that are kept are the same. -/
structure SameData (keep : String → Bool) (s s' : Site) : Prop where
  events : s.rows.filter (keep ·.event.claimedHandle) = s'.rows.filter (keep ·.event.claimedHandle)
  shares : SameShares keep s.world s'.world

/-- A handle is left out, in whatever case it is written. -/
def Off (keep : String → Bool) (handle : String) : Prop := ∀ h, lower h = lower handle → keep h = false

/-- A handle is kept, in whatever case it is written. -/
def On (keep : String → Bool) (handle : String) : Prop := ∀ h, lower h = lower handle → keep h = true

variable {keep : String → Bool} {handle : String}

theorem SameShares.refl (w : World) : SameShares keep w w :=
  ⟨fun _ _ => Iff.rfl, fun _ _ _ => Iff.rfl, fun _ _ _ => rfl, fun _ _ _ => Iff.rfl⟩

theorem SameShares.of_eq {s s' : Site} (hrelations : s'.relations = s.relations)
    (hmeta : s'.metadata = s.metadata) (hrel : s'.rel = s.rel) : SameShares keep s.world s'.world := by
  refine ⟨fun h _ => ?_, fun h viewer _ => ?_, fun h viewer _ => ?_, fun h slug _ => ?_⟩
  · show h ∈ s.rel.publicView ↔ h ∈ s'.rel.publicView
    rw [hrel]
  · show (h, viewer) ∈ s.relations ↔ (h, viewer) ∈ s'.relations
    rw [hrelations]
  · show findMeta s.metadata h viewer = findMeta s'.metadata h viewer
    rw [hmeta]
  · show (h, slug) ∈ s.rel.shareWithOrg ↔ (h, slug) ∈ s'.rel.shareWithOrg
    rw [hrel]

theorem SameData.refl (s : Site) : SameData keep s s := ⟨rfl, .refl s.world⟩

theorem SameData.set {s : Site} {w : World} (h : SameShares keep s.world w) : SameData keep s (s.set w) :=
  ⟨rfl, ⟨h.publicView, h.relations, h.metadata, h.shareWithOrg⟩⟩

theorem Off.ne (hoff : Off keep handle) {h : String} (hkeep : keep h = true) :
    lower h ≠ lower handle := by
  intro heq
  rw [hoff h heq] at hkeep
  cases hkeep

theorem Off.ne' (hoff : Off keep handle) {h : String} (hkeep : keep h = true) : h ≠ handle :=
  fun heq => hoff.ne hkeep (congrArg lower heq)

/-! ### Writes of shares -/

section Shares
variable {w : World} {st : Stores} {env : Env} {worldEnv : WorldEnv} {auth : AuthenticatedUser}

theorem sameShares_setVisibility (hoff : Off keep auth.preferredUsername) (isPublic : Bool) :
    SameShares keep w (Directory.setVisibility w worldEnv auth isPublic).1 := by
  unfold Directory.setVisibility
  cases requireRsiVerified w.stores worldEnv.share auth with
  | some reply => exact .refl w
  | none =>
    simp only
    split_ifs with hspice hfails hpublic
    · exact .refl w
    · exact .refl w
    · refine ⟨fun h hkeep => ?_, fun _ _ _ => Iff.rfl, fun _ _ _ => rfl, fun _ _ _ => Iff.rfl⟩
      simp [Relations.writePublicView, hoff.ne' hkeep]
    · refine ⟨fun h hkeep => ?_, fun _ _ _ => Iff.rfl, fun _ _ _ => rfl, fun _ _ _ => Iff.rfl⟩
      simp [Relations.deletePublicView, hoff.ne' hkeep]

theorem sameShares_shareWithOrg (hoff : Off keep auth.preferredUsername) (orgSlug : String) :
    SameShares keep w (Directory.shareWithOrg w worldEnv auth orgSlug).1 := by
  unfold Directory.shareWithOrg
  cases requireRsiVerified w.stores worldEnv.share auth with
  | some reply => exact .refl w
  | none =>
    cases findBySlug w.orgs (trim orgSlug) with
    | none =>
      simp only
      split_ifs <;> exact .refl w
    | some org =>
      simp only
      split_ifs
      · exact .refl w
      · exact .refl w
      · exact .refl w
      · exact .refl w
      · refine ⟨fun _ _ => Iff.rfl, fun _ _ _ => Iff.rfl, fun _ _ _ => rfl, fun h slug hkeep => ?_⟩
        simp [Relations.writeShareWithOrg, hoff.ne' hkeep]

theorem sameShares_unshareWithOrg (hoff : Off keep auth.preferredUsername) (slug : String) :
    SameShares keep w (Directory.unshareWithOrg w worldEnv auth slug).1 := by
  unfold Directory.unshareWithOrg
  split_ifs
  · exact .refl w
  · exact .refl w
  · exact .refl w
  · refine ⟨fun _ _ => Iff.rfl, fun _ _ _ => Iff.rfl, fun _ _ _ => rfl, fun h slug hkeep => ?_⟩
    simp [Relations.deleteShareWithOrg, hoff.ne' hkeep]

theorem sameShares_addShare (hoff : Off keep auth.preferredUsername) (req : ShareRequest) :
    SameShares keep w { w with stores := (addShare w.stores env auth req).1 } := by
  rcases addShare_cases w.stores env auth req with ⟨reply, heq, -⟩ | ⟨u, -, heq⟩
  · rw [heq]
    exact .refl w
  · rw [heq]
    refine ⟨fun _ _ => Iff.rfl, fun h viewer hkeep => ?_, fun h viewer hkeep => ?_, fun _ _ _ => Iff.rfl⟩
    · simp [writeGrant, hoff.ne' hkeep]
    · show findMeta w.stores.metadata h viewer = findMeta (if env.fails .upsert then w.stores.metadata
        else upsertMeta w.stores.metadata (grantMeta auth.preferredUsername u.claimedHandle req)) h viewer
      split_ifs
      · rfl
      · have hkey : (grantMeta auth.preferredUsername u.claimedHandle req).key ≠ (lower h, lower viewer) :=
          fun heq => hoff.ne hkeep (congrArg Prod.fst heq).symm
        rw [findMeta_upsertMeta_of_ne hkey]

theorem findMeta_deleteMeta_of_off (hoff : Off keep handle) {h : String} (hkeep : keep h = true)
    (t : Table ShareMeta.key) (recipient viewer : String) :
    findMeta (deleteMeta t handle recipient) h viewer = findMeta t h viewer := by
  rw [findMeta_deleteMeta, if_neg fun heq => hoff.ne hkeep (congrArg Prod.fst heq)]

theorem sameShares_deleteShare (hoff : Off keep auth.preferredUsername) (recipientHandle : String) :
    SameShares keep w { w with stores := (deleteShare w.stores env auth recipientHandle).1 } := by
  unfold deleteShare
  split_ifs with hvalid hspice hfails hmeta
  · exact .refl w
  · exact .refl w
  · exact .refl w
  · refine ⟨fun _ _ => Iff.rfl, fun h viewer hkeep => ?_, fun _ _ _ => rfl, fun _ _ _ => Iff.rfl⟩
    simp [hoff.ne' hkeep]
  · refine ⟨fun _ _ => Iff.rfl, fun h viewer hkeep => ?_, fun h viewer hkeep => ?_, fun _ _ _ => Iff.rfl⟩
    · simp [hoff.ne' hkeep]
    · exact (findMeta_deleteMeta_of_off hoff hkeep _ _ _).symm

theorem sameShares_lazyRevoke (hoff : Off keep handle) (viewer : String) :
    SameShares keep w { w with stores := lazyRevoke w.stores env handle viewer } := by
  refine ⟨fun _ _ => Iff.rfl, fun h viewer' hkeep => ?_, fun h viewer' hkeep => ?_, fun _ _ _ => Iff.rfl⟩
  · show (h, viewer') ∈ w.stores.relations ↔ (h, viewer') ∈ if env.fails .deleteShare then
      w.stores.relations else w.stores.relations.erase (handle, viewer)
    split_ifs
    · exact Iff.rfl
    · simp [hoff.ne' hkeep]
  · show findMeta w.stores.metadata h viewer' = findMeta (if env.fails .deleteMeta then
      w.stores.metadata else deleteMeta w.stores.metadata handle viewer) h viewer'
    split_ifs
    · rfl
    · exact (findMeta_deleteMeta_of_off hoff hkeep _ _ _).symm

/-- A read of another's record writes under that handle only. -/
theorem sameShares_friendRead (hoff : Off keep handle) (allows : ShareScope → Bool)
    (render : Stores → Option ShareScope → Sharing.Reply) :
    SameShares keep w { w with stores := (friendRead w.stores env auth handle allows render).1 } := by
  have hcheck : (checkViewWithExpiry w.stores env handle auth.preferredUsername).1 = w.stores ∨
      (checkViewWithExpiry w.stores env handle auth.preferredUsername).1 =
        lazyRevoke w.stores env handle auth.preferredUsername := by
    unfold checkViewWithExpiry
    split
    · exact Or.inl rfl
    · exact Or.inl rfl
    · split_ifs
      · exact Or.inl rfl
      · split
        · exact Or.inl rfl
        · split_ifs
          · exact Or.inl rfl
          · exact Or.inr rfl
  rw [friendRead_fst]
  split_ifs
  · rcases hcheck with hcheck | hcheck
    · rw [hcheck]
      exact .refl w
    · rw [hcheck]
      exact sameShares_lazyRevoke hoff _
  · exact .refl w

theorem sameShares_friendSummary (hoff : Off keep handle) :
    SameShares keep w { w with stores := (friendSummary w.stores env auth handle).1 } := by
  unfold friendSummary
  split_ifs
  · exact .refl w
  · exact sameShares_friendRead hoff _ _

theorem sameShares_friendTimeline (hoff : Off keep handle) (days : Option ℕ) :
    SameShares keep w { w with stores := (friendTimeline w.stores env auth handle days).1 } := by
  unfold friendTimeline
  split_ifs
  · exact .refl w
  · cases resolveTimelineDays days with
    | none => exact .refl w
    | some days => exact sameShares_friendRead hoff _ _

end Shares

/-! ### Writes of events -/

/-- What differs between two ways to make rows, but is left out by a filter, does not matter. -/
theorem filter_map_congr {α β : Type} {f g : α → β} {p : β → Bool} : ∀ {l : List α},
    (∀ x ∈ l, p (f x) = p (g x) ∧ (p (f x) = true → f x = g x)) →
      (l.map f).filter p = (l.map g).filter p
  | [], _ => rfl
  | x :: l, h => by
    obtain ⟨hp, heq⟩ := h x List.mem_cons_self
    have hrest := filter_map_congr fun y hy => h y (List.mem_cons_of_mem x hy)
    rw [List.map_cons, List.map_cons, List.filter_cons, List.filter_cons, hrest, ← hp]
    split_ifs with hx
    · rw [heq hx]
    · rfl

/-- What a batch adds is under its handle. -/
theorem rows_ingestAll {rfc3339 : String → Option ℤ} {claimedHandle : String} {fault : ℕ → Bool} :
    ∀ (i : ℕ) (t : Tally) (envs : List EventEnvelope), ∃ new,
      (ingestAll rfc3339 claimedHandle fault i t envs).events.rows = t.events.rows ++ new ∧
        ∀ x ∈ new, x.2.claimedHandle = claimedHandle
  | _, t, [] => ⟨[], (List.append_nil _).symm, fun _ hx => absurd hx List.not_mem_nil⟩
  | i, t, env :: envs => by
    have hone : ∃ new, (ingestOne rfc3339 claimedHandle (fault i) t env).events.rows =
        t.events.rows ++ new ∧ ∀ x ∈ new, x.2.claimedHandle = claimedHandle := by
      cases hf : fault i with
      | true => exact ⟨[], (List.append_nil _).symm, fun _ hx => absurd hx List.not_mem_nil⟩
      | false =>
        rw [(ingestOne_of_not_fault t env).1]
        by_cases hkey : (fromEnvelope rfc3339 env claimedHandle).key ∈ t.events.keys
        · rw [Table.insert_of_mem hkey]
          exact ⟨[], (List.append_nil _).symm, fun _ hx => absurd hx List.not_mem_nil⟩
        · refine ⟨_, Table.rows_insert_of_not_mem hkey, fun x hx => ?_⟩
          rw [List.mem_singleton.mp hx]
          rfl
    obtain ⟨new, hrows, hnew⟩ := hone
    obtain ⟨new', hrows', hnew'⟩ := rows_ingestAll (i + 1)
      (ingestOne rfc3339 claimedHandle (fault i) t env) envs
    refine ⟨new ++ new', ?_, fun x hx => ?_⟩
    · rw [ingestAll, hrows', hrows, List.append_assoc]
    · rcases List.mem_append.mp hx with hx | hx
      · exact hnew x hx
      · exact hnew' x hx

section Events
variable {s : Site} {env : SiteEnv} {auth : AuthenticatedUser}

theorem lower_of_refusal {batch : IngestBatch} (h : refusal auth batch = none) :
    lower batch.claimedHandle = lower auth.preferredUsername := by
  unfold refusal at h
  split_ifs at h with _ _ hmatch
  have hsame : eqIgnoreAsciiCase batch.claimedHandle auth.preferredUsername = true := by
    simpa using hmatch
  exact eqIgnoreAsciiCase_iff.mp hsame

theorem sameData_ingest (hoff : Off keep auth.preferredUsername) (batch : IngestBatch) :
    SameData keep s (ingest s env auth batch).1 := by
  cases hrefusal : refusal auth batch with
  | some reply =>
    have hsame : (ingest s env auth batch).1 = s := by
      simp only [ingest, Ingest.handle, hrefusal]
    rw [hsame]
    exact .refl s
  | none =>
    have hkeep := hoff batch.claimedHandle (lower_of_refusal hrefusal)
    obtain ⟨new, hrows, hnew⟩ := @rows_ingestAll env.parseRfc3339 batch.claimedHandle env.insertFails 0
      ⟨s.srv.events, 0, 0, 0⟩ (backfilled batch)
    have hshares : SameShares keep s.world (ingest s env auth batch).1.world := .of_eq rfl rfl rfl
    refine ⟨?_, hshares⟩
    have hevents : (ingest s env auth batch).1.rows =
        s.rows ++ new.map fun x => ⟨x.1, x.2, s.hiddenAt x.1⟩ := by
      simp only [ingest, Ingest.handle, hrefusal, Site.rows, OwnEvents.eventRows, tally]
      rw [hrows, List.map_append]
    have hnone : (new.map fun x => (⟨x.1, x.2, s.hiddenAt x.1⟩ : EventRow)).filter
        (keep ·.event.claimedHandle) = [] := by
      refine List.filter_eq_nil_iff.mpr fun r hr => ?_
      obtain ⟨x, hx, rfl⟩ := List.mem_map.mp hr
      simp [hnew x hx, hkeep]
    rw [hevents, List.filter_append, hnone, List.append_nil]

theorem sameData_setEventHidden (hoff : Off keep handle) (now seq : ℤ) (hide : Bool) :
    SameData keep s (setEventHidden s now handle seq hide).1 := by
  unfold setEventHidden
  cases hfind : s.rows.find? fun r =>
    r.event.claimedHandle = handle && (r.seq : ℤ) = seq && r.hiddenAt.isNone == hide with
  | none => exact .refl s
  | some r =>
    have hmine : r.event.claimedHandle = handle := by
      have hfound := List.find?_some hfind
      simp only [Bool.and_eq_true, decide_eq_true_eq] at hfound
      exact hfound.1.1
    obtain ⟨y, hy, rfl⟩ := List.mem_map.mp (List.mem_of_find?_eq_some hfind)
    refine ⟨filter_map_congr fun x hx => ⟨rfl, fun hkeep => ?_⟩, .of_eq rfl rfl rfl⟩
    have hne : x.1 ≠ y.1 := by
      intro heq
      rw [Table.eq_of_id_eq hx hy heq] at hkeep
      exact hoff.ne' hkeep hmine
    show (⟨x.1, x.2, s.hiddenAt x.1⟩ : EventRow) = ⟨x.1, x.2, Function.update s.hiddenAt y.1 _ x.1⟩
    rw [Function.update_of_ne hne]

theorem sameData_toggleHidden (hoff : Off keep auth.preferredUsername) (seq : ℤ) (hide : Bool) :
    SameData keep s (toggleHidden s env auth seq hide).1 := by
  unfold toggleHidden
  split_ifs
  · exact .refl s
  · exact sameData_setEventHidden hoff env.now seq hide

/-- A deletion is refused and changes nothing, or it takes the account, and its events get another name. -/
theorem deleteAccount_cases (s : Site) (env : SiteEnv) (auth : AuthenticatedUser)
    (confirmHandle : String) : (deleteAccount s env auth confirmHandle).1 = s ∨
      ∃ u events, findById s.users auth.sub = some u ∧
        Erasure.pseudonymise s.srv.events (Erasure.pseudonymOf env.world.uuid) u.claimedHandle =
          some events ∧
        (deleteAccount s env auth confirmHandle).1 = s.without u events := by
  unfold deleteAccount
  cases hfind : findById s.users auth.sub with
  | none =>
    simp only
    split_ifs <;> exact Or.inl rfl
  | some u =>
    simp only
    split_ifs
    · exact Or.inl rfl
    · exact Or.inl rfl
    · exact Or.inl rfl
    · exact Or.inl rfl
    · exact Or.inl rfl
    · cases hevents : Erasure.pseudonymise s.srv.events (Erasure.pseudonymOf env.world.uuid)
        u.claimedHandle with
      | none => exact Or.inl rfl
      | some events => exact Or.inr ⟨u, events, rfl, hevents, rfl⟩

/-- The deletion of an account writes under its handle, and under the pseudonym. -/
theorem sameData_deleteAccount (hoff : ∀ u, findById s.users auth.sub = some u →
      Off keep u.claimedHandle ∧ Off keep (Erasure.pseudonymOf env.world.uuid))
    (confirmHandle : String) : SameData keep s (deleteAccount s env auth confirmHandle).1 := by
  rcases deleteAccount_cases s env auth confirmHandle with hsame | ⟨u, events, hfind, hevents, hdeleted⟩
  · rw [hsame]
    exact .refl s
  · obtain ⟨hmine, hpseudonym⟩ := hoff u hfind
    rw [hdeleted]
    refine ⟨?_, .of_eq rfl rfl rfl⟩
    unfold Site.rows OwnEvents.eventRows Site.without
    simp only
    rw [Table.rows_rewrite hevents, List.map_map]
    refine filter_map_congr fun x _ => ?_
    simp only [Function.comp]
    split_ifs with hx
    · have hold : keep x.2.claimedHandle = false := hmine _ hx
      have hnew : keep (Erasure.pseudonymOf env.world.uuid) = false := hpseudonym _ rfl
      refine ⟨hold.trans hnew.symm, fun hkeep => ?_⟩
      rw [hold] at hkeep
      cases hkeep
    · exact ⟨rfl, fun _ => rfl⟩

end Events

/-- Whose record a request is about. -/
def Request.record (auth : AuthenticatedUser) : Request → String
  | .friendSummary handle | .friendTimeline handle _ => handle
  | _ => auth.preferredUsername

/-- **A request leaves alone what lies under other handles** than that of its record, and of the account
that it deletes. -/
theorem sameData_handler {s : Site} {env : SiteEnv} {auth : AuthenticatedUser} {req : Request}
    (hoff : Off keep (req.record auth))
    (hdelete : ∀ confirmHandle u, req = .deleteAccount confirmHandle →
      findById s.users auth.sub = some u →
        Off keep u.claimedHandle ∧ Off keep (Erasure.pseudonymOf env.world.uuid)) :
    SameData keep s (handler s env auth req).1 := by
  cases req with
  | deleteAccount confirmHandle =>
    exact sameData_deleteAccount (fun u hu => hdelete confirmHandle u rfl hu) confirmHandle
  | ingest batch => exact sameData_ingest hoff batch
  | hideEvent seq => exact sameData_toggleHidden hoff seq true
  | unhideEvent seq => exact sameData_toggleHidden hoff seq false
  | setVisibility isPublic => exact .set (sameShares_setVisibility hoff isPublic)
  | addShare req => exact .set (sameShares_addShare hoff req)
  | deleteShare recipientHandle => exact .set (sameShares_deleteShare hoff recipientHandle)
  | shareWithOrg orgSlug => exact .set (sameShares_shareWithOrg hoff orgSlug)
  | unshareWithOrg slug => exact .set (sameShares_unshareWithOrg hoff slug)
  | friendSummary handle => exact .set (sameShares_friendSummary hoff)
  | friendTimeline handle days => exact .set (sameShares_friendTimeline hoff days)
  | listEvents _ | timeline _ | summary | readRows _ | getVisibility | listShares | listSharedWithMe
  | previewSummary _ | previewTimeline _ _ => exact .refl s

end StarStats.Server.OwnRecord
