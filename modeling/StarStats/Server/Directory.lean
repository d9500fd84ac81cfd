import StarStats.Server.Erasure
import StarStats.Server.Orgs
import StarStats.Server.ShareRuns

/-! # Accounts that come and go

Accounts are signed up and deleted; in between they share their records with other accounts, with
organisations or with all, and read what is shared with them. A deletion takes the account, its events
and the rows of its organisations; the permission service is not told.

A request adds at most one relation, and which is said by its answer (`grantOf`, `holds_step`); a handle
becomes an account's by a sign-up only. -/

namespace StarStats.Server.Directory

open StarStats.Lib.Text StarStats.Lib.Tables StarStats.Lib.Runs
open StarStats.Server.Ingest (eqIgnoreAsciiCase)
open StarStats.Server.Auth StarStats.Server.Accounts StarStats.Server.Queries
open StarStats.Server.Sharing StarStats.Server.Spicedb StarStats.Server.Orgs

/-! ### Sign-up and deletion -/

section Handlers
variable (w : World) (env : WorldEnv)

/-- A sign-up; the owner of the new record is written if it can be. -/
def signUp (u : User) : World × Answer :=
  if !validateHandle (trim u.claimedHandle) then (w, .error 400 "invalid_handle")
  else if u.key ∈ w.stores.users.keys then (w, .error 409 "handle_taken")
  else if findById w.stores.users u.id ≠ none then (w, .error 500 "internal")
  else
    let w' := { w with stores := { w.stores with users := w.stores.users.insert u } }
    if env.share.spicedb && !env.fails .writeOwner then
      ({ w' with rel := w'.rel.writeOwner u.claimedHandle }, .signedUp)
    else (w', .signedUp)

/-- The row of an event of a deleted account. -/
def eraseRow (pseudonym handle : String) (r : EventRow) : EventRow :=
  if lower r.event.claimedHandle = lower handle then
    { r with event := Erasure.tombstone pseudonym r.event }
  else r

/-- `delete_user`; the organisations that the account created go with it. -/
def deleteUser (u : User) : World :=
  { w with
    stores := { w.stores with
      users := w.stores.users.deleteWhere (·.id = u.id)
      events := w.stores.events.map (eraseRow (Erasure.pseudonymOf env.uuid) u.claimedHandle) }
    orgs := w.orgs.deleteWhere (·.ownerUserId = u.id) }

variable (auth : AuthenticatedUser)

/-- The account goes when its handle is typed again. -/
def deleteAccount (confirmHandle : String) : World × Answer :=
  if !env.share.isUuid auth.sub then (w, .error 500 "bad_subject")
  else if env.share.fails .findById then (w, .error 500 "internal")
  else
    match findById w.stores.users auth.sub with
    | none => (w, .error 401 "user_not_found")
    | some u =>
      if !eqIgnoreAsciiCase confirmHandle u.claimedHandle then (w, .error 400 "confirm_mismatch")
      else if env.fails .audit then (w, .error 500 "internal")
      else if env.fails .deleteUser then (w, .error 500 "internal")
      else (deleteUser w env u, .accountDeleted)

/-! ### Visibility -/

/-- The record is opened to everyone, or closed. -/
def setVisibility (isPublic : Bool) : World × Answer :=
  match requireRsiVerified w.stores env.share auth with
  | some reply => (w, .share reply)
  | none =>
    if !env.share.spicedb then (w, .error 503 "spicedb_unavailable")
    else if env.fails .publicView then (w, .error 500 "spicedb_error")
    else
      ({ w with rel := if isPublic then w.rel.writePublicView auth.preferredUsername
          else w.rel.deletePublicView auth.preferredUsername }, .visibility isPublic)

/-- The record is opened to an organisation. -/
def shareWithOrg (orgSlug : String) : World × Answer :=
  match requireRsiVerified w.stores env.share auth with
  | some reply => (w, .share reply)
  | none =>
    if !validateSlug (trim orgSlug) then (w, .error 400 "invalid_org_slug")
    else if env.fails .findBySlug then (w, .error 500 "internal")
    else
      match findBySlug w.orgs (trim orgSlug) with
      | none => (w, .error 404 "org_not_found")
      | some org =>
        if !env.share.spicedb then (w, .error 503 "spicedb_unavailable")
        else if env.fails .shareWithOrg then (w, .error 500 "spicedb_error")
        else
          ({ w with rel := w.rel.writeShareWithOrg auth.preferredUsername org.slug },
            .sharedWithOrg org.slug)

/-- And closed to it. -/
def unshareWithOrg (slug : String) : World × Answer :=
  if !validateSlug (trim slug) then (w, .error 400 "invalid_org_slug")
  else if !env.share.spicedb then (w, .error 503 "spicedb_unavailable")
  else if env.fails .shareWithOrg then (w, .error 500 "spicedb_error")
  else
    ({ w with rel := w.rel.deleteShareWithOrg auth.preferredUsername (trim slug) }, .unsharedWithOrg)

/-! ### Public reads -/

/-- May everyone see the record? `none` is a failed check. -/
def checkPublic (handle : String) : Option Bool :=
  if env.share.fails .checkPermission then none else some (handle ∈ w.rel.publicView)

/-- The summary of an open record. -/
def publicSummary (handle : String) : Reply :=
  if !validateHandle handle then .notFound
  else if !env.share.spicedb then err 503 "spicedb_unavailable"
  else renderOr404 (checkPublic w env handle) (renderSummaryScoped w.stores env.share handle none)

/-- The timeline of an open record. -/
def publicTimeline (handle : String) (days : Option ℕ) : Reply :=
  if !validateHandle handle then .notFound
  else
    match resolveTimelineDays days with
    | none => err 400 "invalid_days"
    | some days =>
      if !env.share.spicedb then err 503 "spicedb_unavailable"
      else
        renderOr404 (checkPublic w env handle) (renderTimelineScoped w.stores env.share handle days none)

end Handlers

/-! ### Requests -/

/-- The requests that touch accounts, shares and organisations. -/
inductive Request where
  | signUp (u : User)
  | deleteAccount (auth : AuthenticatedUser) (confirmHandle : String)
  | share (req : Sharing.Request)
  | setVisibility (auth : AuthenticatedUser) (isPublic : Bool)
  | shareWithOrg (auth : AuthenticatedUser) (orgSlug : String)
  | unshareWithOrg (auth : AuthenticatedUser) (slug : String)
  | createOrg (auth : AuthenticatedUser) (name : String)
  | deleteOrg (auth : AuthenticatedUser) (slug : String)
  | addMember (auth : AuthenticatedUser) (slug handle role : String)
  | removeMember (auth : AuthenticatedUser) (slug handle : String)
  | publicSummary (handle : String)
  | publicTimeline (handle : String) (days : Option ℕ)

/-- The token of a request, if it needs one. -/
def Request.auth : Request → Option AuthenticatedUser
  | .deleteAccount auth _ | .setVisibility auth _ | .shareWithOrg auth _ | .unshareWithOrg auth _
  | .createOrg auth _ | .deleteOrg auth _ | .addMember auth _ _ _ | .removeMember auth _ _ => some auth
  | .share req => some req.auth
  | .signUp _ | .publicSummary _ | .publicTimeline _ _ => none

/-- The permission service answers a read of another's record by all its relations. -/
def shareEnv (w : World) (env : WorldEnv) : Sharing.Request → Env
  | .summary auth handle | .timeline auth handle _ =>
    { env.share with otherAccess := w.rel.otherView handle auth.preferredUsername }
  | .add .. | .delete .. => env.share

def serve (w : World) (env : WorldEnv) : Request → World × Answer
  | .signUp u => signUp w env u
  | .deleteAccount auth confirmHandle => deleteAccount w env auth confirmHandle
  | .share req =>
    ({ w with stores := (Sharing.serve w.stores (shareEnv w env req) req).1 },
      .share (Sharing.serve w.stores (shareEnv w env req) req).2)
  | .setVisibility auth isPublic => setVisibility w env auth isPublic
  | .shareWithOrg auth orgSlug => shareWithOrg w env auth orgSlug
  | .unshareWithOrg auth slug => unshareWithOrg w env auth slug
  | .createOrg auth name => createOrg w env auth name
  | .deleteOrg auth slug => deleteOrg w env auth slug
  | .addMember auth slug handle role => addMember w env auth slug handle role
  | .removeMember auth slug handle => removeMember w env auth slug handle
  | .publicSummary handle => (w, .share (Directory.publicSummary w env handle))
  | .publicTimeline handle days => (w, .share (Directory.publicTimeline w env handle days))

def step (w : World) (a : WorldEnv × Request) : World := (serve w a.1 a.2).1

def answer (w : World) (a : WorldEnv × Request) : Answer := (serve w a.1 a.2).2

/-- A world of events without accounts. -/
def start (events : List EventRow) : World := ⟨⟨Table.empty, ∅, Table.empty, events⟩, .empty, Table.empty⟩

def run (events : List EventRow) (as : List (WorldEnv × Request)) : World := as.foldl step (start events)

/-! ### What is granted -/

/-- A relation that lets someone see a record, or makes them one of an organisation. -/
inductive Grant where
  | view (record viewer : String)
  | everyone (record : String)
  | org (record slug : String)
  | role (slug : String) (role : OrgRole) (user : String)
  deriving DecidableEq

/-- The grant stands in the relations. -/
def Holds (w : World) : Grant → Prop
  | .view record viewer => (record, viewer) ∈ w.stores.relations
  | .everyone record => record ∈ w.rel.publicView
  | .org record slug => (record, slug) ∈ w.rel.shareWithOrg
  | .role slug role user => (slug, role, user) ∈ w.rel.roles

/-- What a request grants. -/
def grantOf (w : World) (a : WorldEnv × Request) : Option Grant :=
  match a.2, answer w a with
  | .share (.add auth _), .share (.granted viewer) => some (.view auth.preferredUsername viewer)
  | .setVisibility auth true, .visibility true => some (.everyone auth.preferredUsername)
  | .shareWithOrg auth _, .sharedWithOrg slug => some (.org auth.preferredUsername slug)
  | .createOrg auth _, .created org => some (.role org.slug .owner auth.preferredUsername)
  | .addMember _ slug handle role, .added =>
    match findByHandle w.stores.users (trim handle), parseRole role with
    | some recipient, some role => some (.role slug role recipient.claimedHandle)
    | _, _ => none
  | _, _ => none

/-! ### What a request changes -/

/-- The grant is one that the sender of a request can make: of the sender's own record, or to an
account. -/
def Grantable (w : World) (auth : AuthenticatedUser) : Grant → Prop
  | .view record viewer => record = auth.preferredUsername ∧ IsAccount w.stores.users viewer
  | .everyone record => record = auth.preferredUsername
  | .org record _ => record = auth.preferredUsername
  | .role _ _ user => user = auth.preferredUsername ∨ IsAccount w.stores.users user

/-- Relations may have gone, and nothing else has changed that the accounts could see. -/
structure Fewer (w w' : World) : Prop where
  users : w'.stores.users = w.stores.users
  owners : w'.rel.owners ⊆ w.rel.owners
  holds : ∀ g, Holds w' g → Holds w g

theorem Fewer.refl (w : World) : Fewer w w := ⟨rfl, Finset.Subset.refl _, fun _ h => h⟩

theorem fewer_of_le {w : World} {rel : Relations} {orgs : OrgTable} (h : w.rel.Le rel) :
    Fewer w { w with rel := rel, orgs := orgs } := by
  refine ⟨rfl, h.owners, fun g hg => ?_⟩
  cases g with
  | view record viewer => exact hg
  | everyone record => exact h.publicView hg
  | org record slug => exact h.shareWithOrg hg
  | role slug role user => exact h.roles hg

/-- A request granted something. -/
structure Granted (w w' : World) (auth : AuthenticatedUser) (g : Grant) : Prop where
  users : w'.stores.users = w.stores.users
  owners : w'.rel.owners = w.rel.owners
  holds : ∀ g', Holds w' g' → Holds w g' ∨ g' = g
  able : Grantable w auth g

/-- A new account. -/
structure Joined (w w' : World) (u : User) : Prop where
  new : u.key ∉ w.stores.users.keys
  newId : findById w.stores.users u.id = none
  users : w'.stores.users = w.stores.users.insert u
  owners : w'.rel.owners ⊆ insert (u.claimedHandle, u.claimedHandle) w.rel.owners
  holds : ∀ g, Holds w' g → Holds w g

section Changes
variable (w : World) (env : WorldEnv) (auth : AuthenticatedUser)

theorem joined_signUp {u : User} (h : (signUp w env u).2 = .signedUp) :
    Joined w (signUp w env u).1 u := by
  unfold signUp at h ⊢
  split_ifs at h ⊢ with hvalid hkey hid howner
  · refine ⟨hkey, not_not.mp hid, rfl, Finset.Subset.refl _, fun g hg => ?_⟩
    cases g <;> exact hg
  · refine ⟨hkey, not_not.mp hid, rfl, Finset.subset_insert _ _, fun g hg => ?_⟩
    cases g <;> exact hg

theorem signUp_cases (u : User) : Fewer w (signUp w env u).1 ∨
    (signUp w env u).2 = .signedUp ∧ Joined w (signUp w env u).1 u := by
  by_cases h : (signUp w env u).2 = .signedUp
  · exact Or.inr ⟨h, joined_signUp w env h⟩
  · left
    unfold signUp at h ⊢
    split_ifs at h ⊢
    · exact Fewer.refl w
    · exact Fewer.refl w
    · exact Fewer.refl w
    · exact absurd rfl h
    · exact absurd rfl h

theorem deleteAccount_cases (confirmHandle : String) :
    Fewer w (deleteAccount w env auth confirmHandle).1 ∨
      ∃ u, findById w.stores.users auth.sub = some u ∧
        deleteAccount w env auth confirmHandle = (deleteUser w env u, .accountDeleted) := by
  unfold deleteAccount
  cases hfind : findById w.stores.users auth.sub with
  | none =>
    left
    simp only
    split_ifs <;> exact Fewer.refl w
  | some u =>
    simp only
    split_ifs
    · exact Or.inl (Fewer.refl w)
    · exact Or.inl (Fewer.refl w)
    · exact Or.inl (Fewer.refl w)
    · exact Or.inl (Fewer.refl w)
    · exact Or.inl (Fewer.refl w)
    · exact Or.inr ⟨u, rfl, rfl⟩

theorem setVisibility_cases (isPublic : Bool) :
    Fewer w (setVisibility w env auth isPublic).1 ∨
      isPublic = true ∧ (setVisibility w env auth isPublic).2 = .visibility true ∧
        Granted w (setVisibility w env auth isPublic).1 auth (.everyone auth.preferredUsername) := by
  unfold setVisibility
  cases requireRsiVerified w.stores env.share auth with
  | some reply => exact Or.inl (Fewer.refl w)
  | none =>
    simp only
    split_ifs with hspice hfails hpublic
    · exact Or.inl (Fewer.refl w)
    · exact Or.inl (Fewer.refl w)
    · subst hpublic
      refine Or.inr ⟨rfl, rfl, rfl, rfl, fun g hg => ?_, rfl⟩
      cases g with
      | everyone record =>
        rcases Finset.mem_insert.mp hg with rfl | hg
        · exact Or.inr rfl
        · exact Or.inl hg
      | _ => exact Or.inl hg
    · exact Or.inl (fewer_of_le (Relations.le_deletePublicView _ _))

theorem shareWithOrg_cases (orgSlug : String) :
    Fewer w (shareWithOrg w env auth orgSlug).1 ∨
      ∃ slug, (shareWithOrg w env auth orgSlug).2 = .sharedWithOrg slug ∧
        Granted w (shareWithOrg w env auth orgSlug).1 auth (.org auth.preferredUsername slug) := by
  unfold shareWithOrg
  cases requireRsiVerified w.stores env.share auth with
  | some reply => exact Or.inl (Fewer.refl w)
  | none =>
    cases findBySlug w.orgs (trim orgSlug) with
    | none =>
      left
      simp only
      split_ifs <;> exact Fewer.refl w
    | some org =>
      simp only
      split_ifs
      · exact Or.inl (Fewer.refl w)
      · exact Or.inl (Fewer.refl w)
      · exact Or.inl (Fewer.refl w)
      · exact Or.inl (Fewer.refl w)
      · refine Or.inr ⟨org.slug, rfl, rfl, rfl, fun g hg => ?_, rfl⟩
        cases g with
        | org record slug =>
          rcases Finset.mem_insert.mp hg with heq | hg
          · obtain ⟨rfl, rfl⟩ := Prod.mk.inj heq
            exact Or.inr rfl
          · exact Or.inl hg
        | _ => exact Or.inl hg

theorem fewer_unshareWithOrg (slug : String) : Fewer w (unshareWithOrg w env auth slug).1 := by
  unfold unshareWithOrg
  split_ifs
  · exact Fewer.refl w
  · exact Fewer.refl w
  · exact Fewer.refl w
  · exact fewer_of_le (Relations.le_deleteShareWithOrg _ _ _)

theorem granted_writeOrgRole {orgs : OrgTable} {slug handle : String} {role : OrgRole}
    (h : handle = auth.preferredUsername ∨ IsAccount w.stores.users handle) :
    Granted w { w with orgs := orgs, rel := w.rel.writeOrgRole slug handle role } auth
      (.role slug role handle) := by
  refine ⟨rfl, rfl, fun g hg => ?_, h⟩
  cases g with
  | role slug' role' user =>
    rcases Finset.mem_insert.mp hg with heq | hg
    · obtain ⟨rfl, hrest⟩ := Prod.mk.inj heq
      obtain ⟨rfl, rfl⟩ := Prod.mk.inj hrest
      exact Or.inr rfl
    · exact Or.inl hg
  | _ => exact Or.inl hg

theorem fewer_orgs (orgs : OrgTable) : Fewer w { w with orgs := orgs } := fewer_of_le (Relations.Le.refl _)

theorem fewer_rollback (orgs : OrgTable) (org : Org) :
    Fewer w (rollback { w with orgs := orgs } env org) := by
  unfold rollback
  split_ifs
  · exact fewer_orgs w _
  · exact fewer_orgs w _

theorem createOrg_cases (name : String) : Fewer w (createOrg w env auth name).1 ∨
    ∃ org, (createOrg w env auth name).2 = .created org ∧
      Granted w (createOrg w env auth name).1 auth (.role org.slug .owner auth.preferredUsername) := by
  unfold createOrg
  simp only
  cases (slugCandidates (slugify (trim name))).find? (· ∉ w.orgs.keys) with
  | none =>
    left
    simp only
    split_ifs <;> exact Fewer.refl w
  | some slug =>
    simp only
    split_ifs
    · exact Or.inl (Fewer.refl w)
    · exact Or.inl (Fewer.refl w)
    · exact Or.inl (Fewer.refl w)
    · exact Or.inl (Fewer.refl w)
    · exact Or.inl (Fewer.refl w)
    · exact Or.inl (fewer_rollback w env _ _)
    · exact Or.inl (fewer_rollback w env _ _)
    · exact Or.inr ⟨_, rfl, granted_writeOrgRole w auth (Or.inl rfl)⟩

theorem fewer_deleteOrg (slug : String) : Fewer w (deleteOrg w env auth slug).1 := by
  unfold deleteOrg
  cases findBySlug w.orgs slug with
  | none =>
    simp only
    split_ifs <;> exact Fewer.refl w
  | some org =>
    simp only
    cases gate env (w.rel.manageOrg org.slug auth.preferredUsername) with
    | some answer =>
      simp only
      split_ifs <;> exact Fewer.refl w
    | none =>
      simp only
      split_ifs
      · exact Fewer.refl w
      · exact Fewer.refl w
      · exact Fewer.refl w
      · exact fewer_of_le (Relations.le_deleteAllOrgRelationships _ _ _ _)
      · exact fewer_of_le (Relations.le_deleteAllOrgRelationships _ _ _ _)

theorem findBySlug_eq_some {orgs : OrgTable} {slug : String} {org : Org}
    (h : findBySlug orgs slug = some org) : org.slug = slug :=
  (Table.map_find?_eq_some.mp h).2

theorem addMember_cases (slug handle role : String) : Fewer w (addMember w env auth slug handle role).1 ∨
    ∃ recipient r, findByHandle w.stores.users (trim handle) = some recipient ∧
      parseRole role = some r ∧ (addMember w env auth slug handle role).2 = .added ∧
      Granted w (addMember w env auth slug handle role).1 auth (.role slug r recipient.claimedHandle) := by
  unfold addMember
  cases parseRole role with
  | none =>
    left
    simp only
    split_ifs <;> exact Fewer.refl w
  | some r =>
    cases hfind : findByHandle w.stores.users (trim handle) with
    | none =>
      left
      simp only
      split_ifs <;> exact Fewer.refl w
    | some recipient =>
      cases horg : findBySlug w.orgs slug with
      | none =>
        left
        simp only
        split_ifs <;> exact Fewer.refl w
      | some org =>
        simp only
        cases gate env (w.rel.manageMembers org.slug auth.preferredUsername) with
        | some answer =>
          left
          simp only
          split_ifs <;> exact Fewer.refl w
        | none =>
          obtain rfl := findBySlug_eq_some horg
          have hrecipient : IsAccount w.stores.users recipient.claimedHandle :=
            ⟨recipient, (findByHandle_eq_some.mp hfind).1, rfl⟩
          simp only
          split_ifs
          · exact Or.inl (Fewer.refl w)
          · exact Or.inl (Fewer.refl w)
          · exact Or.inl (Fewer.refl w)
          · exact Or.inl (Fewer.refl w)
          · exact Or.inl (Fewer.refl w)
          · exact Or.inl (Fewer.refl w)
          · exact Or.inr ⟨recipient, r, rfl, rfl, rfl,
              granted_writeOrgRole w auth (Or.inr hrecipient)⟩

theorem fewer_removeMember (slug handle : String) : Fewer w (removeMember w env auth slug handle).1 := by
  unfold removeMember
  cases findBySlug w.orgs slug with
  | none =>
    simp only
    split_ifs <;> exact Fewer.refl w
  | some org =>
    simp only
    cases gate env (w.rel.manageMembers org.slug auth.preferredUsername) with
    | some answer =>
      simp only
      split_ifs <;> exact Fewer.refl w
    | none =>
      have hle := Relations.le_deleteRoles (fun role => env.fails (.deleteRole role))
        (fun t => t.1 = org.slug && t.2.2 = handle) [.owner, .admin, .member] w.rel
      simp only
      cases hdelete : Relations.deleteOrgMemberAllRoles (fun role => env.fails (.deleteRole role)) w.rel
          org.slug handle with
      | mk rel ok =>
        have hfst : _ = rel := congrArg Prod.fst hdelete
        have hrel : w.rel.Le rel := hfst ▸ hle
        cases ok with
        | true =>
          simp only
          split_ifs <;> first | exact Fewer.refl w | exact fewer_of_le hrel
        | false =>
          simp only
          split_ifs <;> first | exact Fewer.refl w | exact fewer_of_le hrel

theorem serve_share (req : Sharing.Request) : serve w env (.share req) =
    ({ w with stores := (Sharing.serve w.stores (shareEnv w env req) req).1 },
      .share (Sharing.serve w.stores (shareEnv w env req) req).2) := rfl

theorem share_cases (req : Sharing.Request) : Fewer w (serve w env (.share req)).1 ∨
    ∃ auth body viewer, req = .add auth body ∧
      (serve w env (.share req)).2 = .share (.granted viewer) ∧
      Granted w (serve w env (.share req)).1 auth (.view auth.preferredUsername viewer) := by
  rcases serve_cases w.stores (shareEnv w env req) req with ⟨auth, body, u, rfl, hu⟩ | hshrinks
  · have hserve := serve_add hu
    refine Or.inr ⟨auth, body, u.claimedHandle, rfl, ?_, ?_⟩
    · rw [serve_share, hserve]
    · rw [serve_share, hserve]
      refine ⟨rfl, rfl, fun g hg => ?_, rfl, u, (grantee_eq_ok hu).1, rfl⟩
      cases g with
      | view record viewer =>
        rcases Finset.mem_insert.mp hg with heq | hg
        · obtain ⟨rfl, rfl⟩ := Prod.mk.inj heq
          exact Or.inr rfl
        · exact Or.inl hg
      | _ => exact Or.inl hg
  · refine Or.inl ⟨hshrinks.users, Finset.Subset.refl _, fun g hg => ?_⟩
    cases g with
    | view record viewer => exact hshrinks.relations hg
    | _ => exact hg

end Changes

/-- **What a request does**: relations go, or an account comes or goes, or something is granted. -/
theorem step_cases (w : World) (a : WorldEnv × Request) : Fewer w (step w a) ∨
    (∃ u, a.2 = .signUp u ∧ answer w a = .signedUp ∧ Joined w (step w a) u) ∨
    (∃ auth confirmHandle u, a.2 = .deleteAccount auth confirmHandle ∧
      findById w.stores.users auth.sub = some u ∧ answer w a = .accountDeleted ∧
      step w a = deleteUser w a.1 u) ∨
    ∃ auth g, a.2.auth = some auth ∧ grantOf w a = some g ∧ Granted w (step w a) auth g := by
  obtain ⟨env, r⟩ := a
  cases r with
  | signUp u =>
    rcases signUp_cases w env u with h | ⟨hanswer, h⟩
    · exact Or.inl h
    · exact Or.inr (Or.inl ⟨u, rfl, hanswer, h⟩)
  | deleteAccount auth confirmHandle =>
    rcases deleteAccount_cases w env auth confirmHandle with h | ⟨u, hu, h⟩
    · exact Or.inl h
    · exact Or.inr (Or.inr (Or.inl ⟨auth, confirmHandle, u, rfl, hu, congrArg Prod.snd h,
        congrArg Prod.fst h⟩))
  | share req =>
    rcases share_cases w env req with h | ⟨auth, body, viewer, rfl, hanswer, h⟩
    · exact Or.inl h
    · refine Or.inr (Or.inr (Or.inr ⟨auth, _, rfl, ?_, h⟩))
      unfold grantOf answer
      simp only [hanswer]
  | setVisibility auth isPublic =>
    rcases setVisibility_cases w env auth isPublic with h | ⟨rfl, hanswer, h⟩
    · exact Or.inl h
    · refine Or.inr (Or.inr (Or.inr ⟨auth, _, rfl, ?_, h⟩))
      have hserve : answer w (env, .setVisibility auth true) = .visibility true := hanswer
      unfold grantOf
      simp only [hserve]
  | shareWithOrg auth orgSlug =>
    rcases shareWithOrg_cases w env auth orgSlug with h | ⟨slug, hanswer, h⟩
    · exact Or.inl h
    · refine Or.inr (Or.inr (Or.inr ⟨auth, _, rfl, ?_, h⟩))
      have hserve : answer w (env, .shareWithOrg auth orgSlug) = .sharedWithOrg slug := hanswer
      unfold grantOf
      simp only [hserve]
  | unshareWithOrg auth slug => exact Or.inl (fewer_unshareWithOrg w env auth slug)
  | createOrg auth name =>
    rcases createOrg_cases w env auth name with h | ⟨org, hanswer, h⟩
    · exact Or.inl h
    · refine Or.inr (Or.inr (Or.inr ⟨auth, _, rfl, ?_, h⟩))
      have hserve : answer w (env, .createOrg auth name) = .created org := hanswer
      unfold grantOf
      simp only [hserve]
  | deleteOrg auth slug => exact Or.inl (fewer_deleteOrg w env auth slug)
  | addMember auth slug handle role =>
    rcases addMember_cases w env auth slug handle role with h | ⟨recipient, r, hfind, hrole, hanswer, h⟩
    · exact Or.inl h
    · refine Or.inr (Or.inr (Or.inr ⟨auth, _, rfl, ?_, h⟩))
      have hserve : answer w (env, .addMember auth slug handle role) = .added := hanswer
      unfold grantOf
      simp only [hserve, hfind, hrole]
  | removeMember auth slug handle => exact Or.inl (fewer_removeMember w env auth slug handle)
  | publicSummary handle => exact Or.inl (Fewer.refl w)
  | publicTimeline handle days => exact Or.inl (Fewer.refl w)

theorem holds_deleteUser {w : World} {env : WorldEnv} {u : User} {g : Grant} :
    Holds (deleteUser w env u) g ↔ Holds w g := by
  cases g <;> exact Iff.rfl

/-- **A relation that holds after a request held before it, or was granted by it.** -/
theorem holds_step {w : World} {a : WorldEnv × Request} {g : Grant} (h : Holds (step w a) g) :
    Holds w g ∨ grantOf w a = some g := by
  rcases step_cases w a with hfewer | ⟨u, -, -, hjoined⟩ | ⟨_, _, u, -, -, -, hdelete⟩ |
    ⟨auth, g', -, hgrant, hgranted⟩
  · exact Or.inl (hfewer.holds g h)
  · exact Or.inl (hjoined.holds g h)
  · rw [hdelete] at h
    exact Or.inl (holds_deleteUser.mp h)
  · rcases hgranted.holds g h with hold | rfl
    · exact Or.inl hold
    · exact Or.inr hgrant

end StarStats.Server.Directory
