import StarStats.Server.Directory

/-! # What requests do to organisations

A request about an organisation is let work on it (`reached`) or changes nothing; a creation inserts a row
(`newOrg`) or changes nothing. For each handler one lemma says what it does then. -/

namespace StarStats.Server.Directory

open StarStats.Lib.Text StarStats.Lib.Tables
open StarStats.Server.Auth StarStats.Server.Accounts StarStats.Server.Queries
open StarStats.Server.Sharing StarStats.Server.Spicedb StarStats.Server.Orgs

section Handlers
variable (w : World) (env : WorldEnv) (auth : AuthenticatedUser)

/-! ### The organisation of a request -/

/-- The organisation of a slug, for a sender that passes the check of a permission. -/
def reached (allowed : String → String → Bool) (slug : String) : Option Org :=
  if validateSlug slug && env.share.spicedb && !env.fails .findBySlug &&
      !env.share.fails .checkPermission then
    (findBySlug w.orgs slug).filter fun org => allowed org.slug auth.preferredUsername
  else none

theorem gate_eq_none {env : WorldEnv} {allowed : Bool} :
    gate env allowed = none ↔ env.share.fails .checkPermission = false ∧ allowed = true := by
  unfold gate
  cases env.share.fails .checkPermission <;> cases allowed <;> simp

variable {w env auth} in
theorem reached_eq_some {allowed : String → String → Bool} {slug : String} {org : Org} :
    reached w env auth allowed slug = some org ↔
      (validateSlug slug = true ∧ env.share.spicedb = true ∧ env.fails .findBySlug = false) ∧
        findBySlug w.orgs slug = some org ∧
          gate env (allowed org.slug auth.preferredUsername) = none := by
  unfold reached
  rw [gate_eq_none]
  split_ifs with h
  · simp only [Bool.and_eq_true, Bool.not_eq_true'] at h
    rw [Option.filter_eq_some_iff]
    tauto
  · simp only [Bool.and_eq_true, Bool.not_eq_true'] at h
    simp only [false_iff]
    tauto

variable {w env auth} in
theorem mem_of_findBySlug {slug : String} {org : Org} (h : findBySlug w.orgs slug = some org) :
    org ∈ w.orgs.contents ∧ org.slug = slug := Table.map_find?_eq_some.mp h

/-- The row that a creation inserts. -/
def newOrg (name : String) : Option Org :=
  if trim name = "" || slugify (trim name) = "" || !env.share.isUuid auth.sub ||
      env.fails .create || findById w.stores.users auth.sub = none then none
  else
    ((slugCandidates (slugify (trim name))).find? (· ∉ w.orgs.keys)).map
      fun slug => ⟨env.uuid, trim name, slug, auth.sub⟩

/-! ### Handlers -/

variable {w env auth}

theorem newOrg_slug {name : String} {org : Org} (h : newOrg w env auth name = some org) :
    org.slug ∉ w.orgs.keys ∧ org.id = env.uuid := by
  unfold newOrg at h
  split_ifs at h
  obtain ⟨slug, hslug, rfl⟩ := Option.map_eq_some_iff.mp h
  have hfree := List.find?_some hslug
  exact ⟨by simpa using hfree, rfl⟩

theorem createOrg_of_none {name : String} (h : newOrg w env auth name = none) :
    (createOrg w env auth name).1 = w ∧ ∀ org, (createOrg w env auth name).2 ≠ .created org := by
  unfold newOrg at h
  unfold createOrg
  simp only
  cases hslug : (slugCandidates (slugify (trim name))).find? (· ∉ w.orgs.keys) with
  | none =>
    simp only
    split_ifs <;> simp
  | some slug =>
    have hchecks : (decide (trim name = "") || decide (slugify (trim name) = "") ||
        !env.share.isUuid auth.sub || env.fails .create ||
        decide (findById w.stores.users auth.sub = none)) = true := by
      by_contra hno
      rw [if_neg hno, hslug] at h
      cases h
    simp only
    split_ifs <;> simp_all

/-- **A creation** inserts a row and writes its creator's role, or takes the row back if it can. -/
theorem createOrg_of_some {name : String} {org : Org} (h : newOrg w env auth name = some org) :
    createOrg w env auth name =
      if env.share.spicedb = true ∧ env.fails .writeRole = false then
        ({ w with orgs := w.orgs.insert org,
                  rel := w.rel.writeOrgRole org.slug auth.preferredUsername .owner }, .created org)
      else
        (rollback { w with orgs := w.orgs.insert org } env org,
          if env.share.spicedb then .error 500 "spicedb_error" else .error 503 "spicedb_unavailable") := by
  unfold newOrg at h
  split_ifs at h with hchecks
  obtain ⟨slug, hslug, rfl⟩ := Option.map_eq_some_iff.mp h
  simp only [Bool.or_eq_true, decide_eq_true_eq, Bool.not_eq_true', not_or, Bool.not_eq_false,
    Bool.not_eq_true] at hchecks
  obtain ⟨⟨⟨⟨hname, hbase⟩, huuid⟩, hcreate⟩, huser⟩ := hchecks
  unfold createOrg
  simp only [hname, hbase, huuid, hcreate, huser, hslug]
  cases env.share.spicedb <;> cases env.fails .writeRole <;> simp

theorem deleteOrg_of_none {slug : String} (h : reached w env auth w.rel.manageOrg slug = none) :
    (deleteOrg w env auth slug).1 = w ∧ (deleteOrg w env auth slug).2 ≠ .orgDeleted := by
  have hno : ∀ org, ¬ reached w env auth w.rel.manageOrg slug = some org := fun org hsome => by
    rw [h] at hsome
    cases hsome
  unfold deleteOrg
  cases horg : findBySlug w.orgs slug with
  | none =>
    simp only
    split_ifs <;> simp
  | some org =>
    have hgate := hno org
    rw [reached_eq_some] at hgate
    simp only
    cases hg : gate env (w.rel.manageOrg org.slug auth.preferredUsername) with
    | some answer =>
      have hne : answer ≠ .orgDeleted := by
        unfold gate at hg
        split_ifs at hg <;> obtain rfl := Option.some.inj hg <;> simp
      simp only
      split_ifs <;> simp [hne]
    | none =>
      simp only
      split_ifs <;> simp_all

/-- **A deletion** deletes relations as far as the calls go, and then the row. -/
theorem deleteOrg_of_some {slug : String} {org : Org}
    (h : reached w env auth w.rel.manageOrg slug = some org) :
    deleteOrg w env auth slug =
      let rel := (Relations.deleteAllOrgRelationships (fun role => env.fails (.deleteRole role))
        (env.fails .deleteShares) w.rel org.slug).1
      if env.fails .deleteOrg then ({ w with rel := rel }, .error 500 "internal")
      else ({ w with rel := rel, orgs := w.orgs.deleteWhere (·.id = org.id) }, .orgDeleted) := by
  obtain ⟨⟨hvalid, hspice, hfails⟩, hfind, hgate⟩ := reached_eq_some.mp h
  unfold deleteOrg
  simp only [hvalid, hspice, hfails, hfind, hgate, Bool.not_true, Bool.false_eq_true, if_false]

theorem removeMember_of_none {slug handle : String}
    (h : validateHandle handle = false ∨ reached w env auth w.rel.manageMembers slug = none) :
    (removeMember w env auth slug handle).1 = w ∧
      (removeMember w env auth slug handle).2 ≠ .removed := by
  have hno : ∀ org, validateHandle handle = true → ¬ reached w env auth w.rel.manageMembers slug =
      some org := by
    rintro org hvalid hsome
    rcases h with h | h
    · exact Bool.false_ne_true (h.symm.trans hvalid)
    · simp [h] at hsome
  unfold removeMember
  cases horg : findBySlug w.orgs slug with
  | none =>
    simp only
    split_ifs <;> simp
  | some org =>
    have hgate := hno org
    rw [reached_eq_some] at hgate
    simp only
    cases hg : gate env (w.rel.manageMembers org.slug auth.preferredUsername) with
    | some answer =>
      have hne : answer ≠ .removed := by
        unfold gate at hg
        split_ifs at hg <;> obtain rfl := Option.some.inj hg <;> simp
      simp only
      split_ifs <;> simp [hne]
    | none =>
      simp only
      split_ifs <;> simp_all

/-- **A removal** deletes the roles of the handle in the path. -/
theorem removeMember_of_some {slug handle : String} {org : Org} (hvalid : validateHandle handle = true)
    (h : reached w env auth w.rel.manageMembers slug = some org) :
    removeMember w env auth slug handle =
      let deleted := Relations.deleteOrgMemberAllRoles (fun role => env.fails (.deleteRole role)) w.rel
        org.slug handle
      ({ w with rel := deleted.1 }, if deleted.2 then .removed else .error 500 "spicedb_error") := by
  obtain ⟨⟨hslug, hspice, hfails⟩, hfind, hgate⟩ := reached_eq_some.mp h
  unfold removeMember
  simp only [hvalid, hslug, hspice, hfails, hfind, hgate, Bool.not_true, Bool.false_eq_true, if_false]
  rcases Relations.deleteOrgMemberAllRoles (fun role => env.fails (.deleteRole role)) w.rel org.slug
    handle with ⟨rel, _ | _⟩ <;> rfl

end Handlers

/-! ### What a request changes -/

/-- Rows, roles and shares of organisations stay as they are. -/
structure SameOrgs (w w' : World) : Prop where
  orgs : w'.orgs = w.orgs
  roles : w'.rel.roles = w.rel.roles
  shares : w'.rel.shareWithOrg = w.rel.shareWithOrg

theorem SameOrgs.of_eq {w w' : World} (h : w' = w) : SameOrgs w w' := by
  subst h
  exact ⟨rfl, rfl, rfl⟩

/-- What a request does to organisations. -/
inductive OrgChange (w : World) (env : WorldEnv) : Request → Prop
  | same {r : Request} (h : SameOrgs w (serve w env r).1) : OrgChange w env r
  | accountDeleted {auth : AuthenticatedUser} {confirmHandle : String} {u : User}
      (hfind : findById w.stores.users auth.sub = some u)
      (h : deleteAccount w env auth confirmHandle = (deleteUser w env u, .accountDeleted)) :
      OrgChange w env (.deleteAccount auth confirmHandle)
  | shared {auth : AuthenticatedUser} {slug : String} {org : Org} (horg : org ∈ w.orgs.contents)
      (h : shareWithOrg w env auth slug =
        ({ w with rel := w.rel.writeShareWithOrg auth.preferredUsername org.slug },
          .sharedWithOrg org.slug)) : OrgChange w env (.shareWithOrg auth slug)
  | unshared {auth : AuthenticatedUser} {slug : String}
      (h : unshareWithOrg w env auth slug =
        ({ w with rel := w.rel.deleteShareWithOrg auth.preferredUsername (trim slug) },
          .unsharedWithOrg)) : OrgChange w env (.unshareWithOrg auth slug)
  | created {auth : AuthenticatedUser} {name : String} {org : Org}
      (h : newOrg w env auth name = some org) : OrgChange w env (.createOrg auth name)
  | deleted {auth : AuthenticatedUser} {slug : String} {org : Org}
      (h : reached w env auth w.rel.manageOrg slug = some org) : OrgChange w env (.deleteOrg auth slug)
  | added {auth : AuthenticatedUser} {slug handle role user : String} {r : OrgRole} {org : Org}
      (horg : org ∈ w.orgs.contents)
      (h : addMember w env auth slug handle role =
        ({ w with rel := w.rel.writeOrgRole org.slug user r }, .added)) :
      OrgChange w env (.addMember auth slug handle role)
  | removed {auth : AuthenticatedUser} {slug handle : String} {org : Org}
      (hvalid : validateHandle handle = true)
      (h : reached w env auth w.rel.manageMembers slug = some org) :
      OrgChange w env (.removeMember auth slug handle)

section Changes
variable {w : World} {env : WorldEnv}

theorem deleteAccount_orgs (auth : AuthenticatedUser) (confirmHandle : String) :
    OrgChange w env (.deleteAccount auth confirmHandle) := by
  have hcases : (deleteAccount w env auth confirmHandle).1 = w ∨
      ∃ u, findById w.stores.users auth.sub = some u ∧
        deleteAccount w env auth confirmHandle = (deleteUser w env u, .accountDeleted) := by
    unfold deleteAccount
    cases findById w.stores.users auth.sub with
    | none =>
      simp only
      split_ifs <;> simp
    | some u =>
      simp only
      split_ifs <;> simp
  rcases hcases with hsame | ⟨u, hfind, h⟩
  · exact .same (SameOrgs.of_eq hsame)
  · exact .accountDeleted hfind h

theorem setVisibility_orgs (auth : AuthenticatedUser) (isPublic : Bool) :
    SameOrgs w (setVisibility w env auth isPublic).1 := by
  unfold setVisibility
  cases requireRsiVerified w.stores env.share auth with
  | some reply => exact SameOrgs.of_eq rfl
  | none =>
    simp only
    split_ifs
    · exact SameOrgs.of_eq rfl
    · exact SameOrgs.of_eq rfl
    · exact ⟨rfl, rfl, rfl⟩
    · exact ⟨rfl, rfl, rfl⟩

theorem shareWithOrg_orgs (auth : AuthenticatedUser) (slug : String) :
    OrgChange w env (.shareWithOrg auth slug) := by
  have hcases : (shareWithOrg w env auth slug).1 = w ∨ ∃ org ∈ w.orgs.contents,
      shareWithOrg w env auth slug =
        ({ w with rel := w.rel.writeShareWithOrg auth.preferredUsername org.slug },
          .sharedWithOrg org.slug) := by
    unfold shareWithOrg
    cases requireRsiVerified w.stores env.share auth with
    | some reply => exact Or.inl rfl
    | none =>
      cases hfind : findBySlug w.orgs (trim slug) with
      | none =>
        simp only
        split_ifs <;> simp
      | some org =>
        have horg := (mem_of_findBySlug hfind).1
        simp only
        split_ifs
        · exact Or.inl rfl
        · exact Or.inl rfl
        · exact Or.inl rfl
        · exact Or.inl rfl
        · exact Or.inr ⟨org, horg, rfl⟩
  rcases hcases with hsame | ⟨org, horg, h⟩
  · exact .same (SameOrgs.of_eq hsame)
  · exact .shared horg h

theorem unshareWithOrg_orgs (auth : AuthenticatedUser) (slug : String) :
    OrgChange w env (.unshareWithOrg auth slug) := by
  have hcases : (unshareWithOrg w env auth slug).1 = w ∨ unshareWithOrg w env auth slug =
      ({ w with rel := w.rel.deleteShareWithOrg auth.preferredUsername (trim slug) },
        .unsharedWithOrg) := by
    unfold unshareWithOrg
    split_ifs <;> simp
  rcases hcases with hsame | h
  · exact .same (SameOrgs.of_eq hsame)
  · exact .unshared h

theorem addMember_orgs (auth : AuthenticatedUser) (slug handle role : String) :
    OrgChange w env (.addMember auth slug handle role) := by
  have hcases : (addMember w env auth slug handle role).1 = w ∨
      ∃ org ∈ w.orgs.contents, ∃ user r, addMember w env auth slug handle role =
        ({ w with rel := w.rel.writeOrgRole org.slug user r }, .added) := by
    unfold addMember
    cases parseRole role with
    | none =>
      simp only
      split_ifs <;> simp
    | some r =>
      cases findByHandle w.stores.users (trim handle) with
      | none =>
        simp only
        split_ifs <;> simp
      | some recipient =>
        cases hfind : findBySlug w.orgs slug with
        | none =>
          simp only
          split_ifs <;> simp
        | some org =>
          have horg := (mem_of_findBySlug hfind).1
          simp only
          cases gate env (w.rel.manageMembers org.slug auth.preferredUsername) with
          | some answer =>
            simp only
            split_ifs <;> simp
          | none =>
            simp only
            split_ifs
            · exact Or.inl rfl
            · exact Or.inl rfl
            · exact Or.inl rfl
            · exact Or.inl rfl
            · exact Or.inl rfl
            · exact Or.inl rfl
            · exact Or.inr ⟨org, horg, recipient.claimedHandle, r, rfl⟩
  rcases hcases with hsame | ⟨org, horg, user, r, h⟩
  · exact .same (SameOrgs.of_eq hsame)
  · exact .added horg h

/-- **What a request does to organisations.** -/
theorem orgChange (w : World) (env : WorldEnv) (r : Request) : OrgChange w env r := by
  cases r with
  | signUp u =>
    refine .same ?_
    simp only [serve, signUp]
    split_ifs <;> exact ⟨rfl, rfl, rfl⟩
  | deleteAccount auth confirmHandle => exact deleteAccount_orgs auth confirmHandle
  | share req => exact .same ⟨rfl, rfl, rfl⟩
  | setVisibility auth isPublic => exact .same (setVisibility_orgs auth isPublic)
  | shareWithOrg auth slug => exact shareWithOrg_orgs auth slug
  | unshareWithOrg auth slug => exact unshareWithOrg_orgs auth slug
  | createOrg auth name =>
    cases hnew : newOrg w env auth name with
    | none => exact .same (SameOrgs.of_eq (createOrg_of_none hnew).1)
    | some org => exact .created hnew
  | deleteOrg auth slug =>
    cases hreach : reached w env auth w.rel.manageOrg slug with
    | none => exact .same (SameOrgs.of_eq (deleteOrg_of_none hreach).1)
    | some org => exact .deleted hreach
  | addMember auth slug handle role => exact addMember_orgs auth slug handle role
  | removeMember auth slug handle =>
    by_cases hvalid : validateHandle handle = true
    · cases hreach : reached w env auth w.rel.manageMembers slug with
      | none => exact .same (SameOrgs.of_eq (removeMember_of_none (Or.inr hreach)).1)
      | some org => exact .removed hvalid hreach
    · exact .same (SameOrgs.of_eq (removeMember_of_none (Or.inl (by simpa using hvalid))).1)
  | publicSummary handle => exact .same ⟨rfl, rfl, rfl⟩
  | publicTimeline handle days => exact .same ⟨rfl, rfl, rfl⟩

end Changes

end StarStats.Server.Directory
