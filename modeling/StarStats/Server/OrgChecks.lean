import StarStats.Server.RouteChecks

/-! # Organisations that stay as they are

A handler of an organisation asks the permission service before it writes, and writes more than once: what
is written is taken back, or may be gone although the answer is an error. -/

namespace StarStats.Server.Routes

open StarStats.Lib.Text StarStats.Lib.Tables
open StarStats.Server.Auth StarStats.Server.Accounts
open StarStats.Server.Orgs (World validateSlug slugify slugCandidates findBySlug parseRole)
open StarStats.Server.OwnRecord (Site)
open StarStats.Server.Spicedb (OrgRole Relations)

section Conditions
variable (s : Stores) (env : Env) (auth : AuthenticatedUser)

/-- The organisation cannot be looked up, or the caller may not do this to it. -/
def OrgTurnedAway (allows : String → Bool) (slug : String) : Prop :=
  env.site.world.share.spicedb = false ∨ env.site.world.fails .findBySlug = true ∨
    ∀ org, findBySlug s.site.orgs slug = some org →
      env.site.world.share.fails .checkPermission = true ∨ allows org.slug = false

/-- The roles that a deletion takes, as far as it comes. -/
def rolesTaken : List OrgRole :=
  Relations.calledRoles (fun role => env.site.world.fails (.deleteRole role)) [.owner, .admin, .member]

/-- The deletion of one of the roles fails. -/
def RoleFails : Prop := ∃ role, env.site.world.fails (.deleteRole role) = true

/-- No role is deleted of those that could be. -/
def RolesStay (p : String × OrgRole × String → Prop) : Prop :=
  ∀ t ∈ s.site.rel.roles, p t → t.2.1 ∉ rolesTaken env

end Conditions

section Handlers
variable {s : Stores} {env : Env} {auth : AuthenticatedUser}

theorem turned_listOrgs : Turned (listOrgs s env auth) ↔
    env.isUuid auth.sub = false ∨ env.fails .listForOwner = true := by
  unfold listOrgs
  simp only [turned_check_bind, turned_pure, or_false, Bool.not_eq_true']

theorem turned_getOrg {slug : String} : Turned (getOrg s env auth slug) ↔
    validateSlug slug = false ∨ env.site.world.share.spicedb = false ∨
      env.site.world.fails .findBySlug = true ∨ ∀ org, findBySlug s.site.orgs slug = some org →
        env.fails .checkView = true ∨ s.site.rel.orgView org.slug auth.preferredUsername = false ∨
          env.fails .listMembers = true := by
  unfold getOrg
  simp only [turned_check_bind, turned_checkFound_bind, turned_ofOption_bind, turned_pure, or_false,
    Bool.not_eq_true']
  cases Orgs.findBySlug s.site.orgs slug <;> simp

/-! ### Answers of organisations -/

section World
variable {w : World} {a : Orgs.Answer} {r : World × Orgs.Answer} {p : Prop} [Decidable p]

theorem unchanged_setWorld_iff : Unchanged s (s.setWorld w) ↔
    w.orgs.contents = s.site.orgs.contents ∧ w.stores.relations = s.site.relations ∧
      w.stores.metadata = s.site.metadata ∧ w.rel = s.site.rel := by
  constructor
  · rintro ⟨horgs, hothers⟩
    have h := hothers s.site.orgs
    exact ⟨horgs, congrArg (·.site.relations) h, congrArg (·.site.metadata) h, congrArg (·.site.rel) h⟩
  · rintro ⟨horgs, hrelations, hmetadata, hrel⟩
    refine ⟨horgs, fun orgs => ?_⟩
    simp only [Stores.setWorld, Site.set, hrelations, hmetadata, hrel]

theorem turnsAway_inWorld_of_turned (h : Turned (ofDirectory a)) :
    TurnsAway s (inWorld s (s.site.world, a)) :=
  ⟨.refl s, h⟩

@[simp] theorem turnsAway_inWorld_error {status : ℕ} {code : String} :
    TurnsAway s (inWorld s (s.site.world, .error status code)) ↔ True :=
  iff_true_intro (turnsAway_inWorld_of_turned (turned_reject.mpr trivial))

@[simp] theorem turnsAway_inWorld_notFound :
    TurnsAway s (inWorld s (s.site.world, .notFound)) ↔ True :=
  iff_true_intro (turnsAway_inWorld_of_turned (turned_error.mpr trivial))

theorem turnsAway_inWorld_ite_error {status : ℕ} {code : String} :
    TurnsAway s (inWorld s (if p then (s.site.world, .error status code) else r)) ↔
      p ∨ TurnsAway s (inWorld s r) := by
  by_cases h : p <;> simp [h]

theorem turnsAway_inWorld_ite_notFound :
    TurnsAway s (inWorld s (if p then (s.site.world, .notFound) else r)) ↔
      p ∨ TurnsAway s (inWorld s r) := by
  by_cases h : p <;> simp [h]

theorem turnsAway_inWorld_error_iff {status : ℕ} {code : String} :
    TurnsAway s (inWorld s (w, .error status code)) ↔ Unchanged s (s.setWorld w) :=
  ⟨fun h => h.unchanged, fun h => ⟨h, turned_reject.mpr trivial⟩⟩

theorem not_turnsAway_inWorld (h : ¬ Turned (ofDirectory a)) : ¬ TurnsAway s (inWorld s (w, a)) :=
  fun hturns => h hturns.turned

@[simp] theorem turnsAway_inWorld_added : TurnsAway s (inWorld s (w, .added)) ↔ False :=
  iff_false_intro (not_turnsAway_inWorld turned_ok.mp)

@[simp] theorem turnsAway_inWorld_removed : TurnsAway s (inWorld s (w, .removed)) ↔ False :=
  iff_false_intro (not_turnsAway_inWorld turned_ok.mp)

@[simp] theorem turnsAway_inWorld_orgDeleted : TurnsAway s (inWorld s (w, .orgDeleted)) ↔ False :=
  iff_false_intro (not_turnsAway_inWorld turned_ok.mp)

@[simp] theorem turnsAway_inWorld_created {org : Orgs.Org} :
    TurnsAway s (inWorld s (w, .created org)) ↔ False :=
  iff_false_intro (not_turnsAway_inWorld turned_ok.mp)

end World

/-- A permission that is not there, or cannot be checked. -/
theorem gate_cases (env : Orgs.WorldEnv) (allowed : Bool) :
    (∃ status code, Orgs.gate env allowed = some (.error status code)) ∧
        (env.share.fails .checkPermission = true ∨ allowed = false) ∨
      Orgs.gate env allowed = none ∧ env.share.fails .checkPermission = false ∧ allowed = true := by
  unfold Orgs.gate
  cases env.share.fails .checkPermission <;> cases allowed <;> simp

theorem turnsAway_addMember {slug handle role : String} :
    TurnsAway s (inWorld s (Orgs.addMember s.site.world env.site.world auth slug handle role)) ↔
      validateSlug slug = false ∨ validateHandle (trim handle) = false ∨
      parseRole role = none ∨ env.site.world.share.fails .findByHandle = true ∨
      findByHandle s.site.users (trim handle) = none ∨
      OrgTurnedAway s env (s.site.rel.manageMembers · auth.preferredUsername) slug ∨
      env.site.world.fails .writeRole = true := by
  have husers : s.site.world.stores.users = s.site.users := rfl
  have horgs : s.site.world.orgs = s.site.orgs := rfl
  have hrel : s.site.world.rel = s.site.rel := rfl
  unfold Orgs.addMember OrgTurnedAway
  simp only [turnsAway_inWorld_ite_error, Bool.not_eq_true', husers, horgs, hrel]
  cases parseRole role with
  | none => simp
  | some r =>
    simp only [turnsAway_inWorld_ite_error]
    cases findByHandle s.site.users (trim handle) with
    | none => simp
    | some recipient =>
      simp only [turnsAway_inWorld_ite_error]
      cases findBySlug s.site.orgs slug with
      | none => simp
      | some org =>
        rcases gate_cases env.site.world (s.site.rel.manageMembers org.slug auth.preferredUsername) with
          ⟨⟨status, code, hgate⟩, hnot⟩ | ⟨hgate, hfails, hallowed⟩
        · simp only [hgate]
          simp [hnot]
        · simp only [hgate]
          simp [hfails, hallowed, turnsAway_inWorld_ite_error, or_assoc]

theorem snd_deleteRoles_eq_false {p : String × OrgRole × String → Bool} {rel : Relations} :
    (Relations.deleteRoles (fun role => env.site.world.fails (.deleteRole role)) p [.owner, .admin, .member]
      rel).2 = false ↔ RoleFails env := by
  rw [← Bool.not_eq_true, Relations.snd_deleteRoles]
  constructor
  · intro h
    push Not at h
    obtain ⟨role, -, hfails⟩ := h
    exact ⟨role, by simpa using hfails⟩
  · rintro ⟨role, hfails⟩ h
    have hok := h role (by cases role <;> decide)
    simp [hfails] at hok

theorem deleteOrgMemberAllRoles_eq_iff {slug handle : String} :
    Relations.deleteOrgMemberAllRoles (fun role => env.site.world.fails (.deleteRole role)) s.site.rel slug
        handle = (s.site.rel, false) ↔
      RoleFails env ∧ RolesStay s env fun t => t.1 = slug ∧ t.2.2 = handle := by
  unfold Relations.deleteOrgMemberAllRoles RolesStay rolesTaken
  rw [Prod.ext_iff, Relations.fst_deleteRoles, Relations.filter_roles_eq_iff, snd_deleteRoles_eq_false,
    and_comm]
  simp only [Bool.and_eq_true, decide_eq_true_eq, not_and']

theorem deleteAllOrgRelationships_eq_iff {slug : String} :
    (Relations.deleteAllOrgRelationships (fun role => env.site.world.fails (.deleteRole role))
        (env.site.world.fails .deleteShares) s.site.rel slug).1 = s.site.rel ↔
      RolesStay s env (·.1 = slug) ∧ (RoleFails env ∨ env.site.world.fails .deleteShares = true ∨
        ∀ t ∈ s.site.rel.shareWithOrg, t.2 ≠ slug) := by
  have hfst := @Relations.fst_deleteRoles (fun role => env.site.world.fails (.deleteRole role))
    (fun t => decide (t.1 = slug)) [.owner, .admin, .member] s.site.rel
  have hsnd := @snd_deleteRoles_eq_false env (fun t => decide (t.1 = slug)) s.site.rel
  have hroles : RolesStay s env (·.1 = slug) ↔
      { s.site.rel with roles := s.site.rel.roles.filter fun t => ¬ (t.2.1 ∈ rolesTaken env ∧
        decide (t.1 = slug) = true) } = s.site.rel := by
    rw [Relations.filter_roles_eq_iff]
    simp only [RolesStay, decide_eq_true_eq, not_and']
  rw [hroles]
  unfold Relations.deleteAllOrgRelationships
  rcases hdelete : Relations.deleteRoles (fun role => env.site.world.fails (.deleteRole role))
    (fun t => decide (t.1 = slug)) [.owner, .admin, .member] s.site.rel with ⟨rel, _ | _⟩
  · rw [hdelete] at hfst hsnd
    simp only [hsnd.mp rfl, true_or, and_true]
    rw [show rel = _ from hfst]
    rfl
  · rw [hdelete] at hfst hsnd
    have hno : ¬ RoleFails env := fun h => Bool.true_eq_false.mp (hsnd.mpr h)
    have hrel : rel = _ := hfst
    simp only [hno, false_or]
    cases env.site.world.fails .deleteShares with
    | true =>
      simp only [if_true, true_or, and_true]
      rw [hrel]
      rfl
    | false =>
      simp only [Bool.false_eq_true, if_false, false_or]
      rw [hrel]
      constructor
      · intro h
        have hshares := Finset.filter_eq_self.mp (congrArg (·.shareWithOrg) h)
        refine ⟨?_, by simpa using hshares⟩
        have hkept := congrArg (·.roles) h
        rw [Relations.filter_roles_eq_iff]
        exact Finset.filter_eq_self.mp hkept
      · rintro ⟨hkept, hshares⟩
        have hsame : s.site.rel.shareWithOrg.filter (·.2 ≠ slug) = s.site.rel.shareWithOrg :=
          Finset.filter_eq_self.mpr hshares
        simp only [hsame]
        exact hkept

theorem turnsAway_removeMember {slug handle : String} :
    TurnsAway s (inWorld s (Orgs.removeMember s.site.world env.site.world auth slug handle)) ↔
      validateSlug slug = false ∨ validateHandle handle = false ∨
      OrgTurnedAway s env (s.site.rel.manageMembers · auth.preferredUsername) slug ∨
      RoleFails env ∧ ∀ org, findBySlug s.site.orgs slug = some org →
        RolesStay s env fun t => t.1 = org.slug ∧ t.2.2 = handle := by
  have horgs : s.site.world.orgs = s.site.orgs := rfl
  have hrel : s.site.world.rel = s.site.rel := rfl
  unfold Orgs.removeMember OrgTurnedAway
  simp only [turnsAway_inWorld_ite_error, Bool.not_eq_true', horgs, hrel]
  cases findBySlug s.site.orgs slug with
  | none => simp
  | some org =>
    rcases gate_cases env.site.world (s.site.rel.manageMembers org.slug auth.preferredUsername) with
      ⟨⟨status, code, hgate⟩, hnot⟩ | ⟨hgate, hfails, hallowed⟩
    · simp only [hgate]
      simp [hnot]
    · have hstay := @deleteOrgMemberAllRoles_eq_iff s env org.slug handle
      simp only [hgate]
      simp only [Option.some.injEq, forall_eq', hfails, hallowed, Bool.true_eq_false,
        Bool.false_eq_true, false_or, ← hstay]
      rcases hdeleted : Relations.deleteOrgMemberAllRoles
        (fun role => env.site.world.fails (.deleteRole role)) s.site.rel org.slug handle with ⟨rel, _ | _⟩
      · -- some roles may be deleted by then
        simp only [turnsAway_inWorld_error_iff, unchanged_setWorld_iff]
        simp [Site.world, or_assoc]
      · simp

theorem turnsAway_deleteOrg {slug : String} :
    TurnsAway s (inWorld s (Orgs.deleteOrg s.site.world env.site.world auth slug)) ↔
      validateSlug slug = false ∨
      OrgTurnedAway s env (s.site.rel.manageOrg · auth.preferredUsername) slug ∨
      env.site.world.fails .deleteOrg = true ∧ ∀ org, findBySlug s.site.orgs slug = some org →
        RolesStay s env (·.1 = org.slug) ∧ (RoleFails env ∨
          env.site.world.fails .deleteShares = true ∨ ∀ t ∈ s.site.rel.shareWithOrg, t.2 ≠ org.slug) := by
  have horgs : s.site.world.orgs = s.site.orgs := rfl
  have hrel : s.site.world.rel = s.site.rel := rfl
  unfold Orgs.deleteOrg OrgTurnedAway
  simp only [turnsAway_inWorld_ite_error, turnsAway_inWorld_ite_notFound, Bool.not_eq_true', horgs, hrel]
  cases findBySlug s.site.orgs slug with
  | none => simp
  | some org =>
    rcases gate_cases env.site.world (s.site.rel.manageOrg org.slug auth.preferredUsername) with
      ⟨⟨status, code, hgate⟩, hnot⟩ | ⟨hgate, hfails, hallowed⟩
    · simp only [hgate]
      simp [hnot]
    · simp only [hgate]
      cases env.site.world.fails .deleteOrg with
      | true =>
        have hstay := @deleteAllOrgRelationships_eq_iff s env org.slug
        simp only [if_true, turnsAway_inWorld_error_iff, unchanged_setWorld_iff]
        simp [hfails, hallowed, Site.world, or_assoc, hstay]
      | false => simp [hfails, hallowed]

/-- A row that is taken back leaves the others, unless one has its id; one that stays is one more. -/
theorem unchanged_rollback_iff {org : Orgs.Org} (hfree : org.slug ∉ s.site.orgs.keys) :
    Unchanged s (s.setWorld
        (Orgs.rollback { s.site.world with orgs := s.site.orgs.insert org } env.site.world org)) ↔
      env.site.world.fails .rollback = false ∧ ∀ o ∈ s.site.orgs.contents, o.id ≠ org.id := by
  have hinsert : (s.site.orgs.insert org).contents = s.site.orgs.contents ++ [org] := by
    rw [Table.contents, Table.rows_insert_of_not_mem hfree, List.map_append]
    rfl
  rw [unchanged_setWorld_iff]
  unfold Orgs.rollback
  cases env.site.world.fails .rollback with
  | true =>
    refine iff_of_false (fun h => ?_) (fun h => Bool.noConfusion h.1)
    have hlen := congrArg List.length (hinsert.symm.trans h.1)
    simp at hlen
  | false =>
    have hdelete : ((s.site.orgs.insert org).deleteWhere (·.id = org.id)).contents =
        s.site.orgs.contents.filter (fun o => !decide (o.id = org.id)) := by
      have hfilter : ((s.site.orgs.insert org).deleteWhere (·.id = org.id)).contents =
          (s.site.orgs.insert org).contents.filter (fun o => !decide (o.id = org.id)) := by
        unfold Table.deleteWhere Table.contents
        rw [List.filter_map]
        rfl
      rw [hfilter, hinsert, List.filter_append]
      simp
    refine ⟨fun h => ⟨rfl, ?_⟩, fun h => ⟨?_, rfl, rfl, rfl⟩⟩
    · have hself := List.filter_eq_self.mp (hdelete.symm.trans h.1)
      simpa using hself
    · refine hdelete.trans (List.filter_eq_self.mpr ?_)
      simpa using h.2

theorem turnsAway_createOrg {name : String} :
    TurnsAway s (inWorld s (Orgs.createOrg s.site.world env.site.world auth name)) ↔
      trim name = "" ∨ slugify (trim name) = "" ∨ env.isUuid auth.sub = false ∨
      env.site.world.fails .create = true ∨
      (∀ slug ∈ slugCandidates (slugify (trim name)), slug ∈ s.site.orgs.keys) ∨
      findById s.site.users auth.sub = none ∨
      (env.site.world.share.spicedb = false ∨ env.site.world.fails .writeRole = true) ∧
        env.site.world.fails .rollback = false ∧
        ∀ o ∈ s.site.orgs.contents, o.id ≠ env.site.world.uuid := by
  have huuid : env.site.world.share.isUuid auth.sub = env.isUuid auth.sub := rfl
  have husers : s.site.world.stores.users = s.site.users := rfl
  have horgs : s.site.world.orgs = s.site.orgs := rfl
  unfold Orgs.createOrg
  simp only [turnsAway_inWorld_ite_error, Bool.not_eq_true', huuid, husers, horgs]
  cases hfind : (slugCandidates (slugify (trim name))).find? (· ∉ s.site.orgs.keys) with
  | none =>
    have hall : ∀ slug ∈ slugCandidates (slugify (trim name)), slug ∈ s.site.orgs.keys := by
      simpa using hfind
    exact iff_of_true (Or.inr (Or.inr (Or.inr (Or.inr (turnsAway_inWorld_error.mpr trivial)))))
      (Or.inr (Or.inr (Or.inr (Or.inr (Or.inl hall)))))
  | some slug =>
    have hfree : slug ∉ s.site.orgs.keys := by simpa using List.find?_some hfind
    have hmem := List.mem_of_find?_eq_some hfind
    have hnot : ¬ ∀ slug ∈ slugCandidates (slugify (trim name)), slug ∈ s.site.orgs.keys :=
      fun hall => hfree (hall slug hmem)
    simp only [turnsAway_inWorld_ite_error, hnot, false_or]
    have hrollback : ∀ status code, TurnsAway s (inWorld s
        (Orgs.rollback { s.site.world with
            orgs := s.site.orgs.insert ⟨env.site.world.uuid, trim name, slug, auth.sub⟩ } env.site.world
          ⟨env.site.world.uuid, trim name, slug, auth.sub⟩, .error status code)) ↔
        env.site.world.fails .rollback = false ∧
          ∀ o ∈ s.site.orgs.contents, o.id ≠ env.site.world.uuid := fun _ _ =>
      turnsAway_inWorld_error_iff.trans (unchanged_rollback_iff hfree)
    cases hspicedb : env.site.world.share.spicedb with
    | false => simp [hrollback]
    | true =>
      cases hrole : env.site.world.fails .writeRole with
      | true => simp [hrollback]
      | false => simp

end Handlers

end StarStats.Server.Routes
