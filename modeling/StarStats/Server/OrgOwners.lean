import StarStats.Server.OrgSteps
import StarStats.Server.Reregistered

/-! # Organisations without an owner

An organisation can be deleted by an owner only, so each is to have one. A member is removed with all
roles, whoever it is, so the last owner can be removed as well, by an admin or by itself; every
organisation has an owner in all states exactly of those runs that never do this (`alwaysOwned_iff`). -/

namespace StarStats.Server.Directory

open StarStats.Lib.Text StarStats.Lib.Tables StarStats.Lib.Runs
open StarStats.Server.Auth StarStats.Server.Accounts StarStats.Server.Queries
open StarStats.Server.Sharing StarStats.Server.Spicedb StarStats.Server.Orgs

/-! ### Statement -/

/-- Somebody may delete each organisation. -/
def Owned (w : World) : Prop :=
  ∀ org ∈ w.orgs.contents, ∃ user, w.rel.manageOrg org.slug user = true

/-- **An organisation always keeps an owner.** -/
def AlwaysOwned (events : List EventRow) (as : List (WorldEnv × Request)) : Prop :=
  ∀ n, Owned (run events (as.take n))

/-- What a request must not do: leave a new row whose owner is not written and that is not taken back,
delete the owners but not the row, or remove the last owner. -/
def KeepsOwner (w : World) (a : WorldEnv × Request) : Prop :=
  match a.2 with
  | .createOrg auth name => ∀ org, newOrg w a.1 auth name = some org →
      (a.1.share.spicedb = true ∧ a.1.fails .writeRole = false) ∨ a.1.fails .rollback = false ∨
        ∃ user, w.rel.manageOrg org.slug user = true
  | .deleteOrg auth slug => ∀ org, reached w a.1 auth w.rel.manageOrg slug = some org →
      a.1.fails .deleteOrg = false ∨ a.1.fails (.deleteRole .owner) = true
  | .removeMember auth slug handle => validateHandle handle = true →
      ∀ org, reached w a.1 auth w.rel.manageMembers slug = some org →
        a.1.fails (.deleteRole .owner) = true ∨
          ∃ user, user ≠ handle ∧ w.rel.manageOrg org.slug user = true
  | _ => True

/-! ### One step -/

section Steps
variable {w : World} {env : WorldEnv} {auth : AuthenticatedUser}

theorem Owned.mono {w' : World} (h : Owned w) (horgs : ∀ org ∈ w'.orgs.contents, org ∈ w.orgs.contents)
    (hroles : w.rel.roles ⊆ w'.rel.roles) : Owned w' := by
  intro org horg
  obtain ⟨user, huser⟩ := h org (horgs org horg)
  refine ⟨user, ?_⟩
  simp only [Relations.manageOrg, decide_eq_true_eq] at huser ⊢
  exact hroles huser

theorem mem_orgs_insert {org org' : Org} (hfree : org.slug ∉ w.orgs.keys) :
    org' ∈ (w.orgs.insert org).contents ↔ org' ∈ w.orgs.contents ∨ org' = org := by
  unfold Table.contents
  rw [Table.rows_insert_of_not_mem hfree]
  simp

theorem mem_keys_orgs {slug : String} : slug ∈ w.orgs.keys ↔ ∃ org ∈ w.orgs.contents, org.slug = slug := by
  rw [Table.mem_keys]
  constructor
  · rintro ⟨row, hrow, rfl⟩
    exact ⟨row.2, Table.mem_contents.mpr ⟨row, hrow, rfl⟩, rfl⟩
  · rintro ⟨org, horg, rfl⟩
    obtain ⟨row, hrow, rfl⟩ := Table.mem_contents.mp horg
    exact ⟨row, hrow, rfl⟩

theorem eq_of_slug_eq {org org' : Org} (h : org ∈ w.orgs.contents) (h' : org' ∈ w.orgs.contents)
    (hslug : org.slug = org'.slug) : org = org' := by
  obtain ⟨row, hrow, rfl⟩ := Table.mem_contents.mp h
  obtain ⟨row', hrow', rfl⟩ := Table.mem_contents.mp h'
  rw [Table.eq_of_key_eq hrow hrow' hslug]

theorem owned_createOrg (hw : Owned w) (name : String) :
    Owned (createOrg w env auth name).1 ↔ KeepsOwner w (env, .createOrg auth name) := by
  unfold KeepsOwner
  simp only
  cases hnew : newOrg w env auth name with
  | none =>
    rw [(createOrg_of_none hnew).1]
    exact ⟨fun _ org h => (by cases h), fun _ => hw⟩
  | some org =>
    have hfree := (newOrg_slug hnew).1
    rw [createOrg_of_some hnew]
    by_cases hwritten : env.share.spicedb = true ∧ env.fails .writeRole = false
    · rw [if_pos hwritten]
      refine ⟨fun _ org' heq => Or.inl hwritten, fun _ org' horg' => ?_⟩
      rcases (mem_orgs_insert hfree).mp horg' with hold | rfl
      · obtain ⟨user, huser⟩ := hw org' hold
        simp only [Relations.manageOrg, decide_eq_true_eq] at huser
        exact ⟨user, by simp [Relations.manageOrg, Relations.writeOrgRole, huser]⟩
      · exact ⟨auth.preferredUsername, by simp [Relations.manageOrg, Relations.writeOrgRole]⟩
    · rw [if_neg hwritten]
      unfold rollback
      simp only
      split_ifs with hfails
      · constructor
        · intro howned org' heq
          obtain rfl := Option.some.inj heq
          exact Or.inr (Or.inr (howned org ((mem_orgs_insert hfree).mpr (Or.inr rfl))))
        · intro hkeeps org' horg'
          rcases (mem_orgs_insert hfree).mp horg' with hold | rfl
          · exact hw org' hold
          · rcases hkeeps org' rfl with hwrite | hroll | howner
            · exact absurd hwrite hwritten
            · rw [hfails] at hroll
              cases hroll
            · exact howner
      · refine ⟨fun _ _ _ => Or.inr (Or.inl (by simpa using hfails)), fun _ => ?_⟩
        refine hw.mono (fun org' horg' => ?_) (Finset.Subset.refl _)
        obtain ⟨hmem, hid⟩ := Table.mem_contents_deleteWhere.mp horg'
        rcases (mem_orgs_insert hfree).mp hmem with hold | rfl
        · exact hold
        · simp at hid

theorem owned_deleteOrg (hw : Owned w) (slug : String) :
    Owned (deleteOrg w env auth slug).1 ↔ KeepsOwner w (env, .deleteOrg auth slug) := by
  unfold KeepsOwner
  simp only
  cases hreach : reached w env auth w.rel.manageOrg slug with
  | none =>
    rw [(deleteOrg_of_none hreach).1]
    exact ⟨fun _ org h => (by cases h), fun _ => hw⟩
  | some org =>
    obtain ⟨horg, rfl⟩ := mem_of_findBySlug (reached_eq_some.mp hreach).2.1
    have hroles : ∀ slug' user, ((slug', OrgRole.owner, user) : String × OrgRole × String) ∈
        (Relations.deleteAllOrgRelationships (fun role => env.fails (.deleteRole role))
          (env.fails .deleteShares) w.rel org.slug).1.roles ↔
        (slug', OrgRole.owner, user) ∈ w.rel.roles ∧
          ¬ (env.fails (.deleteRole .owner) = false ∧ slug' = org.slug) := by
      intro slug' user
      rw [Relations.roles_deleteAllOrgRelationships, Relations.mem_roles_deleteRoles,
        Relations.mem_calledRoles]
      simp [Relations.upTo]
    rw [deleteOrg_of_some hreach]
    simp only
    split_ifs with hfails
    · constructor
      · intro howned org' heq
        obtain rfl := Option.some.inj heq
        obtain ⟨user, huser⟩ := howned org horg
        simp only [Relations.manageOrg, decide_eq_true_eq] at huser
        have hcall := ((hroles _ _).mp huser).2
        exact Or.inr (by simpa using hcall)
      · intro hkeeps org' horg'
        obtain ⟨user, huser⟩ := hw org' horg'
        refine ⟨user, ?_⟩
        simp only [Relations.manageOrg, decide_eq_true_eq] at huser ⊢
        refine (hroles _ _).mpr ⟨huser, fun hcall => ?_⟩
        rcases hkeeps org rfl with hdelete | hfail
        · rw [hfails] at hdelete
          cases hdelete
        · rw [hfail] at hcall
          cases hcall.1
    · refine ⟨fun _ _ _ => Or.inl (by simpa using hfails), fun _ org' horg' => ?_⟩
      obtain ⟨hmem, hid⟩ := Table.mem_contents_deleteWhere.mp horg'
      obtain ⟨user, huser⟩ := hw org' hmem
      refine ⟨user, ?_⟩
      simp only [Relations.manageOrg, decide_eq_true_eq] at huser ⊢
      refine (hroles _ _).mpr ⟨huser, fun hcall => ?_⟩
      obtain rfl := eq_of_slug_eq hmem horg hcall.2
      simp at hid

theorem owned_removeMember (hw : Owned w) (slug handle : String) :
    Owned (removeMember w env auth slug handle).1 ↔
      KeepsOwner w (env, .removeMember auth slug handle) := by
  unfold KeepsOwner
  simp only
  by_cases hvalid : validateHandle handle = true
  swap
  · rw [(removeMember_of_none (Or.inl (by simpa using hvalid))).1]
    exact ⟨fun _ h => absurd h hvalid, fun _ => hw⟩
  cases hreach : reached w env auth w.rel.manageMembers slug with
  | none =>
    rw [(removeMember_of_none (Or.inr hreach)).1]
    exact ⟨fun _ _ org h => (by cases h), fun _ => hw⟩
  | some org =>
    obtain ⟨horg, rfl⟩ := mem_of_findBySlug (reached_eq_some.mp hreach).2.1
    have hroles : ∀ slug' user, ((slug', OrgRole.owner, user) : String × OrgRole × String) ∈
        (Relations.deleteOrgMemberAllRoles (fun role => env.fails (.deleteRole role)) w.rel org.slug
          handle).1.roles ↔ (slug', OrgRole.owner, user) ∈ w.rel.roles ∧
            ¬ (env.fails (.deleteRole .owner) = false ∧ slug' = org.slug ∧ user = handle) := by
      intro slug' user
      unfold Relations.deleteOrgMemberAllRoles
      rw [Relations.mem_roles_deleteRoles, Relations.mem_calledRoles]
      simp [Relations.upTo]
    rw [removeMember_of_some hvalid hreach]
    constructor
    · intro howned _ org' heq
      obtain rfl := Option.some.inj heq
      obtain ⟨user, huser⟩ := howned org horg
      simp only [Relations.manageOrg, decide_eq_true_eq] at huser
      obtain ⟨hold, hcall⟩ := (hroles _ _).mp huser
      by_cases hfail : env.fails (.deleteRole .owner) = true
      · exact Or.inl hfail
      · refine Or.inr ⟨user, fun heq => hcall ⟨by simpa using hfail, rfl, heq⟩, ?_⟩
        simpa [Relations.manageOrg] using hold
    · intro hkeeps org' horg'
      obtain ⟨user, huser⟩ := hw org' horg'
      simp only [Relations.manageOrg, decide_eq_true_eq] at huser ⊢
      by_cases hcall : env.fails (.deleteRole .owner) = false ∧ org'.slug = org.slug ∧ user = handle
      · rcases hkeeps hvalid org rfl with hfail | ⟨other, hne, hother⟩
        · rw [hfail] at hcall
          cases hcall.1
        · -- Another owner stays.
          simp only [Relations.manageOrg, decide_eq_true_eq] at hother
          refine ⟨other, (hroles _ _).mpr ⟨?_, fun h => hne h.2.2⟩⟩
          rw [hcall.2.1]
          exact hother
      · exact ⟨user, (hroles _ _).mpr ⟨huser, hcall⟩⟩

/-- No other request takes a role, or brings a row. -/
theorem owned_other {r : Request} (hw : Owned w) (hcreate : ∀ auth name, r ≠ .createOrg auth name)
    (hdelete : ∀ auth slug, r ≠ .deleteOrg auth slug)
    (hremove : ∀ auth slug handle, r ≠ .removeMember auth slug handle) :
    Owned (serve w env r).1 := by
  rcases orgChange w env r with h | ⟨hfind, h⟩ | ⟨horg, h⟩ | h | h | h | ⟨horg, h⟩ | ⟨hvalid, h⟩
  · refine hw.mono (fun org horg => ?_) (by rw [h.roles])
    rwa [h.orgs] at horg
  · simp only [serve, h]
    exact hw.mono (fun org horg => (Table.mem_contents_deleteWhere.mp horg).1)
      (Finset.Subset.refl _)
  · simp only [serve, h]
    exact hw.mono (fun _ h => h) (Finset.Subset.refl _)
  · simp only [serve, h]
    exact hw.mono (fun _ h => h) (Finset.Subset.refl _)
  · exact absurd rfl (hcreate _ _)
  · exact absurd rfl (hdelete _ _)
  · simp only [serve, h]
    exact hw.mono (fun _ h => h) (Finset.subset_insert _ _)
  · exact absurd rfl (hremove _ _ _)

/-- **One request** keeps an owner for every organisation exactly if it does none of these. -/
theorem owned_step {a : WorldEnv × Request} (hw : Owned w) : Owned (step w a) ↔ KeepsOwner w a := by
  obtain ⟨env, r⟩ := a
  unfold step
  cases r with
  | createOrg auth name => exact @owned_createOrg w env auth hw name
  | deleteOrg auth slug => exact @owned_deleteOrg w env auth hw slug
  | removeMember auth slug handle => exact @owned_removeMember w env auth hw slug handle
  | _ =>
    unfold KeepsOwner
    exact iff_of_true (owned_other hw (by simp) (by simp) (by simp)) trivial

end Steps

/-! ### Runs -/

theorem alwaysOwned_iff (events : List EventRow) (as : List (WorldEnv × Request)) :
    AlwaysOwned events as ↔
      ∀ n a, as[n]? = some a → KeepsOwner (run events (as.take n)) a :=
  @forall_take_iff _ _ step (start events) (fun _ => True) Owned KeepsOwner trivial
    (fun _ _ _ => trivial) (fun org horg => by simp [start, Table.contents, Table.empty] at horg)
    (fun _ _ _ hw => owned_step hw) as

/-! ### Ann's crew -/

def ann : User := ⟨"1", "Ann", some 0, none⟩

def bob : User := ⟨"2", "Bob", some 0, none⟩

/-- Ann makes Bob an admin of her organisation, and he removes her. -/
def ownerRemoved : List (WorldEnv × Request) :=
  [.signUp ann, .signUp bob, .createOrg (tokenOf ann) "Crew", .addMember (tokenOf ann) "crew" "Bob" "admin",
    .removeMember (tokenOf bob) "crew" "Ann"].map (calm, ·)

theorem not_alwaysOwned_ownerRemoved : ¬ AlwaysOwned [] ownerRemoved := by
  intro h
  have horg : (⟨"0", "Crew", "crew", "1"⟩ : Org) ∈ (run [] (ownerRemoved.take 5)).orgs.contents := by
    decide +kernel
  have hroles : (run [] (ownerRemoved.take 5)).rel.roles = {("crew", .admin, "Bob")} := by
    decide +kernel
  obtain ⟨user, huser⟩ := h 5 _ horg
  simp [Relations.manageOrg, hroles] at huser

end StarStats.Server.Directory
