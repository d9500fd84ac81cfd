import Mathlib.Data.Finset.Basic
import Mathlib.Data.Finset.Filter
import Mathlib.Data.List.TakeWhile
import StarStats.Server.Sharing

/-! # Relations

The permission service keeps the relations that were written and not deleted. Those between two
accounts are part of the stores of shares; here are the others: who owns a record, which records are
public, which are shared with an organisation, and who has which role in one. What follows from them is
said by the schema. -/

namespace StarStats.Server.Spicedb

/-- The roles in an organisation. -/
inductive OrgRole where
  | owner
  | admin
  | member
  deriving DecidableEq

/-- `owners` holds `(record, user)` for `stats_record:<record>#owner@user:<user>`, `shareWithOrg`
`(record, slug)`, and `roles` `(slug, role, user)` for `organization:<slug>#<role>@user:<user>`. -/
structure Relations where
  owners : Finset (String × String)
  publicView : Finset String
  shareWithOrg : Finset (String × String)
  roles : Finset (String × OrgRole × String)

namespace Relations

/-- No relation at all. -/
def empty : Relations := ⟨∅, ∅, ∅, ∅⟩

/-- `permission view = member + admin + owner`. -/
def orgView (rel : Relations) (slug user : String) : Bool :=
  (slug, .member, user) ∈ rel.roles || (slug, .admin, user) ∈ rel.roles ||
    (slug, .owner, user) ∈ rel.roles

/-- `permission manage_members = admin + owner`. -/
def manageMembers (rel : Relations) (slug user : String) : Bool :=
  (slug, .admin, user) ∈ rel.roles || (slug, .owner, user) ∈ rel.roles

/-- `permission manage_org = owner`. -/
def manageOrg (rel : Relations) (slug user : String) : Bool := (slug, .owner, user) ∈ rel.roles

/-- The permission to view a record, but for what is shared with the user. -/
def otherView (rel : Relations) (record user : String) : Bool :=
  (record, user) ∈ rel.owners || record ∈ rel.publicView ||
    decide (∃ p ∈ rel.shareWithOrg, p.1 = record ∧ rel.orgView p.2 user = true)

theorem otherView_iff {rel : Relations} {record user : String} :
    rel.otherView record user = true ↔ (record, user) ∈ rel.owners ∨ record ∈ rel.publicView ∨
      ∃ slug role, (record, slug) ∈ rel.shareWithOrg ∧ (slug, role, user) ∈ rel.roles := by
  have horg : (∃ p ∈ rel.shareWithOrg, p.1 = record ∧ rel.orgView p.2 user = true) ↔
      ∃ slug role, (record, slug) ∈ rel.shareWithOrg ∧ (slug, role, user) ∈ rel.roles := by
    constructor
    · rintro ⟨⟨r, slug⟩, hp, rfl, hview⟩
      simp only [orgView, Bool.or_eq_true, decide_eq_true_eq] at hview
      rcases hview with (hrole | hrole) | hrole
      · exact ⟨slug, .member, hp, hrole⟩
      · exact ⟨slug, .admin, hp, hrole⟩
      · exact ⟨slug, .owner, hp, hrole⟩
    · rintro ⟨slug, role, hp, hrole⟩
      refine ⟨(record, slug), hp, rfl, ?_⟩
      cases role <;> simp [orgView, hrole]
  simp only [otherView, Bool.or_eq_true, decide_eq_true_eq, horg, or_assoc]

/-! ### Writes -/

/-- Everyone owns the record of their own handle. -/
def writeOwner (rel : Relations) (handle : String) : Relations :=
  { rel with owners := insert (handle, handle) rel.owners }

/-- The record is opened to everyone. -/
def writePublicView (rel : Relations) (handle : String) : Relations :=
  { rel with publicView := insert handle rel.publicView }

/-- And closed again. -/
def deletePublicView (rel : Relations) (handle : String) : Relations :=
  { rel with publicView := rel.publicView.erase handle }

/-- The record is opened to the organisation. -/
def writeShareWithOrg (rel : Relations) (owner slug : String) : Relations :=
  { rel with shareWithOrg := insert (owner, slug) rel.shareWithOrg }

/-- And closed to it. -/
def deleteShareWithOrg (rel : Relations) (owner slug : String) : Relations :=
  { rel with shareWithOrg := rel.shareWithOrg.erase (owner, slug) }

/-- A role in the organisation is given. -/
def writeOrgRole (rel : Relations) (slug handle : String) (role : OrgRole) : Relations :=
  { rel with roles := insert (slug, role, handle) rel.roles }

/-- Delete the relations of some roles, one call each; the first that fails is the last. -/
def deleteRoles (fails : OrgRole → Bool) (p : String × OrgRole × String → Bool) :
    List OrgRole → Relations → Relations × Bool
  | [], rel => (rel, true)
  | role :: roles, rel =>
    if fails role then (rel, false)
    else
      deleteRoles fails p roles
        { rel with roles := rel.roles.filter fun t => ¬ (t.2.1 = role ∧ p t = true) }

/-- All roles of a member; `false` is a failed call. -/
def deleteOrgMemberAllRoles (fails : OrgRole → Bool) (rel : Relations) (slug handle : String) :
    Relations × Bool :=
  deleteRoles fails (fun t => t.1 = slug && t.2.2 = handle) [.owner, .admin, .member] rel

/-- All members of an organisation, then all that is shared with it. -/
def deleteAllOrgRelationships (fails : OrgRole → Bool) (sharesFail : Bool) (rel : Relations)
    (slug : String) : Relations × Bool :=
  match deleteRoles fails (fun t => t.1 = slug) [.owner, .admin, .member] rel with
  | (rel, false) => (rel, false)
  | (rel, true) =>
    if sharesFail then (rel, false)
    else ({ rel with shareWithOrg := rel.shareWithOrg.filter (·.2 ≠ slug) }, true)

/-! ### What deletions leave -/

/-- The roles whose relations are deleted: those before the first call that fails. -/
def calledRoles (fails : OrgRole → Bool) (roles : List OrgRole) : List OrgRole :=
  roles.takeWhile fun role => !fails role

theorem mem_roles_deleteRoles {fails : OrgRole → Bool} {p : String × OrgRole × String → Bool}
    {t : String × OrgRole × String} : ∀ {roles : List OrgRole} {rel : Relations},
    t ∈ (deleteRoles fails p roles rel).1.roles ↔
      t ∈ rel.roles ∧ ¬ (t.2.1 ∈ calledRoles fails roles ∧ p t = true)
  | [], rel => by simp [deleteRoles, calledRoles]
  | role :: roles, rel => by
    unfold deleteRoles
    split_ifs with hfails
    · simp [calledRoles, hfails]
    · have hcalled : calledRoles fails (role :: roles) = role :: calledRoles fails roles := by
        simp [calledRoles, hfails]
      rw [mem_roles_deleteRoles, hcalled, Finset.mem_filter, List.mem_cons]
      tauto

theorem snd_deleteRoles {fails : OrgRole → Bool} {p : String × OrgRole × String → Bool} :
    ∀ {roles : List OrgRole} {rel : Relations},
    (deleteRoles fails p roles rel).2 = true ↔ ∀ role ∈ roles, fails role = false
  | [], rel => by simp [deleteRoles]
  | role :: roles, rel => by
    unfold deleteRoles
    split_ifs with hfails
    · simp [hfails]
    · rw [snd_deleteRoles]
      simp [hfails]

@[simp] theorem shareWithOrg_deleteRoles {fails : OrgRole → Bool}
    {p : String × OrgRole × String → Bool} : ∀ {roles : List OrgRole} {rel : Relations},
    (deleteRoles fails p roles rel).1.shareWithOrg = rel.shareWithOrg
  | [], rel => rfl
  | role :: roles, rel => by
    unfold deleteRoles
    split_ifs
    · rfl
    · exact shareWithOrg_deleteRoles

/-- All roles that are taken go, and nothing else. -/
theorem fst_deleteRoles {fails : OrgRole → Bool} {p : String × OrgRole × String → Bool}
    {roles : List OrgRole} {rel : Relations} :
    (deleteRoles fails p roles rel).1 = { rel with
      roles := rel.roles.filter fun t => ¬ (t.2.1 ∈ calledRoles fails roles ∧ p t = true) } := by
  have hrest : ∀ (roles : List OrgRole) (rel : Relations),
      ∃ r, (deleteRoles fails p roles rel).1 = { rel with roles := r } := by
    intro roles
    induction roles with
    | nil => exact fun rel => ⟨rel.roles, rfl⟩
    | cons role roles ih =>
      intro rel
      unfold deleteRoles
      split_ifs
      · exact ⟨rel.roles, rfl⟩
      · exact ih _
  obtain ⟨r, hr⟩ := hrest roles rel
  have hroles : (deleteRoles fails p roles rel).1.roles =
      rel.roles.filter fun t => ¬ (t.2.1 ∈ calledRoles fails roles ∧ p t = true) :=
    Finset.ext fun t => by rw [mem_roles_deleteRoles, Finset.mem_filter]
  rw [hr] at hroles ⊢
  rw [← hroles]

theorem filter_roles_eq_iff {rel : Relations} {p : String × OrgRole × String → Prop} [DecidablePred p] :
    { rel with roles := rel.roles.filter p } = rel ↔ ∀ t ∈ rel.roles, p t := by
  constructor
  · exact fun h => Finset.filter_eq_self.mp (congrArg (·.roles) h)
  · intro h
    rw [Finset.filter_eq_self.mpr h]

/-- The roles whose relations are deleted no later than those of a role. -/
def upTo : OrgRole → List OrgRole
  | .owner => [.owner]
  | .admin => [.owner, .admin]
  | .member => [.owner, .admin, .member]

theorem mem_calledRoles {fails : OrgRole → Bool} {role : OrgRole} :
    role ∈ calledRoles fails [.owner, .admin, .member] ↔ ∀ r ∈ upTo role, fails r = false := by
  unfold calledRoles upTo
  cases howner : fails .owner <;> cases hadmin : fails .admin <;> cases hmember : fails .member <;>
    cases role <;> simp [List.takeWhile, howner, hadmin, hmember]

theorem roles_deleteAllOrgRelationships (fails : OrgRole → Bool) (sharesFail : Bool) (rel : Relations)
    (slug : String) : (deleteAllOrgRelationships fails sharesFail rel slug).1.roles =
      (deleteRoles fails (fun t => t.1 = slug) [.owner, .admin, .member] rel).1.roles := by
  unfold deleteAllOrgRelationships
  rcases deleteRoles fails (fun t => t.1 = slug) [.owner, .admin, .member] rel with ⟨rel', _ | _⟩
  · rfl
  · simp only
    split_ifs <;> rfl

/-- What is shared with an organisation goes if every call succeeds. -/
theorem mem_shareWithOrg_deleteAllOrgRelationships {fails : OrgRole → Bool} {sharesFail : Bool}
    {rel : Relations} {slug : String} {t : String × String} :
    t ∈ (deleteAllOrgRelationships fails sharesFail rel slug).1.shareWithOrg ↔
      t ∈ rel.shareWithOrg ∧
        ¬ (t.2 = slug ∧ sharesFail = false ∧ ∀ role ∈ [.owner, .admin, .member], fails role = false) := by
  have hshares := @shareWithOrg_deleteRoles fails (fun t => t.1 = slug) [.owner, .admin, .member] rel
  have hok := @snd_deleteRoles fails (fun t => t.1 = slug) [.owner, .admin, .member] rel
  unfold deleteAllOrgRelationships
  rcases hdelete : deleteRoles fails (fun t => t.1 = slug) [.owner, .admin, .member] rel with
    ⟨rel', _ | _⟩
  · rw [hdelete] at hshares hok
    have hno : ¬ ∀ role ∈ [.owner, .admin, .member], fails role = false :=
      fun hall => Bool.false_ne_true (hok.mpr hall)
    have hsame : rel'.shareWithOrg = rel.shareWithOrg := hshares
    simp only
    rw [hsame]
    exact ⟨fun ht => ⟨ht, fun hall => hno hall.2.2⟩, fun ht => ht.1⟩
  · rw [hdelete] at hshares hok
    have hall := hok.mp rfl
    have hsame : rel'.shareWithOrg = rel.shareWithOrg := hshares
    simp only
    split_ifs with hfails
    · rw [hsame]
      exact ⟨fun ht => ⟨ht, fun hno => by simp [hfails] at hno⟩, fun ht => ht.1⟩
    · rw [Finset.mem_filter, hsame]
      simp only [Bool.not_eq_true] at hfails
      exact and_congr_right fun _ => ⟨fun hne h => hne h.1, fun h heq => h ⟨heq, hfails, hall⟩⟩

/-! ### Less -/

/-- Relations may have gone; none has come. -/
structure Le (rel rel' : Relations) : Prop where
  owners : rel'.owners ⊆ rel.owners
  publicView : rel'.publicView ⊆ rel.publicView
  shareWithOrg : rel'.shareWithOrg ⊆ rel.shareWithOrg
  roles : rel'.roles ⊆ rel.roles

theorem Le.refl (rel : Relations) : rel.Le rel :=
  ⟨Finset.Subset.refl _, Finset.Subset.refl _, Finset.Subset.refl _, Finset.Subset.refl _⟩

theorem Le.trans {rel rel' rel'' : Relations} (h : rel.Le rel') (h' : rel'.Le rel'') : rel.Le rel'' :=
  ⟨h'.owners.trans h.owners, h'.publicView.trans h.publicView,
    h'.shareWithOrg.trans h.shareWithOrg, h'.roles.trans h.roles⟩

theorem le_deletePublicView (rel : Relations) (handle : String) :
    rel.Le (rel.deletePublicView handle) :=
  ⟨Finset.Subset.refl _, Finset.erase_subset _ _, Finset.Subset.refl _, Finset.Subset.refl _⟩

theorem le_deleteShareWithOrg (rel : Relations) (owner slug : String) :
    rel.Le (rel.deleteShareWithOrg owner slug) :=
  ⟨Finset.Subset.refl _, Finset.Subset.refl _, Finset.erase_subset _ _, Finset.Subset.refl _⟩

theorem le_deleteRoles (fails : OrgRole → Bool) (p : String × OrgRole × String → Bool) :
    ∀ (roles : List OrgRole) (rel : Relations), rel.Le (deleteRoles fails p roles rel).1
  | [], rel => Le.refl rel
  | role :: roles, rel => by
    unfold deleteRoles
    split_ifs
    · exact Le.refl rel
    · refine Le.trans ?_ (le_deleteRoles fails p roles _)
      exact ⟨Finset.Subset.refl _, Finset.Subset.refl _, Finset.Subset.refl _,
        Finset.filter_subset _ _⟩

theorem le_deleteAllOrgRelationships (fails : OrgRole → Bool) (sharesFail : Bool) (rel : Relations)
    (slug : String) : rel.Le (deleteAllOrgRelationships fails sharesFail rel slug).1 := by
  have hroles := le_deleteRoles fails (fun t => t.1 = slug) [.owner, .admin, .member] rel
  unfold deleteAllOrgRelationships
  cases hdelete : deleteRoles fails (fun t => t.1 = slug) [.owner, .admin, .member] rel with
  | mk rel' ok =>
    rw [hdelete] at hroles
    cases ok with
    | false => exact hroles
    | true =>
      simp only
      split_ifs
      · exact hroles
      · exact hroles.trans ⟨Finset.Subset.refl _, Finset.Subset.refl _, Finset.filter_subset _ _,
          Finset.Subset.refl _⟩

end Relations

end StarStats.Server.Spicedb
