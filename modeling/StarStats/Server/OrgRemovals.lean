import StarStats.Server.OrgOwners

/-! # Members that are removed

A role is written under the handle that the table of accounts has; a removal deletes the roles of the
handle as it is typed, and succeeds whether or not there are any. So a removed member is without access
until it is added again exactly in those runs in which no handle is typed in another case than that of
the roles (`losesAccess_iff`). -/

namespace StarStats.Server.Directory

open StarStats.Lib.Text StarStats.Lib.Tables StarStats.Lib.Runs
open StarStats.Server.Ingest (eqIgnoreAsciiCase)
open StarStats.Server.Auth StarStats.Server.Accounts StarStats.Server.Queries
open StarStats.Server.Sharing StarStats.Server.Spicedb StarStats.Server.Orgs

/-! ### Statement -/

/-- The relations without what is shared with an organisation. -/
def withoutShares (rel : Relations) (slug : String) : Relations :=
  { rel with shareWithOrg := rel.shareWithOrg.filter (·.2 ≠ slug) }

/-- The user may do nothing in the organisation, and reads what it would if nothing were shared with
it. -/
structure NoAccess (w : World) (slug user : String) : Prop where
  view : w.rel.orgView slug user = false
  manage : w.rel.manageMembers slug user = false
  reads : ∀ env req, req.auth.preferredUsername = user →
    answer w (env, .share req) = answer { w with rel := withoutShares w.rel slug } (env, .share req)

/-- The request is answered by `removed`. -/
def Removes (w : World) (a : WorldEnv × Request) (slug handle : String) : Prop :=
  ∃ auth, a.2 = .removeMember auth slug handle ∧ answer w a = .removed

/-- The user is given a role between two states of a run. -/
def AddedBetween (events : List EventRow) (as : List (WorldEnv × Request)) (slug user : String)
    (n m : ℕ) : Prop :=
  ∃ k b role, n < k ∧ k < m ∧ as[k]? = some b ∧
    grantOf (run events (as.take k)) b = some (.role slug role user)

/-- **A removed member loses access**, however its handle was typed. -/
def LosesAccess (events : List EventRow) (as : List (WorldEnv × Request)) : Prop :=
  ∀ n a slug handle user m, as[n]? = some a → Removes (run events (as.take n)) a slug handle →
    eqIgnoreAsciiCase handle user = true → n < m → ¬ AddedBetween events as slug user n m →
      NoAccess (run events (as.take m)) slug user

/-- A removal that is let through, and whose calls all succeed, has the spelling of the roles. -/
def SpelledAlike (w : World) (a : WorldEnv × Request) : Prop :=
  ∀ auth slug handle org, a.2 = .removeMember auth slug handle → validateHandle handle = true →
    reached w a.1 auth w.rel.manageMembers slug = some org →
    (∀ role, a.1.fails (.deleteRole role) = false) →
      ∀ role user, (slug, role, user) ∈ w.rel.roles → eqIgnoreAsciiCase handle user = true →
        handle = user

/-! ### Access -/

section Access
variable {w : World} {slug user : String}

theorem withoutShares_otherView (h : w.rel.orgView slug user = false) (record : String) :
    (withoutShares w.rel slug).otherView record user = w.rel.otherView record user := by
  have hrole : ∀ role, (slug, role, user) ∉ w.rel.roles := by
    intro role hmem
    simp only [Relations.orgView, Bool.or_eq_false_iff, decide_eq_false_iff_not] at h
    cases role with
    | owner => exact h.2 hmem
    | admin => exact h.1.2 hmem
    | member => exact h.1.1 hmem
  rw [Bool.eq_iff_iff, Relations.otherView_iff, Relations.otherView_iff]
  have hshares : ∀ slug' role, (slug', role, user) ∈ w.rel.roles →
      ((record, slug') ∈ (withoutShares w.rel slug).shareWithOrg ↔
        (record, slug') ∈ w.rel.shareWithOrg) := by
    intro slug' role hmem
    have hne : slug' ≠ slug := by
      rintro rfl
      exact hrole role hmem
    simp [withoutShares, hne]
  have horg : (∃ slug' role, (record, slug') ∈ (withoutShares w.rel slug).shareWithOrg ∧
      (slug', role, user) ∈ (withoutShares w.rel slug).roles) ↔
        ∃ slug' role, (record, slug') ∈ w.rel.shareWithOrg ∧ (slug', role, user) ∈ w.rel.roles := by
    constructor
    · rintro ⟨slug', role, hshare, hmem⟩
      exact ⟨slug', role, (hshares slug' role hmem).mp hshare, hmem⟩
    · rintro ⟨slug', role, hshare, hmem⟩
      exact ⟨slug', role, (hshares slug' role hmem).mpr hshare, hmem⟩
  rw [horg]
  rfl

theorem noAccess_iff : NoAccess w slug user ↔ ∀ role, ¬ Holds w (.role slug role user) := by
  constructor
  · intro h role hmem
    have hview := h.view
    simp only [Relations.orgView, Bool.or_eq_false_iff, decide_eq_false_iff_not] at hview
    cases role with
    | owner => exact hview.2 hmem
    | admin => exact hview.1.2 hmem
    | member => exact hview.1.1 hmem
  · intro h
    have hmember := h .member
    have hadmin := h .admin
    have howner := h .owner
    simp only [Holds] at hmember hadmin howner
    have hview : w.rel.orgView slug user = false := by
      simp [Relations.orgView, hmember, hadmin, howner]
    refine ⟨hview, by simp [Relations.manageMembers, hadmin, howner], fun env req hreq => ?_⟩
    have henv : shareEnv w env req = shareEnv { w with rel := withoutShares w.rel slug } env req := by
      cases req with
      | summary auth handle =>
        obtain rfl : auth.preferredUsername = user := hreq
        simp only [shareEnv, withoutShares_otherView hview]
      | timeline auth handle days =>
        obtain rfl : auth.preferredUsername = user := hreq
        simp only [shareEnv, withoutShares_otherView hview]
      | add auth body => rfl
      | delete auth handle => rfl
    unfold answer serve
    simp only [henv]

end Access

/-! ### A removal -/

section Removal
variable {w : World} {env : WorldEnv} {auth : AuthenticatedUser} {slug handle : String}

/-- A removal succeeds if it is let through and every call does. -/
theorem removed_iff : (removeMember w env auth slug handle).2 = .removed ↔
    validateHandle handle = true ∧ (∃ org, reached w env auth w.rel.manageMembers slug = some org) ∧
      ∀ role, env.fails (.deleteRole role) = false := by
  by_cases hvalid : validateHandle handle = true
  swap
  · have hno := (@removeMember_of_none w env auth slug handle (Or.inl (by simpa using hvalid))).2
    exact iff_of_false hno fun h => hvalid h.1
  cases hreach : reached w env auth w.rel.manageMembers slug with
  | none =>
    have hno := (@removeMember_of_none w env auth slug handle (Or.inr hreach)).2
    exact iff_of_false hno fun h => by simp at h
  | some org =>
    have hall : (∀ role ∈ [OrgRole.owner, .admin, .member], env.fails (.deleteRole role) = false) ↔
        ∀ role, env.fails (.deleteRole role) = false := by
      constructor
      · intro h role
        cases role <;> exact h _ (by simp)
      · exact fun h role _ => h role
    have hcalls := (@Relations.snd_deleteRoles (fun role => env.fails (.deleteRole role))
      (fun t => t.1 = org.slug && t.2.2 = handle) [.owner, .admin, .member] w.rel).trans hall
    rw [removeMember_of_some hvalid hreach, ← hcalls]
    unfold Relations.deleteOrgMemberAllRoles
    simp only [hvalid, Option.some.injEq, exists_eq', true_and]
    split_ifs with hdeleted
    · exact iff_of_true rfl hdeleted
    · exact iff_of_false (by simp) hdeleted

/-- The roles that are left are those of other organisations and other spellings. -/
theorem holds_removed {slug' user : String} {role : OrgRole}
    (h : (removeMember w env auth slug handle).2 = .removed) :
    Holds (removeMember w env auth slug handle).1 (.role slug' role user) ↔
      Holds w (.role slug' role user) ∧ ¬ (slug' = slug ∧ user = handle) := by
  obtain ⟨hvalid, ⟨org, hreach⟩, hcalls⟩ := removed_iff.mp h
  obtain ⟨-, hslug⟩ := mem_of_findBySlug (reached_eq_some.mp hreach).2.1
  have hcalled : role ∈ Relations.calledRoles (fun role => env.fails (.deleteRole role))
      [.owner, .admin, .member] := Relations.mem_calledRoles.mpr fun r _ => hcalls r
  rw [removeMember_of_some hvalid hreach]
  simp only [Holds]
  unfold Relations.deleteOrgMemberAllRoles
  rw [Relations.mem_roles_deleteRoles]
  simp [hcalled, hslug]

end Removal

/-! ### Runs -/

theorem losesAccess_iff (events : List EventRow) (as : List (WorldEnv × Request)) :
    LosesAccess events as ↔
      ∀ n a, as[n]? = some a → SpelledAlike (run events (as.take n)) a := by
  constructor
  · rintro h n ⟨env, r⟩ ha auth slug handle org hreq hvalid hreach hcalls role user hmem hcase
    obtain rfl : r = .removeMember auth slug handle := hreq
    have hremoved : (removeMember (run events (as.take n)) env auth slug handle).2 = .removed :=
      removed_iff.mpr ⟨hvalid, ⟨org, hreach⟩, hcalls⟩
    have hno : ¬ AddedBetween events as slug user n (n + 1) := by
      rintro ⟨k, b, role, hnk, hk, -⟩
      omega
    have hlost := noAccess_iff.mp
      (h n _ slug handle user (n + 1) ha ⟨auth, rfl, hremoved⟩ hcase (by omega) hno) role
    rw [run_succ ha] at hlost
    by_contra hne
    exact hlost ((holds_removed hremoved).mpr ⟨hmem, fun heq => hne heq.2.symm⟩)
  · rintro h n ⟨env, r⟩ slug handle user m ha ⟨auth, hreq, hremoved⟩ hcase hnm hnone
    obtain rfl : r = .removeMember auth slug handle := hreq
    have hanswer : (removeMember (run events (as.take n)) env auth slug handle).2 = .removed := hremoved
    obtain ⟨hvalid, ⟨org, hreach⟩, hcalls⟩ := removed_iff.mp hanswer
    refine noAccess_iff.mpr fun role hholds => ?_
    have hmade := @holds_or_made _ _ step (start events) (fun w => Holds w (.role slug role user))
      (fun w a => grantOf w a = some (.role slug role user)) (fun _ _ hs => holds_step hs) as (n + 1) m
      hnm hholds
    rcases hmade with hnext | ⟨k, b, hk, hkm, hb, hgrant⟩
    · have hstep : Holds (step (run events (as.take n)) (env, .removeMember auth slug handle))
          (.role slug role user) := by
        rw [← run_succ ha]
        exact hnext
      obtain ⟨hold, hother⟩ := (holds_removed hanswer).mp hstep
      exact hother ⟨rfl, (h n _ ha auth slug handle org rfl hvalid hreach hcalls role user hold
        hcase).symm⟩
    · exact hnone ⟨k, b, role, hk, hkm, hb, hgrant⟩

/-! ### Bob is removed as bob -/

/-- Ann makes Bob a member of her organisation, and types his handle in small letters to remove him. -/
def removedInSmallLetters : List (WorldEnv × Request) :=
  [.signUp ann, .signUp bob, .createOrg (tokenOf ann) "Crew", .addMember (tokenOf ann) "crew" "Bob" "member",
    .removeMember (tokenOf ann) "crew" "bob"].map (calm, ·)

theorem not_losesAccess_smallLetters : ¬ LosesAccess [] removedInSmallLetters := by
  intro h
  have hno : ¬ AddedBetween [] removedInSmallLetters "crew" "Bob" 4 5 := by
    rintro ⟨k, b, role, hnk, hk, -⟩
    omega
  have hlost := h 4 (calm, .removeMember (tokenOf ann) "crew" "bob") "crew" "bob" "Bob" 5 rfl
    ⟨_, rfl, by decide +kernel⟩ (by decide +kernel) (by omega) hno
  exact absurd hlost.view (by decide +kernel)

end StarStats.Server.Directory
