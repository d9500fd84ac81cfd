import StarStats.Server.Revocation
import StarStats.Server.ShareReports

/-! # Who may report a share

The handler compares the reporter with the two names in the request, and never asks whether the one has
shared with the other. So anybody can report an owner, with their own name for the recipient's, and three
such reports bar the owner from sharing. -/

namespace StarStats.Server.ShareReports

open StarStats.Lib.Tables StarStats.Lib.Runs
open StarStats.Server.Auth StarStats.Server.Accounts StarStats.Server.Queries
open StarStats.Server.Sharing hiding Env Call calm friend

/-- The requests about shares, and reports. -/
inductive DeskRequest where
  | share (env : Sharing.Env) (request : Request)
  | report (env : Env) (auth : AuthenticatedUser) (body : ReportShareRequest)

/-- The desk after a request on shares or reports. -/
def serveDesk (d : Desk) : DeskRequest → Desk
  | .share env request => { d with stores := (serve d.stores env request).1 }
  | .report env auth body => (reportShare d env auth body).1

section Runs
variable (users : Users) (events : List EventRow) (rs : List DeskRequest)

/-- Nothing is shared or reported at first. -/
def state (n : ℕ) : Desk := (rs.take n).foldl serveDesk ⟨fresh users events, []⟩

/-- A share from the owner to the recipient has been granted. -/
def GrantedBefore (n : ℕ) (owner recipient : String) : Prop :=
  ∃ m env auth req to_, m < n ∧ rs[m]? = some (.share env (.add auth req)) ∧
    (addShare (state users events rs m).stores env auth req).2 = .granted to_ ∧
    lower auth.preferredUsername = lower owner ∧ lower to_ = lower recipient

/-- Until when the owner is barred from sharing. -/
def pausedUntil (d : Desk) (owner : String) : Option ℤ :=
  (findByHandle d.stores.users owner).bind (·.sharesPausedUntil)

/-- **Only the parties to a share report it**, so those who have never shared anything with an owner do
not bar them. -/
structure OnlyParties : Prop where
  granted : ∀ n env auth body response, rs[n]? = some (.report env auth body) →
    (reportShare (state users events rs n) env auth body).2 = .ok response →
    GrantedBefore users events rs n body.ownerHandle body.recipientHandle ∧
      (lower auth.preferredUsername = lower body.ownerHandle ∨
        lower auth.preferredUsername = lower body.recipientHandle)
  strangers : ∀ (coalition : List Char → Prop) owner, ¬ coalition (lower owner) →
    (∀ n handle, coalition (lower handle) → ¬ GrantedBefore users events rs n owner handle ∧
      ¬ GrantedBefore users events rs n handle owner) →
    ∀ n env auth body, rs[n]? = some (.report env auth body) → coalition (lower auth.preferredUsername) →
      pausedUntil (state users events rs (n + 1)) owner = pausedUntil (state users events rs n) owner

/-- Each report that passes the checks of the handler is of a share that has been granted. -/
def NamesShares : Prop :=
  ∀ n env auth body, rs[n]? = some (.report env auth body) →
    (∀ check ∈ reportChecks (state users events rs n) env auth body, check = none) →
    GrantedBefore users events rs n body.ownerHandle body.recipientHandle

end Runs

section Reports
variable {users : Users} {events : List EventRow} {rs : List DeskRequest} {d : Desk} {env : Env}
  {auth : AuthenticatedUser} {body : ReportShareRequest} {owner : String}

/-- A report is answered 200 exactly if it passes the checks. -/
theorem exists_created_iff : (∃ row, created d env auth body = .ok row) ↔
    ∀ check ∈ reportChecks d env auth body, check = none := by
  constructor
  · rintro ⟨row, hrow⟩
    exact (created_eq_ok hrow).1
  · intro hchecks
    have hnone : (reportChecks d env auth body).findSome? id = none :=
      List.findSome?_eq_none_iff.mpr hchecks
    simp only [reportChecks, List.forall_mem_cons] at hchecks
    obtain ⟨-, hreason, -⟩ := hchecks
    obtain ⟨reason, hparse⟩ := Option.ne_none_iff_exists'.mp (refuse_eq_none.mp hreason)
    refine ⟨rowOf env auth body reason, ?_⟩
    unfold created
    rw [hnone, hparse]

theorem party_of_checks (h : ∀ check ∈ reportChecks d env auth body, check = none) :
    lower auth.preferredUsername = lower body.ownerHandle ∨
      lower auth.preferredUsername = lower body.recipientHandle := by
  simp only [reportChecks, List.forall_mem_cons] at h
  obtain ⟨-, -, -, hchecked, -⟩ := h
  have hparty : ¬ isParty auth body = false := refuse_eq_none.mp hchecked
  unfold isParty at hparty
  rw [Bool.not_eq_false, Bool.or_eq_true] at hparty
  exact hparty.imp eqIgnoreAsciiCase_iff.mp eqIgnoreAsciiCase_iff.mp

/-- Only the owner who is named may be barred. -/
theorem pausedUntil_setSharesPausedUntil {users : Users} {named : String} {until_ : Option ℤ}
    (h : lower owner ≠ lower named) :
    findByHandle (setSharesPausedUntil users named until_) owner = findByHandle users owner := by
  unfold findByHandle setSharesPausedUntil
  rw [Table.map_find?_mapRows]
  cases hfind : (users.find? (lower owner)).map (·.2) with
  | none => rfl
  | some u =>
    obtain ⟨-, hkey⟩ := Table.map_find?_eq_some.mp hfind
    have hother : lower u.claimedHandle ≠ lower named := fun hsame => h (hkey.symm.trans hsame)
    rw [Option.map_some, if_neg hother]

theorem pausedUntil_reportShare (h : ∀ row, created d env auth body = .ok row →
    lower owner ≠ lower body.ownerHandle) :
    pausedUntil (reportShare d env auth body).1 owner = pausedUntil d owner := by
  unfold reportShare
  cases hcreated : created d env auth body with
  | error reply => rfl
  | ok row =>
    have hother := h row hcreated
    obtain ⟨-, reason, rfl⟩ := created_eq_ok hcreated
    show pausedUntil (checkCrossReportCluster env { d with reports := d.reports ++
      [rowOf env auth body reason] } body.ownerHandle) owner = pausedUntil d owner
    unfold checkCrossReportCluster
    split
    · rfl
    · split_ifs
      · rfl
      · exact congrArg (fun u : Option User => u.bind (·.sharesPausedUntil))
          (pausedUntil_setSharesPausedUntil hother)

theorem reply_eq_ok {response : ReportShareResponse} (h : (reportShare d env auth body).2 = .ok response) :
    ∀ check ∈ reportChecks d env auth body, check = none := by
  unfold reportShare at h
  cases hcreated : created d env auth body with
  | error reply =>
    rw [hcreated] at h
    cases h
  | ok row => exact (created_eq_ok hcreated).1

/-- **Only parties report exactly if each report that passes the checks is of a share.** -/
theorem onlyParties_iff : OnlyParties users events rs ↔ NamesShares users events rs := by
  constructor
  · intro h n env auth body hr hchecks
    obtain ⟨row, hcreated⟩ := exists_created_iff.mpr hchecks
    have hanswer : (reportShare (state users events rs n) env auth body).2 =
        .ok ⟨row.id, row.status, row.createdAt⟩ := by
      unfold reportShare
      rw [hcreated]
    exact (h.granted n env auth body _ hr hanswer).1
  · intro h
    constructor
    case granted =>
      intro n env auth body response hr hanswer
      have hchecks := reply_eq_ok hanswer
      exact ⟨h n env auth body hr hchecks, party_of_checks hchecks⟩
    case strangers =>
      intro coalition owner hout hstrange n env auth body hr hin
      have hturn : state users events rs (n + 1) =
          (reportShare (state users events rs n) env auth body).1 := run_take_succ hr
      rw [hturn]
      refine pausedUntil_reportShare fun row hcreated hsame => ?_
      obtain ⟨hchecks, -⟩ := created_eq_ok hcreated
      obtain ⟨m, env', auth', req, to_, hmn, ha, hanswer, hfrom, hto⟩ := h n env auth body hr hchecks
      rcases party_of_checks hchecks with hparty | hparty
      · rw [hparty, ← hsame] at hin
        exact hout hin
      · refine (hstrange n auth.preferredUsername hin).1 ?_
        exact ⟨m, env', auth', req, to_, hmn, ha, hanswer, hfrom.trans hsame.symm, hto.trans hparty.symm⟩

end Reports

/-! ### Three reports of nothing -/

/-- The friend reports a share of the owner's. -/
def reportOwner (id : String) : DeskRequest := .report { calm 0 with id := id } friend againstOwner

def threeReports : List DeskRequest := [reportOwner "r1", reportOwner "r2", reportOwner "r3"]

/-- Nothing has been shared, the reports are answered 200, and the owner is barred. -/
theorem not_onlyParties_threeReports : ¬ OnlyParties pair [] threeReports ∧
    pausedUntil (state pair [] threeReports 3) "Owner" = some pauseDuration := by
  refine ⟨fun h => ?_, by decide +kernel⟩
  have hanswer : (reportShare (state pair [] threeReports 0) { calm 0 with id := "r1" } friend
      againstOwner).2 = .ok ⟨"r1", .opened, 0⟩ := by decide +kernel
  obtain ⟨⟨m, env, auth, req, to_, hm, -⟩, -⟩ := h.granted 0 _ friend againstOwner _ rfl hanswer
  exact Nat.not_lt_zero m hm

end StarStats.Server.ShareReports
