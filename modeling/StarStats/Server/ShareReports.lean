import StarStats.Lib.Pages
import StarStats.Server.Sharing

/-! # Reports of shares

A party to a share may report it, by name. With its third report within three days an owner is barred
from sharing for a day; the reports are counted on the page that the store returns, which holds 200 of
them however many are asked for. So where other owners are reported often enough, the third report of an
owner is not seen (`pausesWhenDue_iff`). -/

namespace StarStats.Server.ShareReports

open StarStats.Lib.Text StarStats.Lib.Tables StarStats.Lib.Pages
open StarStats.Server.Auth StarStats.Server.Accounts StarStats.Server.Sharing
open StarStats.Server.Ingest (eqIgnoreAsciiCase)

/-- `DETAILS_MAX_LEN` -/
def detailsMaxLen : ℕ := 500

/-- `RATE_LIMIT_WINDOW_HOURS`, in seconds. -/
def rateLimitWindow : ℤ := 24 * 3600

/-- So many reports a reporter may make within the window. -/
def rateLimitPerWindow : ℕ := 5

/-- So many reports on an owner pause the owner's shares. -/
def clusterReportThreshold : ℕ := 3

/-- `CLUSTER_WINDOW_HOURS`, in seconds. -/
def clusterWindow : ℤ := 72 * 3600

/-- `PAUSE_DURATION_HOURS`, in seconds. -/
def pauseDuration : ℤ := 24 * 3600

/-- The states of a report. -/
inductive ShareReportStatus where
  | opened
  | dismissed
  | shareRevoked
  | userSuspended
  deriving DecidableEq

/-- Why a share is reported. -/
inductive ShareReportReason where
  | abuse
  | spam
  | dataMisuse
  | other
  deriving DecidableEq

/-- Any other text is refused. -/
def ShareReportReason.parse (s : String) : Option ShareReportReason :=
  if s = "abuse" then some .abuse
  else if s = "spam" then some .spam
  else if s = "data_misuse" then some .dataMisuse
  else if s = "other" then some .other
  else none

/-- A row of `share_reports`. -/
structure ShareReport where
  id : String
  reporterHandle : String
  ownerHandle : String
  recipientHandle : String
  reason : ShareReportReason
  details : Option String
  status : ShareReportStatus
  createdAt : ℤ
  deriving DecidableEq

/-- `ORDER BY created_at DESC`; rows of one time come in any order. -/
structure NewestFirst where
  order : List ShareReport → List ShareReport
  perm : ∀ rows, (order rows).Perm rows
  descending : ∀ rows, (order rows).Pairwise fun a b => b.createdAt ≤ a.createdAt

/-- The calls of a request that may fail. -/
inductive Call where
  | countRecent | create | list | setPaused
  deriving DecidableEq

/-- The outside of one request. -/
structure Env where
  now : ℤ
  /-- What the table draws for a new row. -/
  id : String
  fails : Call → Bool
  newestFirst : NewestFirst

/-- The stores of the shares, and the reports in the order of their rows. -/
structure Desk where
  stores : Stores
  reports : List ShareReport

/-- What the reporter sends. -/
structure ReportShareRequest where
  ownerHandle : String
  recipientHandle : String
  reason : String
  details : Option String

structure ReportShareResponse where
  id : String
  status : ShareReportStatus
  createdAt : ℤ
  deriving DecidableEq

/-! ### The store -/

/-- The page of a listing; its limit is clamped. -/
def list (env : Env) (reports : List ShareReport) (status : Option ShareReportStatus)
    (limit offset : ℤ) : List ShareReport :=
  (((env.newestFirst.order reports).filter fun r => status.all (r.status = ·)).drop
    (max offset 0).toNat).take (min (max limit 1) 200).toNat

/-- The reports of one reporter since a time, whatever the case of the handle. -/
def countRecentByReporter (reports : List ShareReport) (reporter : String) (since : ℤ) : ℕ :=
  reports.countP fun r => lower r.reporterHandle = lower reporter && since ≤ r.createdAt

/-- Every account of that handle, whatever its case. -/
def setSharesPausedUntil (users : Users) (handle : String) (until_ : Option ℤ) : Users :=
  users.mapRows
    (fun u => if lower u.claimedHandle = lower handle then { u with sharesPausedUntil := until_ } else u)
    fun u => by split <;> rfl

/-! ### The cluster of reports -/

/-- A report against the owner, within the window. -/
def countsAgainst (owner : String) (now : ℤ) (r : ShareReport) : Bool :=
  lower r.ownerHandle = lower owner && now - clusterWindow ≤ r.createdAt

/-- Until when the reports bar the owner from sharing. -/
def clusterPause (env : Env) (reports : List ShareReport) (owner : String) : Option ℤ :=
  if env.fails .list then none
  else if (list env reports none 500 0).countP (countsAgainst owner env.now) < clusterReportThreshold then
    none
  else some (env.now + pauseDuration)

/-- A failed call leaves the owner as it was; the report stands. -/
def checkCrossReportCluster (env : Env) (st : Desk) (owner : String) : Desk :=
  match clusterPause env st.reports owner with
  | none => st
  | some until_ =>
    if env.fails .setPaused then st
    else { st with stores.users := setSharesPausedUntil st.stores.users owner (some until_) }

/-! ### Reporting -/

/-- The details as they are stored. -/
def detailsOwned (details : Option String) : Option String := (details.map trim).filter (· ≠ "")

/-- The one who reports is one side of the share, by name. -/
def isParty (auth : AuthenticatedUser) (body : ReportShareRequest) : Bool :=
  eqIgnoreAsciiCase auth.preferredUsername body.ownerHandle ||
    eqIgnoreAsciiCase auth.preferredUsername body.recipientHandle

/-- What a report is checked for, in order. -/
def reportChecks (st : Desk) (env : Env) (auth : AuthenticatedUser) (body : ReportShareRequest) :
    List (Option Reply) :=
  [refuse (validateHandle body.ownerHandle = false ∨ validateHandle body.recipientHandle = false)
      (err 400 "invalid_handle"),
    refuse (ShareReportReason.parse body.reason = none) (err 400 "invalid_reason"),
    refuse ((detailsOwned body.details).any (detailsMaxLen < ·.length)) (err 400 "details_too_long"),
    refuse (isParty auth body = false) (err 403 "not_a_party_to_the_share"),
    refuse (env.fails .countRecent = false ∧ rateLimitPerWindow ≤
      countRecentByReporter st.reports auth.preferredUsername (env.now - rateLimitWindow))
      (err 429 "rate_limited"),
    refuse (env.fails .create) (err 500 "database_error")]

/-- The row of a report. -/
def rowOf (env : Env) (auth : AuthenticatedUser) (body : ReportShareRequest) (reason : ShareReportReason) :
    ShareReport where
  id := env.id
  reporterHandle := auth.preferredUsername
  ownerHandle := body.ownerHandle
  recipientHandle := body.recipientHandle
  reason := reason
  details := detailsOwned body.details
  status := .opened
  createdAt := env.now

/-- The row that is created, or the answer of a refusal. -/
def created (st : Desk) (env : Env) (auth : AuthenticatedUser) (body : ReportShareRequest) :
    Except Reply ShareReport :=
  match (reportChecks st env auth body).findSome? id, ShareReportReason.parse body.reason with
  | some reply, _ => .error reply
  | none, none => .error (err 400 "invalid_reason")
  | none, some reason => .ok (rowOf env auth body reason)

/-- The report is stored first, and the owner's shares paused after. -/
def reportShare (st : Desk) (env : Env) (auth : AuthenticatedUser) (body : ReportShareRequest) :
    Desk × Except Reply ReportShareResponse :=
  match created st env auth body with
  | .error reply => (st, .error reply)
  | .ok row =>
    (checkCrossReportCluster env { st with reports := st.reports ++ [row] } row.ownerHandle,
      .ok ⟨row.id, row.status, row.createdAt⟩)

theorem created_eq_ok {st : Desk} {env : Env} {auth : AuthenticatedUser} {body : ReportShareRequest}
    {row : ShareReport} (h : created st env auth body = .ok row) :
    (∀ check ∈ reportChecks st env auth body, check = none) ∧
      ∃ reason, row = rowOf env auth body reason := by
  unfold created at h
  split at h
  · cases h
  · cases h
  · rename_i reason hchecks hreason
    obtain rfl := Except.ok.inj h
    exact ⟨fun check hcheck => List.findSome?_eq_none_iff.mp hchecks check hcheck, reason, rfl⟩

/-! ### The third report -/

section Cluster
variable {st : Desk} {env : Env} {auth : AuthenticatedUser} {body : ReportShareRequest}

/-- How many reports were created against the owner within the window. -/
def recentAgainst (reports : List ShareReport) (owner : String) (now : ℤ) : ℕ :=
  reports.countP (countsAgainst owner now)

/-- **A report bars its owner from sharing exactly if it is at least the third within the window, and
nobody else.** -/
structure PausesWhenDue (env : Env) (st : Desk) (row : ShareReport) (st' : Desk) : Prop where
  due : (clusterPause env (st.reports ++ [row]) row.ownerHandle).isSome = true ↔
    clusterReportThreshold ≤ recentAgainst (st.reports ++ [row]) row.ownerHandle env.now
  stamps : st'.stores.users.contents = st.stores.users.contents.map fun u =>
    if lower u.claimedHandle = lower row.ownerHandle then
      (clusterPause env (st.reports ++ [row]) row.ownerHandle).elim u fun t =>
        { u with sharesPausedUntil := some t }
    else u

/-- Fewer than 198 other reports are newer than the third newest one against the owner. -/
def ThirdOnPage (env : Env) (reports : List ShareReport) (owner : String) : Prop :=
  ∀ newer third older, env.newestFirst.order reports = newer ++ third :: older →
    countsAgainst owner env.now third → newer.countP (countsAgainst owner env.now) = 2 →
    newer.countP (fun r => !countsAgainst owner env.now r) < 198

theorem list_all (env : Env) (reports : List ShareReport) :
    list env reports none 500 0 = (env.newestFirst.order reports).take 200 := by
  have hall : (env.newestFirst.order reports).filter
      (fun r => (none : Option ShareReportStatus).all (r.status = ·)) = env.newestFirst.order reports :=
    List.filter_eq_self.mpr fun _ _ => rfl
  unfold list
  rw [hall]
  rfl

theorem isSome_clusterPause (hcalm : env.fails .list = false) (reports : List ShareReport)
    (owner : String) : (clusterPause env reports owner).isSome = true ↔
      2 < ((env.newestFirst.order reports).take 200).countP (countsAgainst owner env.now) := by
  unfold clusterPause clusterReportThreshold
  rw [hcalm, if_neg Bool.false_ne_true, list_all]
  split_ifs with hfew
  · exact iff_of_false nofun (by omega)
  · exact iff_of_true rfl (by omega)

/-- The count on the page is enough when it should be exactly if the third report is on the page. -/
theorem due_iff (hcalm : env.fails .list = false) (reports : List ShareReport) (owner : String) :
    ((clusterPause env reports owner).isSome = true ↔
      clusterReportThreshold ≤ recentAgainst reports owner env.now) ↔ ThirdOnPage env reports owner := by
  have hcount : recentAgainst reports owner env.now =
      (env.newestFirst.order reports).countP (countsAgainst owner env.now) :=
    ((env.newestFirst.perm reports).countP_eq _).symm
  have hlength : ∀ newer : List ShareReport, newer.countP (countsAgainst owner env.now) = 2 →
      newer.length = newer.countP (fun r => !countsAgainst owner env.now r) + 2 := by
    intro newer htwo
    have hsum := List.length_eq_countP_add_countP (countsAgainst owner env.now) (l := newer)
    simp only [Bool.not_eq_true, Bool.decide_eq_false] at hsum
    omega
  rw [isSome_clusterPause hcalm, hcount]
  unfold clusterReportThreshold
  rw [Nat.succ_le_iff]
  constructor
  · intro h newer third older hsplit hthird htwo
    by_contra hmany
    have hlong : 200 ≤ newer.length := by
      have hlen := hlength newer htwo
      omega
    have hpage := h.mpr (lt_countP_iff.mpr ⟨newer, third, older, hsplit, hthird, htwo⟩)
    rw [hsplit, List.take_append_of_le_length hlong] at hpage
    have hfew := (List.take_sublist 200 newer).countP_le (p := countsAgainst owner env.now)
    omega
  · intro h
    rw [lt_countP_take_iff, lt_countP_iff]
    constructor
    · rintro ⟨newer, third, older, hsplit, hthird, htwo, -⟩
      exact ⟨newer, third, older, hsplit, hthird, htwo⟩
    · rintro ⟨newer, third, older, hsplit, hthird, htwo⟩
      have hfew := h newer third older hsplit hthird htwo
      have hlen := hlength newer htwo
      exact ⟨newer, third, older, hsplit, hthird, htwo, by omega⟩

/-- **A report that is filed bars its owner exactly when due, and nobody else, if the third newest report
against the owner is on the page.** -/
theorem pausesWhenDue_iff (hcalm : ∀ call, env.fails call = false) {row : ShareReport}
    (hfiled : created st env auth body = .ok row) :
    PausesWhenDue env st row (reportShare st env auth body).1 ↔
      ThirdOnPage env (st.reports ++ [row]) row.ownerHandle := by
  have hstamps : (reportShare st env auth body).1.stores.users.contents =
      st.stores.users.contents.map fun u =>
        if lower u.claimedHandle = lower row.ownerHandle then
          (clusterPause env (st.reports ++ [row]) row.ownerHandle).elim u fun t =>
            { u with sharesPausedUntil := some t }
        else u := by
    unfold reportShare checkCrossReportCluster
    rw [hfiled]
    simp only
    cases clusterPause env (st.reports ++ [row]) row.ownerHandle with
    | none =>
      simp
    | some until_ =>
      simp only [hcalm .setPaused]
      exact Table.contents_mapRows ..
  rw [← due_iff (hcalm .list)]
  exact ⟨fun h => h.due, fun h => ⟨h, hstamps⟩⟩

end Cluster

/-! ### A quiet and a busy day -/

/-- The order of the query, made by sorting. -/
def byTime : NewestFirst where
  order := sortBy fun r : ShareReport => -r.createdAt
  perm := perm_sortBy fun r : ShareReport => -r.createdAt
  descending rows := (pairwise_sortBy (fun r : ShareReport => -r.createdAt) rows).imp fun h => by
    simpa using h

/-- Nothing fails. -/
def calm (now : ℤ) : Env := ⟨now, "new", fun _ => false, byTime⟩

/-- Reports of one time against an owner, five by each reader. -/
def reportsAt (count : ℕ) (owner : String) (createdAt : ℤ) : List ShareReport :=
  (List.range count).map fun n =>
    let reader := "Reader" ++ toString (n / 5)
    ⟨toString n, reader, owner, reader, .abuse, none, .opened, createdAt⟩

/-- Two reports against the owner, and later so many against others. -/
def deskWith (others : ℕ) : Desk where
  stores := ⟨Table.empty.insert ⟨"o", "Owner", some 0, none⟩, ∅, Table.empty, []⟩
  reports := reportsAt 2 "Owner" 0 ++ reportsAt others "Other" 1

def friend : AuthenticatedUser := ⟨"f", "Friend", .user, none⟩

def againstOwner : ReportShareRequest := ⟨"Owner", "Friend", "abuse", none⟩

/-- The report of the friend. -/
def third : ShareReport := rowOf (calm 2) friend againstOwner .abuse

theorem pausesWhenDue_quiet :
    PausesWhenDue (calm 2) (deskWith 0) third (reportShare (deskWith 0) (calm 2) friend againstOwner).1 := by
  have hfiled : created (deskWith 0) (calm 2) friend againstOwner = .ok third := by decide +kernel
  refine (pausesWhenDue_iff (fun _ => rfl) hfiled).mpr ?_
  intro newer row older hsplit _ _
  have hlen : ((calm 2).newestFirst.order ((deskWith 0).reports ++ [third])).length = 3 :=
    ((calm 2).newestFirst.perm _).length_eq
  rw [hsplit, List.length_append] at hlen
  have hcount := List.countP_le_length (p := fun r => !countsAgainst third.ownerHandle (calm 2).now r)
    (l := newer)
  omega

/-- With 198 reports against others in between, the third one is not counted. -/
theorem not_pausesWhenDue_busy :
    created (deskWith 198) (calm 2) friend againstOwner = .ok third ∧
      ¬ PausesWhenDue (calm 2) (deskWith 198) third
        (reportShare (deskWith 198) (calm 2) friend againstOwner).1 := by
  refine ⟨by decide +kernel, fun h => ?_⟩
  have hunseen : (clusterPause (calm 2) ((deskWith 198).reports ++ [third]) third.ownerHandle).isSome =
      false := by decide +kernel
  have hdue : clusterReportThreshold ≤
      recentAgainst ((deskWith 198).reports ++ [third]) third.ownerHandle (calm 2).now := by
    decide +kernel
  have hseen := h.due.mpr hdue
  rw [hunseen] at hseen
  cases hseen

end StarStats.Server.ShareReports
