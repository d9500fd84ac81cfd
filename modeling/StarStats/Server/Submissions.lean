import Mathlib.Data.Int.Notation
import StarStats.Lib.Threads

/-! # The lifecycle of a submission

Five calls write the row of a submission: users flag it, its submitter withdraws it, and moderators accept
it, reject it or dismiss its flags. Each is a transaction that locks the row first, so whatever the others
do, the row is at the commit as it was read (`ok_state`), and each turn leaves the row or commits a whole
call (`turn_cases`). -/

namespace StarStats.Server.Submissions

open StarStats.Lib.Threads

/-- `AUTO_FLAG_THRESHOLD` -/
def autoFlagThreshold : ℕ := 3

/-- The states of a submission. -/
inductive SubmissionStatus where
  | review
  | accepted
  | shipped
  | rejected
  | withdrawn
  | flagged
  deriving DecidableEq

/-- The columns of a submission that the calls read or write. -/
structure Submission where
  submitterId : String
  status : SubmissionStatus
  rejectionReason : Option String
  updatedAt : ℤ
  deriving DecidableEq

/-- A row of `submission_flags`. -/
structure Flag where
  userId : String
  reason : Option String
  deriving DecidableEq

/-- Whether the row is new. -/
inductive WriteOutcome where
  | inserted
  | alreadyExists
  deriving DecidableEq

/-- What a flag has brought about. -/
structure FlagOutcome where
  write : WriteOutcome
  flagCount : ℕ
  escalated : Bool
  deriving DecidableEq

/-- What a moderator's change has brought about. -/
structure SubmissionTransition where
  previousStatus : SubmissionStatus
  newStatus : SubmissionStatus
  wasChanged : Bool
  deriving DecidableEq

inductive SubmissionError where
  | notFound
  | forbidden
  | badState
  | illegalTransition (from_ to_ : SubmissionStatus)
  | database
  deriving DecidableEq

/-- The row of the submission, its flags, and which transaction holds the row. -/
structure Store (ι : Type) where
  row : Option Submission
  flags : List Flag
  lock : Option ι

/-- The clock, and whether the statement of a step fails. -/
structure Env where
  now : ℤ
  fault : Bool

/-- What can happen to a submission. -/
inductive Request where
  | flag (userId : String) (reason : Option String)
  | withdraw (callerId : String)
  | acceptSubmission
  | rejectSubmission (reason : String)
  | dismissFlag

/-- What a call returns. -/
inductive Outcome where
  | flag (o : FlagOutcome)
  | submission (row : Submission) (flagCount : ℕ)
  | transition (t : SubmissionTransition)
  deriving DecidableEq

/-- Where a call is. -/
inductive Place where
  | asked
  /-- The row is locked, and passes the checks of the call. -/
  | locked (row : Submission)
  | inserted (row : Submission) (write : WriteOutcome)
  | counted (row : Submission) (o : FlagOutcome)
  /-- The row is updated, to be committed. -/
  | updated (row : Submission) (o : Outcome)
  | withdrawing (row : Submission)
  /-- The withdrawal is committed, and the row is read again. -/
  | rereading
  | done (o : Outcome)
  | refused (e : SubmissionError)
  deriving DecidableEq

/-- Who has flagged it. -/
def flaggers (flags : List Flag) : List String := flags.map (·.userId)

section Steps
variable {ι : Type} (env : Env) (st : Store ι)

/-- `SELECT … FOR UPDATE` and the checks on what it returns. -/
def lockRow (i : ι) (check : Submission → Except SubmissionError Unit) : Store ι × Place :=
  if env.fault then (st, .refused .database)
  -- The row is another's until that transaction is over.
  else if st.lock.isSome then (st, .asked)
  else
    match st.row with
    | none => (st, .refused .notFound)
    | some row =>
      match check row with
      | .error e => (st, .refused e)
      | .ok _ => ({ st with lock := some i }, .locked row)

/-- The transaction is over, and nothing is written. -/
def rollback : Store ι × Place := ({ st with lock := none }, .refused .database)

/-- The row and its flags are written, and the lock is free. -/
def commit (row : Submission) (flags : List Flag) : Store ι := ⟨some row, flags, none⟩

/-- `INSERT … ON CONFLICT DO NOTHING` -/
def writeOf (userId : String) (flags : List Flag) : WriteOutcome :=
  if userId ∈ flaggers flags then .alreadyExists else .inserted

/-- The flags after the write. -/
def withFlag (f : Flag) (write : WriteOutcome) (flags : List Flag) : List Flag :=
  match write with
  | .inserted => flags ++ [f]
  | .alreadyExists => flags

/-- What a flag comes to, with the count of all flags there are. -/
def flagOutcome (row : Submission) (f : Flag) (write : WriteOutcome) (flags : List Flag) : FlagOutcome where
  write := write
  flagCount := (withFlag f write flags).length
  escalated := write = .inserted && row.status = .review &&
    autoFlagThreshold ≤ (withFlag f write flags).length

/-- A flag in its steps, the row locked from the first to the last. -/
def flag (i : ι) (f : Flag) : Place → Store ι × Place
  | .asked => lockRow env st i fun _ => .ok ()
  | .locked row =>
    if env.fault then rollback st else (st, .inserted row (writeOf f.userId st.flags))
  | .inserted row write =>
    if env.fault then rollback st else (st, .counted row (flagOutcome row f write st.flags))
  | .counted row o =>
    if env.fault then rollback st
    else if o.escalated then
      (st, .updated { row with status := .flagged, updatedAt := env.now } (.flag o))
    else (commit row (withFlag f o.write st.flags), .done (.flag o))
  | .updated row (.flag o) =>
    if env.fault then rollback st
    else (commit row (withFlag f o.write st.flags), .done (.flag o))
  | place => (st, place)

/-- Only the submitter, and only while it is in review. -/
def withdrawCheck (callerId : String) (row : Submission) : Except SubmissionError Unit :=
  if row.submitterId ≠ callerId then .error .forbidden
  else if row.status ≠ .review then .error .badState
  else .ok ()

/-- The submitter takes it back. -/
def withdraw (i : ι) (callerId : String) : Place → Store ι × Place
  | .asked => lockRow env st i (withdrawCheck callerId)
  | .locked row =>
    if env.fault then rollback st
    else (st, .withdrawing { row with status := .withdrawn, updatedAt := env.now })
  | .withdrawing row => if env.fault then rollback st else (commit row st.flags, .rereading)
  | .rereading =>
    if env.fault then (st, .refused .database)
    else
      match st.row with
      | none => (st, .refused .notFound)
      | some row => (st, .done (.submission row st.flags.length))
  | place => (st, place)

/-- Only from the states that the change allows. -/
def transitionCheck (target : SubmissionStatus) (legalPriors : List SubmissionStatus) (row : Submission) :
    Except SubmissionError Unit :=
  if row.status ∈ legalPriors then .ok () else .error (.illegalTransition row.status target)

/-- A transition without a reason leaves the one that is stored. -/
def adminTransition (i : ι) (target : SubmissionStatus) (reason : Option String)
    (legalPriors : List SubmissionStatus) : Place → Store ι × Place
  | .asked => lockRow env st i (transitionCheck target legalPriors)
  | .locked row =>
    if env.fault then rollback st
    else if row.status = target then
      ({ st with lock := none }, .done (.transition ⟨row.status, target, false⟩))
    else
      (st, .updated
        { row with
          status := target
          rejectionReason := reason.orElse fun _ => row.rejectionReason
          updatedAt := env.now }
        (.transition ⟨row.status, target, true⟩))
  | .updated row o => if env.fault then rollback st else (commit row st.flags, .done o)
  | place => (st, place)

/-- A flagged submission may be accepted. -/
def acceptSubmission (i : ι) : Place → Store ι × Place :=
  adminTransition env st i .accepted none [.review, .flagged, .accepted]

/-- The reason is kept with the row. -/
def rejectSubmission (i : ι) (reason : String) : Place → Store ι × Place :=
  adminTransition env st i .rejected (some reason) [.review, .flagged, .rejected]

/-- Back into review; the rows of the flags stay. -/
def dismissFlag (i : ι) : Place → Store ι × Place :=
  adminTransition env st i .review none [.flagged, .review]

/-- A call takes its next step. -/
def step (requests : ι → Request) (i : ι) (env : Env) (st : Store ι) (place : Place) : Store ι × Place :=
  match requests i with
  | .flag userId reason => flag env st i ⟨userId, reason⟩ place
  | .withdraw callerId => withdraw env st i callerId place
  | .acceptSubmission => acceptSubmission env st i place
  | .rejectSubmission reason => rejectSubmission env st i reason place
  | .dismissFlag => dismissFlag env st i place

end Steps

/-- Where a transition leads, with what reason, and from where. -/
def Request.transition : Request → Option (SubmissionStatus × Option String × List SubmissionStatus)
  | .acceptSubmission => some (.accepted, none, [.review, .flagged, .accepted])
  | .rejectSubmission reason => some (.rejected, some reason, [.review, .flagged, .rejected])
  | .dismissFlag => some (.review, none, [.flagged, .review])
  | _ => none

/-- A flag has reported that it has escalated. -/
def Place.escalated : Place → Bool
  | .done (.flag o) => o.escalated
  | _ => false

section Machine
variable {ι : Type} [DecidableEq ι] (requests : ι → Request) (row : Option Submission) (flags : List Flag)
  (as : List (ι × Env))

/-- All calls are yet to begin. -/
def initial : Shared ι (Store ι) Place := ⟨⟨row, flags, none⟩, fun _ => .asked⟩

/-- The state after the first turns. -/
def state (n : ℕ) : Shared ι (Store ι) Place := after (step requests) (initial row flags) as n

/-- The status, where there is a submission. -/
def statusAt (n : ℕ) : Option SubmissionStatus :=
  (state requests row flags as n).store.row.map (·.status)

/-- The edges of the lifecycle. -/
inductive Edge : SubmissionStatus → SubmissionStatus → Prop
  | flag : Edge .review .flagged
  | withdraw : Edge .review .withdrawn
  | accept (prior : SubmissionStatus) : prior = .review ∨ prior = .flagged → Edge prior .accepted
  | reject (prior : SubmissionStatus) : prior = .review ∨ prior = .flagged → Edge prior .rejected
  | dismiss : Edge .flagged .review

/-- In this turn the submission comes to be flagged. -/
def Enters (n : ℕ) : Prop :=
  statusAt requests row flags as n ≠ some .flagged ∧ statusAt requests row flags as (n + 1) = some .flagged

/-- In this turn the call reports that it has escalated. -/
def Reports (n : ℕ) (i : ι) : Prop :=
  ((state requests row flags as n).place i).escalated = false ∧
    ((state requests row flags as (n + 1)).place i).escalated = true

/-- **The lifecycle**, whatever the calls and the order of their statements. -/
structure Lifecycle : Prop where
  edges : ∀ n s s', statusAt requests row flags as n = some s →
    statusAt requests row flags as (n + 1) = some s' → s ≠ s' → Edge s s'
  final : ∀ n m s, n ≤ m → s = .accepted ∨ s = .rejected ∨ s = .withdrawn →
    statusAt requests row flags as n = some s → statusAt requests row flags as m = some s
  /-- One call reports each entry, and no call anything else. -/
  reported : ∀ n, Enters requests row flags as n → ∃! i, Reports requests row flags as n i
  entered : ∀ n i, Reports requests row flags as n i → Enters requests row flags as n
  reason : ∀ n r r', (state requests row flags as n).store.row = some r →
    (state requests row flags as (n + 1)).store.row = some r' → r.rejectionReason ≠ r'.rejectionReason →
    r.status ≠ .rejected ∧ r'.status = .rejected
  /-- A submission that is missing stays so, and one that is there stays there. -/
  exists_ : ∀ n, (state requests row flags as n).store.row.isSome = row.isSome

end Machine

/-! ### What a call commits -/

section Calls
variable {ι : Type} {r : Request} {requests : ι → Request} {i j : ι} {env : Env} {st : Store ι}
  {place : Place} {row row' : Submission} {flags flags' : List Flag}

/-- What each call does at once, if nothing comes in between. -/
inductive Commits (r : Request) (row : Submission) (flags : List Flag) :
    Submission → List Flag → Place → Prop
  | flag (userId : String) (reason : Option String) : r = .flag userId reason →
      (flagOutcome row ⟨userId, reason⟩ (writeOf userId flags) flags).escalated = false →
      Commits r row flags row (withFlag ⟨userId, reason⟩ (writeOf userId flags) flags)
        (.done (.flag (flagOutcome row ⟨userId, reason⟩ (writeOf userId flags) flags)))
  | escalate (userId : String) (reason : Option String) (now : ℤ) : r = .flag userId reason →
      (flagOutcome row ⟨userId, reason⟩ (writeOf userId flags) flags).escalated = true →
      Commits r row flags { row with status := .flagged, updatedAt := now }
        (withFlag ⟨userId, reason⟩ (writeOf userId flags) flags)
        (.done (.flag (flagOutcome row ⟨userId, reason⟩ (writeOf userId flags) flags)))
  | withdraw (callerId : String) (now : ℤ) : r = .withdraw callerId → row.submitterId = callerId →
      row.status = .review →
      Commits r row flags { row with status := .withdrawn, updatedAt := now } flags .rereading
  | keep (target : SubmissionStatus) (reason : Option String) (legalPriors : List SubmissionStatus) :
      r.transition = some (target, reason, legalPriors) → row.status = target →
      Commits r row flags row flags (.done (.transition ⟨row.status, target, false⟩))
  | transition (target : SubmissionStatus) (reason : Option String)
      (legalPriors : List SubmissionStatus) (now : ℤ) :
      r.transition = some (target, reason, legalPriors) → row.status ∈ legalPriors →
      row.status ≠ target →
      Commits r row flags
        { row with
          status := target
          rejectionReason := reason.orElse fun _ => row.rejectionReason
          updatedAt := now }
        flags (.done (.transition ⟨row.status, target, true⟩))

/-- The call holds the row, which is as it was read. -/
def Holds (i : ι) (st : Store ι) (row : Submission) : Prop := st.lock = some i ∧ st.row = some row

/-- What holds where a call is: what it has worked out is what it works out of the row and the flags as
they are. -/
def Ok (r : Request) (i : ι) (st : Store ι) : Place → Prop
  | .locked row => Holds i st row ∧
      (∀ callerId, r = .withdraw callerId → withdrawCheck callerId row = .ok ()) ∧
      ∀ target reason legalPriors, r.transition = some (target, reason, legalPriors) →
        row.status ∈ legalPriors
  | .inserted row write => Holds i st row ∧
      ∃ userId reason, r = .flag userId reason ∧ write = writeOf userId st.flags
  | .counted row o => Holds i st row ∧ ∃ userId reason, r = .flag userId reason ∧
      o = flagOutcome row ⟨userId, reason⟩ (writeOf userId st.flags) st.flags
  | .updated row' o => ∃ row flags', Holds i st row ∧ Commits r row st.flags row' flags' (.done o)
  | .withdrawing row' => ∃ row, Holds i st row ∧ Commits r row st.flags row' st.flags .rereading
  | _ => True

/-- What a step does: it leaves the row and the flags, or commits a whole call; where another holds the
row, it leaves everything. -/
structure Steps (r : Request) (i : ι) (st : Store ι) (place : Place) (st' : Store ι) (place' : Place) :
    Prop where
  ok : Ok r i st' place'
  changes : (st'.row = st.row ∧ st'.flags = st.flags ∧ (place'.escalated = true → place' = place)) ∨
    place.escalated = false ∧
      ∃ row row', st.row = some row ∧ st'.row = some row' ∧ Commits r row st.flags row' st'.flags place'
  others : ∀ j, j ≠ i → st.lock = some j →
    st'.lock = st.lock ∧ st'.row = st.row ∧ st'.flags = st.flags

theorem Steps.stay (h : Ok r i st place) : Steps r i st place st place :=
  ⟨h, Or.inl ⟨rfl, rfl, fun _ => rfl⟩, fun _ _ _ => ⟨rfl, rfl, rfl⟩⟩

theorem Steps.move {place' : Place} (h : Ok r i st place') (hquiet : place'.escalated = false) :
    Steps r i st place st place' := by
  refine ⟨h, Or.inl ⟨rfl, rfl, fun hreports => ?_⟩, fun _ _ _ => ⟨rfl, rfl, rfl⟩⟩
  rw [hquiet] at hreports
  cases hreports

theorem Holds.others {st' : Store ι} (h : Holds i st row) : ∀ j, j ≠ i → st.lock = some j →
    st'.lock = st.lock ∧ st'.row = st.row ∧ st'.flags = st.flags := by
  intro j hj hlock
  exact absurd (Option.some.inj (hlock.symm.trans h.1)) hj

theorem Steps.rollback (h : Holds i st row) :
    Steps r i st place (Submissions.rollback st).1 (Submissions.rollback st).2 :=
  ⟨trivial, Or.inl ⟨rfl, rfl, nofun⟩, h.others⟩

theorem Commits.ok {place' : Place} (h : Commits r row flags row' flags' place') : Ok r i st place' := by
  cases h with
  | _ => trivial

theorem Steps.commit {place' : Place} (h : Holds i st row)
    (hcommits : Commits r row st.flags row' flags' place') (hopen : place.escalated = false) :
    Steps r i st place (Submissions.commit row' flags') place' :=
  ⟨hcommits.ok, Or.inr ⟨hopen, row, row', h.2, rfl, hcommits⟩, h.others⟩

/-- The first statement of each call. -/
theorem Steps.lockRow {check : Submission → Except SubmissionError Unit}
    (hwithdraw : ∀ callerId, r = .withdraw callerId → check = withdrawCheck callerId)
    (htransition : ∀ target reason legalPriors, r.transition = some (target, reason, legalPriors) →
      check = transitionCheck target legalPriors) :
    Steps r i st .asked (Submissions.lockRow env st i check).1
      (Submissions.lockRow env st i check).2 := by
  unfold Submissions.lockRow
  split_ifs with hfault hlock
  · exact .move trivial rfl
  · exact .stay trivial
  · split
    · exact .move trivial rfl
    · rename_i row hrow
      cases hcheck : check row with
      | error e => exact .move trivial rfl
      | ok u =>
        have hfree : st.lock = none := by simpa using hlock
        refine ⟨⟨⟨rfl, hrow⟩, fun callerId hr => ?_, fun target reason legalPriors hr => ?_⟩,
          Or.inl ⟨rfl, rfl, nofun⟩, fun j _ hheld => ?_⟩
        · rw [← hwithdraw callerId hr]
          exact hcheck
        · rw [htransition target reason legalPriors hr] at hcheck
          unfold transitionCheck at hcheck
          split_ifs at hcheck with hlegal
          exact hlegal
        · rw [hfree] at hheld
          cases hheld

theorem steps_flag {userId : String} {reason : Option String} (hr : r = .flag userId reason)
    (hok : Ok r i st place) :
    Steps r i st place (flag env st i ⟨userId, reason⟩ place).1
      (flag env st i ⟨userId, reason⟩ place).2 := by
  have hsame : ∀ {userId' reason'}, r = .flag userId' reason' → userId' = userId ∧ reason' = reason := by
    intro userId' reason' hr'
    rw [hr] at hr'
    cases hr'
    exact ⟨rfl, rfl⟩
  cases place with
  | asked =>
    refine .lockRow (fun callerId hr' => ?_) fun target reason' legalPriors hr' => ?_
    · rw [hr] at hr'
      cases hr'
    · rw [hr] at hr'
      cases hr'
  | locked row =>
    unfold flag
    simp only
    obtain ⟨hholds, -, -⟩ := hok
    split_ifs
    · exact .rollback hholds
    · exact .move ⟨hholds, userId, reason, hr, rfl⟩ rfl
  | inserted row write =>
    unfold flag
    simp only
    obtain ⟨hholds, userId', reason', hr', rfl⟩ := hok
    obtain ⟨rfl, rfl⟩ := hsame hr'
    split_ifs
    · exact .rollback hholds
    · exact .move ⟨hholds, userId', reason', hr, rfl⟩ rfl
  | counted row o =>
    unfold flag
    simp only
    obtain ⟨hholds, userId', reason', hr', rfl⟩ := hok
    obtain ⟨rfl, rfl⟩ := hsame hr'
    split_ifs with hfault hescalated
    · exact .rollback hholds
    · exact .move ⟨row, _, hholds, .escalate userId' reason' env.now hr hescalated⟩ rfl
    · exact .commit hholds (.flag userId' reason' hr (Bool.eq_false_iff.mpr hescalated)) rfl
  | updated row' out =>
    obtain ⟨row, flags', hholds, hcommits⟩ := hok
    cases out with
    | flag o =>
      unfold flag
      simp only
      split_ifs
      · exact .rollback hholds
      · have hflags : withFlag ⟨userId, reason⟩ o.write st.flags = flags' := by
          cases hcommits with
          | flag userId' reason' hr' | escalate userId' reason' now hr' =>
            obtain ⟨rfl, rfl⟩ := hsame hr'
            rfl
        rw [hflags]
        exact .commit hholds hcommits rfl
    | _ => exact .stay ⟨row, flags', hholds, hcommits⟩
  | _ => exact .stay hok

theorem steps_withdraw {callerId : String} (hr : r = .withdraw callerId) (hok : Ok r i st place) :
    Steps r i st place (withdraw env st i callerId place).1 (withdraw env st i callerId place).2 := by
  cases place with
  | asked =>
    refine .lockRow (fun callerId' hr' => ?_) fun target reason legalPriors hr' => ?_
    · rw [hr] at hr'
      cases hr'
      rfl
    · rw [hr] at hr'
      cases hr'
  | locked row =>
    unfold withdraw
    simp only
    obtain ⟨hholds, hcheck, -⟩ := hok
    have hpasses := hcheck callerId hr
    unfold withdrawCheck at hpasses
    split_ifs at hpasses with hcaller hreview
    split_ifs
    · exact .rollback hholds
    · exact .move ⟨row, hholds,
        .withdraw callerId env.now hr (not_not.mp hcaller) (not_not.mp hreview)⟩ rfl
  | withdrawing row' =>
    unfold withdraw
    simp only
    obtain ⟨row, hholds, hcommits⟩ := hok
    split_ifs
    · exact .rollback hholds
    · exact .commit hholds hcommits rfl
  | rereading =>
    unfold withdraw
    simp only
    split_ifs
    · exact .move trivial rfl
    · cases st.row with
      | none => exact .move trivial rfl
      | some row => exact .move trivial rfl
  | _ => exact .stay hok

theorem steps_adminTransition {target : SubmissionStatus} {reason : Option String}
    {legalPriors : List SubmissionStatus} (hr : r.transition = some (target, reason, legalPriors))
    (hok : Ok r i st place) :
    Steps r i st place (adminTransition env st i target reason legalPriors place).1
      (adminTransition env st i target reason legalPriors place).2 := by
  cases place with
  | asked =>
    refine .lockRow (fun callerId hr' => ?_) fun target' reason' legalPriors' hr' => ?_
    · rw [hr'] at hr
      cases hr
    · rw [hr] at hr'
      cases hr'
      rfl
  | locked row =>
    unfold adminTransition
    simp only
    obtain ⟨hholds, -, hlegal⟩ := hok
    split_ifs with hfault hsame
    · exact .rollback hholds
    · have hst : ({ st with lock := none } : Store ι) = Submissions.commit row st.flags := by
        unfold Submissions.commit
        rw [← hholds.2]
      rw [hst]
      exact .commit hholds (hsame ▸ .keep row.status reason legalPriors (hsame ▸ hr) rfl) rfl
    · exact .move ⟨row, st.flags, hholds,
        .transition target reason legalPriors env.now hr (hlegal target reason legalPriors hr) hsame⟩ rfl
  | updated row' out =>
    unfold adminTransition
    simp only
    obtain ⟨row, flags', hholds, hcommits⟩ := hok
    split_ifs
    · exact .rollback hholds
    · have hflags : st.flags = flags' := by
        cases hcommits with
        | flag userId' reason' hr' | escalate userId' reason' now hr' =>
          rw [hr'] at hr
          cases hr
        | keep | transition => rfl
      rw [hflags]
      exact .commit hholds hcommits rfl
  | _ => exact .stay hok

/-- **Every step keeps what holds of the call, and leaves the row and the flags or commits the call.** -/
theorem steps_step (hok : Ok (requests i) i st place) :
    Steps (requests i) i st place (step requests i env st place).1 (step requests i env st place).2 := by
  unfold step
  cases hr : requests i with
  | flag userId reason => exact steps_flag rfl (hr ▸ hok)
  | withdraw callerId => exact steps_withdraw rfl (hr ▸ hok)
  | acceptSubmission => exact steps_adminTransition rfl (hr ▸ hok)
  | rejectSubmission reason => exact steps_adminTransition rfl (hr ▸ hok)
  | dismissFlag => exact steps_adminTransition rfl (hr ▸ hok)

/-- What holds of a call that has the row is kept by the steps that leave the row and the flags. -/
theorem Ok.others {st' : Store ι} (h : Ok r j st place) (hothers : st.lock = some j →
    st'.lock = st.lock ∧ st'.row = st.row ∧ st'.flags = st.flags) : Ok r j st' place := by
  have hheld : ∀ row, Holds j st row → Holds j st' row ∧ st'.flags = st.flags := by
    intro row hholds
    obtain ⟨hlock, hrow, hflags⟩ := hothers hholds.1
    exact ⟨⟨hlock.trans hholds.1, hrow.trans hholds.2⟩, hflags⟩
  cases place with
  | locked row => exact ⟨(hheld row h.1).1, h.2⟩
  | inserted row write =>
    obtain ⟨hholds, hflags⟩ := hheld row h.1
    exact ⟨hholds, hflags ▸ h.2⟩
  | counted row o =>
    obtain ⟨hholds, hflags⟩ := hheld row h.1
    exact ⟨hholds, hflags ▸ h.2⟩
  | updated row' o =>
    obtain ⟨row, flags', hbefore, hcommits⟩ := h
    obtain ⟨hholds, hflags⟩ := hheld row hbefore
    exact ⟨row, flags', hholds, hflags ▸ hcommits⟩
  | withdrawing row' =>
    obtain ⟨row, hbefore, hcommits⟩ := h
    obtain ⟨hholds, hflags⟩ := hheld row hbefore
    exact ⟨row, hholds, hflags ▸ hcommits⟩
  | _ => trivial

/-- A call that changes the status takes it along an edge. -/
theorem Commits.edge {place' : Place} (h : Commits r row flags row' flags' place')
    (hne : row.status ≠ row'.status) : Edge row.status row'.status := by
  cases h with
  | flag | keep => exact absurd rfl hne
  | escalate userId reason now hr hescalated =>
    simp only [flagOutcome, Bool.and_eq_true, decide_eq_true_eq] at hescalated
    rw [hescalated.1.2]
    exact .flag
  | withdraw callerId now hr hcaller hreview =>
    rw [hreview]
    exact .withdraw
  | transition target reason legalPriors now hr hlegal hother =>
    cases r with
    | flag | withdraw => cases hr
    | acceptSubmission =>
      obtain ⟨rfl, rfl, rfl⟩ := hr
      have hprior : row.status = .review ∨ row.status = .flagged := by simpa [hother] using hlegal
      exact .accept _ hprior
    | rejectSubmission reason =>
      obtain ⟨rfl, rfl, rfl⟩ := hr
      have hprior : row.status = .review ∨ row.status = .flagged := by simpa [hother] using hlegal
      exact .reject _ hprior
    | dismissFlag =>
      obtain ⟨rfl, rfl, rfl⟩ := hr
      have hprior : row.status = .flagged := by simpa [hother] using hlegal
      rw [hprior]
      exact .dismiss

/-- A flag reports that it has escalated exactly when the submission comes to be flagged. -/
theorem Commits.escalated_iff {place' : Place} (h : Commits r row flags row' flags' place') :
    place'.escalated = true ↔ row.status ≠ .flagged ∧ row'.status = .flagged := by
  cases h with
  | flag userId reason hr hquiet =>
    refine iff_of_false ?_ fun hboth => hboth.1 hboth.2
    show ¬ (flagOutcome _ _ _ _).escalated = true
    rw [hquiet]
    exact Bool.false_ne_true
  | escalate userId reason now hr hescalated =>
    refine iff_of_true hescalated ⟨?_, rfl⟩
    simp only [flagOutcome, Bool.and_eq_true, decide_eq_true_eq] at hescalated
    rw [hescalated.1.2]
    decide
  | withdraw => exact iff_of_false nofun fun hboth => by cases hboth.2
  | keep => exact iff_of_false nofun fun hboth => hboth.1 hboth.2
  | transition target reason legalPriors now hr hlegal hother =>
    refine iff_of_false nofun fun hboth => ?_
    obtain rfl : target = .flagged := hboth.2
    cases r <;> cases hr

/-- Only a rejection writes a reason. -/
theorem Commits.reason {place' : Place} (h : Commits r row flags row' flags' place')
    (hne : row.rejectionReason ≠ row'.rejectionReason) :
    row.status ≠ .rejected ∧ row'.status = .rejected := by
  cases h with
  | transition target reason legalPriors now hr hlegal hother =>
    cases r with
    | flag | withdraw => cases hr
    | acceptSubmission | dismissFlag =>
      obtain ⟨rfl, rfl, rfl⟩ := hr
      exact absurd rfl hne
    | rejectSubmission reason =>
      obtain ⟨rfl, rfl, rfl⟩ := hr
      exact ⟨hother, rfl⟩
  | _ => exact absurd rfl hne

end Calls

/-! ### Runs -/

section Runs
variable {ι : Type} [DecidableEq ι] {requests : ι → Request} {row : Option Submission} {flags : List Flag}
  {as : List (ι × Env)} {i j : ι} {e : Env} {n m : ℕ} {s s' : SubmissionStatus}

theorem ok_state (as : List (ι × Env)) (n : ℕ) (i : ι) :
    Ok (requests i) i (state requests row flags as n).store
      ((state requests row flags as n).place i) := by
  refine (@placed_after ι (Store ι) Place Env _ (step requests) (initial row flags) (fun _ => True)
    (fun i st place => Ok (requests i) i st place) ?_ ?_ ?_ as n).2 i
  · intro i e st place _ hok
    exact ⟨trivial, (steps_step hok).ok⟩
  · intro i e st place j place' hj _ hok hok'
    exact hok'.others fun hlock => (steps_step hok).others j hj hlock
  · exact ⟨trivial, fun i => trivial⟩

/-- **A turn leaves the row and the flags, and nobody reports anything; or it commits a call.** -/
theorem turn_cases (requests : ι → Request) (row : Option Submission) (flags : List Flag)
    (as : List (ι × Env)) (n : ℕ) :
    ((state requests row flags as (n + 1)).store.row = (state requests row flags as n).store.row ∧
      (state requests row flags as (n + 1)).store.flags = (state requests row flags as n).store.flags ∧
      ∀ i, ¬ Reports requests row flags as n i) ∨
    ∃ i e r r', as[n]? = some (i, e) ∧ (state requests row flags as n).store.row = some r ∧
      (state requests row flags as (n + 1)).store.row = some r' ∧
      ((state requests row flags as n).place i).escalated = false ∧
      Commits (requests i) r (state requests row flags as n).store.flags r'
        (state requests row flags as (n + 1)).store.flags
        ((state requests row flags as (n + 1)).place i) ∧
      ∀ j, Reports requests row flags as n j → j = i := by
  rcases after_succ_cases (step requests) (initial row flags) as n with hsame | ⟨i, e, ha, hturn⟩
  · have hstill : state requests row flags as (n + 1) = state requests row flags as n := hsame
    refine Or.inl ?_
    unfold Reports
    rw [hstill]
    refine ⟨rfl, rfl, fun i hreports => ?_⟩
    rw [hreports.1] at hreports
    cases hreports.2
  · have hnext : state requests row flags as (n + 1) =
        turn (step requests) (state requests row flags as n) (i, e) := hturn
    have hok := @ok_state ι _ requests row flags as n i
    have hsteps := @steps_step ι requests i e _ _ hok
    have hothers : ∀ j, Reports requests row flags as n j → j = i := by
      intro j hreports
      by_contra hj
      have hplace : (state requests row flags as (n + 1)).place j =
          (state requests row flags as n).place j := by
        rw [hnext, place_turn_of_ne hj]
      obtain ⟨hbefore, hafter⟩ := hreports
      rw [hplace, hbefore] at hafter
      cases hafter
    have hplace : (state requests row flags as (n + 1)).place i =
        (step requests i e (state requests row flags as n).store
          ((state requests row flags as n).place i)).2 := by
      rw [hnext, place_turn_self]
    have hstore : (state requests row flags as (n + 1)).store =
        (step requests i e (state requests row flags as n).store
          ((state requests row flags as n).place i)).1 := by
      rw [hnext, store_turn]
    rw [← hplace, ← hstore] at hsteps
    rcases hsteps.changes with ⟨hrow, hflags, hquiet⟩ | ⟨hopen, r, r', hr, hr', hcommits⟩
    · refine Or.inl ⟨hrow, hflags, fun j hreports => ?_⟩
      obtain rfl := hothers j hreports
      obtain ⟨hbefore, hafter⟩ := hreports
      rw [hquiet hafter, hbefore] at hafter
      cases hafter
    · exact Or.inr ⟨i, e, r, r', ha, hr, hr', hopen, hcommits, hothers⟩

theorem edge_of_status (hs : statusAt requests row flags as n = some s)
    (hs' : statusAt requests row flags as (n + 1) = some s') (hne : s ≠ s') : Edge s s' := by
  unfold statusAt at hs hs'
  rcases turn_cases requests row flags as n with ⟨hrow, -, -⟩ | ⟨i, e, r, r', -, hr, hr', -, hcommits, -⟩
  · rw [hrow, hs] at hs'
    exact absurd (Option.some.inj hs') hne
  · rw [hr, Option.map_some] at hs
    rw [hr', Option.map_some] at hs'
    obtain rfl := Option.some.inj hs
    obtain rfl := Option.some.inj hs'
    exact hcommits.edge hne

theorem isSome_row (as : List (ι × Env)) (n : ℕ) :
    (state requests row flags as n).store.row.isSome = row.isSome := by
  induction n with
  | zero => rfl
  | succ n ih =>
    rcases turn_cases requests row flags as n with ⟨hrow, -, -⟩ | ⟨i, e, r, r', -, hr, hr', -⟩
    · rw [hrow]
      exact ih
    · rw [hr] at ih
      rw [hr']
      exact ih

/-- The submission comes to be flagged in a turn that commits a flag, and its call reports it. -/
theorem enters_iff : Enters requests row flags as n ↔ ∃ i, Reports requests row flags as n i := by
  have hstatus : ∀ m r, (state requests row flags as m).store.row = some r →
      (statusAt requests row flags as m = some .flagged ↔ r.status = .flagged) := by
    intro m r hr
    unfold statusAt
    rw [hr, Option.map_some]
    exact Option.some_inj
  rcases turn_cases requests row flags as n with
    ⟨hrow, -, hquiet⟩ | ⟨i, e, r, r', -, hr, hr', hopen, hcommits, hothers⟩
  · refine iff_of_false ?_ fun ⟨i, hreports⟩ => hquiet i hreports
    rintro ⟨hbefore, hafter⟩
    unfold statusAt at hbefore hafter
    rw [hrow] at hafter
    exact hbefore hafter
  · unfold Enters
    rw [ne_eq, hstatus n r hr, hstatus (n + 1) r' hr', ← ne_eq, ← hcommits.escalated_iff]
    constructor
    · intro hescalated
      exact ⟨i, hopen, hescalated⟩
    · rintro ⟨j, hreports⟩
      obtain rfl := hothers j hreports
      exact hreports.2

/-- **The lifecycle holds in every run.** -/
theorem lifecycle (requests : ι → Request) (row : Option Submission) (flags : List Flag)
    (as : List (ι × Env)) : Lifecycle requests row flags as := by
  constructor
  case edges =>
    intro n s s' hs hs' hne
    exact edge_of_status hs hs' hne
  case final =>
    intro n m s hnm hfinal hs
    induction hnm with
    | refl => exact hs
    | @step m _ ih =>
      have hthere : ∃ s', statusAt requests row flags as (m + 1) = some s' := by
        have hm : (state requests row flags as m).store.row.isSome = true := by
          unfold statusAt at ih
          rw [← Option.isSome_map (f := (·.status)), ih]
          rfl
        rw [isSome_row] at hm
        have hm' := (@isSome_row ι _ requests row flags as (m + 1)).trans hm
        obtain ⟨r, hr⟩ := Option.isSome_iff_exists.mp hm'
        refine ⟨r.status, ?_⟩
        unfold statusAt
        rw [hr]
        rfl
      obtain ⟨s', hs'⟩ := hthere
      by_cases hne : s = s'
      · rw [hs', hne]
      · have hedge := edge_of_status ih hs' hne
        rcases hfinal with rfl | rfl | rfl
        · rcases hedge with _ | _ | ⟨_, h | h⟩ | ⟨_, h | h⟩ | _ <;> cases h
        · rcases hedge with _ | _ | ⟨_, h | h⟩ | ⟨_, h | h⟩ | _ <;> cases h
        · rcases hedge with _ | _ | ⟨_, h | h⟩ | ⟨_, h | h⟩ | _ <;> cases h
  case reported =>
    intro n hn
    obtain ⟨i, hreports⟩ := enters_iff.mp hn
    refine ⟨i, hreports, fun j hj => ?_⟩
    rcases turn_cases requests row flags as n with
      ⟨-, -, hquiet⟩ | ⟨k, e, r, r', -, -, -, -, -, hothers⟩
    · exact absurd hj (hquiet j)
    · rw [hothers j hj, hothers i hreports]
  case entered =>
    intro n i hreports
    exact enters_iff.mpr ⟨i, hreports⟩
  case reason =>
    intro n r r' hr hr' hne
    rcases turn_cases requests row flags as n with
      ⟨hrow, -, -⟩ | ⟨i, e, r₀, r₀', -, hr₀, hr₀', -, hcommits, -⟩
    · rw [hrow, hr] at hr'
      exact absurd (congrArg Submission.rejectionReason (Option.some.inj hr')) hne
    · obtain rfl := Option.some.inj (hr.symm.trans hr₀)
      obtain rfl := Option.some.inj (hr'.symm.trans hr₀')
      exact hcommits.reason hne
  case exists_ =>
    intro n
    exact isSome_row as n

end Runs

end StarStats.Server.Submissions
