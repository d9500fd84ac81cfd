import StarStats.Server.RouteChecks

/-! # Submissions that stay as they are

After a vote, a flag or a withdrawal the submission is read anew, and the answer may be an error although
something is written. The rows of a batch of shapes are written one by one, up to one that fails. -/

namespace StarStats.Server.Routes

open StarStats.Lib.Tables
open StarStats.Server.Auth StarStats.Server.Accounts
open StarStats.Server.NewSubmissions (SubmissionRow parseStatus)
open StarStats.Tray.Review (ParserSubmission)

section Conditions
variable (s : Stores) (env : Env) (auth : AuthenticatedUser)

/-- The submission cannot be read back. -/
def NotReread (id : String) : Prop :=
  env.fails .findSubmission = true ∨ findSubmission s auth.sub id = none

/-- The ids of a request for a submission are no ids. -/
def BadIds (id : String) : Prop := env.isUuid id = false ∨ env.isUuid auth.sub = false

/-- A row of a batch fails, the `i`-th row of all being the first, and the rows before it make one table of
the other. -/
def FailsWithout (t t' : ParserSubmissions.Submissions Char) (i : ℕ)
    (batch : List (ParserSubmission Char)) : Prop :=
  ∃ before sub after, batch = before ++ sub :: after ∧ (∀ j < before.length, env.rowFails (i + j) = false) ∧
    before.foldlM ParserSubmissions.upsertRow t = some t' ∧
    (env.rowFails (i + before.length) = true ∨ ParserSubmissions.upsertRow t' sub = none)

end Conditions

section Handlers
variable {s : Stores} {env : Env} {auth : AuthenticatedUser}

theorem turned_listSubmissions {status : Option String} {mine : Bool} {limit offset : ℕ} :
    Turned (listSubmissions s env auth status mine limit offset) ↔ env.isUuid auth.sub = false ∨
      status.any (fun s => (parseStatus s).isNone) = true ∨ env.fails .listSubmissions = true := by
  unfold listSubmissions
  simp only [turned_check_bind, turned_pure, or_false, Bool.not_eq_true']

theorem turned_checkIds_bind {α : Type} {id : String} {f : Unit → Except Rejection α} :
    Turned (checkIds env auth id >>= f) ↔ BadIds env auth id ∨ Turned (f ()) := by
  unfold checkIds BadIds
  simp only [bind_assoc, turned_check_bind, Bool.not_eq_true', or_assoc]

theorem turned_submissionDetail {id : String} : Turned (submissionDetail s env auth id) ↔
    BadIds env auth id ∨ NotReread s env auth id := by
  unfold submissionDetail NotReread
  simp only [turned_checkIds_bind, turned_check_bind, turned_ofOption_bind, turned_pure, forall_some_iff,
    or_false]

theorem unchanged_rows_iff {submissions : List SubmissionRow} {votes : List (String × String)}
    {flags : List (String × Submissions.Flag)} :
    Unchanged s { s with submissions := submissions, votes := votes, flags := flags } ↔
      submissions = s.submissions ∧ votes = s.votes ∧ flags = s.flags := by
  constructor
  · intro h
    have hsame := h.others s.site.orgs
    exact ⟨congrArg (·.submissions) hsame, congrArg (·.votes) hsame, congrArg (·.flags) hsame⟩
  · rintro ⟨rfl, rfl, rfl⟩
    exact .refl s

theorem not_unchanged_of_votes {s' : Stores} (h : s'.votes.length ≠ s.votes.length) : ¬ Unchanged s s' :=
  fun hsame => h (congrArg (·.votes.length) (hsame.others s.site.orgs))

/-- The row stays although its creation is answered with an error. -/
theorem turnsAway_createSubmission {req : CreateSubmissionRequest} :
    TurnsAway s (createSubmission s env auth req) ↔ ∀ new, newSubmission env auth req = .ok new →
      ¬ NewSubmissions.Accepted (database s) env.create new := by
  unfold createSubmission
  cases newSubmission env auth req with
  | error e => exact iff_of_true ⟨.refl s, turned_error.mpr trivial⟩ nofun
  | ok new =>
    by_cases hacc : NewSubmissions.Accepted (database s) env.create new
    · obtain ⟨hrows, -⟩ := NewSubmissions.create_of_accepted hacc
      refine iff_of_false (fun h => ?_) fun h => h new rfl hacc
      have hsame := (unchanged_rows_iff.mp h.unchanged).1
      rw [hrows] at hsame
      simp [database] at hsame
    · obtain ⟨e, he⟩ := NewSubmissions.create_of_not_accepted hacc
      refine iff_of_true ?_ fun new' hnew => Except.ok.inj hnew ▸ hacc
      simp only [he]
      exact ⟨.refl s, turned_reject.mpr trivial⟩

theorem turned_reread {id code : String} {data : SubmissionView → Data} :
    Turned (reread s env auth id code data) ↔ NotReread s env auth id := by
  unfold reread NotReread
  cases env.fails .findSubmission with
  | true => simp
  | false => cases findSubmission s auth.sub id <;> simp

/-- The answer after a write that has changed something says nothing. -/
theorem turnsAway_reread {s' : Stores} {id code : String} {data : SubmissionView → Data} :
    TurnsAway s (s', reread s' env auth id code data) ↔ Unchanged s s' ∧ NotReread s' env auth id :=
  ⟨fun h => ⟨h.unchanged, turned_reread.mp h.turned⟩, fun h => ⟨h.1, turned_reread.mpr h.2⟩⟩

theorem checkIds_cases (env : Env) (auth : AuthenticatedUser) (id : String) :
    BadIds env auth id ∧ (∃ e, checkIds env auth id = .error e) ∨
      ¬ BadIds env auth id ∧ checkIds env auth id = .ok () := by
  unfold checkIds BadIds
  cases env.isUuid id with
  | false => exact Or.inl ⟨Or.inl rfl, _, rfl⟩
  | true =>
    cases env.isUuid auth.sub with
    | false => exact Or.inl ⟨Or.inr rfl, _, rfl⟩
    | true => exact Or.inr ⟨by simp, rfl⟩

theorem turnsAway_voteSubmission {id : String} {vote : Bool} :
    TurnsAway s (voteSubmission s env auth id vote) ↔
      BadIds env auth id ∨ env.fails .vote = true ∨
        vote = true ∧ (id, auth.sub) ∉ s.votes ∧ refersToRows s auth id = false ∨
        ((id, auth.sub) ∈ s.votes ↔ vote = true) ∧ NotReread s env auth id := by
  unfold voteSubmission
  rcases checkIds_cases env auth id with ⟨hbad, e, he⟩ | ⟨hgood, he⟩
  · rw [he]
    exact iff_of_true ⟨.refl s, turned_error.mpr trivial⟩ (Or.inl hbad)
  · rw [he]
    simp only [hgood, false_or]
    unfold castVote
    cases hfails : env.fails .vote with
    | true => exact iff_of_true ⟨.refl s, turned_reject.mpr trivial⟩ (Or.inl rfl)
    | false =>
      by_cases hvoted : (id, auth.sub) ∈ s.votes
      · cases vote with
        | true =>
          simp only [hvoted, Bool.false_eq_true, if_false, if_true, Bool.not_true, turnsAway_reread]
          simp [Unchanged.refl]
        | false =>
          -- the vote is taken back
          simp only [Bool.false_eq_true, if_false, Bool.not_false, if_true, turnsAway_reread]
          refine iff_of_false (fun h => ?_) (by simp [hvoted])
          have hkept := (unchanged_rows_iff.mp h.1).2.1.symm ▸ hvoted
          simp at hkept
      · cases vote with
        | false =>
          have hsame : s.votes.filter (· ≠ (id, auth.sub)) = s.votes :=
            List.filter_eq_self.mpr fun v hv => decide_eq_true fun heq => hvoted (heq ▸ hv)
          simp only [Bool.false_eq_true, if_false, Bool.not_false, if_true, turnsAway_reread, hsame]
          simp [Unchanged.refl, hvoted]
        | true =>
          cases hrows : refersToRows s auth id with
          | false =>
            simp only [hvoted, Bool.false_eq_true, if_false, Bool.not_true, Bool.not_false, if_true]
            exact iff_of_true ⟨.refl s, turned_reject.mpr trivial⟩ (by simp)
          | true =>
            simp only [hvoted, Bool.false_eq_true, if_false, Bool.not_true]
            refine iff_of_false (fun h => ?_) (by simp)
            cases htouch : env.fails .touch with
            | true =>
              rw [htouch] at h
              exact not_unchanged_of_votes (by simp) h.unchanged
            | false =>
              rw [htouch] at h
              exact not_unchanged_of_votes (by simp) h.unchanged

theorem turned_castFlag {id : String} {reason : Option String} :
    Turned (castFlag s env auth id reason) ↔ BadIds env auth id ∨
      (reasonOwned reason).any (fun r => flagReasonMaxLen < r.utf8ByteSize) = true ∨
      env.fails .flag = true ∨
      (s.submissions.find? (·.id = id)).bind (fun r => parseStatus r.status) = none ∨
      hasFlagged s auth id = false ∧ findById s.site.users auth.sub = none := by
  unfold castFlag
  simp only [turned_checkIds_bind, turned_check_bind, turned_ofOption_bind, turned_ite, turned_pure,
    and_false, or_false, false_or, Bool.not_eq_true, Option.isNone_iff_eq_none, forall_some_iff]

/-- A second flag of an account changes nothing, and the first is one more. -/
theorem castFlag_eq_ok {id : String} {reason : Option String} {s' : Stores} {count : ℕ} {escalated : Bool}
    (h : castFlag s env auth id reason = .ok (s', count, escalated)) :
    hasFlagged s auth id = true ∧ s' = s ∨
      hasFlagged s auth id = false ∧ s'.flags.length = s.flags.length + 1 := by
  unfold castFlag at h
  obtain ⟨-, -, h⟩ := bind_eq_ok h
  obtain ⟨-, -, h⟩ := bind_eq_ok h
  obtain ⟨-, -, h⟩ := bind_eq_ok h
  obtain ⟨status, -, h⟩ := bind_eq_ok h
  cases hflagged : hasFlagged s auth id with
  | true =>
    simp only [hflagged, if_true] at h
    cases h
    exact Or.inl ⟨rfl, rfl⟩
  | false =>
    simp only [hflagged, Bool.false_eq_true, if_false] at h
    obtain ⟨-, -, h⟩ := bind_eq_ok h
    refine Or.inr ⟨rfl, ?_⟩
    split_ifs at h
    · cases h
      simp
    · cases h
      simp

theorem not_unchanged_of_flags {s' : Stores} (h : s'.flags.length ≠ s.flags.length) : ¬ Unchanged s s' :=
  fun hsame => h (congrArg (·.flags.length) (hsame.others s.site.orgs))

theorem turnsAway_flagSubmission {id : String} {reason : Option String} :
    TurnsAway s (flagSubmission s env auth id reason) ↔ BadIds env auth id ∨
      (reasonOwned reason).any (fun r => flagReasonMaxLen < r.utf8ByteSize) = true ∨
      env.fails .flag = true ∨
      (s.submissions.find? (·.id = id)).bind (fun r => parseStatus r.status) = none ∨
      hasFlagged s auth id = false ∧ findById s.site.users auth.sub = none ∨
      hasFlagged s auth id = true ∧ NotReread s env auth id := by
  have hturned := @turned_castFlag s env auth id reason
  unfold flagSubmission
  cases hcast : castFlag s env auth id reason with
  | error e =>
    rw [hcast] at hturned
    have hcond := hturned.mp (turned_error.mpr trivial)
    refine iff_of_true ⟨.refl s, turned_error.mpr trivial⟩ ?_
    tauto
  | ok r =>
    rcases r with ⟨s', count, escalated⟩
    rw [hcast] at hturned
    have hnot := fun hcond => turned_ok.mp (hturned.mpr hcond)
    simp only [turnsAway_reread]
    rcases castFlag_eq_ok hcast with ⟨hflagged, rfl⟩ | ⟨hflagged, hlen⟩
    · have hrefl := Unchanged.refl s'
      tauto
    · have hchanged : ¬ Unchanged s s' := not_unchanged_of_flags (by omega)
      simp only [hchanged, false_and, hflagged, Bool.false_eq_true, or_false] at *
      exact (iff_of_false not_false hnot).trans Iff.rfl

theorem turned_castWithdrawal {id : String} : Turned (castWithdrawal s env auth id) ↔
    BadIds env auth id ∨ env.fails .withdraw = true ∨
      ∀ row, s.submissions.find? (·.id = id) = some row →
        row.submitterId ≠ auth.sub ∨ parseStatus row.status ≠ some .review := by
  unfold castWithdrawal
  simp only [turned_checkIds_bind, turned_check_bind, turned_ofOption_bind, turned_pure, or_false,
    decide_eq_true_eq]

theorem castWithdrawal_eq_ok {id : String} {s' : Stores} (h : castWithdrawal s env auth id = .ok s') :
    ¬ Unchanged s s' := by
  unfold castWithdrawal at h
  obtain ⟨-, -, h⟩ := bind_eq_ok h
  obtain ⟨-, -, h⟩ := bind_eq_ok h
  obtain ⟨row, hfind, h⟩ := bind_eq_ok h
  obtain ⟨-, -, h⟩ := bind_eq_ok h
  obtain ⟨_, hreview, h⟩ := bind_eq_ok h
  cases h
  intro hsame
  have hfind := ofOption_eq_ok hfind
  have hid : row.id = id := by simpa using List.find?_some hfind
  have hrows := congrArg (·.submissions) (hsame.others s.site.orgs)
  have hrow := List.map_eq_map_iff.mp (hrows.trans (List.map_id _).symm) row (List.mem_of_find?_eq_some hfind)
  simp only [hid, if_true, id_eq] at hrow
  have hstatus : parseStatus row.status = some .review := by simpa using check_eq_ok hreview
  rw [← congrArg (·.status) hrow] at hstatus
  cases hstatus

theorem turnsAway_withdrawSubmission {id : String} :
    TurnsAway s (withdrawSubmission s env auth id) ↔ BadIds env auth id ∨ env.fails .withdraw = true ∨
      ∀ row, s.submissions.find? (·.id = id) = some row →
        row.submitterId ≠ auth.sub ∨ parseStatus row.status ≠ some .review := by
  rw [← turned_castWithdrawal]
  unfold withdrawSubmission
  cases hcast : castWithdrawal s env auth id with
  | error e => exact iff_of_true ⟨.refl s, turned_error.mpr trivial⟩ (turned_error.mpr trivial)
  | ok s' => exact iff_of_false (fun h => castWithdrawal_eq_ok hcast h.unchanged) turned_ok.mp

/-! ### Shapes -/

theorem refusal_eq_error {bytes : ParserSubmission Char → ℕ} {batch : List (ParserSubmission Char)}
    {reply : ParserSubmissions.Reply} (h : ParserSubmissions.refusal bytes batch = some reply) :
    ∃ status code, reply = .error status code := by
  unfold ParserSubmissions.refusal at h
  split_ifs at h
  · exact ⟨_, _, (Option.some.inj h).symm⟩
  · exact ⟨_, _, (Option.some.inj h).symm⟩
  · obtain ⟨code, -, rfl⟩ := Option.map_eq_some_iff.mp h
    exact ⟨_, _, rfl⟩

theorem failsWithout_cons {t t' : ParserSubmissions.Submissions Char} {i : ℕ}
    {sub : ParserSubmission Char} {rest : List (ParserSubmission Char)} :
    FailsWithout env t t' i (sub :: rest) ↔
      (env.rowFails i = true ∨ ParserSubmissions.upsertRow t sub = none) ∧ t = t' ∨
        env.rowFails i = false ∧ ∃ t'', ParserSubmissions.upsertRow t sub = some t'' ∧
          FailsWithout env t'' t' (i + 1) rest := by
  constructor
  · rintro ⟨before, sub', after, hbatch, hgo, hfold, hfails⟩
    cases before with
    | nil =>
      obtain ⟨rfl, rfl⟩ := List.cons.inj hbatch
      obtain rfl := Option.some.inj hfold
      exact Or.inl ⟨hfails, rfl⟩
    | cons first before =>
      obtain ⟨rfl, rfl⟩ := List.cons.inj hbatch
      rw [List.foldlM_cons] at hfold
      obtain ⟨t'', hfirst, hfold⟩ := Option.bind_eq_some_iff.mp hfold
      refine Or.inr ⟨hgo 0 (by simp), t'', hfirst, before, sub', after, rfl, fun j hj => ?_, hfold, ?_⟩
      · rw [Nat.add_right_comm]
        exact hgo (j + 1) (by simpa using hj)
      · rwa [Nat.add_right_comm]
  · rintro (⟨hfails, rfl⟩ | ⟨hgo, t'', hfirst, before, sub', after, rfl, hgo', hfold, hfails⟩)
    · exact ⟨[], sub, rest, rfl, by simp, rfl, hfails⟩
    · refine ⟨sub :: before, sub', after, rfl, fun j hj => ?_, ?_, ?_⟩
      · cases j with
        | zero => exact hgo
        | succ j =>
          rw [← Nat.add_assoc, Nat.add_right_comm]
          exact hgo' j (by simpa using hj)
      · rw [List.foldlM_cons, hfirst]
        exact hfold
      · rwa [List.length_cons, ← Nat.add_assoc, Nat.add_right_comm]

/-- By the row at the head, which fails or leaves a table for the others. -/
theorem writeRows_eq_none {t' : ParserSubmissions.Submissions Char} :
    ∀ {batch : List (ParserSubmission Char)} {i : ℕ} {t : ParserSubmissions.Submissions Char}
      {accepted deduped : ℕ} {ids : List String},
      writeRows env.rowFails i t accepted deduped ids batch = (t', none) ↔ FailsWithout env t t' i batch
  | [], i, t, accepted, deduped, ids => by
    refine iff_of_false (fun h => by cases h) ?_
    rintro ⟨before, sub, after, h, -⟩
    simp at h
  | sub :: rest, i, t, accepted, deduped, ids => by
    unfold writeRows
    rw [failsWithout_cons]
    cases env.rowFails i with
    | true => simp
    | false =>
      simp only [Bool.false_eq_true, if_false, false_or, true_and]
      cases ParserSubmissions.upsertRow t sub with
      | none => simp
      | some t'' =>
        simp only [reduceCtorEq, false_and, false_or, Option.some.injEq, exists_eq_left']
        split_ifs
        · exact writeRows_eq_none
        · exact writeRows_eq_none

theorem unchanged_shapes_iff {shapes : ParserSubmissions.Submissions Char} :
    Unchanged s { s with shapes := shapes } ↔ shapes = s.shapes := by
  constructor
  · exact fun h => congrArg (·.shapes) (h.others s.site.orgs)
  · rintro rfl
    exact .refl s

theorem turnsAway_submitShapes {batch : List (ParserSubmission Char)} :
    TurnsAway s (submitShapes s env batch) ↔
      (ParserSubmissions.refusal ParserSubmissions.payloadBytes batch).isSome = true ∨
        FailsWithout env s.shapes s.shapes 0 batch := by
  unfold submitShapes
  cases hrefusal : ParserSubmissions.refusal ParserSubmissions.payloadBytes batch with
  | some reply =>
    obtain ⟨status, code, rfl⟩ := refusal_eq_error hrefusal
    exact iff_of_true ⟨.refl s, turned_reject.mpr trivial⟩ (Or.inl rfl)
  | none =>
    simp only [Option.isSome_none, Bool.false_eq_true, false_or]
    rw [← writeRows_eq_none]
    rcases writeRows env.rowFails 0 s.shapes 0 0 [] batch with ⟨t, _ | data⟩
    · refine Iff.trans ⟨fun h => h.unchanged, fun h => ⟨h, turned_reject.mpr trivial⟩⟩ ?_
      rw [unchanged_shapes_iff]
      simp
    · exact iff_of_false (fun h => turned_ok.mp h.turned) nofun

end Handlers

end StarStats.Server.Routes
