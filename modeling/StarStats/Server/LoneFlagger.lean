import Mathlib.Data.Finset.Card
import StarStats.Server.Submissions

/-! # Flags after a dismissal

Three users together route a submission to the moderators. The flags stay when a moderator dismisses them,
and the threshold is compared with all there are; so after a dismissal the next flag is enough, whoever
sets it (`notLone_iff`). -/

namespace StarStats.Server.Submissions

open StarStats.Lib.Threads

/-- The row of a submission that is new. -/
def newSubmission (submitterId : String) (now : ℤ) : Submission := ⟨submitterId, .review, none, now⟩

section Machine
variable {ι : Type} [DecidableEq ι] (requests : ι → Request) (submitterId : String) (now : ℤ)
  (as : List (ι × Env))

/-- The flags after the first turns. -/
def flagsAt (n : ℕ) : List Flag :=
  (state requests (some (newSubmission submitterId now)) [] as n).store.flags

/-- The status after the first turns, of a submission that was new. -/
def statusSince (n : ℕ) : Option SubmissionStatus :=
  statusAt requests (some (newSubmission submitterId now)) [] as n

/-- In this turn the submission goes from review to the moderators. -/
def Escalates (n : ℕ) : Prop :=
  statusSince requests submitterId now as n = some .review ∧
    statusSince requests submitterId now as (n + 1) = some .flagged

/-- In this turn it returns to review. -/
def Dismisses (n : ℕ) : Prop :=
  statusSince requests submitterId now as n = some .flagged ∧
    statusSince requests submitterId now as (n + 1) = some .review

/-- Who has flagged the submission in the turns from the one to the other. -/
def newFlaggers (m n : ℕ) : Finset String :=
  (flaggers (flagsAt requests submitterId now as (n + 1))).toFinset \
    (flaggers (flagsAt requests submitterId now as m)).toFinset

/-- **Before each escalation at least three users have flagged the submission since it was new, and since
each time that it returned to review.** -/
def NotLone : Prop :=
  ∀ n, Escalates requests submitterId now as n → ∀ m, m ≤ n →
    (m = 0 ∨ ∃ k, m = k + 1 ∧ Dismisses requests submitterId now as k) →
    autoFlagThreshold ≤ (newFlaggers requests submitterId now as m n).card

/-- No flag of another user is set in review after a dismissal. -/
def NoFlagAfterDismissal : Prop :=
  ∀ k n, Dismisses requests submitterId now as k → k < n →
    statusSince requests submitterId now as n = some .review →
    flagsAt requests submitterId now as (n + 1) = flagsAt requests submitterId now as n

end Machine

theorem exists_last {P : ℕ → Prop} {n : ℕ} (h : ∃ m, m < n ∧ P m) :
    ∃ m, m < n ∧ P m ∧ ∀ k, m < k → k < n → ¬ P k := by
  induction n with
  | zero =>
    obtain ⟨m, hm, -⟩ := h
    omega
  | succ n ih =>
    by_cases hn : P n
    · exact ⟨n, Nat.lt_succ_self n, hn, fun k hk hkn => by omega⟩
    · obtain ⟨m, hm, hp⟩ := h
      have hmn : m ≠ n := by
        rintro rfl
        exact hn hp
      obtain ⟨l, hln, hl, hlast⟩ := ih ⟨m, by omega, hp⟩
      refine ⟨l, by omega, hl, fun k hlk hkn => ?_⟩
      by_cases hk : k = n
      · rw [hk]
        exact hn
      · exact hlast k hlk (by omega)

/-- A call leaves the flags and does not escalate, or adds the flag of another user, and escalates if with
it there are enough. -/
theorem Commits.flags_cases {r : Request} {row row' : Submission} {flags flags' : List Flag}
    {place' : Place} (h : Commits r row flags row' flags' place') :
    (flags' = flags ∧ ¬ (row.status ≠ .flagged ∧ row'.status = .flagged)) ∨
      ∃ f : Flag, f.userId ∉ flaggers flags ∧ flags' = flags ++ [f] ∧
        row'.status = if row.status = .review ∧ autoFlagThreshold ≤ flags.length + 1 then .flagged
          else row.status := by
  cases h with
  | flag userId reason hr hquiet =>
    by_cases hold : userId ∈ flaggers flags
    · refine Or.inl ⟨?_, fun hboth => hboth.1 hboth.2⟩
      unfold writeOf
      rw [if_pos hold]
      rfl
    · refine Or.inr ⟨⟨userId, reason⟩, hold, ?_, ?_⟩
      · unfold writeOf
        rw [if_neg hold]
        rfl
      · unfold writeOf at hquiet
        rw [if_neg hold] at hquiet
        have hfew : ¬ (row.status = .review ∧ autoFlagThreshold ≤ flags.length + 1) := by
          simpa [flagOutcome, withFlag] using hquiet
        rw [if_neg hfew]
  | escalate userId reason now hr hescalated =>
    have hnew : userId ∉ flaggers flags := by
      intro hold
      unfold writeOf at hescalated
      rw [if_pos hold] at hescalated
      simp [flagOutcome] at hescalated
    unfold writeOf at hescalated ⊢
    rw [if_neg hnew] at hescalated ⊢
    refine Or.inr ⟨⟨userId, reason⟩, hnew, rfl, ?_⟩
    have hmany : row.status = .review ∧ autoFlagThreshold ≤ flags.length + 1 := by
      simpa [flagOutcome, withFlag] using hescalated
    rw [if_pos hmany]
  | withdraw => exact Or.inl ⟨rfl, fun hboth => by cases hboth.2⟩
  | keep => exact Or.inl ⟨rfl, fun hboth => hboth.1 hboth.2⟩
  | transition target reason legalPriors now hr hlegal hother =>
    refine Or.inl ⟨rfl, fun hboth => ?_⟩
    obtain rfl : target = .flagged := hboth.2
    cases r <;> cases hr

section Runs
variable {ι : Type} [DecidableEq ι] {requests : ι → Request} {submitterId : String} {now : ℤ}
  {as : List (ι × Env)} {n m k : ℕ}

/-- A turn leaves the flags and does not escalate, or adds the flag of another user, and escalates if with
it there are enough. -/
theorem flagsAt_cases (requests : ι → Request) (submitterId : String) (now : ℤ) (as : List (ι × Env))
    (n : ℕ) :
    (flagsAt requests submitterId now as (n + 1) = flagsAt requests submitterId now as n ∧
      ¬ Escalates requests submitterId now as n) ∨
    ∃ f : Flag, f.userId ∉ flaggers (flagsAt requests submitterId now as n) ∧
      flagsAt requests submitterId now as (n + 1) = flagsAt requests submitterId now as n ++ [f] ∧
      statusSince requests submitterId now as (n + 1) =
        if statusSince requests submitterId now as n = some .review ∧
          autoFlagThreshold ≤ (flagsAt requests submitterId now as n).length + 1 then some .flagged
        else statusSince requests submitterId now as n := by
  rcases turn_cases requests (some (newSubmission submitterId now)) [] as n with
    ⟨hrow, hflags, -⟩ | ⟨i, e, r, r', -, hr, hr', -, hcommits, -⟩
  · refine Or.inl ⟨hflags, ?_⟩
    rintro ⟨hbefore, hafter⟩
    unfold statusSince statusAt at hbefore hafter
    rw [hrow, hbefore] at hafter
    cases hafter
  · have hstatus : statusSince requests submitterId now as n = some r.status := by
      unfold statusSince statusAt
      rw [hr, Option.map_some]
    have hstatus' : statusSince requests submitterId now as (n + 1) = some r'.status := by
      unfold statusSince statusAt
      rw [hr', Option.map_some]
    rcases hcommits.flags_cases with ⟨hflags, hno⟩ | ⟨f, hnew, hflags, hnext⟩
    · refine Or.inl ⟨hflags, ?_⟩
      rintro ⟨hbefore, hafter⟩
      rw [hstatus] at hbefore
      rw [hstatus'] at hafter
      refine hno ⟨?_, Option.some.inj hafter⟩
      rw [Option.some.inj hbefore]
      decide
    · refine Or.inr ⟨f, hnew, hflags, ?_⟩
      rw [hstatus', hstatus, hnext]
      by_cases hmany : r.status = .review ∧ autoFlagThreshold ≤
          (state requests (some (newSubmission submitterId now)) [] as n).store.flags.length + 1
      · rw [if_pos hmany]
        exact (if_pos ⟨congrArg some hmany.1, hmany.2⟩).symm
      · rw [if_neg hmany]
        exact (if_neg fun h => hmany ⟨Option.some.inj h.1, h.2⟩).symm

/-- Where the status is, or comes from. -/
theorem status_before {s' : SubmissionStatus}
    (h : statusSince requests submitterId now as (n + 1) = some s') :
    statusSince requests submitterId now as n = some s' ∨
      ∃ s, statusSince requests submitterId now as n = some s ∧ Edge s s' := by
  have hthere : (state requests (some (newSubmission submitterId now)) [] as n).store.row.isSome = true :=
    isSome_row as n
  obtain ⟨r, hr⟩ := Option.isSome_iff_exists.mp hthere
  have hs : statusSince requests submitterId now as n = some r.status := by
    unfold statusSince statusAt
    rw [hr]
    rfl
  by_cases hne : r.status = s'
  · rw [hs, hne]
    exact Or.inl rfl
  · exact Or.inr ⟨r.status, hs, edge_of_status hs h hne⟩

theorem nodup_flaggers (as : List (ι × Env)) (n : ℕ) :
    (flaggers (flagsAt requests submitterId now as n)).Nodup := by
  induction n with
  | zero => exact List.nodup_nil
  | succ n ih =>
    rcases flagsAt_cases requests submitterId now as n with ⟨hflags, -⟩ | ⟨f, hnew, hflags, -⟩
    · rw [hflags]
      exact ih
    · rw [hflags]
      unfold flaggers at ih hnew ⊢
      rw [List.map_append]
      exact List.nodup_append.mpr ⟨ih, List.nodup_singleton _, fun a ha b hb => by
        obtain rfl := List.mem_singleton.mp hb
        rintro rfl
        exact hnew ha⟩

/-- A submission before the moderators has flags enough. -/
theorem le_length_of_flagged (as : List (ι × Env)) :
    ∀ n, statusSince requests submitterId now as n = some .flagged →
      autoFlagThreshold ≤ (flagsAt requests submitterId now as n).length := by
  intro n
  induction n with
  | zero =>
    intro hflagged
    cases hflagged
  | succ n ih =>
    intro hflagged
    rcases flagsAt_cases requests submitterId now as n with ⟨hflags, hno⟩ | ⟨f, -, hflags, hafter⟩
    · rcases status_before hflagged with hbefore | ⟨s, hs, hedge⟩
      · rw [hflags]
        exact ih hbefore
      · refine absurd ⟨?_, hflagged⟩ hno
        cases hedge with
        | flag => exact hs
    · rw [hflags, List.length_append, List.length_singleton]
      split_ifs at hafter with hmany
      · exact hmany.2
      · have hlen := ih (hafter.symm.trans hflagged)
        omega

/-- After its last dismissal a submission in review has the flags that it had then. -/
theorem flagsAt_eq_of_review (hdismissed : Dismisses requests submitterId now as k)
    (hlast : ∀ p, k < p → p < n → ¬ Dismisses requests submitterId now as p) :
    ∀ p, k < p → p ≤ n → statusSince requests submitterId now as p = some .review →
      flagsAt requests submitterId now as p = flagsAt requests submitterId now as k := by
  -- The status was flagged, so the flags are enough for the next one to escalate.
  have henough := le_length_of_flagged as k hdismissed.1
  intro p
  induction p with
  | zero =>
    intro hk
    omega
  | succ p ih =>
    intro hkp hpn hreview
    have hsame : flagsAt requests submitterId now as p = flagsAt requests submitterId now as k := by
      by_cases hfirst : p = k
      · rw [hfirst]
      · refine ih (by omega) (by omega) ?_
        rcases status_before hreview with hbefore | ⟨s, hs, hedge⟩
        · exact hbefore
        · have hagain : Dismisses requests submitterId now as p := by
            cases hedge with
            | dismiss => exact ⟨hs, hreview⟩
          exact absurd hagain (hlast p (by omega) (by omega))
    rcases flagsAt_cases requests submitterId now as p with ⟨hflags, -⟩ | ⟨f, -, -, hafter⟩
    · rw [hflags, hsame]
    · rw [hreview, hsame] at hafter
      split_ifs at hafter with hmany
      · cases hafter
      · exact absurd ⟨hafter.symm, by omega⟩ hmany

/-- **Three users flag before each escalation exactly if nobody flags in review after a dismissal.** -/
theorem notLone_iff {requests : ι → Request} {submitterId : String} {now : ℤ} {as : List (ι × Env)} :
    NotLone requests submitterId now as ↔ NoFlagAfterDismissal requests submitterId now as := by
  constructor
  · intro h k n hdismissed hkn hreview
    obtain ⟨l, hln, hl, hlast⟩ := exists_last ⟨k, hkn, hdismissed⟩
    have hsame := flagsAt_eq_of_review hl hlast n hln (Nat.le_refl n) hreview
    have hfirst := flagsAt_eq_of_review hl hlast (l + 1) (Nat.lt_succ_self l) hln hl.2
    rcases flagsAt_cases requests submitterId now as n with ⟨hflags, -⟩ | ⟨f, -, hflags, hafter⟩
    · exact hflags
    · have henough := le_length_of_flagged as l hl.1
      rw [hsame, if_pos ⟨hreview, by omega⟩] at hafter
      have hthree := h n ⟨hreview, hafter⟩ (l + 1) hln (Or.inr ⟨l, rfl, hl⟩)
      have hone : newFlaggers requests submitterId now as (l + 1) n ⊆ {f.userId} := by
        intro userId huser
        unfold newFlaggers flaggers at huser
        rw [hflags, hsame, hfirst, List.map_append, Finset.mem_sdiff] at huser
        simp only [List.map_cons, List.map_nil, List.mem_toFinset, List.mem_append, List.mem_singleton]
          at huser
        exact Finset.mem_singleton.mpr (huser.1.resolve_left huser.2)
      have hcard := Finset.card_le_card hone
      rw [Finset.card_singleton] at hcard
      unfold autoFlagThreshold at hthree
      omega
  · intro h n hescalated m hmn hsince
    rcases hsince with rfl | ⟨k, rfl, hdismissed⟩
    · have hall : newFlaggers requests submitterId now as 0 n =
          (flaggers (flagsAt requests submitterId now as (n + 1))).toFinset := Finset.sdiff_empty
      have hmany := le_length_of_flagged as (n + 1) hescalated.2
      rw [hall, List.toFinset_card_of_nodup (nodup_flaggers as (n + 1))]
      unfold flaggers
      rw [List.length_map]
      exact hmany
    · have hflags := h k n hdismissed (by omega) hescalated.1
      rcases flagsAt_cases requests submitterId now as n with ⟨-, hno⟩ | ⟨f, -, hadds, -⟩
      · exact absurd hescalated hno
      · rw [hadds] at hflags
        exact absurd (congrArg List.length hflags) (by simp)

end Runs

/-! ### The fourth user -/

/-- Three users, a moderator, and a fourth user. -/
def requests : Fin 5 → Request
  | 0 => .flag "u1" none
  | 1 => .flag "u2" none
  | 2 => .flag "u3" none
  | 3 => .dismissFlag
  | 4 => .flag "u4" none

/-- Nothing fails. -/
def calm : Env := ⟨0, false⟩

/-- One call after the other. -/
def inTurns : List (Fin 5 × Env) :=
  List.replicate 4 (0, calm) ++ List.replicate 4 (1, calm) ++ List.replicate 5 (2, calm) ++
    List.replicate 3 (3, calm) ++ List.replicate 5 (4, calm)

/-- After the dismissal the fourth user escalates alone. -/
theorem not_notLone_inTurns : ¬ NotLone requests "owner" 0 inTurns := by
  intro h
  have hdismissed : Dismisses requests "owner" 0 inTurns 15 := by
    unfold Dismisses
    decide +kernel
  have hescalated : Escalates requests "owner" 0 inTurns 20 := by
    unfold Escalates
    decide +kernel
  have hthree := h 20 hescalated 16 (by omega) (Or.inr ⟨15, rfl, hdismissed⟩)
  have hone : (newFlaggers requests "owner" 0 inTurns 16 20).card = 1 := by decide +kernel
  rw [hone] at hthree
  exact absurd hthree (by decide)

end StarStats.Server.Submissions
