import Mathlib.Data.List.TakeDrop

/-! # Runs of a machine

A machine takes its actions one after the other; the states of a run are those after each of its
first actions. What holds of all of them is shown by one step: an invariant that every step keeps
(`invariant_run`), or a property that each step keeps exactly under a condition
(`forall_take_iff`, `run_iff`). -/

namespace StarStats.Lib.Runs

variable {σ α : Type} {step : σ → α → σ} {s : σ}

theorem run_take_succ {as : List α} {n : ℕ} {a : α} (h : as[n]? = some a) :
    (as.take (n + 1)).foldl step s = step ((as.take n).foldl step s) a := by
  obtain ⟨hn, rfl⟩ := List.getElem?_eq_some_iff.mp h
  rw [List.take_succ_eq_append_getElem hn, List.foldl_append]
  rfl

theorem run_take_of_none {as : List α} {n : ℕ} (h : as[n]? = none) :
    as.take (n + 1) = as.take n := by
  have hlen := List.getElem?_eq_none_iff.mp h
  rw [List.take_of_length_le (by omega), List.take_of_length_le hlen]

theorem invariant_run {Inv : σ → Prop} (hstart : Inv s) (hstep : ∀ s a, Inv s → Inv (step s a))
    (as : List α) : Inv (as.foldl step s) := by
  induction as generalizing s with
  | nil => exact hstart
  | cons a as ih => exact ih (hstep s a hstart)

/-- An invariant that every step under a condition keeps holds in every state of a run whose actions
meet it. -/
theorem invariant_take_of {Inv : σ → Prop} {Cond : σ → α → Prop} (hstart : Inv s)
    (hstep : ∀ s a, Inv s → Cond s a → Inv (step s a)) {as : List α}
    (hcond : ∀ n a, as[n]? = some a → Cond ((as.take n).foldl step s) a) (n : ℕ) :
    Inv ((as.take n).foldl step s) := by
  induction n with
  | zero => exact hstart
  | succ n ih =>
    cases ha : as[n]? with
    | none => rwa [run_take_of_none ha]
    | some a =>
      rw [run_take_succ ha]
      exact hstep _ a ih (hcond n a ha)

theorem invariant_run_of {Inv : σ → Prop} {Cond : σ → α → Prop} (hstart : Inv s)
    (hstep : ∀ s a, Inv s → Cond s a → Inv (step s a)) {as : List α}
    (hcond : ∀ n a, as[n]? = some a → Cond ((as.take n).foldl step s) a) : Inv (as.foldl step s) := by
  have hall := invariant_take_of hstart hstep hcond as.length
  rwa [List.take_length] at hall

/-- What every step keeps holds from the state on in which it first does. -/
theorem invariant_take_from {Inv : σ → Prop} (hstep : ∀ s a, Inv s → Inv (step s a)) {as : List α}
    {n m : ℕ} (hnm : n ≤ m) (h : Inv ((as.take n).foldl step s)) :
    Inv ((as.take m).foldl step s) := by
  induction hnm with
  | refl => exact h
  | @step m _ ih =>
    cases ha : as[m]? with
    | none => rwa [run_take_of_none ha]
    | some a =>
      rw [run_take_succ ha]
      exact hstep _ a ih

/-- What holds in a state of a run held in an earlier one, or was made in between. -/
theorem holds_or_made {P : σ → Prop} {Makes : σ → α → Prop}
    (hstep : ∀ s a, P (step s a) → P s ∨ Makes s a) {as : List α} {k n : ℕ} (hkn : k ≤ n)
    (h : P ((as.take n).foldl step s)) : P ((as.take k).foldl step s) ∨
      ∃ m a, k ≤ m ∧ m < n ∧ as[m]? = some a ∧ Makes ((as.take m).foldl step s) a := by
  induction hkn with
  | refl => exact Or.inl h
  | @step n hkn ih =>
    have hlater : P ((as.take n).foldl step s) ∨
        ∃ a, as[n]? = some a ∧ Makes ((as.take n).foldl step s) a := by
      cases ha : as[n]? with
      | none =>
        rw [run_take_of_none ha] at h
        exact Or.inl h
      | some a =>
        rw [run_take_succ ha] at h
        exact (hstep _ a h).imp_right fun hmade => ⟨a, rfl, hmade⟩
    rcases hlater with hold | ⟨a, ha, hmade⟩
    · rcases ih hold with hfirst | ⟨m, b, hkm, hmn, hb, hmade⟩
      · exact Or.inl hfirst
      · exact Or.inr ⟨m, b, hkm, by omega, hb, hmade⟩
    · exact Or.inr ⟨n, a, hkn, by omega, ha, hmade⟩

/-- **A property that a step keeps exactly under a condition holds in every state of a run exactly if
every action of it meets the condition.** -/
theorem forall_take_iff {Inv Good : σ → Prop} {Cond : σ → α → Prop} (hstart : Inv s)
    (hkeep : ∀ s a, Inv s → Inv (step s a)) (hgood : Good s)
    (hstep : ∀ s a, Inv s → Good s → (Good (step s a) ↔ Cond s a)) (as : List α) :
    (∀ n, Good ((as.take n).foldl step s)) ↔
      ∀ n a, as[n]? = some a → Cond ((as.take n).foldl step s) a := by
  have hinv := fun n => invariant_run hstart hkeep (as.take n)
  constructor
  · intro hall n a ha
    have hnext := hall (n + 1)
    rw [run_take_succ ha] at hnext
    exact (hstep _ a (hinv n) (hall n)).mp hnext
  · intro hcond n
    induction n with
    | zero => exact hgood
    | succ n ih =>
      cases ha : as[n]? with
      | none => rwa [run_take_of_none ha]
      | some a =>
        rw [run_take_succ ha]
        exact (hstep _ a (hinv n) ih).mpr (hcond n a ha)

/-- A goal holds in every state of a run exactly if a stronger property does, when the first state at
which the goal holds after the property keeps the property. -/
theorem forall_take_congr {Inv Good Goal : σ → Prop} (hstart : Inv s)
    (hkeep : ∀ s a, Inv s → Inv (step s a)) (hgood : Good s)
    (hgoal : ∀ s, Inv s → Good s → Goal s)
    (hback : ∀ s a, Inv s → Good s → Goal (step s a) → Good (step s a)) (as : List α) :
    (∀ n, Goal ((as.take n).foldl step s)) ↔ ∀ n, Good ((as.take n).foldl step s) := by
  have hinv := fun n => invariant_run hstart hkeep (as.take n)
  constructor
  · intro hall n
    induction n with
    | zero => exact hgood
    | succ n ih =>
      cases ha : as[n]? with
      | none => rwa [run_take_of_none ha]
      | some a =>
        have hnext := hall (n + 1)
        rw [run_take_succ ha] at hnext ⊢
        exact hback _ a (hinv n) ih hnext
  · intro hall n
    exact hgoal _ (hinv n) (hall n)

/-- What no step mends holds in every state of a run if it holds in the last. -/
theorem forall_take_of_run {Inv Good : σ → Prop} (hstart : Inv s)
    (hkeep : ∀ s a, Inv s → Inv (step s a)) (hback : ∀ s a, Inv s → Good (step s a) → Good s)
    {as : List α} (h : Good (as.foldl step s)) (n : ℕ) : Good ((as.take n).foldl step s) := by
  induction as generalizing s n with
  | nil => simpa using h
  | cons a as ih =>
    cases n with
    | zero =>
      have hnext := ih (hkeep s a hstart) h 0
      exact hback s a hstart (by simpa using hnext)
    | succ n => exact ih (hkeep s a hstart) h n

/-- **A property that a step keeps exactly under a condition, and that no step mends, holds in the last
state of a run exactly if every action of it meets the condition.** -/
theorem run_iff {Inv Good : σ → Prop} {Cond : σ → α → Prop} (hstart : Inv s)
    (hkeep : ∀ s a, Inv s → Inv (step s a)) (hgood : Good s)
    (hback : ∀ s a, Inv s → Good (step s a) → Good s)
    (hstep : ∀ s a, Inv s → Good s → (Good (step s a) ↔ Cond s a)) (as : List α) :
    Good (as.foldl step s) ↔ ∀ n a, as[n]? = some a → Cond ((as.take n).foldl step s) a := by
  rw [← forall_take_iff hstart hkeep hgood hstep as]
  constructor
  · exact fun h => forall_take_of_run hstart hkeep hback h
  · intro h
    have hall := h as.length
    rwa [List.take_length] at hall

end StarStats.Lib.Runs
