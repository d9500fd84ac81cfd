import Mathlib.Algebra.GroupWithZero.Nat
import Mathlib.Logic.Function.Basic
import StarStats.Lib.Runs

/-! # Requests beside each other

Requests share a store, and each has a place of its own in its handler. A turn of a request takes it a
step further: it may change the store and its own place, and no place of another. What holds of a place
is kept by the request's own steps and by those of the others (`placed_after`); where a request is it
has come by a turn of its own, and it has stayed there since (`exists_arrival`). -/

namespace StarStats.Lib.Threads

open StarStats.Lib.Runs

/-- The instance has one name for all runs of three requests. -/
instance neZero_three : NeZero 3 := inferInstance

/-- A store, and where each request is. -/
structure Shared (ι σ τ : Type) where
  store : σ
  place : ι → τ

variable {ι σ τ ε : Type} [DecidableEq ι]

/-- A request takes its next step. -/
def turn (step : ι → ε → σ → τ → σ × τ) (s : Shared ι σ τ) (a : ι × ε) : Shared ι σ τ where
  store := (step a.1 a.2 s.store (s.place a.1)).1
  place := Function.update s.place a.1 (step a.1 a.2 s.store (s.place a.1)).2

/-- The state after the first turns. -/
def after (step : ι → ε → σ → τ → σ × τ) (s : Shared ι σ τ) (as : List (ι × ε)) (n : ℕ) :
    Shared ι σ τ :=
  (as.take n).foldl (turn step) s

variable {step : ι → ε → σ → τ → σ × τ} {s : Shared ι σ τ} {as : List (ι × ε)} {a : ι × ε} {i j : ι}
  {e : ε} {n m k : ℕ} {l : τ}

theorem store_turn : (turn step s (i, e)).store = (step i e s.store (s.place i)).1 := rfl

@[simp] theorem place_turn_self : (turn step s (i, e)).place i = (step i e s.store (s.place i)).2 :=
  Function.update_self ..

theorem place_turn_of_ne (h : j ≠ i) : (turn step s (i, e)).place j = s.place j :=
  Function.update_of_ne h ..

@[simp] theorem after_zero : after step s as 0 = s := rfl

theorem after_succ (h : as[n]? = some a) :
    after step s as (n + 1) = turn step (after step s as n) a := run_take_succ h

theorem after_of_none (h : as[n]? = none) : after step s as (n + 1) = after step s as n := by
  unfold after
  rw [run_take_of_none h]

theorem after_succ_cases (step : ι → ε → σ → τ → σ × τ) (s : Shared ι σ τ) (as : List (ι × ε)) (n : ℕ) :
    after step s as (n + 1) = after step s as n ∨
      ∃ i e, as[n]? = some (i, e) ∧ after step s as (n + 1) = turn step (after step s as n) (i, e) := by
  cases ha : as[n]? with
  | none => exact Or.inl (after_of_none ha)
  | some a => exact Or.inr ⟨a.1, a.2, rfl, after_succ ha⟩

/-- **What the store keeps and what each place keeps, through its own steps and through those of the
others, holds in every state.** -/
theorem placed_after {Inv : σ → Prop} {Ok : ι → σ → τ → Prop}
    (hown : ∀ i e st l, Inv st → Ok i st l →
      Inv (step i e st l).1 ∧ Ok i (step i e st l).1 (step i e st l).2)
    (hothers : ∀ i e st l j l', j ≠ i → Inv st → Ok i st l → Ok j st l' → Ok j (step i e st l).1 l')
    (hstart : Inv s.store ∧ ∀ i, Ok i s.store (s.place i)) (as : List (ι × ε)) (n : ℕ) :
    Inv (after step s as n).store ∧
      ∀ i, Ok i (after step s as n).store ((after step s as n).place i) := by
  refine @invariant_run _ _ (turn step) s
    (fun s => Inv s.store ∧ ∀ i, Ok i s.store (s.place i)) hstart ?_ (as.take n)
  rintro s ⟨i, e⟩ ⟨hinv, hok⟩
  obtain ⟨hinv', hok'⟩ := hown i e s.store (s.place i) hinv (hok i)
  refine ⟨hinv', fun j => ?_⟩
  by_cases hj : j = i
  · subst hj
    rw [place_turn_self]
    exact hok'
  · rw [place_turn_of_ne hj]
    exact hothers i e s.store (s.place i) j (s.place j) hj hinv (hok i) (hok j)

theorem keeps_after {P : Shared ι σ τ → Prop} (hkeep : ∀ s a, P s → P (turn step s a)) (hnm : n ≤ m)
    (h : P (after step s as n)) : P (after step s as m) :=
  invariant_take_from hkeep hnm h

theorem place_keeps {P : τ → Prop} (hkeep : ∀ e st l, P l → P (step i e st l).2) (hnm : n ≤ m)
    (h : P ((after step s as n).place i)) : P ((after step s as m).place i) := by
  refine @keeps_after _ _ _ _ _ step s as n m (fun s => P (s.place i)) ?_ hnm h
  rintro s ⟨j, e⟩ hp
  by_cases hj : i = j
  · subst hj
    rw [place_turn_self]
    exact hkeep e s.store (s.place i) hp
  · rwa [place_turn_of_ne hj]

/-- Where a request is, and was not at the start, it has come by a turn of its own, and it has been there
since. -/
theorem exists_arrival {Q : τ → Prop} (hstart : ¬ Q (s.place i)) :
    ∀ {n : ℕ}, Q ((after step s as n).place i) →
      ∃ m e, m < n ∧ as[m]? = some (i, e) ∧ ¬ Q ((after step s as m).place i) ∧
        ∀ p, m < p → p ≤ n → Q ((after step s as p).place i)
  | 0, h => absurd h hstart
  | n + 1, h => by
    by_cases hbefore : Q ((after step s as n).place i)
    · obtain ⟨m, e, hmn, ha, hne, hstays⟩ := exists_arrival hstart hbefore
      refine ⟨m, e, by omega, ha, hne, fun p hmp hp => ?_⟩
      by_cases hlast : p = n + 1
      · rw [hlast]
        exact h
      · exact hstays p hmp (by omega)
    · rcases after_succ_cases step s as n with hsame | ⟨j, e, ha, hturn⟩
      · exact absurd (hsame ▸ h) hbefore
      · obtain rfl : i = j := by
          by_contra hj
          rw [hturn, place_turn_of_ne hj] at h
          exact hbefore h
        refine ⟨n, e, by omega, ha, hbefore, fun p hnp hp => ?_⟩
        obtain rfl : p = n + 1 := by omega
        exact h

/-- What holds of a place, and did not at the start, a turn of the request has made. -/
theorem exists_turn {Q : τ → Prop} {Made : ε → σ → Prop}
    (hstep : ∀ e st l, Q (step i e st l).2 → Q l ∨ Made e st) (hstart : ¬ Q (s.place i)) :
    ∀ {n : ℕ}, Q ((after step s as n).place i) →
      ∃ m e, m < n ∧ as[m]? = some (i, e) ∧ Made e (after step s as m).store
  | 0, h => absurd h hstart
  | n + 1, h => by
    have hlater : Q ((after step s as n).place i) ∨
        ∃ e, as[n]? = some (i, e) ∧ Made e (after step s as n).store := by
      rcases after_succ_cases step s as n with hsame | ⟨j, e, ha, hturn⟩
      · exact Or.inl (hsame ▸ h)
      · rw [hturn] at h
        by_cases hj : i = j
        · subst hj
          rw [place_turn_self] at h
          exact (hstep e _ _ h).imp_right fun hmade => ⟨e, ha, hmade⟩
        · rw [place_turn_of_ne hj] at h
          exact Or.inl h
    rcases hlater with hbefore | ⟨e, ha, hmade⟩
    · obtain ⟨m, e, hmn, ha, hmade⟩ := exists_turn hstep hstart hbefore
      exact ⟨m, e, by omega, ha, hmade⟩
    · exact ⟨n, e, by omega, ha, hmade⟩

/-- What holds of the store in a state held in an earlier one, or a turn in between has made it. -/
theorem holds_or_turned {P : σ → Prop} (hkn : k ≤ n) (h : P (after step s as n).store) :
    P (after step s as k).store ∨ ∃ m i e, k ≤ m ∧ m < n ∧ as[m]? = some (i, e) ∧
      ¬ P (after step s as m).store ∧ P (turn step (after step s as m) (i, e)).store := by
  have hcases := @holds_or_made _ _ (turn step) s (fun s => P s.store)
    (fun s a => ¬ P s.store ∧ P (turn step s a).store)
    (fun s a hp => or_iff_not_imp_left.mpr fun hno => ⟨hno, hp⟩) as k n hkn h
  rcases hcases with hbefore | ⟨m, a, hkm, hmn, ha, hmade⟩
  · exact Or.inl hbefore
  · exact Or.inr ⟨m, a.1, a.2, hkm, hmn, ha, hmade⟩

end StarStats.Lib.Threads
