import StarStats.Lib.Threads

/-! # What has held since

In a run, something is made at some moments and lost at others. It is there at a moment exactly if it has
been made before and not been lost since (`iff_since`), or has been there from the start on
(`iff_start_or_since`). The step says what makes it and what loses it; the rest is the same for every such
thing. -/

namespace StarStats.Lib.Histories

variable {P Made Lost : ℕ → Prop} {k m n : ℕ}

/-- Made before a moment, and not lost since. -/
def Since (Made Lost : ℕ → Prop) (n : ℕ) : Prop :=
  ∃ k < n, Made k ∧ ∀ p, k < p → p < n → ¬ Lost p

theorem not_since_zero : ¬ Since Made Lost 0 := by
  rintro ⟨k, hk, -⟩
  omega

theorem since_succ : Since Made Lost (n + 1) ↔ Made n ∨ Since Made Lost n ∧ ¬ Lost n := by
  constructor
  · rintro ⟨k, hkn, hmade, hkept⟩
    by_cases hlast : k = n
    · subst hlast
      exact Or.inl hmade
    · have hlt : k < n := by omega
      exact Or.inr ⟨⟨k, hlt, hmade, fun p hkp hpn => hkept p hkp (by omega)⟩,
        hkept n hlt (Nat.lt_succ_self n)⟩
  · rintro (hmade | ⟨⟨k, hkn, hmade, hkept⟩, hn⟩)
    · exact ⟨n, Nat.lt_succ_self n, hmade, fun p hnp hpn => by omega⟩
    · refine ⟨k, by omega, hmade, fun p hkp hpn => ?_⟩
      by_cases hp : p = n
      · rwa [hp]
      · exact hkept p hkp (by omega)

/-- **What is there, each time, exactly if it has just been made, or was there and has not been lost, is
there exactly if it has been made and not been lost since.** -/
theorem iff_since (hstart : ¬ P 0) (hstep : ∀ n, P (n + 1) ↔ Made n ∨ P n ∧ ¬ Lost n) (n : ℕ) :
    P n ↔ Since Made Lost n := by
  induction n with
  | zero => exact iff_of_false hstart not_since_zero
  | succ n ih => rw [hstep n, since_succ, ih]

theorem iff_start_or_since (hstep : ∀ n, P (n + 1) ↔ Made n ∨ P n ∧ ¬ Lost n) (n : ℕ) :
    P n ↔ (P 0 ∧ ∀ p < n, ¬ Lost p) ∨ Since Made Lost n := by
  induction n with
  | zero =>
    have hnone : ¬ Since Made Lost 0 := not_since_zero
    simp [hnone]
  | succ n ih =>
    have hall : (∀ p < n + 1, ¬ Lost p) ↔ (∀ p < n, ¬ Lost p) ∧ ¬ Lost n := Nat.forall_lt_succ_right
    rw [hstep n, since_succ, ih, hall]
    tauto

/-! ### In a run of threads -/

section Threads
open StarStats.Lib.Threads

variable {ι σ τ ε : Type} [DecidableEq ι] {step : ι → ε → σ → τ → σ × τ} {s : Shared ι σ τ}
  {as : List (ι × ε)}

/-- A turn of the run is one of a kind. -/
def Turns (step : ι → ε → σ → τ → σ × τ) (s : Shared ι σ τ) (as : List (ι × ε))
    (Kind : ι → ε → σ → τ → Prop) (n : ℕ) : Prop :=
  ∃ i e, as[n]? = some (i, e) ∧ Kind i e (after step s as n).store ((after step s as n).place i)

theorem turns_iff {i : ι} {e : ε} {Kind : ι → ε → σ → τ → Prop} (h : as[n]? = some (i, e)) :
    Turns step s as Kind n ↔ Kind i e (after step s as n).store ((after step s as n).place i) := by
  constructor
  · rintro ⟨i', e', h', hkind⟩
    obtain ⟨rfl, rfl⟩ := Prod.mk.inj (Option.some.inj (h.symm.trans h'))
    exact hkind
  · intro hkind
    exact ⟨i, e, h, hkind⟩

theorem not_turns (Kind : ι → ε → σ → τ → Prop) (h : as[n]? = none) : ¬ Turns step s as Kind n := by
  rintro ⟨i, e, h', -⟩
  rw [h] at h'
  cases h'

/-- **What the store has exactly if the turn has made it, or it was there and the turn has not lost it, it
has exactly if a turn has made it and none has lost it since.** -/
theorem store_iff_since (Q : σ → Prop) (Makes Loses : ι → ε → σ → τ → Prop) (hstart : ¬ Q s.store)
    (hstep : ∀ n i e, as[n]? = some (i, e) →
      (Q (step i e (after step s as n).store ((after step s as n).place i)).1 ↔
        Makes i e (after step s as n).store ((after step s as n).place i) ∨
          Q (after step s as n).store ∧
            ¬ Loses i e (after step s as n).store ((after step s as n).place i))) (n : ℕ) :
    Q (after step s as n).store ↔ Since (Turns step s as Makes) (Turns step s as Loses) n := by
  refine @iff_since (fun n => Q (after step s as n).store) _ _ hstart (fun n => ?_) n
  cases ha : as[n]? with
  | none =>
    have hmakes : ¬ Turns step s as Makes n := not_turns _ ha
    have hloses : ¬ Turns step s as Loses n := not_turns _ ha
    rw [after_of_none ha]
    tauto
  | some a =>
    rw [after_succ ha, turns_iff ha, turns_iff ha]
    exact hstep n a.1 a.2 ha

/-- A turn of a request is of a kind. -/
def TurnOf (step : ι → ε → σ → τ → σ × τ) (s : Shared ι σ τ) (as : List (ι × ε)) (i : ι)
    (Kind : ε → σ → τ → Prop) (n : ℕ) : Prop :=
  Turns step s as (fun j e st l => j = i ∧ Kind e st l) n

/-- A request has no turn between two moments. -/
def Idle (as : List (ι × ε)) (i : ι) (m n : ℕ) : Prop := ∀ p, m < p → p < n → ∀ e, as[p]? ≠ some (i, e)

/-- A place that a request comes to and leaves by turns of its own. -/
theorem place_iff_since {i : ι} (Q : τ → Prop) (Makes Loses : ε → σ → τ → Prop)
    (hstart : ¬ Q (s.place i))
    (hstep : ∀ e st l, Q (step i e st l).2 ↔ Makes e st l ∨ Q l ∧ ¬ Loses e st l) (n : ℕ) :
    Q ((after step s as n).place i) ↔
      Since (TurnOf step s as i Makes) (TurnOf step s as i Loses) n := by
  refine @iff_since (fun n => Q ((after step s as n).place i)) _ _ hstart (fun n => ?_) n
  cases ha : as[n]? with
  | none =>
    unfold TurnOf
    rw [after_of_none ha, iff_false_intro (not_turns _ ha), iff_false_intro (not_turns _ ha)]
    tauto
  | some a =>
    unfold TurnOf
    rw [after_succ ha, turns_iff ha, turns_iff ha]
    by_cases hi : a.1 = i
    · have hself : (turn step (after step s as n) a).place i =
          (step i a.2 (after step s as n).store ((after step s as n).place i)).2 := by
        rw [← hi]
        exact place_turn_self
      rw [hself, hstep, hi]
      tauto
    · have hother : (turn step (after step s as n) a).place i = (after step s as n).place i :=
        place_turn_of_ne (Ne.symm hi)
      rw [hother]
      tauto

end Threads

end StarStats.Lib.Histories
