import Mathlib.Algebra.Group.Int.Defs
import Mathlib.Tactic.Common
import Mathlib.Data.Int.Notation

/-! # Integers of machine width

Signed and unsigned 64-bit integers as integers. An operation whose exact result leaves the range of
its type wraps around; a `Checked` value says whether that has happened on the way. Where it has not,
every operation was exact, so a computation is checked one operation after the other against the exact
values (`overflowed_i64_bind`, `overflowed_u64_bind`). Durations are cut to whole seconds. -/

namespace StarStats.Lib.Ints

/-- A computed value, and whether an operation on the way left the range of its type. -/
structure Checked (α : Type) where
  value : α
  overflowed : Bool
  deriving DecidableEq

instance : Monad Checked where
  pure a := ⟨a, false⟩
  bind x f := ⟨(f x.value).value, x.overflowed || (f x.value).overflowed⟩

/-- The range of a signed integer. -/
def InI64 (n : ℤ) : Prop := -2 ^ 63 ≤ n ∧ n < 2 ^ 63

/-- The range of an unsigned integer. -/
def InU64 (n : ℤ) : Prop := 0 ≤ n ∧ n < 2 ^ 64

instance (n : ℤ) : Decidable (InI64 n) := inferInstanceAs (Decidable (_ ∧ _))

instance (n : ℤ) : Decidable (InU64 n) := inferInstanceAs (Decidable (_ ∧ _))

/-- A cast to a signed integer. -/
def asI64 (n : ℤ) : ℤ := (n + 2 ^ 63) % 2 ^ 64 - 2 ^ 63

/-- A cast to an unsigned integer. -/
def asU64 (n : ℤ) : ℤ := n % 2 ^ 64

/-- The result of a signed operation whose exact result is `n`. -/
def i64 (n : ℤ) : Checked ℤ := ⟨asI64 n, !decide (InI64 n)⟩

/-- The result of an unsigned operation whose exact result is `n`. -/
def u64 (n : ℤ) : Checked ℤ := ⟨asU64 n, !decide (InU64 n)⟩

theorem inI64_asI64 (n : ℤ) : InI64 (asI64 n) := by
  unfold InI64 asI64
  omega

theorem asI64_of_inI64 {n : ℤ} (h : InI64 n) : asI64 n = n := by
  obtain ⟨hlo, hhi⟩ := h
  unfold asI64
  omega

theorem asU64_of_inU64 {n : ℤ} (h : InU64 n) : asU64 n = n := by
  obtain ⟨hlo, hhi⟩ := h
  unfold asU64
  omega

section Rules
variable {α β : Type}

@[simp] theorem value_pure (a : α) : (pure a : Checked α).value = a := rfl

@[simp] theorem overflowed_pure (a : α) : (pure a : Checked α).overflowed = false := rfl

@[simp] theorem value_bind (x : Checked α) (f : α → Checked β) :
    (x >>= f).value = (f x.value).value := rfl

@[simp] theorem overflowed_bind_eq (x : Checked α) (f : α → Checked β) :
    (x >>= f).overflowed = (x.overflowed || (f x.value).overflowed) := rfl

theorem overflowed_bind {x : Checked α} {f : α → Checked β} :
    (x >>= f).overflowed = false ↔ x.overflowed = false ∧ (f x.value).overflowed = false :=
  Bool.or_eq_false_iff

@[simp] theorem pure_bind_checked (a : α) (f : α → Checked β) : (pure a : Checked α) >>= f = f a := by
  show Checked.mk _ _ = _
  simp

theorem bind_assoc_checked {γ : Type} (x : Checked α) (f : α → Checked β) (g : β → Checked γ) :
    x >>= f >>= g = x >>= fun a => f a >>= g := by
  show Checked.mk _ _ = Checked.mk _ _
  simp [Bool.or_assoc]

theorem overflowed_i64 {n : ℤ} : (i64 n).overflowed = false ↔ InI64 n := by
  simp [i64]

theorem overflowed_u64 {n : ℤ} : (u64 n).overflowed = false ↔ InU64 n := by
  simp [u64]

theorem i64_eq_pure {n : ℤ} (h : InI64 n) : i64 n = pure n := by
  show Checked.mk _ _ = Checked.mk _ _
  rw [asI64_of_inI64 h, decide_eq_true h, Bool.not_true]

theorem u64_eq_pure {n : ℤ} (h : InU64 n) : u64 n = pure n := by
  show Checked.mk _ _ = Checked.mk _ _
  rw [asU64_of_inU64 h, decide_eq_true h, Bool.not_true]

/-- **What follows a signed operation without overflow computes with its exact result.** -/
theorem overflowed_i64_bind {n : ℤ} {f : ℤ → Checked β} :
    (i64 n >>= f).overflowed = false ↔ InI64 n ∧ (f n).overflowed = false := by
  rw [overflowed_bind, overflowed_i64]
  refine and_congr_right fun h => ?_
  rw [i64_eq_pure h, value_pure]

/-- **What follows an unsigned operation without overflow computes with its exact result.** -/
theorem overflowed_u64_bind {n : ℤ} {f : ℤ → Checked β} :
    (u64 n >>= f).overflowed = false ↔ InU64 n ∧ (f n).overflowed = false := by
  rw [overflowed_bind, overflowed_u64]
  refine and_congr_right fun h => ?_
  rw [u64_eq_pure h, value_pure]

/-- Without an overflow on the way, this is the value. -/
def Yields (x : Checked α) (a : α) : Prop := x.overflowed = false → x.value = a

theorem yields_pure (a : α) : Yields (pure a) a := fun _ => rfl

theorem yields_i64 (n : ℤ) : Yields (i64 n) n := fun h => asI64_of_inI64 (overflowed_i64.1 h)

theorem Yields.i64_bind {n : ℤ} {f : ℤ → Checked β} {b : β} (h : Yields (f n) b) :
    Yields (i64 n >>= f) b := by
  intro hover
  obtain ⟨hn, hrest⟩ := overflowed_i64_bind.1 hover
  rw [value_bind, i64_eq_pure hn]
  exact h hrest

theorem Yields.u64_bind {n : ℤ} {f : ℤ → Checked β} {b : β} (h : Yields (f n) b) :
    Yields (u64 n >>= f) b := by
  intro hover
  obtain ⟨hn, hrest⟩ := overflowed_u64_bind.1 hover
  rw [value_bind, u64_eq_pure hn]
  exact h hrest

end Rules

/-! ### Durations -/

/-- A second in nanoseconds. -/
def nsPerSec : ℤ := 1000000000

/-- The whole seconds of a duration in nanoseconds; a fraction is cut off towards zero. -/
def numSeconds (ns : ℤ) : ℤ := ns.tdiv nsPerSec

theorem numSeconds_of_nonneg {ns : ℤ} (h : 0 ≤ ns) : numSeconds ns = ns / 1000000000 :=
  Int.tdiv_eq_ediv_of_nonneg h

theorem numSeconds_of_nonpos {ns : ℤ} (h : ns ≤ 0) : numSeconds ns = -(-ns / 1000000000) := by
  have hneg := numSeconds_of_nonneg (Int.neg_nonneg.mpr h)
  unfold numSeconds at hneg ⊢
  rw [Int.neg_tdiv] at hneg
  omega

theorem numSeconds_neg_iff {ns : ℤ} : numSeconds ns < 0 ↔ ns ≤ -nsPerSec := by
  unfold nsPerSec
  rcases Int.le_total 0 ns with h | h
  · have hsecs := numSeconds_of_nonneg h
    omega
  · have hsecs := numSeconds_of_nonpos h
    omega

theorem lt_numSeconds_iff {k ns : ℤ} (hk : 0 ≤ k) : k < numSeconds ns ↔ (k + 1) * nsPerSec ≤ ns := by
  unfold nsPerSec
  rcases Int.le_total 0 ns with h | h
  · have hsecs := numSeconds_of_nonneg h
    omega
  · have hsecs := numSeconds_of_nonpos h
    omega

theorem numSeconds_mul {ns : ℤ} (h : 0 ≤ ns) : numSeconds ns * nsPerSec = ns - ns % nsPerSec := by
  have hsecs := numSeconds_of_nonneg h
  unfold nsPerSec
  omega

theorem numSeconds_nonneg {ns : ℤ} (h : 0 ≤ ns) : 0 ≤ numSeconds ns := Int.tdiv_nonneg h (by decide)

end StarStats.Lib.Ints
