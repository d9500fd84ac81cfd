import Mathlib.Algebra.Order.Group.Int
import Mathlib.Data.Int.ConditionallyCompleteOrder
import Mathlib.Data.Prod.Lex
import Mathlib.Order.Cover
import Mathlib.Order.Monotone.Basic
import Mathlib.Tactic.IntervalCases

/-! # The proleptic Gregorian calendar

Dates of every year, before and after the calendar was introduced, in the order of year, month and day.
The calendar's own rule is the day after a date (`Date.next`), and the days between two dates are
counted by it (`DaysFrom`). The closed form `Date.dayNumber` counts from the first of March, so that
the leap day is the last day of its year: it goes up by one from each date to the next
(`Date.dayNumber_next`), along the order of dates (`Date.strictMono_dayNumber`), and so it is the number
of days since the epoch (`daysFrom_epoch`). -/

namespace StarStats.Lib.Calendar

/-- Every fourth year, except for the centuries that 400 does not divide. -/
def IsLeap (y : ℤ) : Prop := y % 4 = 0 ∧ (y % 100 ≠ 0 ∨ y % 400 = 0)

instance (y : ℤ) : Decidable (IsLeap y) := inferInstanceAs (Decidable (_ ∧ _))

/-- The days of a month. -/
def monthLength (y m : ℤ) : ℤ :=
  if m = 2 then (if IsLeap y then 29 else 28)
  else if m = 4 ∨ m = 6 ∨ m = 9 ∨ m = 11 then 30
  else 31

theorem monthLength_pos (y m : ℤ) : 1 ≤ monthLength y m := by
  unfold monthLength
  split_ifs <;> decide

theorem monthLength_le (y m : ℤ) : monthLength y m ≤ 31 := by
  unfold monthLength
  split_ifs <;> decide

/-- A date of the calendar. -/
structure Date where
  y : ℤ
  m : ℤ
  d : ℤ
  month : 1 ≤ m ∧ m ≤ 12
  day : 1 ≤ d ∧ d ≤ monthLength y m
  deriving DecidableEq

/-- 1970-01-01. -/
def epoch : Date := ⟨1970, 1, 1, by decide, by decide⟩

namespace Date

/-- The day after. -/
def next (a : Date) : Date :=
  if hd : a.d < monthLength a.y a.m then ⟨a.y, a.m, a.d + 1, a.month, by have := a.day; omega⟩
  else if hm : a.m < 12 then
    ⟨a.y, a.m + 1, 1, by have := a.month; omega, le_refl 1, monthLength_pos ..⟩
  else ⟨a.y + 1, 1, 1, by decide, le_refl 1, monthLength_pos ..⟩

/-! ### The order of dates -/

/-- Year, month and day, compared in this order. -/
def key (a : Date) : ℤ ×ₗ ℤ ×ₗ ℤ := toLex (a.y, toLex (a.m, a.d))

theorem key_injective : Function.Injective key := by
  rintro ⟨y, m, d, hm, hd⟩ ⟨y', m', d', hm', hd'⟩ h
  simp only [key, toLex_inj, Prod.mk.injEq] at h
  obtain ⟨rfl, rfl, rfl⟩ := h
  rfl

instance : LinearOrder Date := LinearOrder.lift' key key_injective

theorem lt_iff {a b : Date} :
    a < b ↔ a.y < b.y ∨ a.y = b.y ∧ (a.m < b.m ∨ a.m = b.m ∧ a.d < b.d) := by
  show key a < key b ↔ _
  simp only [key, Prod.Lex.toLex_lt_toLex]

/-! ### The number of a date -/

/-- The days before a year that begins in March. -/
def yearStart (y : ℤ) : ℤ := 365 * y + y / 4 - y / 100 + y / 400

/-- The days before a month, counted from March. -/
def monthStart (m : ℤ) : ℤ := (153 * m + 2) / 5

/-- The days from the epoch to the first of a month. -/
def firstOf (y m : ℤ) : ℤ :=
  yearStart (if m ≤ 2 then y - 1 else y) + monthStart (if 2 < m then m - 3 else m + 9) - 719468

/-- The days from the epoch. -/
def dayNumber (a : Date) : ℤ := firstOf a.y a.m + (a.d - 1)

theorem dayNumber_epoch : epoch.dayNumber = 0 := by decide

/-- A year that begins in March ends with the leap day of the year after. -/
theorem yearStart_eq (y : ℤ) : yearStart y = yearStart (y - 1) + if IsLeap y then 366 else 365 := by
  unfold yearStart IsLeap
  split_ifs <;> omega

theorem firstOf_next_month {y m : ℤ} (hm : 1 ≤ m) (hlt : m < 12) :
    firstOf y (m + 1) = firstOf y m + monthLength y m := by
  by_cases h2 : m = 2
  · subst h2
    show yearStart y + 0 - 719468 = yearStart (y - 1) + 337 - 719468 + if IsLeap y then 29 else 28
    rw [yearStart_eq y]
    split_ifs <;> omega
  · have hyear : (if m + 1 ≤ 2 then y - 1 else y) = if m ≤ 2 then y - 1 else y := by
      split_ifs <;> omega
    have hstart : monthStart (if 2 < m + 1 then m + 1 - 3 else m + 1 + 9) =
        monthStart (if 2 < m then m - 3 else m + 9) + monthLength y m := by
      unfold monthLength
      interval_cases m
      · rfl
      · exact absurd rfl h2
      all_goals rfl
    unfold firstOf
    rw [hyear, hstart]
    omega

theorem firstOf_next_year (y : ℤ) : firstOf (y + 1) 1 = firstOf y 12 + monthLength y 12 := by
  show yearStart (y + 1 - 1) + 306 - 719468 = yearStart y + 275 - 719468 + 31
  rw [Int.add_sub_cancel]
  omega

/-- **The number goes up by one from a date to the next.** -/
theorem dayNumber_next (a : Date) : a.next.dayNumber = a.dayNumber + 1 := by
  obtain ⟨hd, hd'⟩ := a.day
  obtain ⟨hm, hm'⟩ := a.month
  unfold next
  split_ifs with hlast hdec
  · show firstOf a.y a.m + (a.d + 1 - 1) = firstOf a.y a.m + (a.d - 1) + 1
    omega
  · show firstOf a.y (a.m + 1) + (1 - 1) = firstOf a.y a.m + (a.d - 1) + 1
    rw [firstOf_next_month hm hdec]
    omega
  · have h12 : a.m = 12 := by omega
    rw [h12] at hd' hlast
    show firstOf (a.y + 1) 1 + (1 - 1) = firstOf a.y a.m + (a.d - 1) + 1
    rw [h12, firstOf_next_year]
    omega

/-! ### The number goes along the order -/

/-- The first of a month, the months counted through. -/
def monthFirst (n : ℤ) : ℤ := firstOf (n / 12) (n % 12 + 1)

/-- The month of a date, counted through. -/
def monthIndex (a : Date) : ℤ := 12 * a.y + (a.m - 1)

theorem monthFirst_succ (n : ℤ) :
    monthFirst (n + 1) = monthFirst n + monthLength (n / 12) (n % 12 + 1) := by
  unfold monthFirst
  by_cases hdec : n % 12 = 11
  · have hyear : (n + 1) / 12 = n / 12 + 1 := by omega
    have hmonth : (n + 1) % 12 = 0 := by omega
    rw [hyear, hmonth, hdec]
    exact firstOf_next_year _
  · have hyear : (n + 1) / 12 = n / 12 := by omega
    have hmonth : (n + 1) % 12 = n % 12 + 1 := by omega
    rw [hyear, hmonth]
    exact firstOf_next_month (by omega) (by omega)

theorem strictMono_monthFirst : StrictMono monthFirst := by
  refine strictMono_int_of_lt_succ fun n => ?_
  have hpos := monthLength_pos (n / 12) (n % 12 + 1)
  rw [monthFirst_succ]
  omega

theorem dayNumber_eq (a : Date) : a.dayNumber = monthFirst a.monthIndex + (a.d - 1) := by
  obtain ⟨hm, hm'⟩ := a.month
  have hyear : a.monthIndex / 12 = a.y := by unfold monthIndex; omega
  have hmonth : a.monthIndex % 12 + 1 = a.m := by unfold monthIndex; omega
  unfold monthFirst
  rw [hyear, hmonth]
  rfl

theorem dayNumber_lt (a : Date) : a.dayNumber < monthFirst (a.monthIndex + 1) := by
  obtain ⟨hm, hm'⟩ := a.month
  obtain ⟨-, hd⟩ := a.day
  have hyear : a.monthIndex / 12 = a.y := by unfold monthIndex; omega
  have hmonth : a.monthIndex % 12 + 1 = a.m := by unfold monthIndex; omega
  rw [dayNumber_eq, monthFirst_succ, hyear, hmonth]
  omega

theorem monthIndex_of_lt {a b : Date} (hab : a < b) :
    a.monthIndex < b.monthIndex ∨ a.monthIndex = b.monthIndex ∧ a.d < b.d := by
  obtain ⟨hma, hma'⟩ := a.month
  obtain ⟨hmb, hmb'⟩ := b.month
  unfold monthIndex
  rcases lt_iff.mp hab with hy | ⟨hy, hm | ⟨hm, hd⟩⟩
  · left
    omega
  · left
    omega
  · right
    exact ⟨by rw [hy, hm], hd⟩

/-- **A later date has a greater number.** -/
theorem strictMono_dayNumber : StrictMono dayNumber := by
  intro a b hab
  have hbefore := a.dayNumber_lt
  have hd := b.day.1
  rcases monthIndex_of_lt hab with hlt | ⟨heq, hlt⟩
  · have hle : monthFirst (a.monthIndex + 1) ≤ monthFirst b.monthIndex :=
      strictMono_monthFirst.monotone (Int.add_one_le_of_lt hlt)
    rw [dayNumber_eq b]
    omega
  · rw [dayNumber_eq a, dayNumber_eq b, heq]
    omega

theorem lt_next (a : Date) : a < a.next := by
  rw [← strictMono_dayNumber.lt_iff_lt, dayNumber_next]
  omega

theorem next_le_iff {a b : Date} : a.next ≤ b ↔ a < b := by
  rw [← strictMono_dayNumber.le_iff_le, ← strictMono_dayNumber.lt_iff_lt, dayNumber_next]
  omega

theorem covBy_iff {a b : Date} : a ⋖ b ↔ b = a.next := by
  constructor
  · rintro ⟨hlt, hnone⟩
    exact le_antisymm (not_lt.mp (hnone a.lt_next)) (next_le_iff.mpr hlt)
  · rintro rfl
    exact ⟨a.lt_next, fun c hac hca => absurd (next_le_iff.mpr hac) (not_le.mpr hca)⟩

theorem dayNumber_iterate_next (n : ℕ) (a : Date) : (next^[n] a).dayNumber = a.dayNumber + n := by
  induction n with
  | zero => simp
  | succ n ih =>
    rw [Function.iterate_succ_apply', dayNumber_next, ih]
    omega

end Date

/-! ### Counting days -/

/-- It takes `n` days from `a` to `b`, or `-n` days from `b` to `a`. -/
def DaysFrom (a b : Date) (n : ℤ) : Prop := Date.next^[n.toNat] a = Date.next^[(-n).toNat] b

/-- **The days between two dates are the difference of their numbers.** -/
theorem daysFrom_iff {a b : Date} {n : ℤ} : DaysFrom a b n ↔ b.dayNumber - a.dayNumber = n := by
  unfold DaysFrom
  rw [← Date.strictMono_dayNumber.injective.eq_iff, Date.dayNumber_iterate_next,
    Date.dayNumber_iterate_next]
  omega

theorem daysFrom_epoch (a : Date) : DaysFrom epoch a a.dayNumber := by
  rw [daysFrom_iff, Date.dayNumber_epoch]
  omega

/-! ### Times of day -/

/-- A time of day, in UTC and without leap seconds. -/
structure Time where
  h : ℤ
  mi : ℤ
  se : ℤ
  hour : 0 ≤ h ∧ h < 24
  minute : 0 ≤ mi ∧ mi < 60
  second : 0 ≤ se ∧ se < 60
  deriving DecidableEq

/-- The seconds since midnight. -/
def Time.secs (t : Time) : ℤ := t.h * 3600 + t.mi * 60 + t.se

/-- The second of a date and a time of day, counted from the midnight of the epoch. -/
def UnixSecond (a : Date) (t : Time) (n : ℤ) : Prop :=
  ∃ days, DaysFrom epoch a days ∧ n = days * 86400 + t.secs

end StarStats.Lib.Calendar
