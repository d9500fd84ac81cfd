import StarStats.Core.Ageing
import StarStats.Lib.Calendar
import Mathlib.Algebra.Order.Group.Unbundled.Int

/-! # The days of a timestamp

The number that `daysFromCivil` computes for a date is the one of the calendar (`daysFromCivil_date`): no
operation leaves its range, and though the division cuts off towards zero, the eras of negative years
are counted downwards. A timestamp written with leading zeros is split into the fields it was written
from (`isoFields_stamp`), so its second is that of the calendar (`parseIsoSecs_stamp`). -/

namespace StarStats.Core.Ageing

open StarStats.Lib.Text StarStats.Lib.Ints StarStats.Lib.Calendar

/-! ### The day number -/

namespace IsoFields

/-- The fields of a date, at midnight. -/
def ofDate (a : Date) : IsoFields := ⟨a.y, a.m, a.d, 0, 0, 0⟩

variable {a : Date}

theorem year_ofDate (a : Date) : (ofDate a).year = if a.m ≤ 2 then a.y - 1 else a.y := rfl

theorem shifted_ofDate (a : Date) : (ofDate a).shifted = if 2 < a.m then a.m - 3 else a.m + 9 := rfl

theorem civil_ofDate (hlo : -2 ^ 40 ≤ a.y) (hhi : a.y ≤ 2 ^ 40) : (ofDate a).Civil := by
  obtain ⟨hm, hm'⟩ := a.month
  obtain ⟨hd, hd'⟩ := a.day
  have hlen := monthLength_le a.y a.m
  exact ⟨⟨le_trans (by decide) hlo, lt_of_le_of_lt hhi (by decide)⟩,
    ⟨le_trans (by decide) hm, lt_of_le_of_lt hm' (by decide)⟩,
    ⟨le_trans (by decide) hd, lt_of_le_of_lt (hd'.trans hlen) (by decide)⟩⟩

theorem shifted_ofDate_bounds (a : Date) : 0 ≤ (ofDate a).shifted ∧ (ofDate a).shifted ≤ 11 := by
  obtain ⟨hm, hm'⟩ := a.month
  rw [shifted_ofDate]
  split_ifs <;> omega

theorem era_ofDate_bounds (hlo : -2 ^ 40 ≤ a.y) (hhi : a.y ≤ 2 ^ 40) :
    -2 ^ 40 ≤ (ofDate a).era ∧ (ofDate a).era ≤ 2 ^ 40 := by
  unfold era
  rw [year_ofDate]
  split_ifs <;> omega

theorem doe_ofDate_bounds (a : Date) :
    (0 ≤ (ofDate a).doy ∧ (ofDate a).doy < 2 ^ 40) ∧ 0 ≤ (ofDate a).doe ∧ (ofDate a).doe < 2 ^ 40 := by
  obtain ⟨hd, hd'⟩ := a.day
  obtain ⟨hlo, hhi⟩ := shifted_ofDate_bounds a
  have hlen := monthLength_le a.y a.m
  have hday : (ofDate a).d = a.d := rfl
  unfold doe doy
  omega

/-- The eras and the day of the era make up the number of the date. -/
theorem dayNumber_eq (a : Date) :
    (ofDate a).era * 146097 + (ofDate a).doe - 719468 = a.dayNumber := by
  have hday : (ofDate a).d = a.d := rfl
  unfold doe doy era Date.dayNumber Date.firstOf Date.yearStart Date.monthStart
  rw [← year_ofDate, ← shifted_ofDate, hday]
  omega

/-- **The number of a date is computed without overflow.** -/
theorem daysFromCivil_date (hlo : -2 ^ 40 ≤ a.y) (hhi : a.y ≤ 2 ^ 40) :
    daysFromCivil a.y a.m a.d = pure a.dayNumber := by
  obtain ⟨hd, hd'⟩ := a.day
  obtain ⟨hshift, hshift'⟩ := shifted_ofDate_bounds a
  obtain ⟨hera, hera'⟩ := era_ofDate_bounds hlo hhi
  obtain ⟨⟨hdoy, hdoy'⟩, hdoe, hdoe'⟩ := doe_ofDate_bounds a
  have hlen := monthLength_le a.y a.m
  have hnumber := dayNumber_eq a
  have hday : (ofDate a).d = a.d := rfl
  have hcast : asI64 (ofDate a).doe = (ofDate a).doe := asI64_of_inI64 ⟨by omega, by omega⟩
  have hdoyEq : u64 (ofDate a).doy = pure (ofDate a).doy := u64_eq_pure ⟨hdoy, by omega⟩
  have hdoeEq : u64 (ofDate a).doe = pure (ofDate a).doe := u64_eq_pure ⟨hdoe, by omega⟩
  show daysFromCivil (ofDate a).y (ofDate a).mo (ofDate a).d = _
  rw [daysFromCivil_eq (civil_ofDate hlo hhi)]
  -- the unsigned operations of the day, then the signed ones
  rw [u64_eq_pure ⟨by omega, by omega⟩, pure_bind_checked, u64_eq_pure ⟨by omega, by omega⟩,
    pure_bind_checked, u64_eq_pure ⟨by omega, by omega⟩, pure_bind_checked]
  show (u64 (ofDate a).doy >>= fun doy => _) = _
  rw [hdoyEq, pure_bind_checked]
  show (u64 (ofDate a).doe >>= fun doe => _) = _
  rw [hdoeEq, pure_bind_checked, i64_eq_pure ⟨by omega, by omega⟩, pure_bind_checked, hcast,
    i64_eq_pure ⟨by omega, by omega⟩, pure_bind_checked, hnumber, i64_eq_pure ⟨by omega, by omega⟩]

end IsoFields

/-! ### The text of a timestamp -/

/-- A date and a time of day as `YYYY-MM-DD` and `HH:MM:SS`, with a separator between them. -/
def stamp (sep : Char) (a : Date) (t : Time) : String :=
  String.ofList (padded 4 a.y.toNat ++ '-' :: (padded 2 a.m.toNat ++ '-' :: (padded 2 a.d.toNat ++
    sep :: (padded 2 t.h.toNat ++ ':' :: (padded 2 t.mi.toNat ++ ':' :: padded 2 t.se.toNat)))))

section Stamp
variable {a : Date} {t : Time} {sep : Char}

theorem mem_stamp {c : Char} (h : c ∈ (stamp sep a t).toList) :
    c.isDigit = true ∨ c = '-' ∨ c = ':' ∨ c = sep := by
  unfold stamp at h
  rw [String.toList_ofList] at h
  simp only [List.mem_append, List.mem_cons] at h
  rcases h with h | rfl | h | rfl | h | rfl | h | rfl | h | rfl | h
  all_goals first | exact Or.inl (isDigit_of_mem_padded h) | simp

theorem head_stamp : (stamp sep a t).toList.head? = some (Nat.digitChar (a.y.toNat / 10 / 10 / 10 % 10)) := by
  unfold stamp
  rw [String.toList_ofList]
  rfl

theorem getLast_stamp :
    (stamp sep a t).toList.getLast? = some (Nat.digitChar (t.se.toNat % 10)) := by
  unfold stamp
  rw [String.toList_ofList]
  rfl

theorem not_isWhitespace_digit {n : ℕ} : isWhitespace (Nat.digitChar (n % 10)) = false := by
  have hall : ∀ k < 10, isWhitespace (Nat.digitChar k) = false := by decide
  exact hall _ (Nat.mod_lt n (by decide))

theorem ne_of_mem_padded {c d : Char} (hd : d.isDigit = false) {w n : ℕ} (hc : c ∈ padded w n) :
    c ≠ d := by
  rintro rfl
  rw [isDigit_of_mem_padded hc] at hd
  cases hd

/-- Only the separator can be a `T`. -/
theorem map_stamp (hsep : sep = 'T' ∨ sep = ' ') :
    (stamp sep a t).toList.map (fun c => if c = 'T' then ' ' else c) = (stamp ' ' a t).toList := by
  have hdigits : ∀ w n, (padded w n).map (fun c => if c = 'T' then ' ' else c) = padded w n := by
    intro w n
    exact (List.map_congr_left fun c hc => if_neg (ne_of_mem_padded (by decide) hc)).trans (List.map_id _)
  unfold stamp
  rw [String.toList_ofList, String.toList_ofList]
  simp only [List.map_append, List.map_cons, hdigits]
  rcases hsep with rfl | rfl <;> rfl

theorem before_of_not_mem {c : Char} {cs : List Char} (h : c ∉ cs) : before c cs = cs := by
  unfold before
  refine List.takeWhile_eq_self_iff.mpr fun d hd => ?_
  have hne : d ≠ c := fun heq => h (heq ▸ hd)
  simpa using hne

theorem primary_stamp (hsep : sep = 'T' ∨ sep = ' ') : primary (stamp sep a t) = stamp ' ' a t := by
  have hno : ∀ c : Char, c.isDigit = false → c ≠ '-' → c ≠ ':' → c ≠ ' ' →
      before c (stamp ' ' a t).toList = (stamp ' ' a t).toList := by
    intro c hdigit hdash hcolon hspace
    refine before_of_not_mem fun hc => ?_
    rcases mem_stamp hc with h | h | h | h
    · rw [hdigit] at h
      cases h
    · exact hdash h
    · exact hcolon h
    · exact hspace h
  have hhead : ∀ c ∈ (stamp ' ' a t).toList.head?, isWhitespace c = false := by
    intro c hc
    rw [head_stamp] at hc
    cases hc
    exact not_isWhitespace_digit
  have hlast : ∀ c ∈ (stamp ' ' a t).toList.getLast?, isWhitespace c = false := by
    intro c hc
    rw [getLast_stamp] at hc
    cases hc
    exact not_isWhitespace_digit
  unfold primary
  rw [map_stamp hsep]
  show trim (String.ofList (before 'Z' (before '+' (before '.' (stamp ' ' a t).toList)))) = _
  rw [hno '.' (by decide) (by decide) (by decide) (by decide),
    hno '+' (by decide) (by decide) (by decide) (by decide),
    hno 'Z' (by decide) (by decide) (by decide) (by decide), String.ofList_toList]
  exact trim_of_ends hhead hlast

/-- The pieces of a timestamp are its numbers. -/
theorem splitOn_stamp :
    splitOn (fun c => c = ' ' || c = '-' || c = ':') (stamp ' ' a t).toList =
      [padded 4 a.y.toNat, padded 2 a.m.toNat, padded 2 a.d.toNat, padded 2 t.h.toNat,
        padded 2 t.mi.toNat, padded 2 t.se.toNat] := by
  have hdigits : ∀ w n, ∀ c ∈ padded w n, (c = ' ' || c = '-' || c = ':') = false := by
    intro w n c hc
    have hspace := ne_of_mem_padded (d := ' ') (by decide) hc
    have hdash := ne_of_mem_padded (d := '-') (by decide) hc
    have hcolon := ne_of_mem_padded (d := ':') (by decide) hc
    simp only [hspace, hdash, hcolon, decide_false, Bool.or_false]
  unfold stamp
  rw [String.toList_ofList, splitOn_append (by decide) _ (hdigits _ _),
    splitOn_append (by decide) _ (hdigits _ _), splitOn_append (by decide) _ (hdigits _ _),
    splitOn_append (by decide) _ (hdigits _ _), splitOn_append (by decide) _ (hdigits _ _),
    splitOn_of_none (hdigits _ _)]

theorem parseI64_padded {w n : ℕ} (hw : w ≠ 0) (hn : n < 10 ^ w) (hbound : n < 2 ^ 63) :
    parseI64 (String.ofList (padded w n)) = some (n : ℤ) := by
  unfold parseI64
  split
  · next ds heq =>
    rw [String.toList_ofList] at heq
    have hminus : '-' ∈ padded w n := by rw [heq]; exact List.mem_cons_self
    exact absurd (isDigit_of_mem_padded hminus) (by decide)
  · rw [parseUnsigned_padded hw hn hbound]
    rfl

theorem parseI64_toNat {w : ℕ} {n : ℤ} (hw : w ≠ 0) (hlo : 0 ≤ n) (hn : n.toNat < 10 ^ w)
    (hbound : n < 2 ^ 63) : parseI64 (String.ofList (padded w n.toNat)) = some n := by
  rw [parseI64_padded hw hn (by omega), Int.toNat_of_nonneg hlo]

/-- **A timestamp is read as the fields it was written from.** -/
theorem isoFields_stamp (hsep : sep = 'T' ∨ sep = ' ') (hlo : 0 ≤ a.y) (hhi : a.y ≤ 9999) :
    isoFields (stamp sep a t) = some ⟨a.y, a.m, a.d, t.h, t.mi, t.se⟩ := by
  obtain ⟨hm, hm'⟩ := a.month
  obtain ⟨hd, hd'⟩ := a.day
  obtain ⟨hh, hh'⟩ := t.hour
  obtain ⟨hmi, hmi'⟩ := t.minute
  obtain ⟨hse, hse'⟩ := t.second
  have hlen := monthLength_le a.y a.m
  have hne : stamp sep a t ≠ "" := by
    intro h
    have hhead : (stamp sep a t).toList.head? = some _ := head_stamp
    rw [h] at hhead
    cases hhead
  have hyear := parseI64_toNat (w := 4) (by decide) hlo (by omega) (by omega)
  have htwo : ∀ {n : ℤ}, 0 ≤ n → n < 100 → parseI64 (String.ofList (padded 2 n.toNat)) = some n :=
    fun h0 h100 => parseI64_toNat (by decide) h0 (by omega) (by omega)
  unfold isoFields
  rw [if_neg hne, primary_stamp hsep, splitOn_stamp]
  simp only [List.getElem?_cons_zero, List.getElem?_cons_succ, Option.bind_some, hyear,
    htwo (n := a.m) (by omega) (by omega), htwo (n := a.d) (by omega) (by omega),
    htwo hh (by omega), htwo hmi (by omega), htwo hse (by omega)]
  rfl

theorem dayNumber_bounds (hlo : 0 ≤ a.y) (hhi : a.y ≤ 9999) :
    -2 ^ 30 ≤ a.dayNumber ∧ a.dayNumber ≤ 2 ^ 30 := by
  obtain ⟨hm, hm'⟩ := a.month
  obtain ⟨hd, hd'⟩ := a.day
  have hlen := monthLength_le a.y a.m
  unfold Date.dayNumber Date.firstOf Date.yearStart Date.monthStart
  split_ifs <;> omega

/-- **The second of a timestamp is the one it stands for.** -/
theorem parseIsoSecs_stamp (hsep : sep = 'T' ∨ sep = ' ') (hlo : 0 ≤ a.y) (hhi : a.y ≤ 9999) :
    parseIsoSecs (stamp sep a t) = pure (some (a.dayNumber * 86400 + t.secs)) := by
  obtain ⟨hnumber, hnumber'⟩ := dayNumber_bounds hlo hhi
  obtain ⟨hh, hh'⟩ := t.hour
  obtain ⟨hmi, hmi'⟩ := t.minute
  obtain ⟨hse, hse'⟩ := t.second
  have hdays : daysFromCivil a.y a.m a.d = pure a.dayNumber :=
    IsoFields.daysFromCivil_date (by omega) (by omega)
  have hsecs : (IsoFields.mk a.y a.m a.d t.h t.mi t.se).secs =
      pure (a.dayNumber * 86400 + t.h * 3600 + t.mi * 60 + t.se) := by
    unfold IsoFields.secs
    simp only [hdays, pure_bind_checked]
    rw [i64_eq_pure ⟨by omega, by omega⟩, pure_bind_checked, i64_eq_pure ⟨by omega, by omega⟩,
      pure_bind_checked, i64_eq_pure ⟨by omega, by omega⟩, pure_bind_checked,
      i64_eq_pure ⟨by omega, by omega⟩, pure_bind_checked, i64_eq_pure ⟨by omega, by omega⟩, pure_bind_checked, i64_eq_pure ⟨by omega, by omega⟩]
  have hsum : a.dayNumber * 86400 + t.secs =
      a.dayNumber * 86400 + t.h * 3600 + t.mi * 60 + t.se := by
    unfold Time.secs
    omega
  unfold parseIsoSecs
  rw [isoFields_stamp hsep hlo hhi, hsum]
  show (IsoFields.mk a.y a.m a.d t.h t.mi t.se).secs >>= _ = _
  rw [hsecs, pure_bind_checked]

end Stamp

/-! ### The calendar -/

/-- **`daysFromCivil` counts the days of the proleptic Gregorian calendar**: what it computes for a date
are the days since the epoch, more for every later date and one more for the date that comes next; and
a timestamp of that date is read as its second. -/
theorem daysFromCivil_gregorian {a : Date} (ha : |a.y| ≤ 10 ^ 6) :
    ∃ n, daysFromCivil a.y a.m a.d = pure n ∧ DaysFrom epoch a n ∧
      (∀ b : Date, |b.y| ≤ 10 ^ 6 → a < b → ∃ k, daysFromCivil b.y b.m b.d = pure k ∧ n < k) ∧
      (∀ b : Date, |b.y| ≤ 10 ^ 6 → a ⋖ b → daysFromCivil b.y b.m b.d = pure (n + 1)) ∧
      ∀ (sep : Char) (t : Time), sep = 'T' ∨ sep = ' ' → 0 ≤ a.y → a.y ≤ 9999 →
        ∃ secs, parseIsoSecs (stamp sep a t) = pure (some secs) ∧ UnixSecond a t secs := by
  have hcount : ∀ b : Date, |b.y| ≤ 10 ^ 6 → daysFromCivil b.y b.m b.d = pure b.dayNumber := by
    intro b hb
    obtain ⟨hlo, hhi⟩ := abs_le.mp hb
    exact IsoFields.daysFromCivil_date (by omega) (by omega)
  refine ⟨a.dayNumber, hcount a ha, daysFrom_epoch a, fun b hb hlt => ?_, fun b hb hnext => ?_,
    fun sep t hsep hlo hhi => ?_⟩
  · exact ⟨b.dayNumber, hcount b hb, Date.strictMono_dayNumber hlt⟩
  · rw [hcount b hb, Date.covBy_iff.mp hnext, Date.dayNumber_next]
  · exact ⟨_, parseIsoSecs_stamp hsep hlo hhi, a.dayNumber, daysFrom_epoch a, rfl⟩

/-- 2024-02-29. -/
def leapDay : Date := ⟨2024, 2, 29, by decide, by decide⟩

/-- 12:34:56. -/
def shortlyAfterNoon : Time := ⟨12, 34, 56, by decide, by decide, by decide⟩

theorem daysFromCivil_gregorian_leapDay : |leapDay.y| ≤ 10 ^ 6 ∧
    ∃ n, daysFromCivil 2024 2 29 = pure n ∧ DaysFrom epoch leapDay n ∧
      (∃ k, daysFromCivil 2024 3 1 = pure k ∧ n < k) ∧ daysFromCivil 2024 3 1 = pure (n + 1) ∧
      ∃ secs, parseIsoSecs "2024-02-29T12:34:56" = pure (some secs) ∧
        UnixSecond leapDay shortlyAfterNoon secs := by
  have hyear : |leapDay.y| ≤ 10 ^ 6 := by decide
  have hnext : leapDay ⋖ leapDay.next := Date.covBy_iff.mpr rfl
  obtain ⟨n, hcount, hdays, hlater, hone, hsecs⟩ := daysFromCivil_gregorian hyear
  exact ⟨hyear, n, hcount, hdays, hlater leapDay.next (by decide) hnext.lt,
    hone leapDay.next (by decide) hnext,
    hsecs 'T' shortlyAfterNoon (Or.inl rfl) (by decide) (by decide)⟩

end StarStats.Core.Ageing
