import StarStats.Lib.Ints
import StarStats.Lib.Text

/-! # The age of a request

A request that nothing answers is timed out once it is older than the window. Its age comes from two
timestamps, each read by hand into seconds (`parseIsoSecs`): the fields are any decimals that fit 64
bits, and the arithmetic on them is that of the machine. The exact seconds of the fields are
`IsoFields.exactSecs`; where every operation is in range (`IsoFields.InRange`), these are what is
computed. -/

namespace StarStats.Core.Ageing

open StarStats.Lib.Text StarStats.Lib.Ints

/-- Where a purchase stands. -/
inductive TransactionStatus where
  | pending
  | confirmed
  | rejected
  | timedOut
  | submitted
  deriving DecidableEq

/-! ### Reading a timestamp -/

/-- Days since 1970-01-01. -/
def daysFromCivil (y m d : ℤ) : Checked ℤ := do
  let y ← (if m ≤ 2 then i64 (y - 1) else pure y)
  let y' ← (if 0 ≤ y then pure y else i64 (y - 399))
  let era := y'.tdiv 400
  let eraYears ← i64 (era * 400)
  let rest ← i64 (y - eraYears)
  let yoe := asU64 rest
  let mU := asU64 m
  let dU := asU64 d
  let shifted ← (if 2 < mU then u64 (mU - 3) else u64 (mU + 9))
  let scaled ← u64 (153 * shifted)
  let scaled ← u64 (scaled + 2)
  let doy ← u64 (scaled / 5 + dU)
  let doy ← u64 (doy - 1)
  let yearDays ← u64 (yoe * 365)
  let yearDays ← u64 (yearDays + yoe / 4)
  let yearDays ← u64 (yearDays - yoe / 100)
  let doe ← u64 (yearDays + doy)
  let eraDays ← i64 (era * 146097)
  let days ← i64 (eraDays + asI64 doe)
  i64 (days - 719468)

/-- A decimal as a signed 64-bit integer. -/
def parseI64 (s : String) : Option ℤ :=
  match s.toList with
  | '-' :: ds =>
    if ds ≠ [] ∧ ds.all Char.isDigit then
      (parseUnsigned (2 ^ 63 + 1) (String.ofList ds)).map fun n : ℕ => -(n : ℤ)
    else none
  | _ => (parseUnsigned (2 ^ 63) s).map fun n : ℕ => (n : ℤ)

/-- The six fields of a timestamp. -/
structure IsoFields where
  y : ℤ
  mo : ℤ
  d : ℤ
  h : ℤ
  mi : ℤ
  se : ℤ
  deriving DecidableEq

/-- The characters before the first `c`. -/
def before (c : Char) (cs : List Char) : List Char := cs.takeWhile (· ≠ c)

/-- The date and the time of day, without fraction and offset. -/
def primary (s : String) : String :=
  let normalised := s.toList.map fun c => if c = 'T' then ' ' else c
  trim (String.ofList (before 'Z' (before '+' (before '.' normalised))))

/-- The parts of a timestamp, if the first six read as numbers. -/
def isoFields (s : String) : Option IsoFields :=
  if s = "" then none
  else
    let parts := splitOn (fun c => c = ' ' || c = '-' || c = ':') (primary s).toList
    let field (i : ℕ) : Option ℤ := (parts[i]?).bind fun p => parseI64 (String.ofList p)
    do return ⟨← field 0, ← field 1, ← field 2, ← field 3, ← field 4, ← field 5⟩

/-- The seconds of the parts, in the machine's integers. -/
def IsoFields.secs (f : IsoFields) : Checked ℤ := do
  let days ← daysFromCivil f.y f.mo f.d
  let daySecs ← i64 (days * 86400)
  let hourSecs ← i64 (f.h * 3600)
  let sum ← i64 (daySecs + hourSecs)
  let minuteSecs ← i64 (f.mi * 60)
  let sum ← i64 (sum + minuteSecs)
  i64 (sum + f.se)

/-- The seconds of a timestamp, if it can be read. -/
def parseIsoSecs (s : String) : Checked (Option ℤ) :=
  match isoFields s with
  | none => pure none
  | some f => do
    let secs ← f.secs
    return some secs

/-- The status of a request without a response. -/
def ageStatus (startedAt : String) (nowSecs : Option ℤ) (windowSecs : ℤ) :
    Checked TransactionStatus := do
  match nowSecs, ← parseIsoSecs startedAt with
  | some now, some start => do
    let age ← i64 (now - start)
    return if windowSecs < age then .timedOut else .pending
  | _, _ => return .pending

/-- The ageing of one request: the clock is read, then the request is aged against it. -/
def ageing (startedAt now : String) (windowSecs : ℤ) : Checked TransactionStatus := do
  let nowSecs ← parseIsoSecs now
  ageStatus startedAt nowSecs windowSecs

/-! ### The exact seconds -/

namespace IsoFields
variable (f : IsoFields)

/-- The year that begins in March. -/
def year : ℤ := if f.mo ≤ 2 then f.y - 1 else f.y

/-- The 400 years the date lies in. -/
def era : ℤ := f.year / 400

/-- The month, counted from March. -/
def shifted : ℤ := if 2 < f.mo then f.mo - 3 else f.mo + 9

/-- The day of the year. -/
def doy : ℤ := (153 * f.shifted + 2) / 5 + f.d - 1

/-- The day of the era. -/
def doe : ℤ := f.year % 400 * 365 + f.year % 400 / 4 - f.year % 400 / 100 + f.doy

/-- The days since 1970-01-01; the day of the era is cast to a signed integer. -/
def days : ℤ := f.era * 146097 + asI64 f.doe - 719468

/-- The seconds since 1970-01-01. -/
def exactSecs : ℤ := f.days * 86400 + f.h * 3600 + f.mi * 60 + f.se

/-- The fields are decimals that fit 64 bits. -/
structure Decimal : Prop where
  y : 0 ≤ f.y ∧ f.y < 2 ^ 63
  mo : 0 ≤ f.mo ∧ f.mo < 2 ^ 63
  d : 0 ≤ f.d ∧ f.d < 2 ^ 63
  h : 0 ≤ f.h ∧ f.h < 2 ^ 63
  mi : 0 ≤ f.mi ∧ f.mi < 2 ^ 63
  se : 0 ≤ f.se ∧ f.se < 2 ^ 63

/-- The fields of the date fit 64 bits; the year may be negative. -/
structure Civil : Prop where
  y : -2 ^ 62 ≤ f.y ∧ f.y < 2 ^ 63
  mo : 0 ≤ f.mo ∧ f.mo < 2 ^ 63
  d : 0 ≤ f.d ∧ f.d < 2 ^ 63

/-- The fields for which every operation is in range. -/
structure InRange : Prop where
  /-- Not the day before the first of March: the day of the year would be -1. -/
  day : f.mo = 3 → f.d ≠ 0
  month : 153 * (f.mo - 3) + 2 < 2 ^ 64
  era : f.era * 146097 < 2 ^ 63
  days : InI64 (f.days * 86400)
  hours : f.h * 3600 < 2 ^ 63
  minutes : f.mi * 60 < 2 ^ 63
  secs : f.exactSecs < 2 ^ 63

variable {f}

theorem era_bounds (hf : f.Decimal) : -1 ≤ f.era ∧ f.era ≤ 2 ^ 63 / 400 := by
  obtain ⟨hy, hy'⟩ := hf.y
  unfold era year
  split_ifs <;> omega

/-- The month counted from March is what the day of the year begins with. -/
theorem shifted_bounds (hf : f.Decimal) :
    0 ≤ f.shifted ∧ (f.mo = 3 ↔ f.shifted = 0) ∧ (f.shifted ≤ 11 ∨ f.shifted = f.mo - 3) ∧
      f.mo - 3 ≤ f.shifted := by
  obtain ⟨hmo, -⟩ := hf.mo
  unfold shifted
  split_ifs <;> omega

/-- The day of the year is negative on the day before the first of March alone. -/
theorem doy_bounds (hf : f.Decimal) (hmonth : 153 * (f.mo - 3) + 2 < 2 ^ 64) :
    (0 ≤ f.doy ↔ (f.mo = 3 → f.d ≠ 0)) ∧ f.doy < 2 ^ 64 - 2 ^ 62 := by
  obtain ⟨hlo, hzero, hor, -⟩ := shifted_bounds hf
  obtain ⟨hd, hd'⟩ := hf.d
  unfold doy
  omega

/-- The day of the era is a bit more than the day of the year. -/
theorem doe_bounds : f.doy ≤ f.doe ∧ f.doe < f.doy + 200000 := by
  unfold doe
  omega

theorem Decimal.civil (hf : f.Decimal) : f.Civil := by
  obtain ⟨hy, hy'⟩ := hf.y
  exact ⟨⟨by omega, hy'⟩, hf.mo, hf.d⟩

/-- The operations of `daysFromCivil` that can leave their range. -/
theorem daysFromCivil_eq (hf : f.Civil) : daysFromCivil f.y f.mo f.d = (do
    let scaled ← u64 (153 * f.shifted)
    let scaled ← u64 (scaled + 2)
    let doy ← u64 (scaled / 5 + f.d)
    let doy ← u64 (doy - 1)
    let doe ← u64 (f.year % 400 * 365 + f.year % 400 / 4 - f.year % 400 / 100 + doy)
    let eraDays ← i64 (f.era * 146097)
    let days ← i64 (eraDays + asI64 doe)
    i64 (days - 719468)) := by
  obtain ⟨hy, hy'⟩ := hf.y
  obtain ⟨hmo, hmo'⟩ := hf.mo
  obtain ⟨hd, hd'⟩ := hf.d
  have hyear : (if f.mo ≤ 2 then i64 (f.y - 1) else pure f.y) = pure f.year := by
    unfold year
    split_ifs
    · exact i64_eq_pure ⟨by omega, by omega⟩
    · rfl
  have hlo : -2 ^ 62 - 1 ≤ f.year := by unfold year; split_ifs <;> omega
  have hhi : f.year < 2 ^ 63 := by unfold year; split_ifs <;> omega
  obtain ⟨y', hera, hdiv⟩ : ∃ y', (if 0 ≤ f.year then pure f.year else i64 (f.year - 399)) =
      (pure y' : Checked ℤ) ∧ y'.tdiv 400 = f.era := by
    unfold era
    split_ifs with h
    · exact ⟨f.year, rfl, Int.tdiv_eq_ediv_of_nonneg h⟩
    · refine ⟨f.year - 399, i64_eq_pure ⟨by omega, by omega⟩, ?_⟩
      -- the division cuts off towards zero, the era is counted downwards
      have hneg : f.year - 399 = -(399 - f.year) := by omega
      rw [hneg, Int.neg_tdiv, Int.tdiv_eq_ediv_of_nonneg (by omega)]
      omega
  have hmod : f.year - f.era * 400 = f.year % 400 := by unfold era; omega
  have hmod_lo : 0 ≤ f.year % 400 := by omega
  have hmod_hi : f.year % 400 < 400 := by omega
  have hshift : (if 2 < f.mo then u64 (f.mo - 3) else u64 (f.mo + 9)) = pure f.shifted := by
    unfold shifted
    split_ifs <;> exact u64_eq_pure ⟨by omega, by omega⟩
  unfold daysFromCivil
  simp only [hyear, hera, hdiv, pure_bind_checked]
  rw [i64_eq_pure ⟨by unfold era; omega, by unfold era; omega⟩, pure_bind_checked,
    i64_eq_pure ⟨by omega, by omega⟩, pure_bind_checked, hmod, asU64_of_inU64 ⟨hmod_lo, by omega⟩,
    asU64_of_inU64 ⟨hmo, by omega⟩, asU64_of_inU64 ⟨hd, by omega⟩, hshift, pure_bind_checked]
  have h1 : u64 (f.year % 400 * 365) = pure _ := u64_eq_pure ⟨by omega, by omega⟩
  have h2 : u64 (f.year % 400 * 365 + f.year % 400 / 4) = pure _ := u64_eq_pure ⟨by omega, by omega⟩
  have h3 : u64 (f.year % 400 * 365 + f.year % 400 / 4 - f.year % 400 / 100) = pure _ :=
    u64_eq_pure ⟨by omega, by omega⟩
  simp only [h1, h2, h3, pure_bind_checked]

/-- **The seconds are computed without overflow exactly for the fields in range.** -/
theorem overflowed_secs (hf : f.Decimal) : f.secs.overflowed = false ↔ f.InRange := by
  obtain ⟨hd, hd'⟩ := hf.d
  obtain ⟨hh, -⟩ := hf.h
  obtain ⟨hmi, -⟩ := hf.mi
  obtain ⟨hse, -⟩ := hf.se
  obtain ⟨hera, hera'⟩ := era_bounds hf
  obtain ⟨hlo, -, hor, hle⟩ := shifted_bounds hf
  obtain ⟨hdoe, hdoe'⟩ := @doe_bounds f
  have hcast := inI64_asI64 f.doe
  have hdays : f.days = f.era * 146097 + asI64 f.doe - 719468 := rfl
  have hexact : f.exactSecs = f.days * 86400 + f.h * 3600 + f.mi * 60 + f.se := rfl
  unfold secs
  rw [daysFromCivil_eq hf.civil]
  simp only [bind_assoc_checked, overflowed_u64_bind, overflowed_i64_bind, overflowed_i64]
  show InU64 (153 * f.shifted) ∧ InU64 (153 * f.shifted + 2) ∧
    InU64 ((153 * f.shifted + 2) / 5 + f.d) ∧ InU64 f.doy ∧ InU64 f.doe ∧ InI64 (f.era * 146097) ∧
    InI64 (f.era * 146097 + asI64 f.doe) ∧ InI64 f.days ∧ InI64 (f.days * 86400) ∧
    InI64 (f.h * 3600) ∧ InI64 (f.days * 86400 + f.h * 3600) ∧ InI64 (f.mi * 60) ∧
    InI64 (f.days * 86400 + f.h * 3600 + f.mi * 60) ∧ InI64 f.exactSecs ↔ f.InRange
  constructor
  · rintro ⟨-, hscaled, -, hdoy, -, heraDays, -, -, hdaySecs, hhours, -, hminutes, -, hsecs⟩
    have hmonth : 153 * (f.mo - 3) + 2 < 2 ^ 64 := by
      have := hscaled.2
      omega
    exact ⟨(doy_bounds hf hmonth).1.1 hdoy.1, hmonth, heraDays.2, hdaySecs, hhours.2, hminutes.2,
      hsecs.2⟩
  · rintro ⟨hday, hmonth, heraDays, hdaySecs, hhours, hminutes, hsecs⟩
    obtain ⟨hdoy, hdoy'⟩ := doy_bounds hf hmonth
    have hdoy := hdoy.2 hday
    simp only [InI64, InU64] at hcast hdaySecs ⊢
    omega

theorem yields_secs (hf : f.Decimal) : Yields f.secs f.exactSecs := by
  unfold secs
  rw [daysFromCivil_eq hf.civil]
  simp only [bind_assoc_checked]
  -- the unsigned operations of the day, then the signed ones
  refine Yields.u64_bind (Yields.u64_bind (Yields.u64_bind (Yields.u64_bind (Yields.u64_bind ?_))))
  refine Yields.i64_bind (Yields.i64_bind (Yields.i64_bind ?_))
  refine Yields.i64_bind (Yields.i64_bind (Yields.i64_bind (Yields.i64_bind (Yields.i64_bind ?_))))
  exact yields_i64 _

end IsoFields

/-! ### The fields of a timestamp -/

theorem parseI64_bounds {w : List Char} (hw : '-' ∉ w) {n : ℤ}
    (h : parseI64 (String.ofList w) = some n) : 0 ≤ n ∧ n < 2 ^ 63 := by
  unfold parseI64 at h
  rw [String.toList_ofList] at h
  split at h
  · exact absurd List.mem_cons_self hw
  · obtain ⟨k, hk, rfl⟩ := Option.map_eq_some_iff.mp h
    have := parseUnsigned_lt hk
    omega

/-- The fields of a timestamp are read from pieces without a sign. -/
theorem decimal_of_isoFields {s : String} {f : IsoFields} (h : isoFields s = some f) : f.Decimal := by
  unfold isoFields at h
  split_ifs at h
  simp only [Option.bind_eq_bind, Option.bind_eq_some_iff, Option.pure_def, Option.some.injEq] at h
  obtain ⟨y, ⟨w0, hw0, h0⟩, mo, ⟨w1, hw1, h1⟩, d, ⟨w2, hw2, h2⟩, hr, ⟨w3, hw3, h3⟩, mi,
    ⟨w4, hw4, h4⟩, se, ⟨w5, hw5, h5⟩, rfl⟩ := h
  have hsign : ∀ {i : ℕ} {w : List Char},
      (splitOn (fun c => c = ' ' || c = '-' || c = ':') (primary s).toList)[i]? = some w → '-' ∉ w :=
    fun hw => not_mem_of_mem_splitOn (by decide) (List.mem_of_getElem? hw)
  exact ⟨parseI64_bounds (hsign hw0) h0, parseI64_bounds (hsign hw1) h1,
    parseI64_bounds (hsign hw2) h2, parseI64_bounds (hsign hw3) h3,
    parseI64_bounds (hsign hw4) h4, parseI64_bounds (hsign hw5) h5⟩

/-! ### Overflow -/

theorem parseIsoSecs_of_none {s : String} (h : isoFields s = none) : parseIsoSecs s = pure none := by
  rw [parseIsoSecs, h]

/-- **A timestamp is read without overflow exactly if its fields are in range.** -/
theorem overflowed_parseIsoSecs {s : String} :
    (parseIsoSecs s).overflowed = false ↔ ∀ f ∈ isoFields s, f.InRange := by
  cases h : isoFields s with
  | none => simp [parseIsoSecs_of_none h]
  | some f =>
    rw [parseIsoSecs, h]
    simp only [overflowed_bind_eq, overflowed_pure, Bool.or_false, Option.mem_some_iff,
      forall_eq']
    exact IsoFields.overflowed_secs (decimal_of_isoFields h)

theorem yields_parseIsoSecs (s : String) :
    Yields (parseIsoSecs s) ((isoFields s).map (·.exactSecs)) := by
  cases h : isoFields s with
  | none =>
    rw [parseIsoSecs_of_none h]
    exact yields_pure none
  | some f =>
    intro hover
    rw [parseIsoSecs, h] at hover ⊢
    simp only [overflowed_bind_eq, overflowed_pure, Bool.or_false] at hover
    rw [value_bind, IsoFields.yields_secs (decimal_of_isoFields h) hover]
    rfl

/-- **Ageing stays in range exactly if the fields of both timestamps are in range, and so is the
difference of their seconds.** -/
theorem ageing_overflowed_iff (startedAt now : String) (windowSecs : ℤ) :
    (ageing startedAt now windowSecs).overflowed = false ↔
      (∀ f ∈ isoFields now, f.InRange) ∧ (∀ f ∈ isoFields startedAt, f.InRange) ∧
        ∀ f ∈ isoFields startedAt, ∀ g ∈ isoFields now, InI64 (g.exactSecs - f.exactSecs) := by
  unfold ageing ageStatus
  rw [overflowed_bind, overflowed_parseIsoSecs]
  refine and_congr_right fun hnow => ?_
  rw [yields_parseIsoSecs now (overflowed_parseIsoSecs.2 hnow)]
  rw [overflowed_bind, overflowed_parseIsoSecs]
  refine and_congr_right fun hstart => ?_
  rw [yields_parseIsoSecs startedAt (overflowed_parseIsoSecs.2 hstart)]
  cases hf : isoFields startedAt with
  | none => cases isoFields now <;> simp
  | some f =>
    cases hg : isoFields now with
    | none => simp
    | some g =>
      simp only [Option.map_some, Option.mem_some_iff, forall_eq']
      rw [overflowed_i64_bind]
      simp

/-- The zeroth of March: the day of the year is computed as -1 in an unsigned type. -/
theorem overflowed_day_zero : (ageing "2026-03-00T00:00:00Z" "2026-05-07T14:00:00Z" 30).overflowed =
    true := by
  decide +kernel

end StarStats.Core.Ageing
