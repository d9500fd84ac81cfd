import StarStats.Lib.Text

/-! # Hexadecimal digits

Two digits to a byte, read in either case and written in lower case. What is read is what is written, up to
the case (`decodeHex_eq_some_iff`). -/

namespace StarStats.Lib.Hex

open StarStats.Lib.Text

/-- Two digits for each byte. -/
def encodeHex (bytes : List UInt8) : List Char :=
  bytes.flatMap fun b => [Nat.digitChar (b.toNat / 16), Nat.digitChar (b.toNat % 16)]

/-- Both cases are read. -/
def digitVal (c : Char) : Option ℕ :=
  if c.isDigit then some (c.toNat - 48)
  else if 97 ≤ c.toNat ∧ c.toNat ≤ 102 then some (c.toNat - 87)
  else if 65 ≤ c.toNat ∧ c.toNat ≤ 70 then some (c.toNat - 55)
  else none

/-- An odd number of digits is refused. -/
def decodeHex : List Char → Option (List UInt8)
  | [] => some []
  | [_] => none
  | a :: b :: rest =>
    (digitVal a).bind fun high => (digitVal b).bind fun low =>
      (decodeHex rest).map (UInt8.ofNat (16 * high + low) :: ·)

theorem encodeHex_cons (b : UInt8) (bytes : List UInt8) : encodeHex (b :: bytes) =
    Nat.digitChar (b.toNat / 16) :: Nat.digitChar (b.toNat % 16) :: encodeHex bytes := rfl

theorem toNat_digitChar {v : ℕ} (h : v < 16) :
    (Nat.digitChar v).toNat = if v < 10 then 48 + v else 87 + v := by
  have hall : ∀ v < 16, (Nat.digitChar v).toNat = if v < 10 then 48 + v else 87 + v := by decide +kernel
  exact hall v h

theorem digitVal_eq_some_iff {c : Char} {v : ℕ} :
    digitVal c = some v ↔ v < 16 ∧ c.toLower = Nat.digitChar v := by
  have hdigit : c.isDigit = true ↔ 48 ≤ c.toNat ∧ c.toNat ≤ 57 := Char.isDigit_iff_toNat
  have hlower : 65 ≤ c.toNat ∧ c.toNat ≤ 90 ∧ c.toLower.toNat = c.toNat + 32 ∨
      ¬ (65 ≤ c.toNat ∧ c.toNat ≤ 90) ∧ c.toLower.toNat = c.toNat := by
    by_cases hupper : c.isUpper = true
    · have hrange := isUpper_iff_toNat.mp hupper
      exact Or.inl ⟨hrange.1, hrange.2, toNat_toLower hupper⟩
    · rw [toLower_of_not_isUpper hupper]
      exact Or.inr ⟨fun hrange => hupper (isUpper_iff_toNat.mpr hrange), rfl⟩
  have hchar : v < 16 → ((Nat.digitChar v).toNat = 48 + v ∧ v < 10 ∨
      (Nat.digitChar v).toNat = 87 + v ∧ 10 ≤ v) := by
    intro hv
    have hval := toNat_digitChar hv
    split_ifs at hval with hten
    · exact Or.inl ⟨hval, hten⟩
    · exact Or.inr ⟨hval, Nat.le_of_not_lt hten⟩
  rw [← Char.toNat_inj]
  unfold digitVal
  simp only [hdigit]
  split_ifs <;> simp only [Option.some.injEq, false_iff] <;> omega

theorem decodeHex_cons_cons (a b : Char) (rest : List Char) : decodeHex (a :: b :: rest) =
    (digitVal a).bind fun high => (digitVal b).bind fun low =>
      (decodeHex rest).map (UInt8.ofNat (16 * high + low) :: ·) := rfl

/-- **Digits are read as some bytes exactly if they are what is written for them, up to the case.** -/
theorem decodeHex_eq_some_iff {cs : List Char} {bytes : List UInt8} :
    decodeHex cs = some bytes ↔ cs.map Char.toLower = encodeHex bytes := by
  induction cs using decodeHex.induct generalizing bytes with
  | case1 =>
    cases bytes with
    | nil => exact iff_of_true rfl rfl
    | cons b bytes => exact iff_of_false (by simp [decodeHex]) (by simp [encodeHex_cons])
  | case2 c =>
    cases bytes with
    | nil => exact iff_of_false (by simp [decodeHex]) (by simp [encodeHex])
    | cons b bytes => exact iff_of_false (by simp [decodeHex]) (by simp [encodeHex_cons])
  | case3 a b rest ih =>
    cases bytes with
    | nil => exact iff_of_false (by simp [decodeHex, Option.bind_eq_some_iff]) (by simp [encodeHex])
    | cons y bytes =>
      have hy := y.toNat_lt
      rw [List.map_cons, List.map_cons, encodeHex_cons, List.cons.injEq, List.cons.injEq, ← ih,
        decodeHex_cons_cons]
      simp only [Option.bind_eq_some_iff, Option.map_eq_some_iff, digitVal_eq_some_iff, List.cons.injEq]
      constructor
      · rintro ⟨high, ⟨hhigh, ha⟩, low, ⟨hlow, hb⟩, ys, hys, hbyte, rfl⟩
        have hval : y.toNat = 16 * high + low := by
          rw [← hbyte, UInt8.toNat_ofNat']
          exact Nat.mod_eq_of_lt (by omega)
        have hdiv : y.toNat / 16 = high := by omega
        have hmod : y.toNat % 16 = low := by omega
        rw [hdiv, hmod]
        exact ⟨ha, hb, hys⟩
      · rintro ⟨ha, hb, hys⟩
        refine ⟨y.toNat / 16, ⟨by omega, ha⟩, y.toNat % 16, ⟨by omega, hb⟩, bytes, hys, ?_, rfl⟩
        rw [Nat.div_add_mod]
        exact UInt8.ofNat_toNat

end StarStats.Lib.Hex
