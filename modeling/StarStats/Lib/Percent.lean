import StarStats.Lib.Hex

/-! # Percent encoding

Letters, digits and four marks stand for themselves; every other byte is written as `%` and two upper-case
digits. What is written can be read again (`decode_encode`), so no two texts are written the same, and none
of the characters that a URI is taken apart at is ever written (`isPlain_of_mem_encode`). -/

namespace StarStats.Lib.Percent

open StarStats.Lib.Hex

/-- The characters that stand for themselves. -/
def isUnreserved (c : Char) : Bool := c.isAlphanum || c = '-' || c = '.' || c = '_' || c = '~'

/-- The characters that are written. -/
def isPlain (c : Char) : Bool := isUnreserved c || c = '%'

/-- A digit of the value, in upper case. -/
def upperDigit (v : ℕ) : Char := (Nat.digitChar v).toUpper

/-- A byte that needs no escape stands for itself. -/
def encodeByte (b : UInt8) : List Char :=
  if isUnreserved (Char.ofNat b.toNat) then [Char.ofNat b.toNat]
  else ['%', upperDigit (b.toNat / 16), upperDigit (b.toNat % 16)]

/-- One byte after the other. -/
def encode (bytes : List UInt8) : List Char := bytes.flatMap encodeByte

/-- A percent sign needs two digits behind it. -/
def decode : List Char → Option (List UInt8)
  | [] => some []
  | '%' :: a :: b :: rest =>
    (digitVal a).bind fun high => (digitVal b).bind fun low =>
      (decode rest).map (UInt8.ofNat (16 * high + low) :: ·)
  | c :: rest => if c = '%' then none else (decode rest).map (UInt8.ofNat c.toNat :: ·)

/-- The bytes of a text. -/
def utf8 (s : String) : List UInt8 := s.toByteArray.data.toList

/-- A text as one segment of a URI. -/
def encodeSegment (s : String) : List Char := encode (utf8 s)

theorem utf8_inj {s t : String} : utf8 s = utf8 t ↔ s = t := by
  unfold utf8
  rw [Array.toList_inj, ← String.toByteArray_inj, ByteArray.ext_iff]

theorem toNat_ofNat_byte (b : UInt8) : (Char.ofNat b.toNat).toNat = b.toNat := by
  have hlt := b.toNat_lt
  have hvalid : b.toNat.isValidChar := Or.inl (by omega)
  unfold Char.ofNat
  rw [dif_pos hvalid]
  rfl

theorem digitVal_upperDigit {v : ℕ} (h : v < 16) : digitVal (upperDigit v) = some v := by
  have hall : ∀ v < 16, digitVal (upperDigit v) = some v := by decide
  exact hall v h

theorem isPlain_upperDigit {v : ℕ} (h : v < 16) : isPlain (upperDigit v) = true := by
  have hall : ∀ v < 16, isPlain (upperDigit v) = true := by decide
  exact hall v h

theorem encode_cons (b : UInt8) (bytes : List UInt8) : encode (b :: bytes) = encodeByte b ++ encode bytes :=
  rfl

theorem decode_cons {c : Char} (h : c ≠ '%') (rest : List Char) :
    decode (c :: rest) = (decode rest).map (UInt8.ofNat c.toNat :: ·) := by
  rw [decode]
  · rw [if_neg h]
  · rintro a b rest' rfl
    exact absurd rfl h

/-- **What is written for some bytes is read as them.** -/
theorem decode_encode (bytes : List UInt8) : decode (encode bytes) = some bytes := by
  induction bytes with
  | nil => rfl
  | cons b bytes ih =>
    have hlt := b.toNat_lt
    rw [encode_cons]
    unfold encodeByte
    split_ifs with hb
    · have hne : Char.ofNat b.toNat ≠ '%' := by
        intro h
        rw [h] at hb
        exact absurd hb (by decide)
      rw [List.singleton_append, decode_cons hne, ih, toNat_ofNat_byte, UInt8.ofNat_toNat]
      rfl
    · have hhigh := digitVal_upperDigit (show b.toNat / 16 < 16 by omega)
      have hlow := digitVal_upperDigit (show b.toNat % 16 < 16 by omega)
      rw [List.cons_append, List.cons_append, List.cons_append, List.nil_append, decode, hhigh, hlow, ih,
        Option.bind_some, Option.bind_some, Nat.div_add_mod, UInt8.ofNat_toNat]
      rfl

theorem encode_inj {a b : List UInt8} : encode a = encode b ↔ a = b := by
  refine ⟨fun h => ?_, congrArg encode⟩
  have hread := congrArg decode h
  rw [decode_encode, decode_encode] at hread
  exact Option.some.inj hread

theorem encodeSegment_inj {s t : String} : encodeSegment s = encodeSegment t ↔ s = t :=
  encode_inj.trans utf8_inj

theorem isPlain_of_mem_encode {c : Char} {bytes : List UInt8} (h : c ∈ encode bytes) : isPlain c = true := by
  obtain ⟨b, -, hc⟩ := List.mem_flatMap.mp h
  have hlt := b.toNat_lt
  unfold encodeByte at hc
  split_ifs at hc with hb
  · obtain rfl := List.mem_singleton.mp hc
    unfold isPlain
    rw [hb, Bool.true_or]
  · simp only [List.mem_cons, List.not_mem_nil, or_false] at hc
    rcases hc with rfl | rfl | rfl
    · rfl
    · exact isPlain_upperDigit (by omega)
    · exact isPlain_upperDigit (by omega)

end StarStats.Lib.Percent
