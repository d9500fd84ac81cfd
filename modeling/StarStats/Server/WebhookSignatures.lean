import StarStats.Lib.Hex
import StarStats.Lib.Ints

/-! # Signatures of webhooks

A delivery carries a timestamp in milliseconds and a list of signatures, of which one of the current scheme
has to be that of the timestamp and the body. The dates that there are and the keyed hash come from
elsewhere: `DateRange` says which instants are dates, and `hmac` is the hash. -/

namespace StarStats.Server.WebhookSignatures

open StarStats.Lib.Text StarStats.Lib.Ints StarStats.Lib.Hex

/-! ### Dates -/

/-- `TimeDelta::MAX`, which is `i64::MAX` milliseconds, in nanoseconds. -/
def maxDelta : ℤ := (2 ^ 63 - 1) * 1000000

/-- The first and the last date, in nanoseconds since 1970; a duration holds the time between them. -/
structure DateRange where
  first : ℤ
  last : ℤ
  span : last - first ≤ maxDelta

/-- `DateTime<Utc>` -/
structure DateTime (range : DateRange) where
  ns : ℤ
  first_le : range.first ≤ ns
  le_last : ns ≤ range.last

/-- `DateTime::from_timestamp_millis` -/
def fromTimestampMillis (range : DateRange) (ms : ℤ) : Option (DateTime range) :=
  if h : range.first ≤ ms * 1000000 ∧ ms * 1000000 ≤ range.last then some ⟨ms * 1000000, h.1, h.2⟩
  else none

/-- A duration whose exact value is `ns`. -/
def timeDelta (ns : ℤ) : Checked ℤ := ⟨ns, !decide (-maxDelta ≤ ns ∧ ns ≤ maxDelta)⟩

/-- The difference of two times; it overflows like the crate's. -/
def DateTime.since {range : DateRange} (a b : DateTime range) : Checked ℤ := timeDelta (a.ns - b.ns)

/-- How far the clocks may be apart. -/
def timestampDriftTolerance : ℤ := 5 * 60 * nsPerSec

/-! ### Signatures -/

/-- The digits of a decimal. -/
def parseDigits (ds : List Char) : Option ℕ :=
  if ds ≠ [] ∧ ds.all Char.isDigit then some (ds.foldl (fun n d => 10 * n + (d.toNat - 48)) 0) else none

/-- A signed decimal: an optional sign and at least one digit, within 64 bits. -/
def parseI64 (s : String) : Option ℤ :=
  let n : Option ℤ := match s.toList with
    | '-' :: ds => (parseDigits ds).map fun n => -(n : ℤ)
    | '+' :: ds => (parseDigits ds).map fun n => (n : ℤ)
    | ds => (parseDigits ds).map fun n => (n : ℤ)
  n.filter fun n => decide (InI64 n)

/-- Why a delivery is not accepted. -/
inductive SignatureError where
  | headerMissing
  | timestampMissing
  | noSupportedScheme
  | timestampOutOfRange
  | mismatch
  deriving DecidableEq

/-- The text of an error. -/
def SignatureError.message : SignatureError → String
  | headerMissing => "Revolut-Signature header missing or empty"
  | timestampMissing => "Revolut-Request-Timestamp header missing or invalid"
  | noSupportedScheme => "Revolut-Signature did not contain any v1= entry we could parse"
  | timestampOutOfRange => "timestamp drift exceeds the 5-minute tolerance"
  | mismatch => "signature mismatch (none of the supplied v1= entries verified)"

/-- The entries are tried one after the other. -/
def checkEntries (expected : List UInt8) : Bool → List (List Char) → Except SignatureError Unit
  | sawV1, [] => if sawV1 then .error .mismatch else .error .noSupportedScheme
  | sawV1, entry :: rest =>
    match stripPrefix "v1=" (trim (String.ofList entry)).toList with
    | none => checkEntries expected sawV1 rest
    | some hexPart =>
      match decodeHex hexPart with
      | none => checkEntries expected true rest
      | some decoded =>
        if decoded.length ≠ expected.length then checkEntries expected true rest
        else if decoded = expected then .ok ()
        else checkEntries expected true rest

/-- The bytes of a text. -/
def utf8 (s : String) : List UInt8 := s.toUTF8.data.toList

section Verify
variable (hmac : List UInt8 → List UInt8 → List UInt8) (range : DateRange)

/-- The hash of what is signed. -/
def expectedMac (secret : List UInt8) (timestampHeader : String) (rawBody : List UInt8) : List UInt8 :=
  hmac secret (utf8 "v1." ++ utf8 (trim timestampHeader) ++ utf8 "." ++ rawBody)

/-- The headers, the clock, then each signature of the list. -/
def verifyWebhookSignature (secret : List UInt8) (timestampHeader signatureHeader : String)
    (rawBody : List UInt8) (now : DateTime range) : Checked (Except SignatureError Unit) :=
  if trim signatureHeader = "" then pure (.error .headerMissing)
  else
    match parseI64 (trim timestampHeader) with
    | none => pure (.error .timestampMissing)
    | some timestampMs =>
      match fromTimestampMillis range timestampMs with
      | none => pure (.error .timestampMissing)
      | some eventTs => do
        let elapsed ← now.since eventTs
        let drift ← timeDelta elapsed.natAbs
        if timestampDriftTolerance < drift then pure (.error .timestampOutOfRange)
        else pure (checkEntries (expectedMac hmac secret timestampHeader rawBody) false
          (splitOn (· = ',') signatureHeader.toList))

/-- A delivery of now: one of the signatures is the hash, by the secret, of the version, the timestamp and the
body, with points between them. -/
def Genuine (secret : List UInt8) (timestampHeader signatureHeader : String) (rawBody : List UInt8)
    (now : DateTime range) : Prop :=
  ∃ ms, parseI64 (trim timestampHeader) = some ms ∧
    (range.first ≤ ms * 1000000 ∧ ms * 1000000 ≤ range.last) ∧
    (now.ns - ms * 1000000).natAbs ≤ timestampDriftTolerance ∧
    ∃ entry ∈ splitOn (· = ',') signatureHeader.toList, ∃ hexPart : List Char,
      (trim (String.ofList entry)).toList = "v1=".toList ++ hexPart ∧
      hexPart.map Char.toLower = encodeHex
        (hmac secret (utf8 "v1." ++ utf8 (trim timestampHeader) ++ utf8 "." ++ rawBody))

end Verify

/-! ### What is accepted -/

section Entries
variable {expected : List UInt8} {cs rest : List Char}

/-- An entry of the current scheme whose digits are those of the hash. -/
def Matches (expected : List UInt8) (entry : List Char) : Prop :=
  ∃ hexPart : List Char, (trim (String.ofList entry)).toList = "v1=".toList ++ hexPart ∧
    hexPart.map Char.toLower = encodeHex expected

theorem checkEntries_eq_ok_iff {sawV1 : Bool} {entries : List (List Char)} :
    checkEntries expected sawV1 entries = .ok () ↔ ∃ entry ∈ entries, Matches expected entry := by
  induction entries generalizing sawV1 with
  | nil =>
    refine iff_of_false (fun h => ?_) (by simp)
    unfold checkEntries at h
    split_ifs at h
  | cons entry entries ih =>
    rw [List.exists_mem_cons_iff]
    unfold checkEntries
    cases hstrip : stripPrefix "v1=" (trim (String.ofList entry)).toList with
    | none =>
      have hno : ¬ Matches expected entry := by
        rintro ⟨hexPart, hentry, -⟩
        rw [stripPrefix_eq_some_iff.mpr hentry] at hstrip
        cases hstrip
      rw [or_iff_right hno]
      exact ih
    | some hexPart =>
      have hmatches : Matches expected entry ↔ decodeHex hexPart = some expected := by
        rw [decodeHex_eq_some_iff]
        constructor
        · rintro ⟨hexPart', hentry, hhex⟩
          rw [stripPrefix_eq_some_iff.mpr hentry] at hstrip
          rwa [Option.some.inj hstrip] at hhex
        · exact fun hhex => ⟨hexPart, stripPrefix_eq_some_iff.mp hstrip, hhex⟩
      rw [hmatches]
      simp only
      cases hdecode : decodeHex hexPart with
      | none =>
        rw [or_iff_right (Option.some_ne_none _).symm]
        exact ih
      | some decoded =>
        simp only
        split_ifs with hlength heq
        · rw [or_iff_right fun h => hlength (congrArg List.length (Option.some.inj h))]
          exact ih
        · exact iff_of_true rfl (Or.inl (congrArg some heq))
        · rw [or_iff_right fun h => heq (Option.some.inj h)]
          exact ih

theorem trim_ne_empty_of_matches {signatureHeader : String} {entry : List Char}
    (hentry : entry ∈ splitOn (· = ',') signatureHeader.toList) (h : Matches expected entry) :
    trim signatureHeader ≠ "" := by
  obtain ⟨hexPart, htrim, -⟩ := h
  obtain ⟨pre, post, hpieces, -⟩ := exists_trim (String.ofList entry)
  have hv : 'v' ∈ entry := by
    rw [String.toList_ofList, htrim] at hpieces
    rw [hpieces]
    simp
  exact trim_ne_empty (mem_of_mem_splitOn hentry hv) (by decide)

end Entries

section Accepts
variable {hmac : List UInt8 → List UInt8 → List UInt8} {range : DateRange}

theorem timeDelta_eq_pure {ns : ℤ} (h : -maxDelta ≤ ns ∧ ns ≤ maxDelta) : timeDelta ns = pure ns := by
  unfold timeDelta
  rw [decide_eq_true h]
  rfl

/-- The time between two dates, and its absolute value, are durations. -/
theorem since_eq_pure (a b : DateTime range) : a.since b = pure (a.ns - b.ns) ∧
    timeDelta (a.ns - b.ns).natAbs = pure ((a.ns - b.ns).natAbs : ℤ) := by
  have hspan := range.span
  have ha := a.first_le
  have ha' := a.le_last
  have hb := b.first_le
  have hb' := b.le_last
  exact ⟨timeDelta_eq_pure (by omega), timeDelta_eq_pure (by omega)⟩

/-- **A delivery is accepted exactly if it is genuine**, and nothing overflows on the way. -/
theorem verify_eq_ok_iff (secret : List UInt8) (timestampHeader signatureHeader : String)
    (rawBody : List UInt8) (now : DateTime range) :
    (verifyWebhookSignature hmac range secret timestampHeader signatureHeader rawBody now).overflowed =
        false ∧
      ((verifyWebhookSignature hmac range secret timestampHeader signatureHeader rawBody now).value =
          .ok () ↔ Genuine hmac range secret timestampHeader signatureHeader rawBody now) := by
  unfold verifyWebhookSignature Genuine
  split_ifs with hblank
  · refine ⟨rfl, iff_of_false (fun h => by cases h) ?_⟩
    rintro ⟨ms, -, -, -, entry, hentry, hmatches⟩
    exact trim_ne_empty_of_matches hentry hmatches hblank
  cases hparse : parseI64 (trim timestampHeader) with
  | none => exact ⟨rfl, iff_of_false (fun h => by cases h) (by simp)⟩
  | some ms =>
    simp only [Option.some.injEq, exists_eq_left']
    unfold fromTimestampMillis
    split_ifs with hdate
    · obtain ⟨hsince, habs⟩ := since_eq_pure now ⟨ms * 1000000, hdate.1, hdate.2⟩
      simp only
      rw [hsince, pure_bind_checked, habs, pure_bind_checked]
      split_ifs with hdrift
      · refine ⟨rfl, iff_of_false (fun h => by cases h) ?_⟩
        rintro ⟨-, hnear, -⟩
        exact Int.not_lt.mpr hnear hdrift
      · have hnear : (now.ns - ms * 1000000).natAbs ≤ timestampDriftTolerance := Int.not_lt.mp hdrift
        refine ⟨rfl, ?_⟩
        rw [value_pure, checkEntries_eq_ok_iff, and_iff_right hdate, and_iff_right hnear]
        rfl
    · refine ⟨rfl, iff_of_false (fun h => by cases h) ?_⟩
      rintro ⟨hrange, -⟩
      exact hdate hrange

end Accepts

/-- The years 1 to 9999. -/
def years : DateRange :=
  ⟨-62135596800 * nsPerSec, 253402300799 * nsPerSec, by unfold maxDelta nsPerSec; omega⟩

/-- The entries before the good one are of another scheme, and no digits. -/
example : verifyWebhookSignature (fun _ _ => [0xab, 0x01]) years [] " +1779026400000 "
    "v2=00, v1=ab0, v1=Ab01" [] ⟨1779026700000000000, by decide, by decide⟩ = pure (.ok ()) := by
  decide +kernel

end StarStats.Server.WebhookSignatures
