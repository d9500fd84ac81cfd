import StarStats.Server.Auth
import StarStats.Server.RecoveryCodes
import StarStats.Server.TotpSetup

/-! # The codes of a login

The check of the second factor takes white space out of a code before it looks at it, and so does the check
of a recovery code. `verify_login` asks before either which of the two a code is, of the code as it is but
for its ends; so six digits with white space between them go to the recovery codes, where they are none.
The code of an enrolment opens the account exactly if there is no white space within it
(`acceptsBoth_iff`). -/

namespace StarStats.Server.LoginCodes

open StarStats.Lib.Text StarStats.Lib.Threads StarStats.Server.Auth StarStats.Server.Credentials
open StarStats.Server.RecoveryCodes (Batches CodeStore Row batch code generateCode hexEncode ids markUsed
  matching moves_turn normalise numCodes redeem rows_state unusedAt)
open StarStats.Server.TotpSetup (Checks Enabled decryptUserSecret secretOf)

/-! ### The second factor -/

/-- `STEP_SECS` -/
def stepSecs : ℕ := 30

/-- `DIGITS` -/
def digits : ℕ := 6

/-- `u64::MAX` -/
def maxSeconds : ℕ := 18446744073709551615

/-- A code without its white space. -/
def stripped (candidate : String) : String :=
  String.ofList (candidate.toList.filter fun c => !isWhitespace c)

/-- `s.as_bytes()` -/
def asBytes (s : String) : List UInt8 := s.toByteArray.data.toList

/-- Texts of different lengths differ; otherwise every byte is looked at. -/
def constantTimeEq (a b : List UInt8) : Bool :=
  if a.length ≠ b.length then false
  else (a.zip b).foldl (fun diff p => diff ||| (p.1 ^^^ p.2)) 0 = 0

/-- The seconds at whose codes a candidate is accepted: the slot before, this one, and the one after. -/
def slots (unixSeconds : ℕ) : List ℕ :=
  [unixSeconds - stepSecs, unixSeconds, min (unixSeconds + stepSecs) maxSeconds]

/-- Six digits, and the code of the time or of a neighbouring one. -/
def verifyAt (codeAt : String → ℕ → String) (secret candidate : String) (unixSeconds : ℕ) : Bool :=
  if len (stripped candidate) ≠ digits || !(stripped candidate).toList.all Char.isDigit then false
  else (slots unixSeconds).any fun t =>
    constantTimeEq (asBytes (codeAt secret t)) (asBytes (stripped candidate))

/-- The clock in seconds; before 1970 it is taken to be 0. -/
def verifyNow (codeAt : String → ℕ → String) (secret candidate : String) (now : ℤ) : Bool :=
  verifyAt codeAt secret candidate now.toNat

/-! ### The route -/

/-- What the route is given: the codes of a secret, the key that secrets are stored under, the check of a
password, the shape of an id, and the key that tokens are signed with. -/
structure Given where
  codeAt : String → ℕ → String
  encrypt : String → String → Option String
  decrypt : String → String → Option String
  verifyPassword : String → String → Bool
  isUuid : String → Bool
  signUser : String → String → Option String

/-- What the setup of the second factor is given. -/
def Given.checks (g : Given) : Checks := ⟨g.encrypt, g.decrypt, verifyNow g.codeAt, g.verifyPassword⟩

/-- The clock, which of the lookups fail, and the two statements of a redeem. -/
structure Env (ι : Type) where
  now : ℤ
  findFails : Bool
  secretFails : Bool
  select : RecoveryCodes.Env ι
  update : RecoveryCodes.Env ι

/-- The accounts, the `claimed_handle` of each, and the recovery codes. -/
structure Store (ι : Type) where
  accounts : Accounts
  claimedHandle : String → String
  codes : List (Row ι)

inductive Response where
  | error (status : ℕ) (code : String) (detail : Option String)
  | session (token userId claimedHandle : String) (totpRequired : Bool)
  deriving DecidableEq

/-- The second factor has let the user in. -/
def Response.accepted : Response → Bool
  | .session _ _ _ _ => true
  | .error _ _ _ => false

/-- Six digits; anything else is taken for a recovery code. -/
def looksLikeTotp (s : String) : Bool := len s = 6 && s.toList.all Char.isDigit

section Route
variable {ι : Type} [DecidableEq ι] (g : Given) (c : Batches ι) (env : Env ι) (st : Store ι)

/-- A redeem with nothing beside it: the rows afterwards, and whether the code was one; `none` where a
statement fails. -/
def redeemAlone (userId candidate : String) : List (Row ι) × Option Bool :=
  match redeem c env.select ⟨st.codes, fun _ => none⟩ userId candidate .asked with
  | (codes, .matched id) =>
    match redeem c env.update codes userId candidate (.matched id) with
    | (codes, .redeemed _) => (codes.rows, some true)
    | (codes, .rejected) => (codes.rows, some false)
    | (codes, _) => (codes.rows, none)
  | (codes, .rejected) => (codes.rows, some false)
  | (codes, _) => (codes.rows, none)

/-- Does the code match? -/
def matched (userId trimmed : String) : List (Row ι) × Except Response Bool :=
  if looksLikeTotp trimmed then
    (st.codes,
      if env.secretFails then .error (.error 500 "internal" none)
      else
        match decryptUserSecret g.checks st.accounts userId with
        | none => .error (.error 500 "internal" none)
        | some none => .error (.error 500 "decrypt_failed" none)
        | some (some secret) => .ok (g.checks.verifyNow secret trimmed env.now))
  else
    match redeemAlone c env st userId trimmed with
    | (codes, some b) => (codes, .ok b)
    | (codes, none) => (codes, .error (.error 500 "internal" none))

/-- A session for the user where the code matches. -/
def answer (userId : String) : List (Row ι) × Except Response Bool → List (Row ι) × Response
  | (codes, .error e) => (codes, e)
  | (codes, .ok false) => (codes, .error 401 "code_mismatch" none)
  | (codes, .ok true) =>
    match g.signUser userId (st.claimedHandle userId) with
    | none => (codes, .error 500 "sign_failed" none)
    | some token => (codes, .session token userId (st.claimedHandle userId) false)

/-- The recovery codes after the call, and what it answers. -/
def verifyLogin (auth : AuthenticatedUser) (submitted : String) : List (Row ι) × Response :=
  if auth.tokenType ≠ .loginInterim then
    (st.codes, .error 403 "interim_token_required"
      (some "call /v1/auth/login first to obtain an interim token"))
  else if !g.isUuid auth.sub then (st.codes, .error 500 "bad_subject" none)
  else if env.findFails then (st.codes, .error 500 "internal" none)
  else
    match st.accounts.findById auth.sub with
    | none => (st.codes, .error 401 "unauthorized" none)
    | some user =>
      if user.totpEnabledAt.isNone then (st.codes, .error 401 "totp_no_longer_required" none)
      else answer g st user.id (matched g c env st user.id (trim submitted))

/-! ### What a login is to accept -/

/-- The rows are of codes that were issued, each with an id of its own. -/
structure Issued (rows : List (Row ι)) : Prop where
  nodup : (ids rows).Nodup
  hashes : ∀ row ∈ rows, row.codeHash = c.hash row.id.1 row.id.2

/-- The account has the second factor on with this secret, the token is an interim one of it, and nothing
fails. -/
structure Ready (auth : AuthenticatedUser) (secret : String) : Prop where
  interim : auth.tokenType = .loginInterim
  subject : g.isUuid auth.sub = true
  enabled : Enabled st.accounts auth.sub
  secret : secretOf g.checks st.accounts auth.sub = some secret
  found : env.findFails = false
  read : env.secretFails = false
  selected : env.select.fault = false
  updated : env.update.fault = false
  signs : ∀ userId handle, (g.signUser userId handle).isSome = true
  issued : Issued c st.codes

/-- Capital letters of an ASCII text. -/
def AsciiUpper (toUppercase : String → String) : Prop :=
  ∀ s : String, (∀ ch ∈ s.toList, ch.val < 128) → toUppercase s = s.map Char.toUpper

/-- The text is the code in some casing, with any white space. -/
def Spells (s t : String) : Prop := (stripped s).map Char.toUpper = t

/-- **A login accepts what it should**: what a confirm would accept as the code of the second factor, and
every spelling of an unused recovery code. -/
structure AcceptsBoth (auth : AuthenticatedUser) (secret submitted : String) : Prop where
  totp : verifyAt g.codeAt secret submitted env.now.toNat = true →
    (verifyLogin g c env st auth submitted).2.accepted = true
  recovery : ∀ row ∈ st.codes, row.userId = auth.sub → row.usedAt = none →
    Spells submitted (code c row.id) → (verifyLogin g c env st auth submitted).2.accepted = true

end Route

/-! ### Characters -/

theorem constantTimeEq_eq_true {a b : List UInt8} : constantTimeEq a b = true ↔ a = b := by
  have hfold : ∀ (ps : List (UInt8 × UInt8)) (d : UInt8),
      ps.foldl (fun diff p => diff ||| (p.1 ^^^ p.2)) d = 0 ↔ d = 0 ∧ ∀ p ∈ ps, p.1 = p.2 := by
    intro ps
    induction ps with
    | nil => simp
    | cons p ps ih =>
      intro d
      rw [List.foldl_cons, ih, UInt8.or_eq_zero_iff, UInt8.xor_eq_zero_iff, List.forall_mem_cons, and_assoc]
  unfold constantTimeEq
  split_ifs with hlen
  · refine iff_of_false (by simp) fun h => hlen (congrArg List.length h)
  · rw [decide_eq_true_eq, hfold]
    have hlen : a.length = b.length := not_not.mp hlen
    refine ⟨fun h => ?_, fun h => ⟨rfl, ?_⟩⟩
    · refine List.ext_getElem hlen fun i hi hj => ?_
      have hmem : (a[i], b[i]) ∈ a.zip b := by
        rw [← List.getElem_zip (h := by rw [List.length_zip]; omega)]
        exact List.getElem_mem _
      exact h.2 _ hmem
    · subst h
      intro p hp
      obtain ⟨i, hi, rfl⟩ := List.getElem_of_mem hp
      rw [List.getElem_zip]

theorem asBytes_inj {s t : String} : asBytes s = asBytes t ↔ s = t := by
  unfold asBytes
  rw [Array.toList_inj, ← String.toByteArray_inj, ByteArray.ext_iff]

/-- What the second factor accepts: the six digits of one of the three slots, with any white space. -/
theorem verifyAt_eq_true {codeAt : String → ℕ → String} {secret candidate : String} {t : ℕ} :
    verifyAt codeAt secret candidate t = true ↔ looksLikeTotp (stripped candidate) = true ∧
      ∃ u ∈ slots t, codeAt secret u = stripped candidate := by
  have hlooks : looksLikeTotp (stripped candidate) =
      !(len (stripped candidate) ≠ digits || !(stripped candidate).toList.all Char.isDigit) := by
    unfold looksLikeTotp digits
    simp
  have hslot : ∀ u, constantTimeEq (asBytes (codeAt secret u)) (asBytes (stripped candidate)) = true ↔
      codeAt secret u = stripped candidate := by
    intro u
    rw [constantTimeEq_eq_true, asBytes_inj]
  unfold verifyAt
  split_ifs with h
  · exact iff_of_false (by simp) fun hboth => by rw [hlooks, h] at hboth; simp at hboth
  · rw [hlooks, Bool.eq_false_iff.mpr h, List.any_eq_true]
    simp only [hslot, Bool.not_false, true_and]

theorem stripped_trim (s : String) : stripped (trim s) = stripped s := by
  unfold stripped
  rw [filter_trim]

theorem verifyNow_checks (g : Given) (secret candidate : String) (now : ℤ) :
    g.checks.verifyNow secret candidate now = verifyAt g.codeAt secret candidate now.toNat := by
  unfold Given.checks verifyNow
  rfl

/-- A confirm that has found the secret goes on exactly if the code is one of the secret. -/
theorem confirm_checked {g : Given} {env : TotpSetup.Env} {st : TotpSetup.Store}
    {userId submitted secret : String} (hfault : env.fault = false)
    (hsecret : decryptUserSecret g.checks st.accounts userId = some (some secret)) :
    (TotpSetup.confirm g.checks env st userId submitted .checked).2 = .verified secret ↔
      verifyAt g.codeAt secret submitted env.now.toNat = true := by
  have hnow := verifyNow_checks g secret submitted env.now
  unfold TotpSetup.confirm
  simp only [hfault, hsecret, hnow, Bool.false_eq_true, if_false]
  cases verifyAt g.codeAt secret submitted env.now.toNat with
  | false => exact iff_of_false (by simp) (by simp)
  | true => exact iff_of_true rfl rfl

theorem verifyAt_trim (codeAt : String → ℕ → String) (secret candidate : String) (t : ℕ) :
    verifyAt codeAt secret (trim candidate) t = verifyAt codeAt secret candidate t := by
  rw [Bool.eq_iff_iff, verifyAt_eq_true, verifyAt_eq_true, stripped_trim]

theorem mem_stripped {s : String} {ch : Char} :
    ch ∈ (stripped s).toList ↔ ch ∈ s.toList ∧ isWhitespace ch = false := by
  unfold stripped
  rw [String.toList_ofList, List.mem_filter, Bool.not_eq_true']

theorem stripped_of_none {s : String} (h : ∀ ch ∈ s.toList, isWhitespace ch = false) :
    stripped s = s := by
  unfold stripped
  rw [List.filter_eq_self.mpr fun ch hch => by rw [h ch hch]; rfl, String.ofList_toList]

theorem isWhitespace_of_isDigit {ch : Char} (h : ch.isDigit = true) : isWhitespace ch = false := by
  have hrange : 48 ≤ ch.toNat ∧ ch.toNat ≤ 57 := by
    unfold Char.isDigit at h
    simp only [Bool.and_eq_true, decide_eq_true_eq, ge_iff_le, UInt32.le_iff_toNat_le] at h
    exact h
  unfold isWhitespace
  simp only [Bool.or_eq_false_iff, Bool.and_eq_false_iff, decide_eq_false_iff_not]
  omega

theorem digits_of_looksLikeTotp {s : String} (h : looksLikeTotp s = true) :
    ∀ ch ∈ s.toList, ch.isDigit = true := by
  unfold looksLikeTotp at h
  exact List.all_eq_true.mp ((Bool.and_eq_true _ _).mp h).2

theorem toUpper_of_isDigit {ch : Char} (h : ch.isDigit = true) : ch.toUpper = ch := by
  unfold Char.isDigit at h
  unfold Char.toUpper
  grind

theorem ascii_toUpper {ch : Char} : ch.toUpper.val < 128 ↔ ch.val < 128 := by
  unfold Char.toUpper
  grind

theorem ascii_of_isDigit {ch : Char} (h : ch.isDigit = true) : ch.val < 128 := by
  unfold Char.isDigit at h
  grind

theorem ascii_digitChar : ∀ n < 16, (Nat.digitChar n).val < 128 := by decide

/-! ### Recovery codes -/

theorem mem_generateCode {bytes : Fin 8 → Fin 256} {ch : Char} (h : ch ∈ (generateCode bytes).toList) :
    ch = '-' ∨ ∃ n < 16, ch = (Nat.digitChar n).toUpper := by
  unfold generateCode at h
  simp only [String.toList_ofList, List.mem_append, List.mem_cons] at h
  have hhex : ch ∈ (hexEncode ((List.ofFn bytes).map (·.val))).map Char.toUpper →
      ∃ n < 16, ch = (Nat.digitChar n).toUpper := by
    intro hmem
    obtain ⟨d, hd, rfl⟩ := List.mem_map.mp hmem
    obtain ⟨b, hb, hd⟩ := List.mem_flatMap.mp hd
    obtain ⟨byte, -, rfl⟩ := List.mem_map.mp hb
    have hbyte := byte.isLt
    rcases List.mem_cons.mp hd with rfl | hd
    · exact ⟨_, by omega, rfl⟩
    · rw [List.mem_singleton.mp hd]
      exact ⟨_, by omega, rfl⟩
  rcases h with ((h | h | h) | h | h) | h | h
  · exact Or.inr (hhex (List.mem_of_mem_take h))
  · exact Or.inl h
  · exact Or.inr (hhex (List.mem_of_mem_drop (List.mem_of_mem_take h)))
  · exact Or.inl h
  · exact Or.inr (hhex (List.mem_of_mem_drop (List.mem_of_mem_take h)))
  · exact Or.inl h
  · exact Or.inr (hhex (List.mem_of_mem_drop (List.mem_of_mem_take h)))

theorem ascii_generateCode {bytes : Fin 8 → Fin 256} {ch : Char} (h : ch ∈ (generateCode bytes).toList) :
    ch.val < 128 := by
  rcases mem_generateCode h with rfl | ⟨n, hn, rfl⟩
  · decide
  · exact ascii_toUpper.mpr (ascii_digitChar n hn)

theorem dash_mem_generateCode (bytes : Fin 8 → Fin 256) : '-' ∈ (generateCode bytes).toList := by
  unfold generateCode
  simp only [String.toList_ofList, List.mem_append, List.mem_cons]
  simp

theorem digits_ne_generateCode {s : String} (h : ∀ ch ∈ s.toList, ch.isDigit = true)
    (bytes : Fin 8 → Fin 256) : s.map Char.toUpper ≠ generateCode bytes := by
  intro hcode
  have hdash := dash_mem_generateCode bytes
  rw [← hcode, String.toList_map] at hdash
  obtain ⟨ch, hch, hup⟩ := List.mem_map.mp hdash
  rw [toUpper_of_isDigit (h ch hch)] at hup
  have hdigit := h ch hch
  rw [hup] at hdigit
  exact absurd hdigit (by decide)

/-- Every spelling of a code is normalised to it. -/
theorem normalise_of_spells {toUppercase : String → String} (hupper : AsciiUpper toUppercase) {s : String}
    {bytes : Fin 8 → Fin 256} (h : Spells s (generateCode bytes)) :
    normalise toUppercase s = generateCode bytes := by
  have hascii : ∀ ch ∈ (stripped s).toList, ch.val < 128 := by
    intro ch hch
    have hmem : ch.toUpper ∈ (generateCode bytes).toList := by
      rw [← h, String.toList_map]
      exact List.mem_map_of_mem hch
    exact ascii_toUpper.mp (ascii_generateCode hmem)
  exact (hupper (stripped s) hascii).trans h

theorem normalise_digits {toUppercase : String → String} (hupper : AsciiUpper toUppercase) {s : String}
    (h : ∀ ch ∈ (stripped s).toList, ch.isDigit = true) (bytes : Fin 8 → Fin 256) :
    normalise toUppercase s ≠ generateCode bytes := by
  have hascii : ∀ ch ∈ (stripped s).toList, ch.val < 128 := fun ch hch => ascii_of_isDigit (h ch hch)
  intro hcode
  exact digits_ne_generateCode h bytes ((hupper (stripped s) hascii).symm.trans hcode)

theorem normalise_trim (toUppercase : String → String) (s : String) :
    normalise toUppercase (trim s) = normalise toUppercase s :=
  congrArg toUppercase (stripped_trim s)

section Redeem
variable {ι : Type} {g : Given} {c : Batches ι} {env : Env ι} {st : Store ι}
  {auth : AuthenticatedUser} {secret submitted userId candidate : String} {rows : List (Row ι)}

theorem accepted_answer (h : Ready g c env st auth secret) (m : List (Row ι) × Except Response Bool)
    (hm : ∀ e, m.2 = .error e → e.accepted = false) :
    (answer g st userId m).2.accepted = true ↔ m.2 = .ok true := by
  obtain ⟨codes, e | _ | _⟩ := m
  · exact iff_of_false (by simp [answer, hm e rfl]) (by simp)
  · exact iff_of_false (by simp [answer, Response.accepted]) (by simp)
  · obtain ⟨token, htoken⟩ := Option.isSome_iff_exists.mp (h.signs userId (st.claimedHandle userId))
    refine iff_of_true ?_ rfl
    unfold answer
    rw [htoken]
    rfl

variable [DecidableEq ι]

/-- An unused row is the only one of its id. -/
theorem countP_unusedAt (hrows : Issued c rows) {row : Row ι} (hmem : row ∈ rows)
    (hunused : row.usedAt = none) : rows.countP (unusedAt row.id) = 1 := by
  have hone : (ids rows).count row.id ≤ 1 := List.nodup_iff_count_le_one.mp hrows.nodup row.id
  have hle : rows.countP (unusedAt row.id) ≤ (ids rows).count row.id := by
    unfold ids
    rw [List.count_eq_countP, List.countP_map]
    refine List.countP_mono_left fun r _ hr => ?_
    simp only [unusedAt, Bool.and_eq_true, decide_eq_true_eq] at hr
    simpa using hr.1
  have hpos : 0 < rows.countP (unusedAt row.id) := by
    refine List.countP_pos_iff.mpr ⟨row, hmem, ?_⟩
    simp [unusedAt, hunused]
  omega

/-- A redeem accepts what is normalised to an unused code of the user. -/
theorem redeemAlone_eq_true (hrows : Issued c st.codes) (hselect : env.select.fault = false)
    (hupdate : env.update.fault = false) :
    (redeemAlone c env st userId candidate).2 = some true ↔
      ∃ row ∈ st.codes, row.userId = userId ∧ row.usedAt = none ∧
        normalise c.toUppercase candidate = code c row.id := by
  have hverifies : ∀ row ∈ st.codes, c.verifyPassword (normalise c.toUppercase candidate) row.codeHash =
      true ↔ normalise c.toUppercase candidate = code c row.id := by
    intro row hrow
    rw [hrows.hashes row hrow]
    exact c.verifies _ _ _
  have hof : ∀ {row : Row ι}, row ∈ (env.select.order st.codes).filter
        (fun r => r.userId = userId && r.usedAt.isNone) →
      row ∈ st.codes ∧ row.userId = userId ∧ row.usedAt = none := by
    intro row hrow
    simp only [List.mem_filter, Bool.and_eq_true, decide_eq_true_eq, Option.isNone_iff_eq_none] at hrow
    exact ⟨(env.select.perm _).mem_iff.mp hrow.1, hrow.2⟩
  unfold redeemAlone redeem
  simp only [hselect, Bool.false_eq_true, if_false]
  cases hmatch : matching c (env.select.order st.codes) userId (normalise c.toUppercase candidate) with
  | none =>
    refine iff_of_false (by simp) ?_
    rintro ⟨row, hrow, huser, hunused, hcode⟩
    have hnone := List.find?_eq_none.mp hmatch row (List.mem_filter.mpr
      ⟨(env.select.perm _).mem_iff.mpr hrow, by simp [huser, hunused]⟩)
    exact hnone ((hverifies row hrow).mpr hcode)
  | some row =>
    obtain ⟨hrow, huser, hunused⟩ := hof (List.mem_of_find?_eq_some hmatch)
    have hfound : c.verifyPassword (normalise c.toUppercase candidate) row.codeHash = true := by
      unfold matching at hmatch
      exact @List.find?_some _ (fun r : Row ι => c.verifyPassword _ r.codeHash) _ _ hmatch
    have hcode := (hverifies row hrow).mp hfound
    refine iff_of_true ?_ ⟨row, hrow, huser, hunused, hcode⟩
    simp only [hupdate, countP_unusedAt hrows hrow hunused, Option.isSome_none, Bool.false_eq_true,
      if_false, if_true]

theorem matched_of_looksLikeTotp (h : Ready g c env st auth secret)
    (hlooks : looksLikeTotp (trim submitted)) :
    (matched g c env st auth.sub (trim submitted)).2 =
      .ok (verifyAt g.codeAt secret submitted env.now.toNat) := by
  have hsecret : decryptUserSecret g.checks st.accounts auth.sub = some (some secret) :=
    Option.join_eq_some_iff.mp h.secret
  unfold matched
  rw [if_pos hlooks, h.read, hsecret]
  simp only [Bool.false_eq_true, if_false, verifyNow_checks, verifyAt_trim]

theorem matched_of_not_looksLikeTotp (h : Ready g c env st auth secret)
    (hlooks : ¬ looksLikeTotp (trim submitted)) :
    (matched g c env st auth.sub (trim submitted)).2 = .ok true ↔
      ∃ row ∈ st.codes, row.userId = auth.sub ∧ row.usedAt = none ∧
        normalise c.toUppercase submitted = code c row.id := by
  have hcodes : (redeemAlone c env st auth.sub (trim submitted)).2 = some true ↔
      ∃ row ∈ st.codes, row.userId = auth.sub ∧ row.usedAt = none ∧
        normalise c.toUppercase (trim submitted) = code c row.id :=
    redeemAlone_eq_true h.issued h.selected h.updated
  rw [normalise_trim] at hcodes
  unfold matched
  rw [if_neg hlooks, ← hcodes]
  rcases redeemAlone c env st auth.sub (trim submitted) with ⟨rows, _ | b⟩
  · simp
  · simp

theorem error_matched {e : Response} {trimmed : String}
    (h : (matched g c env st userId trimmed).2 = .error e) : e.accepted = false := by
  unfold matched at h
  split_ifs at h
  · cases h
    rfl
  · split at h <;> cases h <;> rfl
  · split at h <;> cases h
    rfl

/-- Where nothing fails, a login accepts the codes of the second factor among the texts of six digits, and
the recovery codes among the others. -/
theorem accepted_verifyLogin (h : Ready g c env st auth secret) :
    (verifyLogin g c env st auth submitted).2.accepted = true ↔
      (matched g c env st auth.sub (trim submitted)).2 = .ok true := by
  obtain ⟨a, ha, hon⟩ := h.enabled
  have hid : a.id = auth.sub := (Accounts.findById_eq_some.mp ha).2
  have hasked : verifyLogin g c env st auth submitted =
      answer g st auth.sub (matched g c env st auth.sub (trim submitted)) := by
    unfold verifyLogin
    rw [if_neg (not_not.mpr h.interim), h.subject, h.found, ha]
    simp only [Bool.not_true, Bool.false_eq_true, if_false, Option.isNone_iff_eq_none, hon, hid]
  rw [hasked]
  exact accepted_answer h _ fun e he => error_matched he

/-! ### Both kinds of code -/

/-- Six digits with white space between them are no code of the second factor for the route. -/
theorem not_looksLikeTotp_of_whitespace {s : String} {ch : Char} (hch : ch ∈ (trim s).toList)
    (hw : isWhitespace ch = true) : ¬ looksLikeTotp (trim s) = true := by
  intro hlooks
  have hnone := isWhitespace_of_isDigit (digits_of_looksLikeTotp hlooks ch hch)
  rw [hw] at hnone
  cases hnone

/-- **A login accepts the code of an enrolment and every spelling of a recovery code exactly if the code of
the enrolment has no white space within it.** -/
theorem acceptsBoth_iff (h : Ready g c env st auth secret) (hupper : AsciiUpper c.toUppercase) :
    AcceptsBoth g c env st auth secret submitted ↔
      (verifyAt g.codeAt secret submitted env.now.toNat = true →
        ∀ ch ∈ (trim submitted).toList, isWhitespace ch = false) := by
  constructor
  · intro hboth hverify ch hch
    by_contra hw
    have hlooks := not_looksLikeTotp_of_whitespace hch (Bool.of_not_eq_false hw)
    have haccepted := accepted_verifyLogin h |>.mp (hboth.totp hverify)
    obtain ⟨row, -, -, -, hcode⟩ := (matched_of_not_looksLikeTotp h hlooks).mp haccepted
    have hdigits := digits_of_looksLikeTotp (verifyAt_eq_true.mp hverify).1
    exact normalise_digits hupper hdigits _ hcode
  · intro hnone
    refine ⟨fun hverify => (accepted_verifyLogin h).mpr ?_, fun row hrow huser hunused hspells =>
      (accepted_verifyLogin h).mpr ?_⟩
    · have hsame : trim submitted = stripped submitted := by
        rw [← stripped_trim, stripped_of_none (hnone hverify)]
      have hlooks : looksLikeTotp (trim submitted) = true := by
        rw [hsame]
        exact (verifyAt_eq_true.mp hverify).1
      rw [matched_of_looksLikeTotp h hlooks, hverify]
    · have hlooks : ¬ looksLikeTotp (trim submitted) = true := by
        intro hlooks
        have hdigits : ∀ ch ∈ (stripped submitted).toList, ch.isDigit = true := by
          intro ch hch
          rw [← stripped_trim] at hch
          exact digits_of_looksLikeTotp hlooks ch (mem_stripped.mp hch).1
        exact digits_ne_generateCode hdigits _ hspells
      exact (matched_of_not_looksLikeTotp h hlooks).mpr
        ⟨row, hrow, huser, hunused, normalise_of_spells hupper hspells⟩

end Redeem

/-! ### The codes of a run -/

section Runs
variable {ι : Type} {c : Batches ι} {requests : ι → RecoveryCodes.Request}
  {as : List (ι × RecoveryCodes.Env ι)}

theorem nodup_ids_batch (i : ι) (userId : String) : (ids (batch c i userId)).Nodup := by
  unfold ids batch
  rw [List.map_ofFn]
  exact List.nodup_ofFn.mpr fun k k' hk => congrArg Prod.snd hk

variable [DecidableEq ι]

theorem ids_markUsed (id : ι × Fin numCodes) (now : ℤ) (rows : List (Row ι)) :
    ids (markUsed id now rows) = ids rows := by
  unfold ids markUsed
  rw [List.map_map]
  refine List.map_congr_left fun row _ => ?_
  rw [Function.comp_apply]
  split_ifs <;> rfl

/-- In every state of a run, the rows are of codes that were issued, each with an id of its own. -/
theorem issued_state (n : ℕ) : Issued c (RecoveryCodes.state c requests as n).store.rows := by
  refine ⟨?_, fun row hrow => ((rows_state as n).1 row hrow).1⟩
  induction n with
  | zero => exact List.nodup_nil
  | succ n ih =>
    have hplaces := (@rows_state ι _ c requests as n).2
    rcases after_succ_cases (RecoveryCodes.step c requests) RecoveryCodes.initial as n with
      hsame | ⟨i, e, -, hturn⟩
    · rw [RecoveryCodes.state, hsame]
      exact ih
    · have hmoves := @moves_turn ι _ c requests (RecoveryCodes.state c requests as n) i e
      have hafter : RecoveryCodes.state c requests as (n + 1) =
          turn (RecoveryCodes.step c requests) (RecoveryCodes.state c requests as n) (i, e) := hturn
      rw [← hafter] at hmoves
      generalize (RecoveryCodes.state c requests as (n + 1)).store.rows = rows' at hmoves ⊢
      generalize (RecoveryCodes.state c requests as (n + 1)).place i = place' at hmoves
      have hwithout : ∀ gone, (ids (RecoveryCodes.without gone
          (RecoveryCodes.state c requests as n).store.rows)).Nodup :=
        fun gone => ih.sublist (List.filter_sublist.map _)
      have hplace := (hplaces i).1
      generalize (RecoveryCodes.state c requests as n).place i = place at hmoves hplace
      cases hmoves with
      | redeem id | lose id =>
        rw [ids_markUsed]
        exact ih
      | clear gone => exact hwithout gone
      | commit userId gone k hrequest =>
        unfold ids
        rw [List.map_append]
        refine List.nodup_append.mpr ⟨hwithout gone, nodup_ids_batch i userId, ?_⟩
        intro id hold id' hnew hid
        obtain ⟨row, hrow, rfl⟩ := List.mem_map.mp hold
        obtain ⟨row', hrow', rfl⟩ := List.mem_map.mp hnew
        obtain ⟨k', rfl⟩ := List.mem_ofFn.mp hrow'
        have hover := hplace row (List.mem_filter.mp hrow).1 (congrArg Prod.fst hid)
        cases hover
      | _ => exact ih

end Runs

/-! ### White space within a code -/

/-- The second factor is on. -/
def paired : Account :=
  ⟨RecoveryCodes.alice, "alice@a.org", none, "", 0, none, none, none, none, none, some "S", some "N",
    some 0, some 0⟩

/-- The code of every secret is the same, and secrets are stored as they are. -/
def given : Given :=
  ⟨fun _ _ => "123456", fun s _ => some s, fun s _ => some s, fun _ _ => true, fun _ => true,
    fun userId _ => some userId⟩

def env : Env (Fin 3) := ⟨0, false, false, RecoveryCodes.plain, RecoveryCodes.plain⟩

/-- One account, with the codes of its first batch. -/
def oneAccount : Store (Fin 3) :=
  ⟨StarStats.Lib.Tables.Table.empty.insert paired, fun _ => "Alice",
    batch RecoveryCodes.batches 0 RecoveryCodes.alice⟩

def interim : AuthenticatedUser := ⟨RecoveryCodes.alice, "Alice", .loginInterim, none⟩

theorem asciiUpper_batches : AsciiUpper RecoveryCodes.batches.toUppercase := fun _ _ => rfl

theorem ready_oneAccount : Ready given RecoveryCodes.batches env oneAccount interim "S" where
  interim := rfl
  subject := rfl
  enabled := ⟨paired, by decide +kernel, nofun⟩
  secret := by decide +kernel
  found := rfl
  read := rfl
  selected := rfl
  updated := rfl
  signs _ _ := rfl
  issued := by
    refine ⟨nodup_ids_batch 0 RecoveryCodes.alice, fun row hrow => ?_⟩
    obtain ⟨k, rfl⟩ := List.mem_ofFn.mp hrow
    rfl

theorem acceptsBoth_surrounded :
    AcceptsBoth given RecoveryCodes.batches env oneAccount interim "S" " 123456 " := by
  have hnone : (trim " 123456 ").toList.all (fun ch => !isWhitespace ch) = true := by decide +kernel
  refine (acceptsBoth_iff ready_oneAccount asciiUpper_batches).mpr fun _ ch hch => ?_
  simpa using List.all_eq_true.mp hnone ch hch

/-- The confirm accepts the code, and the login does not. -/
theorem not_acceptsBoth_spaced :
    ¬ AcceptsBoth given RecoveryCodes.batches env oneAccount interim "S" "123 456" := by
  intro hboth
  have hverify : verifyAt given.codeAt "S" "123 456" 0 = true := by decide +kernel
  have hrefused : (verifyLogin given RecoveryCodes.batches env oneAccount interim "123 456").2 =
      .error 401 "code_mismatch" none := by decide +kernel
  have haccepted := hboth.totp hverify
  rw [hrefused] at haccepted
  cases haccepted

end StarStats.Server.LoginCodes
