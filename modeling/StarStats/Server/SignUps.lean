import StarStats.Lib.Runs
import StarStats.Lib.Text
import StarStats.Server.Accounts
import StarStats.Server.Credentials
import StarStats.Server.NewSubmissions

/-! # Identities that sign up

A sign-up is checked on trimmed copies of the address and of the handle, and stored as it is. So the stored
identities are canonical, in every state of a run of sign-ups, exactly if each sign-up that is stored was
trimmed already (`alwaysCanonical_iff`). -/

namespace StarStats.Server.SignUps

open StarStats.Lib StarStats.Lib.Text
open StarStats.Server.Accounts (validateHandle)
open StarStats.Server.NewSubmissions (isText)

/-! ### Validation -/

/-- The body of a sign-up. -/
structure SignupRequest where
  email : String
  password : String
  claimedHandle : String

inductive Response where
  | error (status : ℕ) (code : String) (detail : Option String)
  | session (token userId claimedHandle : String) (totpRequired : Bool)
  deriving DecidableEq

/-- `MIN_PASSWORD_LEN` -/
def minPasswordLen : ℕ := 12

/-- An at sign with something before it, and after it a dot that is not the first letter. -/
def looksLikeEmail (s : String) : Bool :=
  match splitOnce (trim s) '@' with
  | none => false
  | some (localPart, domain) => !localPart.isEmpty && domain.contains '.' && domain.head? ≠ some '.'

/-- The error of a request that is refused. -/
def validateSignup (req : SignupRequest) : Option Response :=
  if !looksLikeEmail req.email then
    some (.error 400 "invalid_email" (some "email must contain @ and a domain"))
  else if len req.password < minPasswordLen then
    some (.error 400 "password_too_short" (some ("minimum " ++ toString minPasswordLen ++ " characters")))
  else if trim req.claimedHandle = "" then
    some (.error 400 "missing_handle" (some "claimed_handle is required"))
  else if !validateHandle (trim req.claimedHandle) then
    some (.error 400 "invalid_handle"
      (some "handle must be 1-64 ASCII letters, digits, '_' or '-'"))
  else none

/-! ### The table -/

/-- A row of `users`. -/
structure User where
  id : String
  email : String
  passwordHash : String
  claimedHandle : String
  createdAt : ℤ
  deriving DecidableEq

/-- Why no row is made. -/
inductive UserError where
  | emailTaken
  | handleTaken
  | database

/-- The database's `lower`: what is small stays as it is, and white space at the ends of a text is neither
lost nor gained. -/
structure Lower where
  lower : String → String
  lower_lower : ∀ s, lower (lower s) = lower s
  trim_lower : ∀ s, trim (lower s) = lower s ↔ trim s = s

/-- What the route is given besides: how passwords are hashed, and the key that tokens are signed with. -/
structure Given extends Lower where
  hashPassword : String → Option String
  signUser : String → String → Option String

/-- The id that is drawn, the clock, and whether the database fails. -/
structure Env where
  id : String
  now : ℤ
  fails : Bool

section Store
variable (l : Lower) (env : Env) (users : List User)

/-- `INSERT INTO users … VALUES ($1, lower($2), $3, $4)` -/
def newUser (email passwordHash claimedHandle : String) : User :=
  ⟨env.id, l.lower email, passwordHash, claimedHandle, env.now⟩

/-- The row goes in unless one of the unique indexes stands in the way, which are looked at in the order in
which they were made. -/
def create (email passwordHash claimedHandle : String) : Except UserError User :=
  let user := newUser l env email passwordHash claimedHandle
  if env.fails || !([email, passwordHash, claimedHandle].all isText) then .error .database
  else if users.any (·.id = user.id) then .error .database
  else if users.any (fun u => l.lower u.email = l.lower user.email) then .error .emailTaken
  else if users.any (fun u => l.lower u.claimedHandle = l.lower user.claimedHandle) then
    .error .handleTaken
  else .ok user

/-- Whatever the case of the address. -/
def findByEmail (email : String) : Option User :=
  users.find? fun u => l.lower u.email = l.lower email

/-- Whatever the case of the handle. -/
def findByHandle (handle : String) : Option User :=
  users.find? fun u => l.lower u.claimedHandle = l.lower handle

end Store

section Route
variable (g : Given) (env : Env) (users : List User)

/-- The session a new account starts with. -/
def issueToken (userId claimedHandle : String) : Response :=
  match g.signUser userId claimedHandle with
  | none => .error 500 "sign_failed" none
  | some token => .session token userId claimedHandle false

/-- The users afterwards, and the answer. -/
def signup (req : SignupRequest) : List User × Response :=
  match validateSignup req with
  | some resp => (users, resp)
  | none =>
    match g.hashPassword req.password with
    | none => (users, .error 500 "hash_failed" none)
    | some phc =>
      match create g.toLower env users req.email phc req.claimedHandle with
      | .error .emailTaken =>
        (users, .error 409 "email_taken" (some "an account with that email already exists"))
      | .error .handleTaken =>
        (users, .error 409 "handle_taken" (some "that RSI handle is already claimed"))
      | .error .database => (users, .error 500 "internal" none)
      | .ok user => (users ++ [user], issueToken g user.id user.claimedHandle)

end Route

/-! ### Canonical identities -/

section Machine
variable (g : Given) (as : List (Env × SignupRequest))

def step (users : List User) (a : Env × SignupRequest) : List User := (signup g a.1 users a.2).1

/-- The users after the first sign-ups; there are none at first. -/
def state (n : ℕ) : List User := (as.take n).foldl (step g) []

/-- The sign-up is stored: it is valid, nothing fails, and nobody has its id, its address or its handle. -/
structure Goes (users : List User) (a : Env × SignupRequest) : Prop where
  valid : validateSignup a.2 = none
  hashed : ∃ phc, g.hashPassword a.2.password = some phc ∧ isText phc = true
  connected : a.1.fails = false
  texts : isText a.2.email = true ∧ isText a.2.claimedHandle = true
  freshId : ∀ u ∈ users, u.id ≠ a.1.id
  freshEmail : ∀ u ∈ users, g.lower u.email ≠ g.lower a.2.email
  freshHandle : ∀ u ∈ users, g.lower u.claimedHandle ≠ g.lower a.2.claimedHandle

/-- The stored identities are valid and trimmed, and no two of them are equal after trimming and without
regard to case. -/
structure Canonical (users : List User) : Prop where
  handles : ∀ u ∈ users, validateHandle u.claimedHandle = true
  emails : ∀ u ∈ users, trim u.email = u.email
  distinctHandles : users.Pairwise fun u v =>
    g.lower (trim u.claimedHandle) ≠ g.lower (trim v.claimedHandle)
  distinctEmails : users.Pairwise fun u v => g.lower (trim u.email) ≠ g.lower (trim v.email)

/-- **Every state is so, and every user is found from the sign-up on by the trimmed handle and the trimmed
address.** -/
structure AlwaysCanonical : Prop where
  canonical : ∀ n, Canonical g (state g as n)
  found : ∀ n a, as[n]? = some a → Goes g (state g as n) a → ∀ m, n < m → ∃ u, u.id = a.1.id ∧
    findByHandle g.toLower (state g as m) (trim a.2.claimedHandle) = some u ∧
    findByEmail g.toLower (state g as m) (trim a.2.email) = some u

/-- The sign-up gives its address and its handle without white space around them. -/
def Trimmed (req : SignupRequest) : Prop :=
  trim req.email = req.email ∧ trim req.claimedHandle = req.claimedHandle

end Machine

section Steps
variable {g : Given} {users : List User} {a : Env × SignupRequest}

@[simp] theorem email_newUser (l : Lower) (env : Env) (email phc handle : String) :
    (newUser l env email phc handle).email = l.lower email := rfl

@[simp] theorem claimedHandle_newUser (l : Lower) (env : Env) (email phc handle : String) :
    (newUser l env email phc handle).claimedHandle = handle := rfl

/-- The row goes in exactly if nothing fails and nobody has the id, the address or the handle. -/
theorem create_eq_ok {l : Lower} {env : Env} {email phc handle : String} {user : User} :
    create l env users email phc handle = .ok user ↔ user = newUser l env email phc handle ∧
      env.fails = false ∧ (isText email = true ∧ isText phc = true ∧ isText handle = true) ∧
      (∀ u ∈ users, u.id ≠ env.id) ∧ (∀ u ∈ users, l.lower u.email ≠ l.lower email) ∧
      ∀ u ∈ users, l.lower u.claimedHandle ≠ l.lower handle := by
  have hfault : (env.fails || !([email, phc, handle].all isText)) = false ↔
      env.fails = false ∧ isText email = true ∧ isText phc = true ∧ isText handle = true := by
    simp
  have hid : users.any (·.id = env.id) = false ↔ ∀ u ∈ users, u.id ≠ env.id := by simp
  have hemail : users.any (fun u => l.lower u.email = l.lower (l.lower email)) = false ↔
      ∀ u ∈ users, l.lower u.email ≠ l.lower email := by
    rw [l.lower_lower]
    simp
  have hhandle : users.any (fun u => l.lower u.claimedHandle = l.lower handle) = false ↔
      ∀ u ∈ users, l.lower u.claimedHandle ≠ l.lower handle := by simp
  have hcreate : create l env users email phc handle =
      if (env.fails || !([email, phc, handle].all isText)) = true then .error .database
      else if users.any (·.id = env.id) = true then .error .database
      else if users.any (fun u => l.lower u.email = l.lower (l.lower email)) = true then
        .error .emailTaken
      else if users.any (fun u => l.lower u.claimedHandle = l.lower handle) = true then
        .error .handleTaken
      else .ok (newUser l env email phc handle) := rfl
  rw [hcreate, ← hid, ← hemail, ← hhandle, ← and_assoc (b := _ ∧ _), ← hfault]
  generalize (env.fails || !([email, phc, handle].all isText)) = failed
  generalize users.any (·.id = env.id) = idTaken
  generalize users.any (fun u => l.lower u.email = l.lower (l.lower email)) = emailTaken
  generalize users.any (fun u => l.lower u.claimedHandle = l.lower handle) = handleTaken
  cases failed
  · cases idTaken <;> cases emailTaken <;> cases handleTaken <;> simp [eq_comm]
  · simp

theorem step_of_goes (h : Goes g users a) : ∃ phc, step g users a =
    users ++ [newUser g.toLower a.1 a.2.email phc a.2.claimedHandle] := by
  obtain ⟨phc, hphc, htext⟩ := h.hashed
  have hcreate : create g.toLower a.1 users a.2.email phc a.2.claimedHandle =
      .ok (newUser g.toLower a.1 a.2.email phc a.2.claimedHandle) :=
    create_eq_ok.mpr ⟨rfl, h.connected, ⟨h.texts.1, htext, h.texts.2⟩, h.freshId, h.freshEmail,
      h.freshHandle⟩
  refine ⟨phc, ?_⟩
  unfold step signup
  simp only [h.valid, hphc, hcreate]

theorem step_of_not_goes (h : ¬ Goes g users a) : step g users a = users := by
  unfold step signup
  cases hvalid : validateSignup a.2 with
  | some resp => rfl
  | none =>
    cases hphc : g.hashPassword a.2.password with
    | none => rfl
    | some phc =>
      simp only
      cases hcreate : create g.toLower a.1 users a.2.email phc a.2.claimedHandle with
      | error e => cases e <;> rfl
      | ok user =>
        obtain ⟨-, hfails, htexts, hid, hemail, hhandle⟩ := create_eq_ok.mp hcreate
        exact absurd ⟨hvalid, ⟨phc, hphc, htexts.2.1⟩, hfails, ⟨htexts.1, htexts.2.2⟩, hid, hemail,
          hhandle⟩ h

/-! ### Trimmed texts -/

theorem trim_of_none {s : String} (h : ∀ c ∈ s.toList, isWhitespace c = false) : trim s = s :=
  trim_of_ends (fun c hc => h c (List.mem_of_mem_head? hc))
    fun c hc => h c (List.mem_of_mem_getLast? hc)

theorem trim_of_validateHandle {s : String} (h : validateHandle s = true) : trim s = s := by
  have hchars : ∀ c : Char, (c.isAlphanum || c = '_' || c = '-') = true → isWhitespace c = false := by
    intro c hc
    have hrange : (48 ≤ c.toNat ∧ c.toNat ≤ 57) ∨ (65 ≤ c.toNat ∧ c.toNat ≤ 90) ∨
        (97 ≤ c.toNat ∧ c.toNat ≤ 122) ∨ c.toNat = 95 ∨ c.toNat = 45 := by
      simp only [Bool.or_eq_true, decide_eq_true_eq, isAlphanum_iff] at hc
      rcases hc with ((h | h | h) | rfl) | rfl
      · exact Or.inr (Or.inl (isUpper_iff_toNat.mp h))
      · exact Or.inr (Or.inr (Or.inl (isLower_iff_toNat.mp h)))
      · exact Or.inl (Char.isDigit_iff_toNat.mp h)
      · exact Or.inr (Or.inr (Or.inr (Or.inl rfl)))
      · exact Or.inr (Or.inr (Or.inr (Or.inr rfl)))
    unfold isWhitespace
    simp only [Bool.or_eq_false_iff, Bool.and_eq_false_iff, decide_eq_false_iff_not]
    omega
  unfold validateHandle at h
  simp only [Bool.and_eq_true] at h
  exact trim_of_none fun c hc => hchars c (List.all_eq_true.mp h.2 c hc)

theorem validateHandle_of_valid {req : SignupRequest} (h : validateSignup req = none) :
    validateHandle (trim req.claimedHandle) = true := by
  unfold validateSignup at h
  split_ifs at h with _ _ _ hhandle
  simpa using hhandle

/-! ### One sign-up -/

/-- A sign-up leaves the identities canonical exactly if it is not stored or was trimmed. -/
theorem canonical_step (husers : Canonical g users) :
    Canonical g (step g users a) ↔ (Goes g users a → Trimmed a.2) := by
  by_cases hgoes : Goes g users a
  case neg =>
    rw [step_of_not_goes hgoes]
    exact iff_of_true husers fun h => absurd h hgoes
  obtain ⟨phc, hstep⟩ := step_of_goes hgoes
  rw [hstep]
  have hnew : newUser g.toLower a.1 a.2.email phc a.2.claimedHandle ∈
      users ++ [newUser g.toLower a.1 a.2.email phc a.2.claimedHandle] := by simp
  constructor
  · intro hcanonical _
    have hemail := hcanonical.emails _ hnew
    have hhandle := hcanonical.handles _ hnew
    rw [email_newUser] at hemail
    rw [claimedHandle_newUser] at hhandle
    exact ⟨(g.trim_lower _).mp hemail, trim_of_validateHandle hhandle⟩
  · intro htrimmed
    obtain ⟨hemail, hhandle⟩ := htrimmed hgoes
    have hvalid := validateHandle_of_valid hgoes.valid
    rw [hhandle] at hvalid
    have hlower := (g.trim_lower a.2.email).mpr hemail
    constructor
    · intro u hu
      rcases List.mem_append.mp hu with hu | hu
      · exact husers.handles u hu
      · rw [List.mem_singleton.mp hu]
        exact hvalid
    · intro u hu
      rcases List.mem_append.mp hu with hu | hu
      · exact husers.emails u hu
      · rw [List.mem_singleton.mp hu]
        exact hlower
    · refine List.pairwise_append.mpr ⟨husers.distinctHandles, List.pairwise_singleton _ _, ?_⟩
      intro u hu v hv
      rw [List.mem_singleton.mp hv, claimedHandle_newUser,
        trim_of_validateHandle (husers.handles u hu), hhandle]
      exact hgoes.freshHandle u hu
    · refine List.pairwise_append.mpr ⟨husers.distinctEmails, List.pairwise_singleton _ _, ?_⟩
      intro u hu v hv
      rw [List.mem_singleton.mp hv, email_newUser, husers.emails u hu, hlower, g.lower_lower]
      exact hgoes.freshEmail u hu

theorem find?_of_pairwise {α : Type} {k : α → String} {rows : List α} {r : α}
    (hkeys : rows.Pairwise fun r s => k r ≠ k s) (hr : r ∈ rows) :
    rows.find? (fun s => k s = k r) = some r := by
  obtain ⟨before, after, rfl⟩ := List.append_of_mem hr
  have hbefore : ∀ s ∈ before, ¬ (decide (k s = k r)) = true := by
    intro s hs
    have hne := (List.pairwise_append.mp hkeys).2.2 s hs r (List.mem_cons_self ..)
    simpa using hne
  rw [List.find?_append, List.find?_eq_none.mpr hbefore, List.find?_cons_of_pos (by simp)]
  rfl

end Steps

/-! ### Runs -/

section Runs
variable {g : Given} {as : List (Env × SignupRequest)} {n m : ℕ} {u : User}

theorem mem_state_of_le (hnm : n ≤ m) (hu : u ∈ state g as n) : u ∈ state g as m := by
  refine @Runs.invariant_take_from _ _ (step g) [] (fun users => u ∈ users) ?_ as n m hnm hu
  intro users a hmem
  by_cases hgoes : Goes g users a
  · obtain ⟨phc, hstep⟩ := step_of_goes hgoes
    rw [hstep]
    exact List.mem_append_left _ hmem
  · rw [step_of_not_goes hgoes]
    exact hmem

/-- **The identities are canonical in every state exactly if every sign-up that is stored was trimmed.** -/
theorem alwaysCanonical_iff : AlwaysCanonical g as ↔
    ∀ n a, as[n]? = some a → Goes g (state g as n) a → Trimmed a.2 := by
  have hall := @Runs.forall_take_iff _ _ (step g) [] (fun _ => True) (Canonical g)
    (fun users a => Goes g users a → Trimmed a.2) trivial (fun _ _ _ => trivial)
    ⟨by simp, by simp, List.Pairwise.nil, List.Pairwise.nil⟩ (fun _ _ _ h => canonical_step h) as
  refine ⟨fun h => hall.mp h.canonical, fun htrimmed => ⟨hall.mpr htrimmed, ?_⟩⟩
  intro n a ha hgoes m hnm
  have hcanonical : Canonical g (state g as m) := hall.mpr htrimmed m
  obtain ⟨hemail, hhandle⟩ := htrimmed n a ha hgoes
  obtain ⟨phc, hstep⟩ := step_of_goes hgoes
  have hadded : state g as (n + 1) =
      state g as n ++ [newUser g.toLower a.1 a.2.email phc a.2.claimedHandle] :=
    (Runs.run_take_succ ha).trans hstep
  have hmem : newUser g.toLower a.1 a.2.email phc a.2.claimedHandle ∈ state g as m :=
    mem_state_of_le hnm (by rw [hadded]; simp)
  refine ⟨newUser g.toLower a.1 a.2.email phc a.2.claimedHandle, rfl, ?_, ?_⟩
  · have hkeys : (state g as m).Pairwise fun u v => g.lower u.claimedHandle ≠ g.lower v.claimedHandle := by
      refine hcanonical.distinctHandles.imp_of_mem fun {u v} hu hv hne => ?_
      rwa [trim_of_validateHandle (hcanonical.handles u hu),
        trim_of_validateHandle (hcanonical.handles v hv)] at hne
    unfold findByHandle
    rw [hhandle]
    exact find?_of_pairwise hkeys hmem
  · have hkeys : (state g as m).Pairwise fun u v => g.lower u.email ≠ g.lower v.email := by
      refine hcanonical.distinctEmails.imp_of_mem fun {u v} hu hv hne => ?_
      rwa [hcanonical.emails u hu, hcanonical.emails v hv] at hne
    have hfind := find?_of_pairwise hkeys hmem
    rw [email_newUser, g.lower_lower] at hfind
    unfold findByEmail
    rw [hemail]
    exact hfind

end Runs

/-! ### A handle with a blank -/

theorem isWhitespace_toLower (c : Char) : isWhitespace c.toLower = isWhitespace c := by
  by_cases hupper : c.isUpper = true
  · have hrange := isUpper_iff_toNat.mp hupper
    unfold isWhitespace
    rw [toNat_toLower hupper, Bool.eq_iff_iff]
    simp only [Bool.or_eq_true, Bool.and_eq_true, decide_eq_true_eq]
    omega
  · rw [toLower_of_not_isUpper hupper]

theorem trim_map_toLower (s : String) :
    (trim (String.ofList (s.toList.map Char.toLower))).toList = (trim s).toList.map Char.toLower := by
  have hdrop : ∀ cs : List Char, (cs.map Char.toLower).dropWhile isWhitespace =
      (cs.dropWhile isWhitespace).map Char.toLower := by
    intro cs
    rw [List.dropWhile_map]
    congr 1
    exact congrArg (List.dropWhile · cs) (funext isWhitespace_toLower)
  unfold trim trimStartMatches trimEndMatches
  simp only [String.toList_ofList, ← List.map_reverse, hdrop]

/-- ASCII letters are made small. -/
def asciiLower : Lower where
  lower s := String.ofList (s.toList.map Char.toLower)
  lower_lower := Credentials.asciiCasing.lower_toLowercase
  trim_lower s := by
    have htrim := trim_map_toLower s
    constructor
    · intro h
      rw [h, String.toList_ofList] at htrim
      have hlen := congrArg List.length htrim
      rw [List.length_map, List.length_map] at hlen
      obtain ⟨pre, post, hs, -, -⟩ := exists_trim s
      have hlen' := congrArg List.length hs
      rw [List.length_append, List.length_append] at hlen'
      have hpre : pre = [] := List.eq_nil_of_length_eq_zero (by omega)
      have hpost : post = [] := List.eq_nil_of_length_eq_zero (by omega)
      rw [hpre, hpost, List.nil_append, List.append_nil] at hs
      exact String.toList_injective hs.symm
    · intro h
      rw [h] at htrim
      exact String.toList_injective (htrim.trans String.toList_ofList.symm)

/-- Each password is its own hash, and each token the id of its user. -/
def given : Given := { asciiLower with hashPassword := some, signUser := fun userId _ => some userId }

def jim : Env × SignupRequest := (⟨"1", 0, false⟩, ⟨"jim@example.org", "correct horse", "Jim "⟩)

/-- The handle is valid without the blank, and stored with it. -/
theorem not_alwaysCanonical_jim : ¬ AlwaysCanonical given [jim] := by
  intro h
  have hmem : (⟨"1", "jim@example.org", "correct horse", "Jim ", 0⟩ : User) ∈ state given [jim] 1 := by
    decide +kernel
  have hvalid := (h.canonical 1).handles _ hmem
  exact absurd hvalid (by decide +kernel)

end StarStats.Server.SignUps
