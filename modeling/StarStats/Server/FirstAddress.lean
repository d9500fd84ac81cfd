import StarStats.Server.EmailChange

/-! # The first address

A sign-up makes an account with an address that nobody has proven yet, and mails it a token; a resend
replaces the token and mails the new one to the address it has read. A verify looks its token up and marks
the account, whatever its address is by then. Beside them, addresses are changed and accounts deleted.

An address changes only as it is marked. So a verify that marks an account for the first time marks the
address that its token has been mailed to, and no other (`marksMailed`). -/

namespace StarStats.Server.FirstAddress

open StarStats.Lib.Tables StarStats.Lib.Text StarStats.Lib.Threads StarStats.Server.Credentials

/-- `VERIFICATION_TOKEN_TTL_HOURS`, in seconds. -/
def verificationTokenTtl : ℤ := 24 * 3600

/-- The requests that bear on the address of an account. -/
inductive Request where
  | signUp (id email passwordHash : String)
  | resend (userId : String)
  | verifyEmail (token : String)
  | change (r : EmailChange.Request)
  | delete (userId : String)

inductive Response where
  | error (status : ℕ) (code : String)
  | signedUp
  | sent
  | verified (email : String)
  | deleted
  deriving DecidableEq

/-- Where a request is. -/
inductive Place where
  | asked
  /-- A token for the account is to be stored, and mailed to the address. -/
  | unsent (userId email : String)
  | stored (email : String)
  /-- The token is the account's, and has not expired. -/
  | found (userId email : String)
  | changes (place : EmailChange.Place)
  | answered (r : Response)
  deriving DecidableEq

/-- The accounts, with the columns `email_verification_token` and `email_verification_expires_at` by id;
the mails of changes; and the mails of verifications: to which address, with which token. -/
structure Store where
  accounts : Accounts
  codes : String → Option (String × ℤ)
  changeMails : List (String × String)
  mails : List (String × String)

section Handlers
variable (c : Casing) (env : EmailChange.Env) (st : Store)

/-- A row as the database makes it. -/
def newAccount (id email passwordHash : String) : Account :=
  ⟨id, c.lower email, none, passwordHash, env.now, none, none, none, none, none, none, none, none, none⟩

/-- `none` where the unique indexes stand in the way. -/
def create (id email passwordHash : String) : Option Accounts :=
  if st.accounts.contents.any fun a => a.id = id || c.lower a.email = c.lower (c.lower email) then none
  else some (st.accounts.insert (newAccount c env id email passwordHash))

/-- `none` where another account has the token. -/
def setVerificationToken (userId token : String) : Option (String → Option (String × ℤ)) :=
  if st.accounts.contents.any fun a => a.id ≠ userId && (st.codes a.id).map Prod.fst = some token then none
  else if (st.accounts.findById userId).isNone then some st.codes
  else some (Function.update st.codes userId (some (token, env.now + verificationTokenTtl)))

/-- Whose address a token proves. -/
def findByVerificationToken (token : String) : Option Account :=
  st.accounts.contents.find? fun a => (st.codes a.id).map Prod.fst = some token

/-- The address is proved, and the token used up. -/
def markEmailVerified (userId : String) : Store :=
  { st with
    accounts := st.accounts.set userId (fun a => { a with emailVerifiedAt := some env.now }) fun _ => rfl
    codes := Function.update st.codes userId none }

/-- A code without a time counts as expired. -/
def isExpired (now : ℤ) (code : Option (String × ℤ)) : Bool := code.elim true fun code => code.2 ≤ now

/-- The last two steps of a sign-up and of a resend: the token is stored, and then mailed. -/
def sendLink (token : String) (unsaved done : Response) : Place → Store × Place
  | .unsent userId email =>
    match if env.fault then none else setVerificationToken env st userId token with
    | none => (st, .answered unsaved)
    | some codes => ({ st with codes := codes }, .stored email)
  | .stored email =>
    (if env.fault then st else { st with mails := st.mails ++ [(email, token)] }, .answered done)
  | place => (st, place)

/-- The steps of a sign-up whose request is valid; that the token is not stored or mailed is passed over. -/
def signup (token id email passwordHash : String) : Place → Store × Place
  | .asked =>
    if env.fault then (st, .answered (.error 500 "internal"))
    else
      match create c env st id email passwordHash with
      | none => (st, .answered (.error 409 "email_taken"))
      | some accounts => ({ st with accounts := accounts }, .unsent id (c.lower email))
  | place => sendLink env st token .signedUp .signedUp place

/-- A new token, written before its mail goes out. -/
def resendVerification (token userId : String) : Place → Store × Place
  | .asked =>
    if env.fault then (st, .answered (.error 500 "internal"))
    else
      match st.accounts.findById userId with
      | none => (st, .answered (.error 401 "user_not_found"))
      | some user =>
        if user.emailVerifiedAt.isSome then (st, .answered (.error 409 "already_verified"))
        else (st, .unsent userId user.email)
  | place => sendLink env st token (.error 500 "internal") .sent place

/-- The handler of the link in the mail, in its steps. -/
def verifyEmail (token : String) : Place → Store × Place
  | .asked =>
    if trim token = "" then (st, .answered (.error 400 "invalid_or_expired"))
    else if env.fault then (st, .answered (.error 500 "internal"))
    else
      match findByVerificationToken st token with
      | none => (st, .answered (.error 400 "invalid_or_expired"))
      | some user =>
        if isExpired env.now (st.codes user.id) then (st, .answered (.error 400 "invalid_or_expired"))
        else (st, .found user.id user.email)
  | .found userId email =>
    if env.fault then (st, .answered (.error 500 "internal"))
    else (markEmailVerified env st userId, .answered (.verified email))
  | place => (st, place)

/-- The account goes with its token. -/
def deleteUser (userId : String) : Place → Store × Place
  | .asked =>
    ({ st with
        accounts := st.accounts.deleteWhere (·.id = userId)
        codes := Function.update st.codes userId none },
      .answered .deleted)
  | place => (st, place)

/-- A change of address, which knows nothing of the verifications. -/
def changeEmail {ι : Type} (token : ι → String) (i : ι) (r : EmailChange.Request)
    (place : EmailChange.Place) : Store × Place :=
  let next := EmailChange.step c token (fun _ => r) i env ⟨st.accounts, st.changeMails⟩ place
  ({ st with accounts := next.1.accounts, changeMails := next.1.mails }, .changes next.2)

end Handlers

section Machine
variable {ι : Type} [DecidableEq ι] (c : Casing) (token : ι → String) (requests : ι → Request)

/-- A request takes its next step. -/
def step (i : ι) (env : EmailChange.Env) (st : Store) (place : Place) : Store × Place :=
  match requests i with
  | .signUp id email passwordHash => signup c env st (token i) id email passwordHash place
  | .resend userId => resendVerification env st (token i) userId place
  | .verifyEmail t => verifyEmail env st t place
  | .change r =>
    match place with
    | .asked => changeEmail c env st token i r .asked
    | .changes place => changeEmail c env st token i r place
    | place => (st, place)
  | .delete userId => deleteUser st userId place

/-- There are no accounts, and all requests are yet to begin. -/
def initial : Shared ι Store Place := ⟨⟨Table.empty, fun _ => none, [], []⟩, fun _ => .asked⟩

variable (as : List (ι × EmailChange.Env))

/-- The state after the first turns. -/
def state (n : ℕ) : Shared ι Store Place := after (step c token requests) initial as n

/-- A token is made once, and so is an id. -/
structure Fresh : Prop where
  token : Function.Injective token
  id : ∀ j k id email email' hash hash', requests j = .signUp id email hash →
    requests k = .signUp id email' hash' → j = k

/-- The request sends tokens for the account. -/
def Sends (j : ι) (u : String) : Prop :=
  (∃ email hash, requests j = .signUp u email hash) ∨ requests j = .resend u

/-- The account is signed up with the address. -/
def First (u b : String) : Prop := ∃ k email hash, requests k = .signUp u email hash ∧ c.lower email = b

/-- A turn of a verify marks an account for the first time, with this address. -/
def MarksFirst (n : ℕ) (u t b : String) : Prop :=
  ∃ i env a a', as[n]? = some (i, env) ∧ requests i = .verifyEmail t ∧
    (state c token requests as n).store.accounts.findById u = some a ∧ a.emailVerifiedAt = none ∧
    (state c token requests as (n + 1)).store.accounts.findById u = some a' ∧
    a'.emailVerifiedAt.isSome = true ∧ a'.email = b

end Machine

/-! ### What a step does -/

section Steps
variable {ι : Type} {c : Casing} {token : ι → String} {requests : ι → Request} {i : ι}
  {env : EmailChange.Env} {st : Store} {place : Place} {a a' : Account} {u t b : String} {e : ℤ}

/-- A row made of another: as long as it is not marked, it has its address. -/
def Keeps (a a' : Account) : Prop :=
  a'.id = a.id ∧ (a'.emailVerifiedAt = none → a.emailVerifiedAt = none ∧ a'.email = a.email)

theorem keeps_promotePending (now : ℤ) (a : Account) : Keeps a (Accounts.promotePending now a) := by
  unfold Keeps Accounts.promotePending
  split <;> simp

theorem exists_keeps_change {r : EmailChange.Request} {p : EmailChange.Place}
    (h : a' ∈ (changeEmail c env st token i r p).1.accounts.contents) :
    ∃ a ∈ st.accounts.contents, Keeps a a' := by
  have hstep := EmailChange.accounts_step c token (fun _ => r) i env ⟨st.accounts, st.changeMails⟩ p
  unfold changeEmail at h
  simp only at h
  rcases hstep with hsame | ⟨u, newEmail, b, -, -, -, hset⟩ | ⟨t, user, -, -, -, -, hset⟩
  · rw [hsame] at h
    exact ⟨a', h, rfl, fun hnone => ⟨hnone, rfl⟩⟩
  · rw [hset] at h
    rcases Accounts.mem_contents_set h with hold | ⟨a, ha, -, rfl⟩
    · exact ⟨a', hold, rfl, fun hnone => ⟨hnone, rfl⟩⟩
    · exact ⟨a, ha, rfl, fun hnone => ⟨hnone, rfl⟩⟩
  · rw [hset] at h
    rcases Accounts.mem_contents_set h with hold | ⟨a, ha, -, rfl⟩
    · exact ⟨a', hold, rfl, fun hnone => ⟨hnone, rfl⟩⟩
    · exact ⟨a, ha, keeps_promotePending env.now a⟩

/-- A mail of a change has the token of a change. -/
def FromChange (token : ι → String) (requests : ι → Request) (t : String) : Prop :=
  ∃ j r, requests j = .change r ∧ token j = t

/-- A change of address mails its own token, if any. -/
theorem mails_change {r : EmailChange.Request} {p : EmailChange.Place} (hrequest : requests i = .change r)
    (h : (b, t) ∈ (changeEmail c env st token i r p).1.changeMails) :
    (b, t) ∈ st.changeMails ∨ FromChange token requests t := by
  have hstep := EmailChange.mails_step c token (fun _ => r) i env ⟨st.accounts, st.changeMails⟩ p
  unfold changeEmail at h
  simp only at h
  rcases hstep with hsame | ⟨u, newEmail, b', -, -, hmails⟩
  · rw [hsame] at h
    exact Or.inl h
  · rw [hmails] at h
    rcases List.mem_append.mp h with hold | hnew
    · exact Or.inl hold
    · obtain ⟨-, rfl⟩ := Prod.mk.inj (List.mem_singleton.mp hnew)
      exact Or.inr ⟨i, r, hrequest, rfl⟩

/-- What a step does to the rows, the tokens and the mails. -/
inductive Moves (c : Casing) (token : ι → String) (requests : ι → Request) (i : ι)
    (env : EmailChange.Env) (st : Store) : Place → Store → Place → Prop
  | stay (place place' : Place) : (∀ u b, place' ≠ .unsent u b) → (∀ b, place' ≠ .stored b) →
      (∀ u b, place' ≠ .found u b) → Moves c token requests i env st place st place'
  | wait (place : Place) : Moves c token requests i env st place st place
  | create (id email hash : String) : requests i = .signUp id email hash →
      Moves c token requests i env st .asked
        { st with accounts := st.accounts.insert (newAccount c env id email hash) }
        (.unsent id (c.lower email))
  | read (user : Account) : requests i = .resend user.id → user ∈ st.accounts.contents →
      user.emailVerifiedAt = none → Moves c token requests i env st .asked st (.unsent user.id user.email)
  | store (u b : String) (e : ℤ) :
      Moves c token requests i env st (.unsent u b)
        { st with codes := Function.update st.codes u (some (token i, e)) } (.stored b)
  | skip (u b : String) : Moves c token requests i env st (.unsent u b) st (.stored b)
  | mail (b : String) (r : Response) :
      Moves c token requests i env st (.stored b) { st with mails := st.mails ++ [(b, token i)] }
        (.answered r)
  | find (t : String) (user : Account) (e : ℤ) : requests i = .verifyEmail t →
      user ∈ st.accounts.contents → st.codes user.id = some (t, e) → env.now < e →
      Moves c token requests i env st .asked st (.found user.id user.email)
  | mark (u b : String) (r : Response) :
      Moves c token requests i env st (.found u b) (markEmailVerified env st u) (.answered r)
  | change (p p' : Place) (accounts : Accounts) (changeMails : List (String × String)) :
      (∃ q, p' = .changes q) → (∀ a' ∈ accounts.contents, ∃ a ∈ st.accounts.contents, Keeps a a') →
      (∀ b t, (b, t) ∈ changeMails → (b, t) ∈ st.changeMails ∨ FromChange token requests t) →
      Moves c token requests i env st p { st with accounts := accounts, changeMails := changeMails } p'
  | delete (u : String) :
      Moves c token requests i env st .asked
        { st with
          accounts := st.accounts.deleteWhere (·.id = u)
          codes := Function.update st.codes u none }
        (.answered .deleted)

theorem moves_sendLink {unsaved done : Response} : Moves c token requests i env st place
    (sendLink env st (token i) unsaved done place).1 (sendLink env st (token i) unsaved done place).2 := by
  unfold sendLink
  cases place with
  | unsent u b =>
    cases env.fault with
    | true => exact .stay _ _ nofun nofun nofun
    | false =>
      simp only [Bool.false_eq_true, if_false]
      unfold setVerificationToken
      split_ifs
      · exact .stay _ _ nofun nofun nofun
      · exact .skip u b
      · exact .store u b _
  | stored b =>
    cases env.fault with
    | true => exact .stay _ _ nofun nofun nofun
    | false => exact .mail b done
  | _ => exact .wait _

/-- Every step is a move. -/
theorem moves_step (c : Casing) (token : ι → String) (requests : ι → Request) (i : ι)
    (env : EmailChange.Env) (st : Store) (place : Place) :
    Moves c token requests i env st place (step c token requests i env st place).1
      (step c token requests i env st place).2 := by
  unfold step
  cases hrequest : requests i with
  | signUp id email hash =>
    simp only
    unfold signup
    cases place with
    | asked =>
      simp only
      unfold create
      split_ifs
      · exact .stay _ _ nofun nofun nofun
      · exact .stay _ _ nofun nofun nofun
      · exact .create id email hash hrequest
    | _ => exact moves_sendLink
  | resend userId =>
    simp only
    unfold resendVerification
    cases place with
    | asked =>
      simp only
      split_ifs
      · exact .stay _ _ nofun nofun nofun
      · cases hfind : st.accounts.findById userId with
        | none => exact .stay _ _ nofun nofun nofun
        | some user =>
          obtain ⟨huser, rfl⟩ := Accounts.findById_eq_some.mp hfind
          simp only
          split_ifs with hverified
          · exact .stay _ _ nofun nofun nofun
          · exact .read user hrequest huser (Option.not_isSome_iff_eq_none.mp hverified)
    | _ => exact moves_sendLink
  | verifyEmail t =>
    simp only
    unfold verifyEmail
    cases place with
    | asked =>
      simp only
      split_ifs
      · exact .stay _ _ nofun nofun nofun
      · exact .stay _ _ nofun nofun nofun
      · cases hfind : findByVerificationToken st t with
        | none => exact .stay _ _ nofun nofun nofun
        | some user =>
          have huser := List.mem_of_find?_eq_some hfind
          have htoken : (st.codes user.id).map Prod.fst = some t := by simpa using List.find?_some hfind
          obtain ⟨⟨t', e⟩, hcode, rfl⟩ := Option.map_eq_some_iff.mp htoken
          simp only [hcode, isExpired, Option.elim]
          split_ifs with hlate
          · exact .stay _ _ nofun nofun nofun
          · exact .find t' user e hrequest huser hcode (by simpa using hlate)
    | found u b =>
      simp only
      split_ifs
      · exact .stay _ _ nofun nofun nofun
      · exact .mark u b _
    | _ => exact .wait _
  | change r =>
    cases place with
    | asked =>
      exact .change _ _ _ _ ⟨_, rfl⟩ (fun a' ha' => exists_keeps_change ha')
        fun b t hmail => mails_change hrequest hmail
    | changes p =>
      exact .change _ _ _ _ ⟨_, rfl⟩ (fun a' ha' => exists_keeps_change ha')
        fun b t hmail => mails_change hrequest hmail
    | _ => exact .wait _
  | delete u =>
    cases place with
    | asked => exact .delete u
    | _ => exact .wait _

end Steps

/-! ### What holds in every state -/

section Invariant
variable {ι : Type} {c : Casing} {token : ι → String} {requests : ι → Request} {i : ι}
  {env : EmailChange.Env} {st st' : Store} {place place' : Place} {u t b : String}

/-- An account that is not marked has its first address, and each token belongs to an account and is mailed
to its first address. -/
structure Inv (c : Casing) (token : ι → String) (requests : ι → Request) (st : Store) : Prop where
  rows : ∀ a ∈ st.accounts.contents, a.emailVerifiedAt = none → First c requests a.id a.email
  codes : ∀ u t e, st.codes u = some (t, e) → ∃ j, Sends requests j u ∧ token j = t
  mails : ∀ b t, (b, t) ∈ st.mails → ∃ j u, Sends requests j u ∧ token j = t ∧ First c requests u b
  changeMails : ∀ b t, (b, t) ∈ st.changeMails → FromChange token requests t

/-- What holds of a request on its way, of its mail in particular. -/
structure Ok (c : Casing) (token : ι → String) (requests : ι → Request) (i : ι) (place : Place) : Prop where
  unsent : ∀ u b, place = .unsent u b → Sends requests i u ∧ First c requests u b
  stored : ∀ b, place = .stored b → ∃ u, Sends requests i u ∧ First c requests u b
  found : ∀ u b, place = .found u b → ∃ t j, requests i = .verifyEmail t ∧ Sends requests j u ∧ token j = t

theorem Moves.inv (h : Moves c token requests i env st place st' place')
    (hinv : Inv c token requests st) (hok : Ok c token requests i place) :
    Inv c token requests st' ∧ Ok c token requests i place' := by
  have hcodes : ∀ {v : String} {code : Option (String × ℤ)},
      (∀ t e, code = some (t, e) → ∃ j, Sends requests j v ∧ token j = t) → ∀ u t e,
        Function.update st.codes v code u = some (t, e) → ∃ j, Sends requests j u ∧ token j = t := by
    intro v code hnew u t e hcode
    by_cases hu : u = v
    · subst hu
      rw [Function.update_self] at hcode
      exact hnew t e hcode
    · rw [Function.update_of_ne hu] at hcode
      exact hinv.codes u t e hcode
  cases h with
  | stay _ _ hunsent hstored hfound =>
    exact ⟨hinv, fun u b h => absurd h (hunsent u b), fun b h => absurd h (hstored b),
      fun u b h => absurd h (hfound u b)⟩
  | wait => exact ⟨hinv, hok⟩
  | create id email hash hrequest =>
    refine ⟨⟨fun a ha hnone => ?_, hinv.codes, hinv.mails, hinv.changeMails⟩, ?_, nofun, nofun⟩
    · obtain ⟨row, hrow, rfl⟩ := Table.mem_contents.mp ha
      rcases Table.mem_rows_insert.mp hrow with hold | ⟨-, rfl⟩
      · exact hinv.rows row.2 (Table.mem_contents.mpr ⟨row, hold, rfl⟩) hnone
      · exact ⟨i, email, hash, hrequest, rfl⟩
    · rintro u b hplace
      obtain ⟨rfl, rfl⟩ := Place.unsent.inj hplace
      exact ⟨Or.inl ⟨email, hash, hrequest⟩, i, email, hash, hrequest, rfl⟩
  | read user hrequest huser hnone =>
    refine ⟨hinv, ?_, nofun, nofun⟩
    rintro u b hplace
    obtain ⟨rfl, rfl⟩ := Place.unsent.inj hplace
    exact ⟨Or.inr hrequest, hinv.rows user huser hnone⟩
  | store u b e =>
    obtain ⟨hsends, hfirst⟩ := hok.unsent u b rfl
    refine ⟨⟨hinv.rows, hcodes ?_, hinv.mails, hinv.changeMails⟩, nofun, ?_, nofun⟩
    · intro t e' hcode
      exact ⟨i, hsends, congrArg Prod.fst (Option.some.inj hcode)⟩
    · rintro b' hplace
      obtain rfl := Place.stored.inj hplace
      exact ⟨u, hsends, hfirst⟩
  | skip u b =>
    refine ⟨hinv, nofun, ?_, nofun⟩
    rintro b' hplace
    obtain rfl := Place.stored.inj hplace
    exact ⟨u, hok.unsent u b rfl⟩
  | mail b r =>
    refine ⟨⟨hinv.rows, hinv.codes, fun b' t hmail => ?_, hinv.changeMails⟩, nofun, nofun, nofun⟩
    rcases List.mem_append.mp hmail with hold | hnew
    · exact hinv.mails b' t hold
    · obtain ⟨rfl, rfl⟩ := Prod.mk.inj (List.mem_singleton.mp hnew)
      obtain ⟨u, hsends, hfirst⟩ := hok.stored _ rfl
      exact ⟨i, u, hsends, rfl, hfirst⟩
  | find t user e hrequest huser hcode =>
    refine ⟨hinv, nofun, nofun, ?_⟩
    rintro u b hplace
    obtain ⟨rfl, -⟩ := Place.found.inj hplace
    obtain ⟨j, hsends, htoken⟩ := hinv.codes user.id t e hcode
    exact ⟨t, j, hrequest, hsends, htoken⟩
  | mark u b r =>
    refine ⟨⟨fun a ha hnone => ?_, hcodes nofun, hinv.mails, hinv.changeMails⟩, nofun, nofun, nofun⟩
    rcases Accounts.mem_contents_set ha with hold | ⟨a', -, -, rfl⟩
    · exact hinv.rows a hold hnone
    · cases hnone
  | change p p' accounts changeMails hplace hkeeps hmails =>
    obtain ⟨q, rfl⟩ := hplace
    refine ⟨⟨fun a' ha' hnone => ?_, hinv.codes, hinv.mails, fun b t hmail => ?_⟩, nofun, nofun, nofun⟩
    · obtain ⟨a, ha, hid, hkept⟩ := hkeeps a' ha'
      obtain ⟨hbefore, hemail⟩ := hkept hnone
      rw [hid, hemail]
      exact hinv.rows a ha hbefore
    · exact (hmails b t hmail).elim (hinv.changeMails b t) id
  | delete u =>
    refine ⟨⟨fun a ha hnone => ?_, hcodes nofun, hinv.mails, hinv.changeMails⟩, nofun, nofun, nofun⟩
    exact hinv.rows a (Table.mem_contents_deleteWhere.mp ha).1 hnone

theorem store_step (hrequest : requests i = .verifyEmail t) :
    (step c token requests i env st place).1 = st ∨
      ∃ u b, place = .found u b ∧ (step c token requests i env st place).1 = markEmailVerified env st u := by
  unfold step
  rw [hrequest]
  simp only
  unfold verifyEmail
  cases place with
  | asked =>
    left
    simp only
    split_ifs
    · rfl
    · rfl
    · split
      · rfl
      · split_ifs <;> rfl
  | found u b =>
    simp only
    split_ifs
    · exact Or.inl rfl
    · exact Or.inr ⟨u, b, rfl, rfl⟩
  | _ => exact Or.inl rfl

variable [DecidableEq ι]

theorem inv_state (c : Casing) (token : ι → String) (requests : ι → Request)
    (as : List (ι × EmailChange.Env)) (n : ℕ) :
    Inv c token requests (state c token requests as n).store ∧
      ∀ i, Ok c token requests i ((state c token requests as n).place i) := by
  refine @placed_after ι Store Place EmailChange.Env _ (step c token requests) initial
    (Inv c token requests) (fun i _ place => Ok c token requests i place) ?_ ?_ ?_ as n
  · exact fun i e st l hinv hok => (moves_step c token requests i e st l).inv hinv hok
  · exact fun i e st l j l' _ _ _ hj => hj
  · refine ⟨⟨fun a ha => ?_, nofun, nofun, nofun⟩, fun i => ⟨nofun, nofun, nofun⟩⟩
    cases ha

end Invariant

/-- **The address with which a verify marks an account for the first time is the one that it has been
signed up with, and no mail with the token of the verify has gone, or ever goes, to another**, be it of a
verification or of a change. -/
theorem marksMailed {ι : Type} [DecidableEq ι] {c : Casing} {token : ι → String}
    {requests : ι → Request} {as : List (ι × EmailChange.Env)} {n : ℕ} {u t b : String}
    (hfresh : Fresh token requests) (h : MarksFirst c token requests as n u t b) :
    First c requests u b ∧ (∃ j, Sends requests j u ∧ token j = t) ∧
      ∀ m b', (b', t) ∈ (state c token requests as m).store.mails ∨
        (b', t) ∈ (state c token requests as m).store.changeMails → b' = b := by
  have hfirst : ∀ {u b b'}, First c requests u b → First c requests u b' → b = b' := by
    rintro u b b' ⟨k, email, hash, hk, rfl⟩ ⟨k', email', hash', hk', rfl⟩
    obtain rfl := hfresh.id k k' u email email' hash hash' hk hk'
    rw [hk] at hk'
    obtain ⟨-, rfl, -⟩ := Request.signUp.inj hk'
    rfl
  have hone : ∀ {j u v}, Sends requests j u → Sends requests j v → u = v := by
    rintro j u v (⟨email, hash, hu⟩ | hu) (⟨email', hash', hv⟩ | hv)
    · rw [hu] at hv
      exact (Request.signUp.inj hv).1
    · rw [hu] at hv
      cases hv
    · rw [hu] at hv
      cases hv
    · rw [hu] at hv
      exact Request.resend.inj hv
  obtain ⟨i, env, a, a', hturn, hrequest, ha, hnone, ha', hsome, rfl⟩ := h
  obtain ⟨hinv, hok⟩ := inv_state c token requests as n
  have hnext : state c token requests as (n + 1) =
      turn (step c token requests) (state c token requests as n) (i, env) := after_succ hturn
  rw [hnext, store_turn] at ha'
  rcases @store_step ι c token requests i env (state c token requests as n).store
      ((state c token requests as n).place i) t hrequest with hsame | ⟨v, b, hplace, hmark⟩
  · rw [hsame, ha] at ha'
    obtain rfl := Option.some.inj ha'
    rw [hnone] at hsome
    cases hsome
  · obtain ⟨hmem, hid⟩ := Accounts.findById_eq_some.mp ha
    have hset : ((state c token requests as n).store.accounts.set v
        (fun a => { a with emailVerifiedAt := some env.now }) fun _ => rfl).findById u = some a' := by
      rw [hmark] at ha'
      exact ha'
    rw [Accounts.findById_set, ha] at hset
    split_ifs at hset with hu
    · subst hu
      obtain rfl := Option.some.inj hset
      obtain ⟨t', j, hrequest', hsends, htoken⟩ := (hok i).found u b hplace
      obtain rfl := Request.verifyEmail.inj (hrequest.symm.trans hrequest')
      have haddress : First c requests u a.email := hid ▸ hinv.rows a hmem hnone
      refine ⟨haddress, ⟨j, hsends, htoken⟩, fun m b' hmail => ?_⟩
      rcases hmail with hmail | hchange
      · obtain ⟨j', u', hsends', htoken', hfirst'⟩ := (inv_state c token requests as m).1.mails b' t hmail
        obtain rfl := hfresh.token (htoken'.trans htoken.symm)
        obtain rfl := hone hsends hsends'
        exact hfirst hfirst' haddress
      · -- A token is generated for a verification or for a change.
        obtain ⟨j', r, hrequest', htoken'⟩ := (inv_state c token requests as m).1.changeMails b' t hchange
        obtain rfl := hfresh.token (htoken'.trans htoken.symm)
        rcases hsends with ⟨email, hash, hsignup⟩ | hresend
        · cases hrequest'.symm.trans hsignup
        · cases hrequest'.symm.trans hresend
    · obtain rfl := Option.some.inj hset
      rw [hnone] at hsome
      cases hsome

/-! ### A sign-up and a verify -/

def jim : Fin 2 → Request
  | 0 => .signUp "1" "Jim@a.org" ""
  | 1 => .verifyEmail "first"

def jimsTokens : Fin 2 → String
  | 0 => "first"
  | 1 => "second"

theorem fresh_jim : Fresh jimsTokens jim where
  token := by unfold Function.Injective; decide
  id := by
    intro j k id email email' hash hash' hj hk
    fin_cases j
    · fin_cases k
      · rfl
      · cases hk
    · cases hj

local instance neZero_two : NeZero 2 := inferInstance

/-- The sign-up goes all its way, and then the verify. -/
def inTurns : List (Fin 2 × EmailChange.Env) := [0, 0, 0, 1, 1].map (·, ⟨0, false⟩)

/-- Jim's row as the sign-up makes it. -/
def unverified : Account := newAccount asciiCasing ⟨0, false⟩ "1" "Jim@a.org" ""

theorem marksMailed_jim : First asciiCasing jim "1" "jim@a.org" ∧
    (∃ j, Sends jim j "1" ∧ jimsTokens j = "first") ∧
    ∀ m b', (b', "first") ∈ (state asciiCasing jimsTokens jim inTurns m).store.mails ∨
      (b', "first") ∈ (state asciiCasing jimsTokens jim inTurns m).store.changeMails → b' = "jim@a.org" := by
  refine @marksMailed _ _ _ _ _ inTurns 4 _ _ _ fresh_jim ⟨1, ⟨0, false⟩, unverified,
    { unverified with emailVerifiedAt := some 0 }, rfl, rfl, ?_, rfl, ?_, rfl, ?_⟩
  · decide
  · decide
  · decide

end StarStats.Server.FirstAddress
