import Mathlib.Data.Fintype.Basic
import Mathlib.Tactic.FinCases
import Mathlib.Tactic.IntervalCases
import StarStats.Lib.Threads
import StarStats.Server.Credentials

/-! # Change of address

A start stages an address with a token and mails the token to it; a verify looks the token up, and then
makes the address of the account whatever is staged by that time. The address is the one that the token
was mailed to exactly when no start in between has left another. -/

namespace StarStats.Server.EmailChange

open StarStats.Lib.Tables StarStats.Lib.Text StarStats.Lib.Threads StarStats.Server.Credentials

/-- `EMAIL_CHANGE_TTL_HOURS`, in seconds. -/
def emailChangeTtl : ℤ := 24 * 3600

inductive Request where
  | start (userId newEmail : String)
  | verify (token : String)

inductive Response where
  | error (status : ℕ) (code : String)
  | pending (pendingEmail : String)
  | changed (email : String)
  deriving DecidableEq

/-- Where a request is. -/
inductive Place where
  | asked
  /-- No other account has the address. -/
  | checked (newEmail : String)
  | staged (newEmail : String)
  /-- The token is the account's, and has not expired. -/
  | found (user : Account)
  | answered (r : Response)
  deriving DecidableEq

/-- The clock, and whether the call of a step fails. -/
structure Env where
  now : ℤ
  fault : Bool

/-- The accounts, and the mails sent: to which address, with which token. -/
structure Store where
  accounts : Accounts
  mails : List (String × String)

section Handlers
variable (c : Casing) (env : Env) (st : Store)

/-- The address as it is staged and mailed to. -/
def addressOf (newEmail : String) : String := c.toLowercase (trim newEmail)

/-- The steps of a start, with the token that it generates. -/
def emailChangeStart (token userId newEmail : String) : Place → Store × Place
  | .asked =>
    if addressOf c newEmail = "" || !contains (addressOf c newEmail) "@" then
      (st, .answered (.error 400 "invalid_email"))
    else
      -- A lookup that fails is passed over.
      match if env.fault then none else st.accounts.findByEmail c (addressOf c newEmail) with
      | some other =>
        if other.id ≠ userId then (st, .answered (.error 409 "email_taken"))
        else (st, .checked (addressOf c newEmail))
      | none => (st, .checked (addressOf c newEmail))
  | .checked newEmail =>
    if env.fault then (st, .answered (.error 500 "internal"))
    else ({ st with accounts :=
      st.accounts.setPendingEmail c userId newEmail token (env.now + emailChangeTtl) }, .staged newEmail)
  | .staged newEmail =>
    (if env.fault then st else { st with mails := st.mails ++ [(newEmail, token)] },
      .answered (.pending newEmail))
  | place => (st, place)

/-- No time counts as expired. -/
def isExpired (now : ℤ) (expiresAt : Option ℤ) : Bool := expiresAt.elim true (· < now)

/-- The steps of a verify. -/
def emailChangeVerify (token : String) : Place → Store × Place
  | .asked =>
    if trim token = "" then (st, .answered (.error 400 "invalid_or_expired"))
    else if env.fault then (st, .answered (.error 500 "internal"))
    else
      match st.accounts.findByPendingEmailToken token with
      | none => (st, .answered (.error 400 "invalid_or_expired"))
      | some user =>
        if isExpired env.now user.pendingEmailExpiresAt then
          (st, .answered (.error 400 "invalid_or_expired"))
        else (st, .found user)
  | .found user =>
    if env.fault then (st, .answered (.error 500 "internal"))
    else
      match st.accounts.commitPendingEmail c user.id env.now with
      | none => (st, .answered (.error 409 "email_taken"))
      | some accounts =>
        ({ st with accounts := accounts }, .answered (.changed (user.pendingEmail.getD "")))
  | place => (st, place)

end Handlers

section Machine
variable {ι : Type} [DecidableEq ι] (c : Casing) (token : ι → String) (requests : ι → Request)

/-- A request takes its next step. -/
def step (i : ι) (env : Env) (st : Store) (place : Place) : Store × Place :=
  match requests i with
  | .start userId newEmail => emailChangeStart c env st (token i) userId newEmail place
  | .verify t => emailChangeVerify c env st t place

/-- All requests are yet to begin. -/
def initial (accounts : Accounts) : Shared ι Store Place := ⟨⟨accounts, []⟩, fun _ => .asked⟩

/-- The token has been made for what is pending under it: by a start, or before all of them. -/
def MadeFor (accounts : Accounts) (t : String) (pending : Option String) : Prop :=
  (∃ j userId newEmail, requests j = .start userId newEmail ∧ token j = t ∧
    pending = some (addressOf c newEmail)) ∨
  ∃ a ∈ accounts.contents, a.pendingEmailToken = some t ∧ a.pendingEmail = pending

/-- A token is made once. -/
structure FreshTokens (accounts : Accounts) : Prop where
  injective : Function.Injective token
  unused : ∀ j, ∀ a ∈ accounts.contents, a.pendingEmailToken ≠ some (token j)
  distinct : ∀ a ∈ accounts.contents, ∀ a' ∈ accounts.contents, ∀ t,
    a.pendingEmailToken = some t → a'.pendingEmailToken = some t → a = a'

variable (accounts : Accounts) (as : List (ι × Env))

/-- The state after the first turns. -/
def state (n : ℕ) : Shared ι Store Place := after (step c token requests) (initial accounts) as n

/-- What is pending for an account. -/
def pendingOf (st : Store) (userId : String) : Option String :=
  (st.accounts.findById userId).bind (·.pendingEmail)

/-- A verify with the token rewrites the row of the account, and makes `b` its address. -/
structure Makes (n : ℕ) (i : ι) (t b : String) : Prop where
  request : requests i = .verify t
  turns : ∃ env, as[n]? = some (i, env)
  rewrites : ∃ user a a', (state c token requests accounts as n).place i = .found user ∧
    (state c token requests accounts as n).store.accounts.findById user.id = some a ∧
    (state c token requests accounts as (n + 1)).store.accounts.findById user.id = some a' ∧
    a' ≠ a ∧ a'.email = b

/-- **A verify makes no other address the account's than the one its token was mailed to.** -/
def ProvenOnly : Prop :=
  ∀ n i t b, Makes c token requests accounts as n i t b → MadeFor c token requests accounts t (some b)

/-- A start stages an address for an account. -/
def Stages (n : ℕ) (userId b : String) : Prop :=
  ∃ j env newEmail, as[n]? = some (j, env) ∧ env.fault = false ∧
    requests j = .start userId newEmail ∧ (state c token requests accounts as n).place j = .checked b

/-- A verify that has found the account commits, and neither a failure nor the unique index is in its
way. -/
structure Commits (n : ℕ) (i : ι) (user : Account) : Prop where
  request : ∃ t, requests i = .verify t
  turns : ∃ env, as[n]? = some (i, env) ∧ env.fault = false
  place : (state c token requests accounts as n).place i = .found user
  free : (state c token requests accounts as n).store.accounts.emailTaken c user.id = false

/-- An address that a start stages while a verify has found the account, and that is still pending when
the verify commits, is the one that it has found. -/
def NoneBetween : Prop :=
  ∀ k n i user b, k < n → Commits c token requests accounts as n i user →
    (∀ p, k ≤ p → p ≤ n → (state c token requests accounts as p).place i = .found user) →
    Stages c token requests accounts as k user.id b →
    pendingOf (state c token requests accounts as n).store user.id = some b →
    user.pendingEmail = some b

end Machine

/-! ### What a step does -/

section Steps
variable {ι : Type} {c : Casing} {token : ι → String} {requests : ι → Request} {accounts : Accounts}
  {i : ι} {env : Env} {st : Store} {place : Place} {user : Account} {t u b newEmail : String}

/-- The accounts stay as they are, or a start stages an address, or a verify commits. -/
theorem accounts_step (c : Casing) (token : ι → String) (requests : ι → Request) (i : ι) (env : Env)
    (st : Store) (place : Place) :
    (step c token requests i env st place).1.accounts = st.accounts ∨
    (∃ u newEmail b, requests i = .start u newEmail ∧ place = .checked b ∧ env.fault = false ∧
      (step c token requests i env st place).1.accounts =
        st.accounts.setPendingEmail c u b (token i) (env.now + emailChangeTtl)) ∨
    ∃ t user, requests i = .verify t ∧ place = .found user ∧ env.fault = false ∧
      st.accounts.emailTaken c user.id = false ∧
      (step c token requests i env st place).1.accounts =
        st.accounts.set user.id (Accounts.promotePending env.now) (Accounts.id_promotePending env.now) := by
  unfold step
  cases hrequest : requests i with
  | start u newEmail =>
    unfold emailChangeStart
    cases place with
    | asked =>
      left
      simp only
      split_ifs
      · rfl
      · split <;> [split_ifs <;> rfl; rfl]
      · split <;> [split_ifs <;> rfl; rfl]
    | checked b =>
      simp only
      split_ifs with hfault
      · exact Or.inl rfl
      · exact Or.inr (Or.inl ⟨u, newEmail, b, rfl, rfl, Bool.eq_false_iff.mpr hfault, rfl⟩)
    | staged b =>
      left
      simp only
      split_ifs <;> rfl
    | found | answered => exact Or.inl rfl
  | verify t =>
    unfold emailChangeVerify
    cases place with
    | asked =>
      left
      simp only
      split_ifs
      · rfl
      · rfl
      · split
        · rfl
        · split_ifs <;> rfl
    | found user =>
      simp only
      split_ifs with hfault
      · exact Or.inl rfl
      · unfold Accounts.commitPendingEmail
        split_ifs with htaken
        · exact Or.inl rfl
        · exact Or.inr (Or.inr ⟨t, user, rfl, rfl, Bool.eq_false_iff.mpr hfault,
            Bool.eq_false_iff.mpr htaken, rfl⟩)
    | checked | staged | answered => exact Or.inl rfl

/-- A mail goes to the address that has been staged, with the token of the start. -/
theorem mails_step (c : Casing) (token : ι → String) (requests : ι → Request) (i : ι) (env : Env)
    (st : Store) (place : Place) :
    (step c token requests i env st place).1.mails = st.mails ∨
    ∃ u newEmail b, requests i = .start u newEmail ∧ place = .staged b ∧
      (step c token requests i env st place).1.mails = st.mails ++ [(b, token i)] := by
  unfold step
  cases hrequest : requests i with
  | start u newEmail =>
    unfold emailChangeStart
    cases place with
    | asked =>
      left
      simp only
      split_ifs
      · rfl
      · split <;> [split_ifs <;> rfl; rfl]
      · split <;> [split_ifs <;> rfl; rfl]
    | checked b =>
      left
      simp only
      split_ifs <;> rfl
    | staged b =>
      simp only
      split_ifs
      · exact Or.inl rfl
      · exact Or.inr ⟨u, newEmail, b, rfl, rfl, rfl⟩
    | found | answered => exact Or.inl rfl
  | verify t =>
    left
    unfold emailChangeVerify
    cases place with
    | asked =>
      simp only
      split_ifs
      · rfl
      · rfl
      · split
        · rfl
        · split_ifs <;> rfl
    | found user =>
      simp only
      split_ifs
      · rfl
      · split <;> rfl
    | checked | staged | answered => rfl

/-- The places that a start passes through. -/
theorem start_step (hrequest : requests i = .start u newEmail) :
    (∀ b, (step c token requests i env st place).2 = .checked b →
      place = .checked b ∨ b = addressOf c newEmail) ∧
    (∀ b, (step c token requests i env st place).2 = .staged b →
      place = .staged b ∨ place = .checked b) ∧
    ∀ user, (step c token requests i env st place).2 = .found user → place = .found user := by
  unfold step
  rw [hrequest]
  simp only
  unfold emailChangeStart
  cases place with
  | asked =>
    simp only
    split_ifs
    · simp
    · split
      · split_ifs <;> simp [eq_comm]
      · simp [eq_comm]
    · split
      · split_ifs <;> simp [eq_comm]
      · simp [eq_comm]
  | checked b =>
    simp only
    split_ifs
    · simp
    · simp
  | _ => simp

/-- A verify finds an account by its token. -/
theorem verify_step (hrequest : requests i = .verify t) :
    (∀ b, (step c token requests i env st place).2 = .checked b → place = .checked b) ∧
    (∀ b, (step c token requests i env st place).2 = .staged b → place = .staged b) ∧
    ∀ user, (step c token requests i env st place).2 = .found user →
      place = .asked ∧ st.accounts.findByPendingEmailToken t = some user ∧
        (step c token requests i env st place).1 = st := by
  unfold step
  rw [hrequest]
  simp only
  unfold emailChangeVerify
  cases place with
  | asked =>
    simp only
    split_ifs
    · simp
    · simp
    · split
      · simp
      · split_ifs <;> simp_all
  | found user =>
    simp only
    split_ifs
    · simp
    · split <;> simp
  | _ => simp

end Steps

/-! ### What holds in every state -/

section Invariant
variable {ι : Type} {c : Casing} {token : ι → String} {requests : ι → Request}
  {accounts : Accounts} {as : List (ι × Env)} {i : ι} {env : Env} {st : Store} {place : Place}
  {user : Account} {t u b : String} {n : ℕ}

/-- Every token stands beside, and is mailed to, the address that it was made for. -/
structure Traced (c : Casing) (token : ι → String) (requests : ι → Request) (accounts : Accounts)
    (st : Store) : Prop where
  rows : ∀ a ∈ st.accounts.contents, ∀ t, a.pendingEmailToken = some t →
    MadeFor c token requests accounts t a.pendingEmail
  mails : ∀ b t, (b, t) ∈ st.mails → MadeFor c token requests accounts t (some b)

/-- What a request on its way knows of the accounts. -/
structure Fits (c : Casing) (token : ι → String) (requests : ι → Request) (accounts : Accounts) (i : ι)
    (place : Place) : Prop where
  checked : ∀ b, place = .checked b →
    ∃ u newEmail, requests i = .start u newEmail ∧ b = addressOf c newEmail
  staged : ∀ b, place = .staged b →
    ∃ u newEmail, requests i = .start u newEmail ∧ b = addressOf c newEmail
  found : ∀ user, place = .found user → ∃ t, requests i = .verify t ∧
    user.pendingEmailToken = some t ∧ MadeFor c token requests accounts t user.pendingEmail

theorem pendingEmail_promotePending (now : ℤ) (a : Account) :
    (Accounts.promotePending now a).pendingEmail = none := by
  unfold Accounts.promotePending
  split
  · assumption
  · rfl

theorem pendingEmail_of_promotePending {now : ℤ} {a : Account}
    (h : Accounts.promotePending now a ≠ a) :
    a.pendingEmail = some (Accounts.promotePending now a).email := by
  unfold Accounts.promotePending at h ⊢
  split
  · next hpending =>
    rw [hpending] at h
    exact absurd rfl h
  · next hpending => exact hpending

theorem token_promotePending {now : ℤ} {a : Account} (h : (Accounts.promotePending now a).pendingEmailToken =
    some t) : Accounts.promotePending now a = a := by
  unfold Accounts.promotePending at h ⊢
  split
  · rfl
  · next hpending =>
    rw [hpending] at h
    cases h

theorem Traced.step (h : Traced c token requests accounts st)
    (hfits : Fits c token requests accounts i place) :
    Traced c token requests accounts (step c token requests i env st place).1 := by
  constructor
  · intro a ha t htoken
    rcases accounts_step c token requests i env st place with
      hsame | ⟨u, newEmail, b, hrequest, hplace, -, hset⟩ | ⟨t', user, hrequest, hplace, -, -, hset⟩
    · rw [hsame] at ha
      exact h.rows a ha t htoken
    · rw [hset] at ha
      rcases Accounts.mem_contents_set ha with hold | ⟨a', -, -, rfl⟩
      · exact h.rows a hold t htoken
      · obtain ⟨u', newEmail', hrequest', rfl⟩ := hfits.checked b hplace
        refine Or.inl ⟨i, u', newEmail', hrequest', Option.some.inj htoken, ?_⟩
        exact congrArg some (c.lower_toLowercase _)
    · rw [hset] at ha
      rcases Accounts.mem_contents_set ha with hold | ⟨a', ha', -, rfl⟩
      · exact h.rows a hold t htoken
      · have hsame := token_promotePending htoken
        rw [hsame] at htoken ⊢
        exact h.rows a' ha' t htoken
  · intro b t hmem
    rcases mails_step c token requests i env st place with
      hsame | ⟨u, newEmail, b', hrequest, hplace, hmails⟩
    · rw [hsame] at hmem
      exact h.mails b t hmem
    · rw [hmails] at hmem
      rcases List.mem_append.mp hmem with hold | hnew
      · exact h.mails b t hold
      · obtain ⟨rfl, rfl⟩ := Prod.mk.inj (List.mem_singleton.mp hnew)
        obtain ⟨u', newEmail', hrequest', rfl⟩ := hfits.staged b hplace
        exact Or.inl ⟨i, u', newEmail', hrequest', rfl, rfl⟩

theorem Fits.step (hfits : Fits c token requests accounts i place)
    (h : Traced c token requests accounts st) :
    Fits c token requests accounts i (step c token requests i env st place).2 := by
  cases hrequest : requests i with
  | start u newEmail =>
    obtain ⟨hchecked, hstaged, hfound⟩ :=
      @start_step ι c token requests i env st place u newEmail hrequest
    constructor
    · intro b hb
      rcases hchecked b hb with hsame | hnew
      · exact hfits.checked b hsame
      · exact ⟨u, newEmail, hrequest, hnew⟩
    · intro b hb
      rcases hstaged b hb with hsame | hbefore
      · exact hfits.staged b hsame
      · exact hfits.checked b hbefore
    · exact fun user huser => hfits.found user (hfound user huser)
  | verify t =>
    obtain ⟨hchecked, hstaged, hfound⟩ := @verify_step ι c token requests i env st place t hrequest
    refine ⟨fun b hb => hfits.checked b (hchecked b hb), fun b hb => hfits.staged b (hstaged b hb),
      fun user huser => ?_⟩
    obtain ⟨-, hlookup, -⟩ := hfound user huser
    obtain ⟨hrow, htoken⟩ := Accounts.findByPendingEmailToken_some hlookup
    exact ⟨t, hrequest, htoken, h.rows user (Accounts.findById_eq_some.mp hrow).1 t htoken⟩

/-- A token that is made once is made for one address. -/
theorem FreshTokens.eq_of_madeFor (h : FreshTokens token accounts) {p q : Option String}
    (hp : MadeFor c token requests accounts t p) (hq : MadeFor c token requests accounts t q) :
    p = q := by
  rcases hp with ⟨j, u, newEmail, hj, rfl, rfl⟩ | ⟨a, ha, htoken, rfl⟩
  · rcases hq with ⟨j', u', newEmail', hj', htoken', rfl⟩ | ⟨a', ha', htoken', rfl⟩
    · obtain rfl := h.injective htoken'
      rw [hj] at hj'
      obtain ⟨-, rfl⟩ := Request.start.inj hj'
      rfl
    · exact absurd htoken' (h.unused j a' ha')
  · rcases hq with ⟨j', u', newEmail', hj', rfl, rfl⟩ | ⟨a', ha', htoken', rfl⟩
    · exact absurd htoken (h.unused j' a ha)
    · rw [h.distinct a ha a' ha' t htoken htoken']

variable [DecidableEq ι]

theorem traced_state (c : Casing) (token : ι → String) (requests : ι → Request) (accounts : Accounts)
    (as : List (ι × Env)) (n : ℕ) :
    Traced c token requests accounts (state c token requests accounts as n).store ∧
      ∀ i, Fits c token requests accounts i ((state c token requests accounts as n).place i) := by
  refine @placed_after ι Store Place Env _ (step c token requests) (initial accounts)
    (Traced c token requests accounts) (fun i _ place => Fits c token requests accounts i place)
    ?_ ?_ ?_ as n
  · exact fun i e st l htraced hfits => ⟨htraced.step hfits, hfits.step htraced⟩
  · exact fun i e st l j l' _ _ _ hj => hj
  · refine ⟨⟨fun a ha t htoken => Or.inr ⟨a, ha, htoken, rfl⟩, by simp [initial]⟩, fun i => ?_⟩
    exact ⟨by simp [initial], by simp [initial], by simp [initial]⟩

/-- **Every mail goes to the address that its token was made for.** -/
theorem mailed_madeFor (h : (b, t) ∈ (state c token requests accounts as n).store.mails) :
    MadeFor c token requests accounts t (some b) :=
  (traced_state c token requests accounts as n).1.mails b t h

/-- The row of a verify that has found its account is as it has found it when its lookup ends. -/
theorem exists_lookup (hrequest : requests i = .verify t)
    (h : (state c token requests accounts as n).place i = .found user) :
    ∃ k, k ≤ n ∧ (state c token requests accounts as k).store.accounts.findById user.id = some user ∧
      ∀ p, k ≤ p → p ≤ n → (state c token requests accounts as p).place i = .found user := by
  obtain ⟨m, e, hmn, ha, -, hstays⟩ :=
    exists_arrival (Q := fun l : Place => l = .found user) (by simp [initial]) h
  have hturn : state c token requests accounts as (m + 1) =
      turn (step c token requests) (state c token requests accounts as m) (i, e) := after_succ ha
  have hplace := hstays (m + 1) (by omega) (by omega)
  rw [after_succ ha, place_turn_self] at hplace
  obtain ⟨-, hlookup, hstore⟩ := (verify_step hrequest).2.2 user hplace
  refine ⟨m + 1, by omega, ?_, fun p hp => hstays p (by omega)⟩
  rw [hturn, store_turn]
  refine (congrArg (fun st : Store => st.accounts.findById user.id) hstore).trans ?_
  exact (Accounts.findByPendingEmailToken_some hlookup).1

/-- What becomes pending for an account a start has staged. -/
theorem stages_of_turned (hnew : as[n]? = some (i, env))
    (hbefore : pendingOf (state c token requests accounts as n).store u ≠ some b)
    (hafter : pendingOf (turn (step c token requests) (state c token requests accounts as n)
      (i, env)).store u = some b) : Stages c token requests accounts as n u b := by
  rw [store_turn] at hafter
  unfold pendingOf at hbefore hafter
  rcases accounts_step c token requests i env (state c token requests accounts as n).store
      ((state c token requests accounts as n).place i) with
    hsame | ⟨u', newEmail, b', hrequest, hplace, hfault, hset⟩ | ⟨t', user, hrequest, hplace, -, -, hset⟩
  · rw [hsame] at hafter
    exact absurd hafter hbefore
  · rw [hset, Accounts.setPendingEmail, Accounts.findById_set] at hafter
    split_ifs at hafter with hu
    · subst hu
      obtain ⟨u', newEmail', -, haddress⟩ :=
        ((traced_state c token requests accounts as n).2 i).checked b' hplace
      obtain ⟨a', hset', hpending⟩ := Option.bind_eq_some_iff.mp hafter
      obtain ⟨a, -, rfl⟩ := Option.map_eq_some_iff.mp hset'
      have hb : b' = b := by
        have hlower : c.lower b' = b' := haddress ▸ c.lower_toLowercase _
        rw [← hlower]
        exact Option.some.inj hpending
      exact ⟨i, env, newEmail, hnew, hfault, hrequest, hb ▸ hplace⟩
    · exact absurd hafter hbefore
  · rw [hset, Accounts.findById_set] at hafter
    split_ifs at hafter with hu
    · obtain ⟨a', hset', hpending⟩ := Option.bind_eq_some_iff.mp hafter
      obtain ⟨a, -, rfl⟩ := Option.map_eq_some_iff.mp hset'
      rw [pendingEmail_promotePending] at hpending
      cases hpending
    · exact absurd hafter hbefore

/-- A verify makes an address the account's exactly when it commits while the address is pending. -/
theorem makes_iff (hrequest : requests i = .verify t) :
    Makes c token requests accounts as n i t b ↔
      ∃ user, Commits c token requests accounts as n i user ∧
        pendingOf (state c token requests accounts as n).store user.id = some b := by
  constructor
  · rintro ⟨-, ⟨env, hturn⟩, user, a, a', hplace, ha, ha', hne, rfl⟩
    have hstate : state c token requests accounts as (n + 1) =
      turn (step c token requests) (state c token requests accounts as n) (i, env) := after_succ hturn
    rw [hstate, store_turn] at ha'
    rcases accounts_step c token requests i env (state c token requests accounts as n).store
        ((state c token requests accounts as n).place i) with
      hsame | ⟨u', newEmail, b', hstart, -⟩ | ⟨t', user', -, hplace', hfault, hfree, hset⟩
    · rw [hsame, ha] at ha'
      exact absurd (Option.some.inj ha').symm hne
    · rw [hrequest] at hstart
      cases hstart
    · obtain rfl := Place.found.inj (hplace'.symm.trans hplace)
      refine ⟨user', ⟨⟨t, hrequest⟩, ⟨env, hturn, hfault⟩, hplace, hfree⟩, ?_⟩
      rw [hset, Accounts.findById_set, if_pos rfl, ha] at ha'
      obtain rfl := Option.some.inj ha'
      unfold pendingOf
      rw [ha]
      exact pendingEmail_of_promotePending hne
  · rintro ⟨user, ⟨-, ⟨env, hturn, hfault⟩, hplace, hfree⟩, hpending⟩
    obtain ⟨a, ha, hb⟩ := Option.bind_eq_some_iff.mp hpending
    have hstate : state c token requests accounts as (n + 1) =
      turn (step c token requests) (state c token requests accounts as n) (i, env) := after_succ hturn
    refine ⟨hrequest, ⟨env, hturn⟩, user, a, Accounts.promotePending env.now a, hplace, ha, ?_, ?_, ?_⟩
    · rw [hstate, store_turn, hplace]
      unfold step
      rw [hrequest]
      simp only [emailChangeVerify, hfault, Accounts.commitPendingEmail, hfree, Bool.false_eq_true,
        if_false]
      rw [Accounts.findById_set, if_pos rfl, ha]
      rfl
    · intro hsame
      have hnone := pendingEmail_promotePending env.now a
      rw [hsame, hb] at hnone
      cases hnone
    · unfold Accounts.promotePending
      rw [hb]

end Invariant

/-- **Every verify makes the address its token was mailed to the account's, exactly when no start that
comes between its lookup and its commit leaves another.** -/
theorem provenOnly_iff {ι : Type} [DecidableEq ι] {c : Casing} {token : ι → String}
    {requests : ι → Request} {accounts : Accounts} {as : List (ι × Env)}
    (h : FreshTokens token accounts) :
    ProvenOnly c token requests accounts as ↔ NoneBetween c token requests accounts as := by
  have hfound : ∀ {n i user}, (state c token requests accounts as n).place i = .found user →
      ∃ t, requests i = .verify t ∧ MadeFor c token requests accounts t user.pendingEmail := by
    intro n i user hplace
    obtain ⟨t, hrequest, -, hmade⟩ := ((traced_state c token requests accounts as n).2 i).found user hplace
    exact ⟨t, hrequest, hmade⟩
  constructor
  · intro hproven k n i user b _ hcommits _ _ hpending
    obtain ⟨t, hrequest, hmade⟩ := hfound hcommits.place
    have hmakes := hproven n i t b ((makes_iff hrequest).mpr ⟨user, hcommits, hpending⟩)
    exact h.eq_of_madeFor hmade hmakes
  · intro hnone n i t b hmakes
    obtain ⟨user, hcommits, hpending⟩ := (makes_iff hmakes.request).mp hmakes
    obtain ⟨t', hrequest, hmade⟩ := hfound hcommits.place
    obtain rfl : t' = t := by
      rw [hmakes.request] at hrequest
      exact (Request.verify.inj hrequest).symm
    obtain ⟨k, hkn, hrow, hstays⟩ := exists_lookup hmakes.request hcommits.place
    have hcases := @holds_or_turned ι Store Place Env _ (step c token requests) (initial accounts) as n k
      (fun st => pendingOf st user.id = some b) hkn hpending
    rcases hcases with hfirst | ⟨m, j, env, hkm, hmn, ha, hbefore, hafter⟩
    · have hsame : user.pendingEmail = some b := by
        have hrow' : pendingOf (state c token requests accounts as k).store user.id =
          user.pendingEmail := by unfold pendingOf; rw [hrow]; rfl
        rw [← hrow']
        exact hfirst
      rwa [hsame] at hmade
    · -- A start has staged the address since, so it is the one that the verify has found.
      have hsame := hnone m n i user b hmn hcommits (fun p hp => hstays p (by omega))
        (stages_of_turned ha hbefore hafter) hpending
      rwa [hsame] at hmade

/-! ### Two starts and a verify -/

def alice : Account :=
  ⟨"1", "alice@a.org", none, "", 0, none, none, none, none, none, none, none, none, none⟩

def onlyAlice : Accounts := Table.empty.insert alice

def twoStarts : Fin 3 → Request
  | 0 => .start "1" "b@b.org"
  | 1 => .start "1" "c@c.org"
  | 2 => .verify "first"

def twoTokens : Fin 3 → String
  | 0 => "first"
  | 1 => "second"
  | 2 => "third"

theorem freshTokens_twoTokens : FreshTokens twoTokens onlyAlice := by
  have hrows : onlyAlice.contents = [alice] := by decide +kernel
  refine ⟨by unfold Function.Injective; decide, ?_, ?_⟩
  · rw [hrows]
    decide
  · simp [hrows]

/-- What Alice's row is while the address of the first start is pending. -/
def pendingFirst : Account :=
  { alice with
    pendingEmail := some "b@b.org"
    pendingEmailToken := some "first"
    pendingEmailExpiresAt := some emailChangeTtl }

/-- The second start comes after the verify. -/
def inTurns : List (Fin 3 × Env) := [0, 0, 0, 2, 2, 1, 1, 1].map (·, ⟨0, false⟩)

theorem provenOnly_inTurns : ProvenOnly asciiCasing twoTokens twoStarts onlyAlice inTurns := by
  refine (provenOnly_iff freshTokens_twoTokens).mpr ?_
  rintro k n i user b hkn ⟨⟨t, hrequest⟩, ⟨env, hturn, -⟩, -, -⟩ hstays - -
  have hasked : ∀ p < 4,
      (state asciiCasing twoTokens twoStarts onlyAlice inTurns p).place 2 = .asked := by
    decide +kernel
  obtain rfl : i = 2 := by
    fin_cases i <;> simp [twoStarts] at hrequest ⊢
  by_cases hk : k < 4
  · have hfound := hstays k (le_refl k) hkn.le
    rw [hasked k hk] at hfound
    cases hfound
  · obtain ⟨hlen, -⟩ := List.getElem?_eq_some_iff.mp hturn
    have hn : n < 8 := hlen
    interval_cases n <;> first | omega | simp [inTurns] at hturn

/-- The second start comes between the lookup of the verify and its commit. -/
def overtaken : List (Fin 3 × Env) := [0, 0, 0, 2, 1, 1, 2].map (·, ⟨0, false⟩)

/-- The address of the second start is verified with the token of the first. -/
theorem not_provenOnly_overtaken : FreshTokens twoTokens onlyAlice ∧
    ¬ ProvenOnly asciiCasing twoTokens twoStarts onlyAlice overtaken := by
  refine ⟨freshTokens_twoTokens, fun h => ?_⟩
  have hmade := h 6 2 "first" "c@c.org" ⟨rfl, ⟨_, rfl⟩, pendingFirst,
    { pendingFirst with pendingEmail := some "c@c.org", pendingEmailToken := some "second" },
    { alice with email := "c@c.org", emailVerifiedAt := some 0 },
    by decide +kernel, by decide +kernel, by decide +kernel, by decide, rfl⟩
  have honly : MadeFor asciiCasing twoTokens twoStarts onlyAlice "first" (some "b@b.org") :=
    Or.inl ⟨0, "1", "b@b.org", rfl, rfl, by decide +kernel⟩
  exact absurd (freshTokens_twoTokens.eq_of_madeFor hmade honly) (by decide)

end StarStats.Server.EmailChange
