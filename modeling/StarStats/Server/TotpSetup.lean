import Mathlib.Data.Fintype.Basic
import Mathlib.Tactic.IntervalCases
import StarStats.Lib.Threads
import StarStats.Server.Credentials

/-! # Set-up of the second factor

A setup stores a secret, a confirm reads it, verifies a code against it and turns the second factor on,
and a disable wipes it; each reads the row first and writes it later. Where the second factor is on, the
stored secret is the one that the confirm verified, exactly when nothing has replaced it between the read
and the write of a confirm, and no setup writes while the second factor is on. -/

namespace StarStats.Server.TotpSetup

open StarStats.Lib StarStats.Lib.Tables StarStats.Lib.Threads StarStats.Server.Credentials

inductive Request where
  | setup (userId : String)
  | confirm (userId code : String)
  | disable (userId password : String)

inductive Response where
  | error (status : ℕ) (code : String)
  | issued (secret : String)
  | enabled
  | disabled
  deriving DecidableEq

/-- Where a request is. -/
inductive Place where
  | asked
  /-- The second factor of the account is off. -/
  | checked
  /-- There is no secret, and this one is to be stored. -/
  | fresh (secret ciphertext nonce : String)
  /-- The code is right for the secret. -/
  | verified (secret : String)
  | marked
  /-- The password is right. -/
  | authorised
  | cleared
  | answered (r : Response)
  deriving DecidableEq

/-- The clock, whether the call of a step fails, and what is drawn at random. -/
structure Env where
  now : ℤ
  fault : Bool
  secret : String
  nonce : String

/-- What the routes are given: the key that secrets are stored under, and the checks of a code and of a
password. -/
structure Checks where
  encrypt : String → String → Option String
  decrypt : String → String → Option String
  verifyNow : String → String → ℤ → Bool
  verifyPassword : String → String → Bool

/-- The accounts, and against which secret the last confirm of each has verified its code. -/
structure Store where
  accounts : Accounts
  confirmed : String → Option String

section Handlers
variable (k : Checks) (env : Env) (st : Store)

/-- `none` where there is no secret, `some none` where it does not decrypt. -/
def decryptUserSecret (accounts : Accounts) (userId : String) : Option (Option String) :=
  (accounts.getTotpSecret userId).map fun s => k.decrypt s.1 s.2

/-- A lookup that lets a user with the second factor off go on. -/
def checkOff (userId : String) : Place :=
  if env.fault then .answered (.error 500 "internal")
  else
    match st.accounts.findById userId with
    | none => .answered (.error 401 "unauthorized")
    | some user =>
      if user.totpEnabledAt.isSome then .answered (.error 409 "totp_already_enabled") else .checked

/-- A new secret, once the account is checked. -/
def setup (userId : String) : Place → Store × Place
  | .asked => (st, checkOff env st userId)
  | .checked =>
    if env.fault then (st, .answered (.error 500 "internal"))
    else
      match decryptUserSecret k st.accounts userId with
      | some none => (st, .answered (.error 500 "decrypt_failed"))
      -- The secret in flight is used again.
      | some (some secret) => (st, .answered (.issued secret))
      | none =>
        match k.encrypt env.secret env.nonce with
        | none => (st, .answered (.error 500 "encrypt_failed"))
        | some ciphertext => (st, .fresh env.secret ciphertext env.nonce)
  | .fresh secret ciphertext nonce =>
    if env.fault then (st, .answered (.error 500 "internal"))
    else ({ st with accounts := st.accounts.startTotpSetup userId ciphertext nonce env.now },
      .answered (.issued secret))
  | place => (st, place)

/-- A code of the secret turns the second factor on. -/
def confirm (userId code : String) : Place → Store × Place
  | .asked => (st, checkOff env st userId)
  | .checked =>
    if env.fault then (st, .answered (.error 500 "internal"))
    else
      match decryptUserSecret k st.accounts userId with
      | some none => (st, .answered (.error 500 "decrypt_failed"))
      | none => (st, .answered (.error 409 "no_setup_in_flight"))
      | some (some secret) =>
        if k.verifyNow secret code env.now then (st, .verified secret)
        else (st, .answered (.error 422 "code_mismatch"))
  | .verified secret =>
    if env.fault then (st, .answered (.error 500 "internal"))
    else
      (⟨st.accounts.markTotpEnabled userId env.now, Function.update st.confirmed userId (some secret)⟩,
        .marked)
  -- The recovery codes are made anew; where that fails, there are none.
  | .marked => (st, .answered .enabled)
  | place => (st, place)

/-- The password turns it off. -/
def disable (userId password : String) : Place → Store × Place
  | .asked =>
    if env.fault then (st, .answered (.error 500 "internal"))
    else
      match st.accounts.findById userId with
      | none => (st, .answered (.error 401 "unauthorized"))
      | some user =>
        if k.verifyPassword password user.passwordHash then (st, .authorised)
        else (st, .answered (.error 401 "invalid_credentials"))
  -- The recovery codes are cleared first.
  | .authorised => (st, if env.fault then .answered (.error 500 "internal") else .cleared)
  | .cleared =>
    if env.fault then (st, .answered (.error 500 "internal"))
    else ({ st with accounts := st.accounts.disableTotp userId }, .answered .disabled)
  | place => (st, place)

end Handlers

section Machine
variable {ι : Type} [DecidableEq ι] (k : Checks) (requests : ι → Request)

/-- A request takes its next step. -/
def step (i : ι) (env : Env) (st : Store) (place : Place) : Store × Place :=
  match requests i with
  | .setup userId => setup k env st userId place
  | .confirm userId code => confirm k env st userId code place
  | .disable userId password => disable k env st userId password place

/-- All requests are yet to begin. -/
def initial (start : Store) : Shared ι Store Place := ⟨start, fun _ => .asked⟩

variable (start : Store) (as : List (ι × Env))

/-- The state after the first turns. -/
def state (n : ℕ) : Shared ι Store Place := after (step k requests) (initial start) as n

/-- The secret that is stored for an account, where it decrypts. -/
def secretOf (accounts : Accounts) (userId : String) : Option String :=
  (decryptUserSecret k accounts userId).join

/-- The second factor of an account is on. -/
def Enabled (accounts : Accounts) (userId : String) : Prop :=
  ∃ a, accounts.findById userId = some a ∧ a.totpEnabledAt ≠ none

/-- Wherever the second factor is on, a secret is stored, and the last confirm verified its code against
it. -/
def Confirmed (st : Store) : Prop :=
  ∀ u, Enabled st.accounts u → ∃ s, secretOf k st.accounts u = some s ∧ st.confirmed u = some s

/-- **Every state is so.** -/
def AlwaysConfirmed : Prop := ∀ n, Confirmed k (state k requests start as n).store

/-- What the next step of a request is to find: a confirm that turns the second factor on, the secret that
it has verified; a setup that stores a secret, the second factor off, or this secret confirmed. -/
structure Undisturbed (s : Shared ι Store Place) (a : ι × Env) : Prop where
  confirm : ∀ u code secret, requests a.1 = .confirm u code → s.place a.1 = .verified secret →
    a.2.fault = false → (s.store.accounts.findById u).isSome = true →
    secretOf k s.store.accounts u = some secret
  setup : ∀ u secret ciphertext nonce, requests a.1 = .setup u →
    s.place a.1 = .fresh secret ciphertext nonce → a.2.fault = false → Enabled s.store.accounts u →
    ∃ s', k.decrypt ciphertext nonce = some s' ∧ s.store.confirmed u = some s'

end Machine

/-! ### What a step does -/

section Steps
variable {ι : Type} {k : Checks} {requests : ι → Request} {i : ι} {env : Env} {st st' : Store}
  {place place' : Place} {u : String}

/-- The moves of a request that write. -/
inductive Writes (k : Checks) (requests : ι → Request) (i : ι) (env : Env) (st : Store) :
    Place → Store → Prop
  | none (place : Place) (hconfirm : ∀ u code secret, requests i = .confirm u code →
        place = .verified secret → env.fault = true)
      (hsetup : ∀ u secret ciphertext nonce, requests i = .setup u →
        place = .fresh secret ciphertext nonce → env.fault = true) :
      Writes k requests i env st place st
  | setup (userId secret ciphertext nonce : String) : requests i = .setup userId → env.fault = false →
      Writes k requests i env st (.fresh secret ciphertext nonce)
        { st with accounts := st.accounts.startTotpSetup userId ciphertext nonce env.now }
  | confirm (userId code secret : String) : requests i = .confirm userId code → env.fault = false →
      Writes k requests i env st (.verified secret)
        ⟨st.accounts.markTotpEnabled userId env.now, Function.update st.confirmed userId (some secret)⟩
  | disable (userId password : String) : requests i = .disable userId password →
      Writes k requests i env st .cleared { st with accounts := st.accounts.disableTotp userId }

theorem writes_step (k : Checks) (requests : ι → Request) (i : ι) (env : Env) (st : Store)
    (place : Place) : Writes k requests i env st place (step k requests i env st place).1 := by
  unfold step
  cases hrequest : requests i with
  | setup userId =>
    simp only
    unfold TotpSetup.setup
    cases place with
    | fresh secret ciphertext nonce =>
      simp only
      split_ifs with hfault
      · exact .none _ (by simp) fun _ _ _ _ _ _ => hfault
      · exact .setup userId secret ciphertext nonce hrequest (Bool.eq_false_iff.mpr hfault)
    | checked =>
      have hsame : Writes k requests i env st .checked st := .none _ (by simp) (by simp)
      simp only
      split_ifs
      · exact hsame
      · split
        · exact hsame
        · exact hsame
        · split <;> exact hsame
    | _ => exact .none _ (by simp [hrequest]) (by simp)
  | confirm userId code =>
    simp only
    unfold TotpSetup.confirm
    cases place with
    | checked =>
      have hsame : Writes k requests i env st .checked st := .none _ (by simp) (by simp)
      simp only
      split_ifs
      · exact hsame
      · split
        · exact hsame
        · exact hsame
        · split_ifs <;> exact hsame
    | verified secret =>
      simp only
      split_ifs with hfault
      · exact .none _ (fun _ _ _ _ _ => hfault) (by simp)
      · exact .confirm userId code secret hrequest (Bool.eq_false_iff.mpr hfault)
    | _ => exact .none _ (by simp) (by simp [hrequest])
  | disable userId password =>
    simp only
    unfold TotpSetup.disable
    cases place with
    | asked =>
      have hsame : Writes k requests i env st .asked st := .none _ (by simp) (by simp)
      simp only
      split_ifs
      · exact hsame
      · split
        · exact hsame
        · split_ifs <;> exact hsame
    | cleared =>
      simp only
      split_ifs
      · exact .none _ (by simp) (by simp)
      · exact .disable userId password hrequest
    | _ => exact .none _ (by simp [hrequest]) (by simp [hrequest])

/-! ### What a write does to the account -/

section Columns
variable {accounts accounts' : Accounts} {userId ciphertext nonce : String} {now : ℤ}

theorem secretOf_congr (h : accounts'.findById u = accounts.findById u) :
    secretOf k accounts' u = secretOf k accounts u := by
  unfold secretOf decryptUserSecret Accounts.getTotpSecret
  rw [h]

theorem enabled_congr (h : accounts'.findById u = accounts.findById u) :
    Enabled accounts' u ↔ Enabled accounts u := by
  unfold Enabled
  rw [h]

theorem findById_set_of_ne {f : Account → Account} {hf : ∀ a, (f a).id = a.id} (h : u ≠ userId) :
    (accounts.set userId f hf).findById u = accounts.findById u := by
  rw [Accounts.findById_set, if_neg h]

theorem enabled_startTotpSetup :
    Enabled (accounts.startTotpSetup userId ciphertext nonce now) u ↔ Enabled accounts u := by
  by_cases hu : u = userId
  · unfold Enabled Accounts.startTotpSetup
    rw [Accounts.findById_set, if_pos hu]
    cases accounts.findById u <;> simp
  · exact enabled_congr (findById_set_of_ne hu)

theorem secretOf_startTotpSetup (h : Enabled accounts userId) :
    secretOf k (accounts.startTotpSetup userId ciphertext nonce now) userId =
      k.decrypt ciphertext nonce := by
  obtain ⟨a, ha, -⟩ := h
  unfold secretOf decryptUserSecret Accounts.getTotpSecret Accounts.startTotpSetup
  rw [Accounts.findById_set, if_pos rfl, ha]
  rfl

theorem secretOf_markTotpEnabled :
    secretOf k (accounts.markTotpEnabled userId now) u = secretOf k accounts u := by
  by_cases hu : u = userId
  · unfold secretOf decryptUserSecret Accounts.getTotpSecret Accounts.markTotpEnabled
    rw [Accounts.findById_set, if_pos hu]
    cases accounts.findById u <;> rfl
  · exact secretOf_congr (findById_set_of_ne hu)

theorem enabled_markTotpEnabled :
    Enabled (accounts.markTotpEnabled userId now) userId ↔
      (accounts.findById userId).isSome = true := by
  unfold Enabled Accounts.markTotpEnabled
  rw [Accounts.findById_set, if_pos rfl]
  cases accounts.findById userId <;> simp

theorem not_enabled_disableTotp : ¬ Enabled (accounts.disableTotp userId) userId := by
  rintro ⟨a, ha, hon⟩
  unfold Accounts.disableTotp at ha
  rw [Accounts.findById_set, if_pos rfl] at ha
  obtain ⟨b, -, rfl⟩ := Option.map_eq_some_iff.mp ha
  exact hon rfl

end Columns

end Steps

/-- A step leaves every account confirmed exactly if it finds what it relies on. -/
theorem confirmed_turn {ι : Type} [DecidableEq ι] {k : Checks} {requests : ι → Request}
    {s : Shared ι Store Place} {a : ι × Env} (hgood : Confirmed k s.store) :
    Confirmed k (turn (step k requests) s a).store ↔ Undisturbed k requests s a := by
  obtain ⟨i, env⟩ := a
  have hwrites := writes_step k requests i env s.store (s.place i)
  rw [store_turn]
  generalize (step k requests i env s.store (s.place i)).1 = st' at hwrites
  generalize hplace : s.place i = place at hwrites
  cases hwrites with
  | none _ hconfirm hsetup =>
    refine iff_of_true hgood ⟨fun u code secret hrequest hat hfault => ?_,
      fun u secret ciphertext nonce hrequest hat hfault => ?_⟩
    · have hfault' := hconfirm u code secret hrequest (hplace ▸ hat)
      rw [show env.fault = false from hfault] at hfault'
      cases hfault'
    · have hfault' := hsetup u secret ciphertext nonce hrequest (hplace ▸ hat)
      rw [show env.fault = false from hfault] at hfault'
      cases hfault'
  | setup userId secret ciphertext nonce hrequest hfault =>
    constructor
    · intro hafter
      refine ⟨fun u code secret hconfirm => ?_, fun u secret' ciphertext' nonce' hsetup hat _ hon => ?_⟩
      · rw [show requests i = _ from hrequest] at hconfirm
        cases hconfirm
      · obtain rfl := Request.setup.inj (hrequest.symm.trans hsetup)
        obtain ⟨-, rfl, rfl⟩ := Place.fresh.inj (hplace.symm.trans hat)
        obtain ⟨s', hsecret, hconfirmed⟩ := hafter userId (enabled_startTotpSetup.mpr hon)
        rw [secretOf_startTotpSetup hon] at hsecret
        exact ⟨s', hsecret, hconfirmed⟩
    · intro hundisturbed u hon
      rw [enabled_startTotpSetup] at hon
      by_cases hu : u = userId
      · subst hu
        obtain ⟨s', hsecret, hconfirmed⟩ :=
          hundisturbed.setup u secret ciphertext nonce hrequest hplace hfault hon
        exact ⟨s', (secretOf_startTotpSetup hon).trans hsecret, hconfirmed⟩
      · obtain ⟨s', hsecret, hconfirmed⟩ := hgood u hon
        exact ⟨s', (secretOf_congr (findById_set_of_ne hu)).trans hsecret, hconfirmed⟩
  | confirm userId code secret hrequest hfault =>
    constructor
    · intro hafter
      refine ⟨fun u code' secret' hconfirm hat _ hrow => ?_, fun u secret' _ _ hsetup => ?_⟩
      · obtain ⟨rfl, -⟩ := Request.confirm.inj (hrequest.symm.trans hconfirm)
        obtain rfl := Place.verified.inj (hplace.symm.trans hat)
        obtain ⟨s', hsecret, hconfirmed⟩ := hafter userId (enabled_markTotpEnabled.mpr hrow)
        rw [secretOf_markTotpEnabled] at hsecret
        rw [hsecret, ← hconfirmed]
        exact Function.update_self ..
      · rw [show requests i = _ from hrequest] at hsetup
        cases hsetup
    · intro hundisturbed u hon
      by_cases hu : u = userId
      · subst hu
        have hsecret := hundisturbed.confirm u code secret hrequest hplace hfault
          (enabled_markTotpEnabled.mp hon)
        exact ⟨secret, secretOf_markTotpEnabled.trans hsecret, Function.update_self ..⟩
      · obtain ⟨s', hsecret, hconfirmed⟩ := hgood u ((enabled_congr (findById_set_of_ne hu)).mp hon)
        exact ⟨s', secretOf_markTotpEnabled.trans hsecret, (Function.update_of_ne hu ..).trans hconfirmed⟩
  | disable userId password hrequest =>
    refine iff_of_true (fun u hon => ?_) ⟨fun u code secret hconfirm => ?_, fun u secret _ _ hsetup => ?_⟩
    · by_cases hu : u = userId
      · subst hu
        exact absurd hon not_enabled_disableTotp
      · obtain ⟨s', hsecret, hconfirmed⟩ := hgood u ((enabled_congr (findById_set_of_ne hu)).mp hon)
        exact ⟨s', (secretOf_congr (findById_set_of_ne hu)).trans hsecret, hconfirmed⟩
    · rw [show requests i = _ from hrequest] at hconfirm
      cases hconfirm
    · rw [show requests i = _ from hrequest] at hsetup
      cases hsetup

/-- **Where the second factor is on, the confirmed secret is stored, in every state of a run, exactly if
each confirm and each setup that writes finds what it relies on.** -/
theorem alwaysConfirmed_iff {ι : Type} [DecidableEq ι] {k : Checks} {requests : ι → Request}
    {start : Store} {as : List (ι × Env)} (hstart : Confirmed k start) :
    AlwaysConfirmed k requests start as ↔
      ∀ n a, as[n]? = some a → Undisturbed k requests (state k requests start as n) a :=
  @Runs.forall_take_iff (Shared ι Store Place) (ι × Env) (turn (step k requests)) (initial start)
    (fun _ => True) (fun s => Confirmed k s.store) (Undisturbed k requests) trivial
    (fun _ _ _ => trivial) hstart (fun _ _ _ hgood => confirmed_turn hgood) as

/-! ### A disable beside a confirm -/

def alice : Account :=
  ⟨"1", "alice@a.org", none, "", 0, none, none, none, none, none, none, none, none, none⟩

/-- No account has the second factor on. -/
def off : Store := ⟨Table.empty.insert alice, fun _ => none⟩

theorem confirmed_off (k : Checks) : Confirmed k off := by
  rintro u ⟨a, ha, hon⟩
  have hrows : off.accounts.contents = [alice] := by decide +kernel
  obtain ⟨hmem, -⟩ := Accounts.findById_eq_some.mp ha
  rw [hrows] at hmem
  obtain rfl := List.mem_singleton.mp hmem
  exact absurd rfl hon

/-- Every code and every password is right, and secrets are stored as they are. -/
def allRight : Checks := ⟨fun s _ => some s, fun s _ => some s, fun _ _ _ => true, fun _ _ => true⟩

def setUpAndDisable : Fin 3 → Request
  | 0 => .setup "1"
  | 1 => .confirm "1" "123456"
  | 2 => .disable "1" "password"

/-- The confirm is through before the disable begins. -/
def inTurns : List (Fin 3 × Env) := [0, 0, 0, 1, 1, 1, 1, 2, 2, 2].map (·, ⟨0, false, "S", ""⟩)

/-- Where the request is whose turn it is. -/
def placeInTurn : ℕ → Place
  | 0 => .asked
  | 1 => .checked
  | 2 => .fresh "S" "S" ""
  | 3 => .asked
  | 4 => .checked
  | 5 => .verified "S"
  | 6 => .marked
  | 7 => .asked
  | 8 => .authorised
  | _ => .cleared

theorem alwaysConfirmed_inTurns : AlwaysConfirmed allRight setUpAndDisable off inTurns := by
  refine (alwaysConfirmed_iff (confirmed_off _)).mpr fun n a ha => ?_
  obtain ⟨hlen, -⟩ := List.getElem?_eq_some_iff.mp ha
  have hn : n < 10 := hlen
  have hplaces : ∀ p < 10, ∀ a ∈ inTurns[p]?,
      (state allRight setUpAndDisable off inTurns p).place a.1 = placeInTurn p := by
    decide +kernel
  have hplace := hplaces n hn a ha
  constructor
  · intro u code secret hrequest hat _ _
    obtain rfl : n = 5 := by
      rw [hat] at hplace
      interval_cases n <;> simp [placeInTurn] at hplace ⊢
    obtain rfl := Place.verified.inj (hat.symm.trans hplace)
    obtain rfl := Option.some.inj ha
    obtain ⟨rfl, -⟩ := Request.confirm.inj hrequest
    decide +kernel
  · intro u secret ciphertext nonce hrequest hat _ hon
    obtain rfl : n = 2 := by
      rw [hat] at hplace
      interval_cases n <;> simp [placeInTurn] at hplace ⊢
    obtain rfl := Option.some.inj ha
    obtain rfl := Request.setup.inj hrequest
    obtain ⟨b, hb, hon⟩ := hon
    have halice : (state allRight setUpAndDisable off inTurns 2).store.accounts.findById "1" =
        some alice := by decide +kernel
    obtain rfl := Option.some.inj (halice.symm.trans hb)
    exact absurd rfl hon

/-- The disable comes between the read and the write of the confirm. -/
def disabledBetween : List (Fin 3 × Env) :=
  [0, 0, 0, 1, 1, 2, 2, 2, 1, 1].map (·, ⟨0, false, "S", ""⟩)

/-- The second factor is on without a secret. -/
theorem not_alwaysConfirmed_disabledBetween : Confirmed allRight off ∧
    ¬ AlwaysConfirmed allRight setUpAndDisable off disabledBetween := by
  refine ⟨confirmed_off _, fun h => ?_⟩
  obtain ⟨s, hsecret, -⟩ := h 10 "1" ⟨{ alice with totpEnabledAt := some 0 }, by decide +kernel, nofun⟩
  have hnone : secretOf allRight (state allRight setUpAndDisable off disabledBetween 10).store.accounts
      "1" = none := by decide +kernel
  rw [hnone] at hsecret
  cases hsecret

end StarStats.Server.TotpSetup
