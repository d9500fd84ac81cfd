import Mathlib.Data.Fintype.Basic
import Mathlib.Tactic.FinCases
import Mathlib.Tactic.IntervalCases
import StarStats.Lib.Threads
import StarStats.Server.Credentials
import StarStats.Server.Devices

/-! # Password reset

A start puts a token into the row of the account, in place of any other, and mails it. A complete looks
the token up, hashes the new password, which takes its time, and writes it into the row that it has found,
whatever token stands there by then; last it revokes the devices. A token is good for one reset exactly
when at each write the token that was presented still stands in the row. -/

namespace StarStats.Server.PasswordReset

open StarStats.Lib.Tables StarStats.Lib.Text StarStats.Lib.Threads StarStats.Server.Credentials
open StarStats.Server.Devices (DeviceStore)

/-- The shortest password. -/
def minPasswordLen : ℕ := 12

/-- `PASSWORD_RESET_TTL_MIN`, in seconds. -/
def passwordResetTtl : ℤ := 30 * 60

inductive Request where
  | start (email : String)
  | complete (token newPassword : String)

inductive Response where
  | error (status : ℕ) (code : String)
  | sent
  | ok
  deriving DecidableEq

/-- Where a request is. -/
inductive Place where
  | asked
  /-- The account with the address. -/
  | known (user : Account)
  | stored (user : Account)
  /-- The token is the account's, and has not expired. -/
  | found (user : Account)
  | hashed (user : Account) (phc : String)
  | written (user : Account)
  | answered (r : Response)
  deriving DecidableEq

/-- The clock, whether the call of a step fails, and what the password hashes to, if the hash succeeds. -/
structure Env where
  now : ℤ
  fault : Bool
  phc : Option String

/-- The accounts, the devices, and the mails sent: to which address, with which token. -/
structure Store (ι : Type) where
  accounts : Accounts
  devices : DeviceStore ι
  mails : List (String × String)

section Handlers
variable {ι : Type} (env : Env) (st : Store ι)

/-- The steps of a start, with the token that it generates; its answer tells nothing. -/
def passwordResetStart (c : Casing) (token email : String) : Place → Store ι × Place
  | .asked =>
    if trim email = "" || !contains (trim email) "@" then (st, .answered (.error 400 "invalid_email"))
    else
      match if env.fault then none else st.accounts.findByEmail c (trim email) with
      | some user => (st, .known user)
      | none => (st, .answered .sent)
  | .known user =>
    if env.fault then (st, .answered .sent)
    else ({ st with accounts :=
      st.accounts.setPasswordResetToken user.id token (env.now + passwordResetTtl) }, .stored user)
  | .stored user =>
    (if env.fault then st else { st with mails := st.mails ++ [(user.email, token)] }, .answered .sent)
  | place => (st, place)

/-- No time counts as expired. -/
def isExpired (now : ℤ) (expiresAt : Option ℤ) : Bool := expiresAt.elim true (· < now)

/-- `revoke_all_for_user`, whose failure is logged and passed over. -/
def revokeDevices (user : Account) : DeviceStore ι :=
  (Devices.revokeAllForUser ⟨env.now, env.fault, "", ""⟩ st.devices user.id .asked).1

/-- The steps of a complete. -/
def passwordResetComplete (token newPassword : String) : Place → Store ι × Place
  | .asked =>
    if trim token = "" then (st, .answered (.error 400 "invalid_or_expired"))
    else if len newPassword < minPasswordLen then (st, .answered (.error 400 "password_too_short"))
    else if env.fault then (st, .answered (.error 500 "internal"))
    else
      match st.accounts.findByPasswordResetToken token with
      | none => (st, .answered (.error 400 "invalid_or_expired"))
      | some user =>
        if isExpired env.now user.passwordResetExpiresAt then
          (st, .answered (.error 400 "invalid_or_expired"))
        else (st, .found user)
  | .found user =>
    match env.phc with
    | none => (st, .answered (.error 500 "hash_failed"))
    | some phc => (st, .hashed user phc)
  | .hashed user phc =>
    if env.fault then (st, .answered (.error 500 "internal"))
    else ({ st with accounts := st.accounts.completePasswordReset user.id phc env.now }, .written user)
  | .written user => ({ st with devices := revokeDevices env st user }, .answered .ok)
  | place => (st, place)

end Handlers

section Machine
variable {ι : Type} [DecidableEq ι] (c : Casing) (token : ι → String) (requests : ι → Request)

/-- A request takes its next step. -/
def step (i : ι) (env : Env) (st : Store ι) (place : Place) : Store ι × Place :=
  match requests i with
  | .start email => passwordResetStart env st c (token i) email place
  | .complete t newPassword => passwordResetComplete env st t newPassword place

/-- All requests are yet to begin. -/
def initial (accounts : Accounts) (devices : DeviceStore ι) : Shared ι (Store ι) Place :=
  ⟨⟨accounts, devices, []⟩, fun _ => .asked⟩

variable (accounts : Accounts) (devices : DeviceStore ι) (as : List (ι × Env))

/-- The state after the first turns. -/
def state (n : ℕ) : Shared ι (Store ι) Place :=
  after (step c token requests) (initial accounts devices) as n

/-- The token that stands in the row of an account. -/
def tokenOf (st : Store ι) (userId : String) : Option String :=
  (st.accounts.findById userId).bind (·.passwordResetToken)

/-- A start puts its token into the row of an account. -/
def Issues (n : ℕ) (userId t : String) : Prop :=
  ∃ j env user, as[n]? = some (j, env) ∧ env.fault = false ∧ (∃ email, requests j = .start email) ∧
    (state c token requests accounts devices as n).place j = .known user ∧ user.id = userId ∧ token j = t

/-- A complete with the token succeeds: it writes the new password of an account. -/
structure Writes (n : ℕ) (i : ι) (t userId : String) : Prop where
  request : ∃ newPassword, requests i = .complete t newPassword
  turns : ∃ env, as[n]? = some (i, env) ∧ env.fault = false
  place : ∃ user phc, (state c token requests accounts devices as n).place i = .hashed user phc ∧
    user.id = userId

/-- **A token is redeemed once at most**, and never after a later start has replaced it. -/
structure OnceOnly : Prop where
  once : ∀ n m i j t u v, Writes c token requests accounts devices as n i t u →
    Writes c token requests accounts devices as m j t v → i = j
  replaced : ∀ n m i t t' u v,
    (∃ q, q < n ∧ Issues c token requests accounts devices as q u t) ∨
      (accounts.findById u).bind (·.passwordResetToken) = some t →
    Issues c token requests accounts devices as n u t' → n < m →
    ¬ Writes c token requests accounts devices as m i t v

/-- Whenever a complete writes, the token that it has presented still stands in the row. -/
def StillStands : Prop :=
  ∀ n i t u, Writes c token requests accounts devices as n i t u →
    tokenOf (state c token requests accounts devices as n).store u = some t

/-- A token is made once. -/
structure FreshTokens : Prop where
  injective : Function.Injective token
  unused : ∀ j, ∀ a ∈ accounts.contents, a.passwordResetToken ≠ some (token j)
  distinct : ∀ a ∈ accounts.contents, ∀ a' ∈ accounts.contents, ∀ t,
    a.passwordResetToken = some t → a'.passwordResetToken = some t → a = a'

end Machine

/-! ### What a step does -/

section Steps
variable {ι : Type} {c : Casing} {token : ι → String} {requests : ι → Request} {i j : ι} {env : Env}
  {st st' : Store ι} {place place' : Place} {u t : String}

/-- The moves of a request. -/
inductive Moves (token : ι → String) (requests : ι → Request) (i : ι) (env : Env) (st : Store ι) :
    Place → Store ι → Place → Prop
  | stay (place : Place) : Moves token requests i env st place st place
  | look (user : Account) : user ∈ st.accounts.contents →
      Moves token requests i env st .asked st (.known user)
  | issue (email : String) (user : Account) : requests i = .start email → env.fault = false →
      Moves token requests i env st (.known user)
        { st with accounts :=
          st.accounts.setPasswordResetToken user.id (token i) (env.now + passwordResetTtl) }
        (.stored user)
  | mail (user : Account) (mails : List (String × String)) :
      Moves token requests i env st (.stored user) { st with mails := mails } (.answered .sent)
  | find (t newPassword : String) (user : Account) : requests i = .complete t newPassword →
      st.accounts.findByPasswordResetToken t = some user →
      Moves token requests i env st .asked st (.found user)
  | hash (user : Account) (phc : String) :
      Moves token requests i env st (.found user) st (.hashed user phc)
  | write (t newPassword : String) (user : Account) (phc : String) :
      requests i = .complete t newPassword → env.fault = false →
      Moves token requests i env st (.hashed user phc)
        { st with accounts := st.accounts.completePasswordReset user.id phc env.now } (.written user)
  | revoke (user : Account) :
      Moves token requests i env st (.written user) { st with devices := revokeDevices env st user }
        (.answered .ok)
  | refuse (place : Place) (r : Response) : r ≠ .ok →
      Moves token requests i env st place st (.answered r)

/-- Every step is a move. -/
theorem moves_step (c : Casing) (token : ι → String) (requests : ι → Request) (i : ι) (env : Env)
    (st : Store ι) (place : Place) :
    Moves token requests i env st place (step c token requests i env st place).1
      (step c token requests i env st place).2 := by
  unfold step
  cases hrequest : requests i with
  | start email =>
    simp only
    unfold passwordResetStart
    cases place with
    | asked =>
      simp only
      split_ifs
      · exact .refuse _ _ nofun
      · exact .refuse _ _ nofun
      · cases hfind : st.accounts.findByEmail c (trim email) with
        | some user => exact .look user (List.mem_of_find?_eq_some hfind)
        | none => exact .refuse _ _ nofun
    | known user =>
      simp only
      split_ifs with hfault
      · exact .refuse _ _ nofun
      · exact .issue email user hrequest (Bool.eq_false_iff.mpr hfault)
    | stored user =>
      simp only
      split_ifs
      · exact .mail user st.mails
      · exact .mail user _
    | _ => exact .stay _
  | complete t newPassword =>
    simp only
    unfold passwordResetComplete
    cases place with
    | asked =>
      simp only
      split_ifs
      · exact .refuse _ _ nofun
      · exact .refuse _ _ nofun
      · exact .refuse _ _ nofun
      · cases hfind : st.accounts.findByPasswordResetToken t with
        | none => exact .refuse _ _ nofun
        | some user =>
          simp only
          split_ifs
          · exact .refuse _ _ nofun
          · exact .find t newPassword user hrequest hfind
    | found user =>
      simp only
      cases env.phc with
      | none => exact .refuse _ _ nofun
      | some phc => exact .hash user phc
    | hashed user phc =>
      simp only
      split_ifs with hfault
      · exact .refuse _ _ nofun
      · exact .write t newPassword user phc hrequest (Bool.eq_false_iff.mpr hfault)
    | written user => exact .revoke user
    | _ => exact .stay _

theorem tokenOf_set {f : Account → Account} {hf : ∀ a, (f a).id = a.id} {userId : String} :
    tokenOf { st with accounts := st.accounts.set userId f hf } u =
      if u = userId then ((st.accounts.findById u).map f).bind (·.passwordResetToken)
      else tokenOf st u := by
  unfold tokenOf
  simp only [Accounts.findById_set]
  split_ifs <;> rfl

/-- What becomes of the token in a row: it stays, or a start replaces it, or a complete wipes it. -/
theorem Moves.tokenOf_cases (h : Moves token requests i env st place st' place') (u : String) :
    tokenOf st' u = tokenOf st u ∨
    (∃ email user, requests i = .start email ∧ env.fault = false ∧ place = .known user ∧ user.id = u ∧
      tokenOf st' u = some (token i)) ∨
    ∃ t newPassword user phc, requests i = .complete t newPassword ∧ env.fault = false ∧
      place = .hashed user phc ∧ user.id = u ∧ tokenOf st' u = none := by
  cases h with
  | issue email user hrequest hfault =>
    have hset := @tokenOf_set ι st u
      (fun a => { a with
        passwordResetToken := some (token i)
        passwordResetExpiresAt := some (env.now + passwordResetTtl) }) (fun _ => rfl) user.id
    by_cases hu : u = user.id
    · rw [if_pos hu] at hset
      cases hrow : st.accounts.findById u with
      | none =>
        left
        have hnone : tokenOf st u = none := by unfold tokenOf; rw [hrow]; rfl
        rw [hnone]
        rw [hrow] at hset
        exact hset
      | some a =>
        rw [hrow] at hset
        exact Or.inr (Or.inl ⟨email, user, hrequest, hfault, rfl, hu.symm, hset⟩)
    · rw [if_neg hu] at hset
      exact Or.inl hset
  | write t newPassword user phc hrequest hfault =>
    have hset := @tokenOf_set ι st u
      (fun a => { a with
        passwordHash := phc
        passwordChangedAt := env.now
        passwordResetToken := none
        passwordResetExpiresAt := none }) (fun _ => rfl) user.id
    by_cases hu : u = user.id
    · rw [if_pos hu] at hset
      refine Or.inr (Or.inr ⟨t, newPassword, user, phc, hrequest, hfault, rfl, hu.symm, hset.trans ?_⟩)
      cases st.accounts.findById u <;> rfl
    · rw [if_neg hu] at hset
      exact Or.inl hset
  | _ => exact Or.inl rfl

namespace Place

/-- The account whose password a complete is about to write. -/
def target : Place → Option Account
  | .found user | .hashed user _ => some user
  | _ => none

/-- A start that has not put its token anywhere. -/
def isEarly : Place → Bool
  | .asked | .known _ => true
  | _ => false

end Place

/-- A complete writes the row that it has found by its token. -/
theorem Moves.of_target {user : Account} (h : Moves token requests i env st place st' place')
    (huser : place'.target = some user) : place.target = some user ∨
      ∃ t newPassword, requests i = .complete t newPassword ∧
        st.accounts.findByPasswordResetToken t = some user ∧ st' = st := by
  cases h with
  | find t newPassword user' hrequest hfind =>
    obtain rfl := Option.some.inj huser
    exact Or.inr ⟨t, newPassword, hrequest, hfind, rfl⟩
  | stay | hash => exact Or.inl huser
  | look | issue | mail | write | revoke | refuse => cases huser

theorem Moves.early (h : Moves token requests i env st place st' place')
    (hearly : place'.isEarly = true) : place.isEarly = true := by
  cases h with
  | stay => exact hearly
  | look => rfl
  | find | issue | mail | hash | write | revoke | refuse => cases hearly

/-- No row has the token of a start that has not stored it. -/
def Unissued (token : ι → String) (i : ι) (st : Store ι) (place : Place) : Prop :=
  place.isEarly = true → ∀ u, tokenOf st u ≠ some (token i)

/-- No two accounts have one token. -/
def Distinct (st : Store ι) : Prop :=
  ∀ u v t, tokenOf st u = some t → tokenOf st v = some t → u = v

theorem Moves.distinct (h : Moves token requests i env st place st' place')
    (hi : Unissued token i st place) (hd : Distinct st) : Distinct st' := by
  intro u v t hu hv
  rcases h.tokenOf_cases u with husame | ⟨_, user, _, _, hplace, hid, hunew⟩ |
    ⟨_, _, _, _, _, _, _, _, hunone⟩
  · rcases h.tokenOf_cases v with hvsame | ⟨_, _, _, _, hplace, _, hvnew⟩ | ⟨_, _, _, _, _, _, _, _, hvnone⟩
    · exact hd u v t (husame ▸ hu) (hvsame ▸ hv)
    · obtain rfl := Option.some.inj (hvnew.symm.trans hv)
      exact absurd (husame ▸ hu) (hi (hplace ▸ rfl) u)
    · rw [hvnone] at hv
      cases hv
  · rcases h.tokenOf_cases v with hvsame | ⟨_, user', _, _, hplace', hid', _⟩ |
      ⟨_, _, _, _, _, _, _, _, hvnone⟩
    · obtain rfl := Option.some.inj (hunew.symm.trans hu)
      exact absurd (hvsame ▸ hv) (hi (hplace ▸ rfl) v)
    · obtain rfl := Place.known.inj (hplace.symm.trans hplace')
      exact hid.symm.trans hid'
    · rw [hvnone] at hv
      cases hv
  · rw [hunone] at hu
    cases hu

theorem Moves.unissued (h : Moves token requests i env st place st' place')
    (hi : Unissued token i st place) : Unissued token i st' place' := by
  intro hearly u hu
  have hbefore := h.early hearly
  rcases h.tokenOf_cases u with hsame | ⟨_, user, _, hfault, hplace, _, _⟩ |
    ⟨_, _, _, _, _, _, _, _, hnone⟩
  · exact hi hbefore u (hsame ▸ hu)
  · cases h with
    | stay place => exact hi hearly u hu
    | look => cases hplace
    | issue | find | mail | hash | write | revoke | refuse => cases hearly
  · rw [hnone] at hu
    cases hu

theorem Moves.unissued_others (h : Moves token requests i env st place st' place')
    (hinj : Function.Injective token) (hj : j ≠ i) {placej : Place}
    (hunissued : Unissued token j st placej) : Unissued token j st' placej := by
  intro hearly u hu
  rcases h.tokenOf_cases u with hsame | ⟨_, _, _, _, _, _, hnew⟩ | ⟨_, _, _, _, _, _, _, _, hnone⟩
  · exact hunissued hearly u (hsame ▸ hu)
  · exact hj (hinj (Option.some.inj (hnew.symm.trans hu))).symm
  · rw [hnone] at hu
    cases hu

theorem Moves.row_isSome (h : Moves token requests i env st place st' place')
    (hrow : (st.accounts.findById u).isSome = true) : (st'.accounts.findById u).isSome = true := by
  have hset : ∀ {userId} {f : Account → Account} {hf : ∀ a, (f a).id = a.id},
      ((st.accounts.set userId f hf).findById u).isSome = true := by
    intro userId f hf
    rw [Accounts.findById_set]
    split_ifs
    · rwa [Option.isSome_map]
    · exact hrow
  cases h with
  | issue | write => exact hset
  | _ => exact hrow

/-- The account that a start has found. -/
def Known (st : Store ι) (place : Place) : Prop :=
  ∀ user, place = .known user → (st.accounts.findById user.id).isSome = true

theorem Moves.known (h : Moves token requests i env st place st' place') (hk : Known st place) :
    Known st' place' := by
  intro user hplace
  cases h with
  | stay place => exact hk user hplace
  | look user' hmem =>
    obtain rfl := Place.known.inj hplace
    exact Option.isSome_of_eq_some (Accounts.findById_eq_some.mpr ⟨hmem, rfl⟩)
  | find | issue | mail | hash | write | revoke | refuse => cases hplace

end Steps

/-! ### What holds in every state -/

section Invariant
variable {ι : Type} [DecidableEq ι] {c : Casing} {token : ι → String} {requests : ι → Request}
  {accounts : Accounts} {devices : DeviceStore ι} {as : List (ι × Env)} {i j : ι} {env : Env}
  {u v t : String} {n m : ℕ}

theorem distinct_state (h : FreshTokens token accounts) (as : List (ι × Env)) (n : ℕ) :
    Distinct (state c token requests accounts devices as n).store ∧
      ∀ i, Unissued token i (state c token requests accounts devices as n).store
        ((state c token requests accounts devices as n).place i) := by
  have hrow : ∀ {u t}, tokenOf (initial accounts devices).store u = some t →
      ∃ a ∈ accounts.contents, a.id = u ∧ a.passwordResetToken = some t := by
    intro u t hu
    obtain ⟨a, ha, htoken⟩ := Option.bind_eq_some_iff.mp hu
    obtain ⟨hmem, hid⟩ := Accounts.findById_eq_some.mp ha
    exact ⟨a, hmem, hid, htoken⟩
  refine @placed_after ι (Store ι) Place Env _ (step c token requests) (initial accounts devices)
    Distinct (Unissued token) ?_ ?_ ?_ as n
  · intro i e st l hd hi
    have hmove := moves_step c token requests i e st l
    exact ⟨hmove.distinct hi hd, hmove.unissued hi⟩
  · exact fun i e st l j l' hj _ _ hunissued =>
      (moves_step c token requests i e st l).unissued_others h.injective hj hunissued
  · refine ⟨fun u v t hu hv => ?_, fun i _ u hu => ?_⟩
    · obtain ⟨a, ha, rfl, htoken⟩ := hrow hu
      obtain ⟨b, hb, rfl, htoken'⟩ := hrow hv
      rw [h.distinct a ha b hb t htoken htoken']
    · obtain ⟨a, ha, -, htoken⟩ := hrow hu
      exact h.unused i a ha htoken

theorem known_state (c : Casing) (token : ι → String) (requests : ι → Request) (accounts : Accounts)
    (devices : DeviceStore ι) (as : List (ι × Env)) (n : ℕ) (i : ι) :
    Known (state c token requests accounts devices as n).store
      ((state c token requests accounts devices as n).place i) := by
  refine (@placed_after ι (Store ι) Place Env _ (step c token requests) (initial accounts devices)
    (fun _ => True) (fun _ st place => Known st place) ?_ ?_ ?_ as n).2 i
  · exact fun i e st l _ hk => ⟨trivial, (moves_step c token requests i e st l).known hk⟩
  · exact fun i e st l j l' _ _ _ hk user hplace =>
      (moves_step c token requests i e st l).row_isSome (hk user hplace)
  · exact ⟨trivial, fun i user hplace => by cases hplace⟩

/-- What turns a token up in a row, or wipes it. -/
theorem turn_cases (ha : as[n]? = some (i, env)) (u : String) :
    tokenOf (state c token requests accounts devices as (n + 1)).store u =
        tokenOf (state c token requests accounts devices as n).store u ∨
      (Issues c token requests accounts devices as n u (token i) ∧
        tokenOf (state c token requests accounts devices as (n + 1)).store u = some (token i)) ∨
      ∃ t, Writes c token requests accounts devices as n i t u ∧
        tokenOf (state c token requests accounts devices as (n + 1)).store u = none := by
  have hturn : state c token requests accounts devices as (n + 1) =
    turn (step c token requests) (state c token requests accounts devices as n) (i, env) :=
      after_succ ha
  rw [hturn, store_turn]
  have hmove := moves_step c token requests i env (state c token requests accounts devices as n).store
    ((state c token requests accounts devices as n).place i)
  rcases hmove.tokenOf_cases u with hsame | ⟨email, user, hrequest, hfault, hplace, hid, hnew⟩ |
    ⟨t, newPassword, user, phc, hrequest, hfault, hplace, hid, hnone⟩
  · exact Or.inl hsame
  · exact Or.inr (Or.inl ⟨⟨i, env, user, ha, hfault, ⟨email, hrequest⟩, hplace, hid, rfl⟩, hnew⟩)
  · exact Or.inr (Or.inr ⟨t, ⟨⟨newPassword, hrequest⟩, ⟨env, ha, hfault⟩, user, phc, hplace, hid⟩, hnone⟩)

theorem not_issued_again (h : FreshTokens token accounts)
    (hheld : tokenOf (state c token requests accounts devices as n).store u = some t) (hnm : n ≤ m) :
    ¬ Issues c token requests accounts devices as m v t := by
  rintro ⟨j, env, user, -, -, -, hplace, -, rfl⟩
  have hearly : ((state c token requests accounts devices as n).place j).isEarly = true := by
    by_contra hlate
    have hkeeps := @place_keeps ι (Store ι) Place Env _ (step c token requests)
      (initial accounts devices) as j n m (fun l => ¬ l.isEarly = true)
      (fun e st l hl hl' => hl ((moves_step c token requests j e st l).early hl')) hnm hlate
    refine hkeeps ?_
    rw [show (after (step c token requests) (initial accounts devices) as m).place j = .known user from
      hplace]
    rfl
  exact (distinct_state h as n).2 j hearly u hheld

/-- A token that has stood in some row stands later only where it has stood since. -/
theorem held_before (h : FreshTokens token accounts)
    (hheld : tokenOf (state c token requests accounts devices as n).store u = some t)
    (hlater : tokenOf (state c token requests accounts devices as m).store v = some t) {k : ℕ}
    (hnk : n ≤ k) (hkm : k ≤ m) :
    tokenOf (state c token requests accounts devices as k).store v = some t := by
  have hcases := @holds_or_turned ι (Store ι) Place Env _ (step c token requests)
    (initial accounts devices) as m k (fun st => tokenOf st v = some t) hkm hlater
  rcases hcases with hbefore | ⟨p, i, e, hkp, hpm, ha, hno, hmade⟩
  · exact hbefore
  · have hafter : tokenOf (state c token requests accounts devices as (p + 1)).store v = some t :=
      (congrArg (fun s => tokenOf (Shared.store s) v) (after_succ ha)).trans hmade
    rcases @turn_cases ι _ c token requests accounts devices as i e p ha v with
      hsame | ⟨hissues, hnew⟩ | ⟨t', -, hnone⟩
    · exact absurd (hsame ▸ hafter) hno
    · rw [Option.some.inj (hnew.symm.trans hafter)] at hissues
      exact absurd hissues (not_issued_again h hheld (by omega))
    · rw [hnone] at hafter
      cases hafter

theorem Writes.clears (h : Writes c token requests accounts devices as n i t u) :
    tokenOf (state c token requests accounts devices as (n + 1)).store u = none := by
  obtain ⟨⟨newPassword, hrequest⟩, ⟨env, ha, hfault⟩, user, phc, hplace, rfl⟩ := h
  have hturn : state c token requests accounts devices as (n + 1) =
    turn (step c token requests) (state c token requests accounts devices as n) (i, env) :=
      after_succ ha
  rw [hturn, store_turn, hplace]
  unfold step
  rw [hrequest]
  simp only [passwordResetComplete, hfault, Bool.false_eq_true, if_false]
  refine tokenOf_set.trans ((if_pos rfl).trans ?_)
  cases (state c token requests accounts devices as n).store.accounts.findById user.id <;> rfl

theorem Issues.stands (h : Issues c token requests accounts devices as n u t) :
    tokenOf (state c token requests accounts devices as (n + 1)).store u = some t := by
  obtain ⟨j, env, user, ha, hfault, ⟨email, hrequest⟩, hplace, rfl, rfl⟩ := h
  have hknown := known_state c token requests accounts devices as n j user hplace
  have hturn : state c token requests accounts devices as (n + 1) =
    turn (step c token requests) (state c token requests accounts devices as n) (j, env) :=
      after_succ ha
  obtain ⟨a, hrow⟩ := Option.isSome_iff_exists.mp hknown
  rw [hturn, store_turn, hplace]
  unfold step
  rw [hrequest]
  simp only [passwordResetStart, hfault, Bool.false_eq_true, if_false]
  refine tokenOf_set.trans ((if_pos rfl).trans ?_)
  rw [hrow]
  rfl

/-- The token stood in the row when the lookup of a complete ended, and the complete has been on its way
since. -/
theorem exists_lookup (h : Writes c token requests accounts devices as n i t u) :
    ∃ k, k ≤ n ∧ tokenOf (state c token requests accounts devices as k).store u = some t ∧
      ∀ p, k ≤ p → p ≤ n →
        ((state c token requests accounts devices as p).place i).target.isSome = true := by
  obtain ⟨⟨newPassword, hrequest⟩, -, user, phc, hplace, rfl⟩ := h
  obtain ⟨m, e, hmn, ha, hne, hstays⟩ :=
    exists_arrival (Q := fun l : Place => l.target = some user) (by simp [initial, Place.target])
      (show ((after (step c token requests) (initial accounts devices) as n).place i).target = some user
        from congrArg Place.target hplace)
  have htarget := hstays (m + 1) (by omega) (by omega)
  rw [after_succ ha, place_turn_self] at htarget
  have hmove := moves_step c token requests i e (state c token requests accounts devices as m).store
    ((state c token requests accounts devices as m).place i)
  rcases hmove.of_target htarget with hbefore | ⟨t', newPassword', hrequest', hfind, hstore⟩
  · exact absurd hbefore hne
  · rw [hrequest] at hrequest'
    obtain ⟨rfl, -⟩ := Request.complete.inj hrequest'
    obtain ⟨hrow, htoken⟩ := Accounts.findByPasswordResetToken_some hfind
    refine ⟨m + 1, by omega, ?_, fun p hp hpn => ?_⟩
    · have hturn : state c token requests accounts devices as (m + 1) =
        turn (step c token requests) (state c token requests accounts devices as m) (i, e) :=
          after_succ ha
      rw [hturn, store_turn, hstore]
      unfold tokenOf
      rw [hrow]
      exact htoken
    · exact Option.isSome_of_eq_some (hstays p (by omega) hpn)

theorem Writes.at_once (h : Writes c token requests accounts devices as n i t u) (hnm : n < m) :
    ∀ k, k ≤ n → ¬ ∀ p, k ≤ p → p ≤ m →
      ((state c token requests accounts devices as p).place i).target.isSome = true := by
  obtain ⟨⟨newPassword, hrequest⟩, ⟨env, ha, hfault⟩, user, phc, hplace, -⟩ := h
  intro k hk hstays
  have hnext := hstays (n + 1) (by omega) (by omega)
  have hturn : state c token requests accounts devices as (n + 1) =
    turn (step c token requests) (state c token requests accounts devices as n) (i, env) :=
      after_succ ha
  rw [hturn, place_turn_self, hplace] at hnext
  unfold step at hnext
  rw [hrequest] at hnext
  simp [passwordResetComplete, hfault, Place.target] at hnext

end Invariant

/-- **A token is redeemed once at most, and never when it has been replaced, exactly when it still stands
in the row at each write.** -/
theorem onceOnly_iff {ι : Type} [DecidableEq ι] {c : Casing} {token : ι → String}
    {requests : ι → Request} {accounts : Accounts} {devices : DeviceStore ι} {as : List (ι × Env)}
    (h : FreshTokens token accounts) :
    OnceOnly c token requests accounts devices as ↔
      StillStands c token requests accounts devices as := by
  have hdistinct : ∀ n, Distinct (state c token requests accounts devices as n).store :=
    fun n => (distinct_state h as n).1
  constructor
  · intro honce m
    induction m using Nat.strong_induction_on with
    | _ m ih =>
      intro i t u hwrites
      by_contra hno
      obtain ⟨k, hkm, hheld, hstays⟩ := exists_lookup hwrites
      have hcases := @holds_or_turned ι (Store ι) Place Env _ (step c token requests)
        (initial accounts devices) as m k (fun st => tokenOf st u ≠ some t) hkm hno
      rcases hcases with hk | ⟨p, j, e, hkp, hpm, ha, hstood, hgone⟩
      · exact hk hheld
      · have hstood : tokenOf (state c token requests accounts devices as p).store u = some t :=
          not_not.mp hstood
        have hgone : tokenOf (state c token requests accounts devices as (p + 1)).store u ≠ some t :=
          fun hsame => hgone ((congrArg (fun s => tokenOf (Shared.store s) u)
            (after_succ ha)).symm.trans hsame)
        rcases @turn_cases ι _ c token requests accounts devices as j e p ha u with
          hsame | ⟨hissues, -⟩ | ⟨t', hwrites', -⟩
        · exact hgone (hsame.trans hstood)
        · -- A start has replaced the token, which it had been issued or stood there at first.
          refine honce.replaced p m i t (token j) u u ?_ hissues hpm hwrites
          have horigin := @holds_or_turned ι (Store ι) Place Env _ (step c token requests)
            (initial accounts devices) as p 0 (fun st => tokenOf st u = some t) (Nat.zero_le p) hstood
          rcases horigin with hfirst | ⟨q, j', e', -, hqp, ha', hbefore, hmade⟩
          · exact Or.inr hfirst
          · have hafter : tokenOf (state c token requests accounts devices as (q + 1)).store u = some t :=
              (congrArg (fun s => tokenOf (Shared.store s) u) (after_succ ha')).trans hmade
            rcases @turn_cases ι _ c token requests accounts devices as j' e' q ha' u with
              hsame' | ⟨hissued, hnew⟩ | ⟨t'', -, hnone⟩
            · exact absurd (hsame' ▸ hafter) hbefore
            · rw [Option.some.inj (hnew.symm.trans hafter)] at hissued
              exact Or.inl ⟨q, hqp, hissued⟩
            · rw [hnone] at hafter
              cases hafter
        · -- Another complete has used the token up.
          have hsame := ih p hpm j t' u hwrites'
          obtain rfl := Option.some.inj (hsame.symm.trans hstood)
          obtain rfl := honce.once p m j i t' u u hwrites' hwrites
          exact hwrites'.at_once hpm k hkp hstays
  · intro hstill
    -- A token that stood somewhere and has been wiped or replaced stands nowhere later.
    have hgone : ∀ k n m i t u v, tokenOf (state c token requests accounts devices as k).store u =
        some t → k ≤ n → n < m →
        (tokenOf (state c token requests accounts devices as n).store u ≠ some t ∨
          tokenOf (state c token requests accounts devices as (n + 1)).store u ≠ some t) →
        ¬ Writes c token requests accounts devices as m i t v := by
      intro k n m i t u v hheld hkn hnm hnot hwrites
      have hlater := hstill m i t v hwrites
      have hthen := held_before h hheld hlater (le_refl k) (by omega)
      obtain rfl := hdistinct k v u t hthen hheld
      rcases hnot with hnot | hnot
      · exact hnot (held_before h hheld hlater hkn (by omega))
      · exact hnot (held_before h hheld hlater (by omega) (by omega))
    constructor
    · intro n m i j t u v hi hj
      by_contra hij
      have hne : n ≠ m := by
        rintro rfl
        obtain ⟨-, ⟨env, ha, -⟩, -⟩ := hi
        obtain ⟨-, ⟨env', ha', -⟩, -⟩ := hj
        rw [ha] at ha'
        exact hij (Prod.mk.inj (Option.some.inj ha')).1
      by_cases hlt : n < m
      · refine hgone n n m j t u v (hstill n i t u hi) (le_refl n) hlt (Or.inr ?_) hj
        rw [hi.clears]
        nofun
      · refine hgone m m n i t v u (hstill m j t v hj) (le_refl m) (by omega) (Or.inr ?_) hi
        rw [hj.clears]
        nofun
    · intro n m i t t' u v horigin hissues hnm
      have hheld : ∃ k, k ≤ n ∧
          tokenOf (state c token requests accounts devices as k).store u = some t := by
        rcases horigin with ⟨q, hqn, hissued⟩ | hfirst
        · exact ⟨q + 1, by omega, hissued.stands⟩
        · exact ⟨0, Nat.zero_le n, hfirst⟩
      obtain ⟨k, hkn, hheld⟩ := hheld
      refine hgone k n m i t u v hheld hkn hnm (Or.inr fun hsame => ?_)
      obtain rfl := Option.some.inj (hissues.stands.symm.trans hsame)
      exact not_issued_again h hheld hkn hissues

/-! ### A start and two completes -/

def alice : Account :=
  ⟨"1", "alice@a.org", none, "", 0, none, none, none, none, none, none, none, none, none⟩

def onlyAlice : Accounts := Table.empty.insert alice

def noDevices : DeviceStore (Fin 3) := ⟨Table.empty, Table.empty, fun _ => none⟩

def twoCompletes : Fin 3 → Request
  | 0 => .start "alice@a.org"
  | 1 => .complete "first" "a long password"
  | 2 => .complete "first" "another password"

def twoTokens : Fin 3 → String
  | 0 => "first"
  | 1 => "second"
  | 2 => "third"

theorem freshTokens_twoTokens : FreshTokens twoTokens onlyAlice := by
  have hrows : onlyAlice.contents = [alice] := by decide +kernel
  refine ⟨by unfold Function.Injective; decide, ?_, ?_⟩
  · rw [hrows]
    decide
  · simp [hrows]

/-- Alice's row from the start to the first complete. -/
def resetting : Account :=
  { alice with
    passwordResetToken := some "first"
    passwordResetExpiresAt := some passwordResetTtl }

/-- The second complete looks the token up when the first is through. -/
def inTurns : List (Fin 3 × Env) := [0, 0, 0, 1, 1, 1, 1, 2].map (·, ⟨0, false, some "new"⟩)

theorem onceOnly_inTurns : OnceOnly asciiCasing twoTokens twoCompletes onlyAlice noDevices inTurns := by
  refine (onceOnly_iff freshTokens_twoTokens).mpr ?_
  rintro n i t u ⟨⟨newPassword, hrequest⟩, ⟨env, ha, -⟩, user, phc, hplace, rfl⟩
  obtain ⟨hlen, hget⟩ := List.getElem?_eq_some_iff.mp ha
  have hn : n < 8 := hlen
  have hnone : ∀ p < 8, p ≠ 4 → p ≠ 5 → ∀ i : Fin 3,
      ((state asciiCasing twoTokens twoCompletes onlyAlice noDevices inTurns p).place i).target =
        none := by
    decide +kernel
  by_cases h4 : n = 4
  · subst h4
    obtain rfl : 1 = i := congrArg Prod.fst hget
    have hfound : (state asciiCasing twoTokens twoCompletes onlyAlice noDevices inTurns 4).place 1 =
        .found resetting := by decide +kernel
    rw [hfound] at hplace
    cases hplace
  by_cases h5 : n = 5
  · subst h5
    obtain rfl : 1 = i := congrArg Prod.fst hget
    have hhashed : (state asciiCasing twoTokens twoCompletes onlyAlice noDevices inTurns 5).place 1 =
        .hashed resetting "new" := by decide +kernel
    obtain ⟨rfl, rfl⟩ := Place.hashed.inj (hhashed.symm.trans hplace)
    obtain ⟨rfl, -⟩ := Request.complete.inj hrequest
    decide +kernel
  · have htarget := hnone n hn h4 h5 i
    rw [hplace] at htarget
    cases htarget

/-- Both completes look the token up before either writes. -/
def together : List (Fin 3 × Env) := [0, 0, 0, 1, 2, 1, 1, 2, 2].map (·, ⟨0, false, some "new"⟩)

/-- The token is redeemed twice. -/
theorem not_onceOnly_together : FreshTokens twoTokens onlyAlice ∧
    ¬ OnceOnly asciiCasing twoTokens twoCompletes onlyAlice noDevices together := by
  refine ⟨freshTokens_twoTokens, fun h => ?_⟩
  have hsame := h.once 6 8 1 2 "first" "1" "1"
    ⟨⟨_, rfl⟩, ⟨_, rfl, rfl⟩, resetting, "new", by decide +kernel, rfl⟩
    ⟨⟨_, rfl⟩, ⟨_, rfl, rfl⟩, resetting, "new", by decide +kernel, rfl⟩
  exact absurd hsame (by decide)

end StarStats.Server.PasswordReset
