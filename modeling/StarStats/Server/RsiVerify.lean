import StarStats.Lib.Histories
import StarStats.Lib.Percent
import StarStats.Lib.Tables
import StarStats.Server.Auth

/-! # Proof of a handle

A start draws a code and writes it into the row of the account, unless one stands there that is still
good. A verify reads the row, fetches the citizen's page of the claimed handle, and marks the account if
the code is on it; the account may have changed in between, and the mark does not look again.

An account is marked exactly if a verify of it has come the whole way: it read a code that a start had drawn
for the account less than half an hour before, and found it on the page of the handle that it read with the
code, at an address that no other handle has (`verified_iff`). -/

namespace StarStats.Server.RsiVerify

open StarStats.Lib.Histories StarStats.Lib.Percent StarStats.Lib.Tables StarStats.Lib.Text
open StarStats.Lib.Threads StarStats.Server.Auth

/-- `RSI_VERIFY_TTL`, in seconds. -/
def rsiVerifyTtl : ℤ := 30 * 60

/-- The columns of `users` that the routes read and write. -/
structure User where
  id : String
  claimedHandle : String
  rsiVerifiedAt : Option ℤ
  rsiVerifyCode : Option String
  rsiVerifyExpiresAt : Option ℤ
  deriving DecidableEq

abbrev Users := Table User.id

/-! ### The citizen's page -/

/-- What comes of a fetch: nothing, or a status and a body, if it could be read. -/
inductive Fetched where
  | failed
  | response (status : ℕ) (body : Option String)

/-- What the look at the profile page tells. -/
inductive RsiCheckOutcome where
  | bioContains
  | bioMissing
  | handleNotFound
  | upstreamUnavailable
  deriving DecidableEq

/-- `PROFILE_BASE` -/
def profileBase : String := "https://robertsspaceindustries.com/citizens"

/-- `utf8_percent_encode` -/
def encodePathSegment (seg : String) : String := String.ofList (encodeSegment seg)

/-- The address of the citizen's page. -/
def profileUrl (handle : String) : String := profileBase ++ "/" ++ encodePathSegment handle

/-- Is the code on the citizen's page? -/
def checkBio (fetch : String → Fetched) (handle code : String) : RsiCheckOutcome :=
  match fetch (profileUrl handle) with
  | .failed => .upstreamUnavailable
  | .response status body =>
    if status = 404 then .handleNotFound
    else if ¬ (200 ≤ status ∧ status < 300) then .upstreamUnavailable
    else
      match body with
      | none => .upstreamUnavailable
      | some body => if contains body code then .bioContains else .bioMissing

/-- Four random bytes, in digits of upper case. -/
def generateVerifyCode (bytes : List UInt8) : String :=
  "STARSTATS-" ++
    String.ofList (bytes.flatMap fun b => [upperDigit (b.toNat / 16), upperDigit (b.toNat % 16)])

/-! ### The routes -/

/-- What happens to the accounts. -/
inductive Request where
  | start (auth : AuthenticatedUser)
  | verify (auth : AuthenticatedUser)
  /-- The account is made. -/
  | signUp (id claimedHandle : String)
  /-- The account is deleted. -/
  | delete (id : String)

inductive Response where
  | error (status : ℕ) (code : String)
  | start (verified : Bool) (code : Option String) (expiresAt : Option ℤ) (claimedHandle : String)
  | verify (verified : Bool) (status : String)
  | done
  deriving DecidableEq

/-- Where a request is. -/
inductive Place where
  | asked
  /-- The code is drawn, good until then. -/
  | drawn (expiresAt : ℤ) (claimedHandle : String)
  /-- The handle and the code that have been read. -/
  | pending (claimedHandle code : String)
  /-- The code is on the page. -/
  | found
  | answered (r : Response)
  deriving DecidableEq

/-- The clock, whether the call of a step fails, and what RSI answers. -/
structure Env where
  now : ℤ
  fault : Bool
  fetch : String → Fetched

section Handlers
variable (isUuid : String → Bool) (env : Env) (users : Users)

def rowOf (userId : String) : Option User := (users.find? userId).map (·.2)

/-- A new code takes the place of the old one. -/
def setRsiVerifyCode (userId code : String) (expiresAt : ℤ) : Users :=
  users.updateKey userId
    (fun u => { u with rsiVerifyCode := some code, rsiVerifyExpiresAt := some expiresAt }) fun _ => rfl

/-- The code is used up. -/
def markRsiVerified (userId : String) : Users :=
  users.updateKey userId
    (fun u => { u with
      rsiVerifiedAt := some env.now
      rsiVerifyCode := none
      rsiVerifyExpiresAt := none }) fun _ => rfl

/-- Devices and half logins are refused. -/
def requireUserToken (auth : AuthenticatedUser) : Option Response :=
  if auth.tokenType = .user then none else some (.error 403 "user_token_required")

/-- The account of a token, or why there is none. -/
def callerOf (auth : AuthenticatedUser) : Except Response User :=
  match requireUserToken auth with
  | some r => .error r
  | none =>
    if !isUuid auth.sub then .error (.error 500 "bad_subject")
    else if env.fault then .error (.error 500 "internal")
    else
      match rowOf users auth.sub with
      | none => .error (.error 401 "unauthorized")
      | some user => .ok user

/-- The code in the row, if it is still good. -/
def reuse (user : User) : Option (String × ℤ) :=
  match user.rsiVerifyCode, user.rsiVerifyExpiresAt with
  | some code, some expiresAt => if env.now < expiresAt then some (code, expiresAt) else none
  | _, _ => none

/-- The steps of a start, with the code that it draws. -/
def start (code : String) (auth : AuthenticatedUser) : Place → Users × Place
  | .asked =>
    match callerOf isUuid env users auth with
    | .error r => (users, .answered r)
    | .ok user =>
      if user.rsiVerifiedAt.isSome then (users, .answered (.start true none none user.claimedHandle))
      else
        match reuse env user with
        | some (code, expiresAt) =>
          (users, .answered (.start false (some code) (some expiresAt) user.claimedHandle))
        | none => (users, .drawn (env.now + rsiVerifyTtl) user.claimedHandle)
  | .drawn expiresAt claimedHandle =>
    if env.fault then (users, .answered (.error 500 "internal"))
    else
      (setRsiVerifyCode users auth.sub code expiresAt,
        .answered (.start false (some code) (some expiresAt) claimedHandle))
  | place => (users, place)

/-- The steps of a verify. -/
def verify (auth : AuthenticatedUser) : Place → Users × Place
  | .asked =>
    match callerOf isUuid env users auth with
    | .error r => (users, .answered r)
    | .ok user =>
      if user.rsiVerifiedAt.isSome then (users, .answered (.verify true "already_verified"))
      else
        match user.rsiVerifyCode, user.rsiVerifyExpiresAt with
        | some code, some expiresAt =>
          if expiresAt ≤ env.now then (users, .answered (.error 410 "code_expired"))
          else (users, .pending user.claimedHandle code)
        | _, _ => (users, .answered (.error 410 "no_code_pending"))
  | .pending claimedHandle code =>
    match checkBio env.fetch claimedHandle code with
    | .bioContains => (users, .found)
    | .bioMissing => (users, .answered (.error 422 "code_not_in_bio"))
    | .handleNotFound => (users, .answered (.error 404 "rsi_handle_not_found"))
    | .upstreamUnavailable => (users, .answered (.error 503 "rsi_unavailable"))
  | .found =>
    if env.fault then (users, .answered (.error 500 "internal"))
    else (markRsiVerified env users auth.sub, .answered (.verify true "verified"))
  | place => (users, place)

/-- The row of a new account. -/
def signUp (id claimedHandle : String) : Place → Users × Place
  | .asked => (users.insert ⟨id, claimedHandle, none, none, none⟩, .answered .done)
  | place => (users, place)

/-- The account goes. -/
def delete (id : String) : Place → Users × Place
  | .asked => (users.deleteWhere (·.id = id), .answered .done)
  | place => (users, place)

end Handlers

section Machine
variable {ι : Type} [DecidableEq ι] (isUuid : String → Bool) (bytes : ι → List UInt8)
  (requests : ι → Request)

/-- A request takes its next step. -/
def step (i : ι) (env : Env) (users : Users) (place : Place) : Users × Place :=
  match requests i with
  | .start auth => start isUuid env users (generateVerifyCode (bytes i)) auth place
  | .verify auth => verify isUuid env users auth place
  | .signUp id claimedHandle => signUp users id claimedHandle place
  | .delete id => delete users id place

/-- There are no accounts, and all requests are yet to begin. -/
def initial : Shared ι Users Place := ⟨Table.empty, fun _ => .asked⟩

variable (as : List (ι × Env))

/-- The state after the first turns. -/
def state (n : ℕ) : Shared ι Users Place := after (step isUuid bytes requests) initial as n

/-- The account is shown as verified. -/
def Verified (users : Users) (u : String) : Prop :=
  ∃ user, rowOf users u = some user ∧ user.rsiVerifiedAt.isSome = true

/-- The code stands in the row of the account, good until `e`. -/
def Pending (users : Users) (u code : String) (e : ℤ) : Prop :=
  ∃ user, rowOf users u = some user ∧ user.rsiVerifyCode = some code ∧ user.rsiVerifyExpiresAt = some e

section Turn
variable (u handle code : String) (e : ℤ) (i : ι) (env : Env) (users : Users) (place : Place)

/-- A start writes the code that it has drawn into the row of the account. -/
def Sets : Prop :=
  (∃ auth, requests i = .start auth ∧ auth.sub = u) ∧ (∃ handle, place = .drawn e handle) ∧
    generateVerifyCode (bytes i) = code ∧ env.fault = false ∧ u ∈ users.keys

/-- A verify marks the account. -/
def Marks : Prop :=
  (∃ auth, requests i = .verify auth ∧ auth.sub = u) ∧ place = .found ∧ env.fault = false ∧ u ∈ users.keys

/-- The step removes the account. -/
def Deletes : Prop := requests i = .delete u ∧ place = .asked

/-- The code no longer stands in the row. -/
def Clears : Prop :=
  (∃ code e, Sets bytes requests u code e i env users place) ∨ Marks requests u i env users place ∨
    Deletes requests u i place

/-- A verify finds the code on the page of the handle. -/
def Matches : Prop :=
  (∃ auth, requests i = .verify auth) ∧ place = .pending handle code ∧
    ∃ status body, env.fetch (profileUrl handle) = .response status (some body) ∧
      200 ≤ status ∧ status < 300 ∧ contains body code = true

/-- A verify reads the handle, and a code that is still good, of an account that is not marked. -/
def Reads : Prop :=
  (∃ auth, requests i = .verify auth ∧ auth.sub = u ∧ auth.tokenType = .user ∧ isUuid u = true) ∧
    place = .asked ∧ env.fault = false ∧
    ∃ user, rowOf users u = some user ∧ user.rsiVerifiedAt = none ∧ user.claimedHandle = handle ∧
      user.rsiVerifyCode = some code ∧ user.rsiVerifyExpiresAt = some e ∧ env.now < e

end Turn

end Machine

/-! ### What a step does -/

section Steps
variable {ι : Type} {isUuid : String → Bool} {bytes : ι → List UInt8} {requests : ι → Request} {i : ι}
  {env : Env} {users : Users} {place : Place} {u v handle code : String} {e : ℤ}

theorem mem_keys_iff : u ∈ users.keys ↔ ∃ user, rowOf users u = some user := by
  unfold rowOf
  cases hfind : users.find? u with
  | none => exact iff_of_false (Table.find?_eq_none.mp hfind) (by simp)
  | some a =>
    refine iff_of_true ?_ ⟨a.2, rfl⟩
    by_contra hnot
    rw [Table.find?_eq_none.mpr hnot] at hfind
    cases hfind

theorem rowOf_setRsiVerifyCode : rowOf (setRsiVerifyCode users v code e) u =
    if u = v then (rowOf users u).map
      fun user => { user with rsiVerifyCode := some code, rsiVerifyExpiresAt := some e }
    else rowOf users u :=
  Table.map_find?_updateKey

theorem rowOf_markRsiVerified : rowOf (markRsiVerified env users v) u =
    if u = v then (rowOf users u).map
      fun user => { user with
        rsiVerifiedAt := some env.now
        rsiVerifyCode := none
        rsiVerifyExpiresAt := none }
    else rowOf users u :=
  Table.map_find?_updateKey

theorem rowOf_signUp : rowOf (signUp users v handle place).1 u =
    if place = .asked ∧ u = v ∧ v ∉ users.keys then some ⟨v, handle, none, none, none⟩
    else rowOf users u := by
  unfold signUp
  cases place with
  | asked =>
    by_cases hfree : v ∈ users.keys
    · have hsame : users.insert ⟨v, handle, none, none, none⟩ = users := Table.insert_of_mem hfree
      simp [hsame, hfree]
    · have hinsert := @Table.map_find?_insert _ _ User.id _ users ⟨v, handle, none, none, none⟩ u hfree
      simpa [rowOf, hfree] using hinsert
  | _ => simp

theorem rowOf_delete : rowOf (delete users v place).1 u =
    if place = .asked ∧ u = v then none else rowOf users u := by
  unfold delete
  cases place with
  | asked =>
    have hdelete := @Table.map_find?_deleteWhere_key _ _ User.id _ users u v
    simpa [rowOf] using hdelete
  | _ => simp

theorem users_start {auth : AuthenticatedUser} : (start isUuid env users code auth place).1 =
    match place with
    | .drawn expiresAt _ =>
      if env.fault then users else setRsiVerifyCode users auth.sub code expiresAt
    | _ => users := by
  unfold start
  cases place with
  | asked =>
    simp only
    split
    · rfl
    · split_ifs
      · rfl
      · split <;> rfl
  | drawn expiresAt claimedHandle => simp only; split_ifs <;> rfl
  | _ => rfl

theorem users_verify {auth : AuthenticatedUser} : (verify isUuid env users auth place).1 =
    match place with
    | .found => if env.fault then users else markRsiVerified env users auth.sub
    | _ => users := by
  unfold verify
  cases place with
  | asked =>
    simp only
    split
    · rfl
    · split_ifs
      · rfl
      · split <;> [split_ifs <;> rfl; rfl]
  | pending claimedHandle code => simp only; split <;> rfl
  | found => simp only; split_ifs <;> rfl
  | _ => rfl

/-- What becomes of the row of an account. -/
inductive RowMoves (bytes : ι → List UInt8) (requests : ι → Request) (u : String) (i : ι) (env : Env)
    (users : Users) (place : Place) : Option User → Option User → Prop
  | set (user : User) (code : String) (e : ℤ) : Sets bytes requests u code e i env users place →
      RowMoves bytes requests u i env users place (some user)
        (some { user with rsiVerifyCode := some code, rsiVerifyExpiresAt := some e })
  | mark (user : User) : Marks requests u i env users place →
      RowMoves bytes requests u i env users place (some user)
        (some { user with
          rsiVerifiedAt := some env.now
          rsiVerifyCode := none
          rsiVerifyExpiresAt := none })
  | delete (row : Option User) : Deletes requests u i place →
      RowMoves bytes requests u i env users place row none
  | make (handle : String) : ¬ Clears bytes requests u i env users place →
      RowMoves bytes requests u i env users place none (some ⟨u, handle, none, none, none⟩)
  | stay (row : Option User) : ¬ Clears bytes requests u i env users place →
      RowMoves bytes requests u i env users place row row

theorem rowMoves_step (isUuid : String → Bool) (bytes : ι → List UInt8) (requests : ι → Request)
    (u : String) (i : ι) (env : Env) (users : Users) (place : Place) :
    RowMoves bytes requests u i env users place (rowOf users u)
      (rowOf (step isUuid bytes requests i env users place).1 u) := by
  unfold step
  cases hrequest : requests i with
  | start auth =>
    simp only [users_start]
    cases place with
    | drawn expiresAt claimedHandle =>
      cases hfault : env.fault with
      | true => exact .stay _ (by simp [Clears, Sets, Marks, Deletes, hrequest, hfault])
      | false =>
        simp only [Bool.false_eq_true, if_false, rowOf_setRsiVerifyCode]
        split_ifs with hu
        · subst hu
          cases hrow : rowOf users auth.sub with
          | none =>
            have hnot : auth.sub ∉ users.keys := by simp [mem_keys_iff, hrow]
            exact .stay _ (by simp [Clears, Sets, Marks, Deletes, hrequest, hnot])
          | some user =>
            exact .set user _ _ ⟨⟨auth, hrequest, rfl⟩, ⟨claimedHandle, rfl⟩, rfl, hfault,
              mem_keys_iff.mpr ⟨user, hrow⟩⟩
        · exact .stay _ (by simp [Clears, Sets, Marks, Deletes, hrequest, Ne.symm hu])
    | _ => exact .stay _ (by simp [Clears, Sets, Marks, Deletes, hrequest])
  | verify auth =>
    simp only [users_verify]
    cases place with
    | found =>
      cases hfault : env.fault with
      | true => exact .stay _ (by simp [Clears, Sets, Marks, Deletes, hrequest, hfault])
      | false =>
        simp only [Bool.false_eq_true, if_false, rowOf_markRsiVerified]
        split_ifs with hu
        · subst hu
          cases hrow : rowOf users auth.sub with
          | none =>
            have hnot : auth.sub ∉ users.keys := by simp [mem_keys_iff, hrow]
            exact .stay _ (by simp [Clears, Sets, Marks, Deletes, hrequest, hnot])
          | some user =>
            exact .mark user ⟨⟨auth, hrequest, rfl⟩, rfl, hfault, mem_keys_iff.mpr ⟨user, hrow⟩⟩
        · exact .stay _ (by simp [Clears, Sets, Marks, Deletes, hrequest, Ne.symm hu])
    | _ => exact .stay _ (by simp [Clears, Sets, Marks, Deletes, hrequest])
  | signUp id claimedHandle =>
    have hclears : ¬ Clears bytes requests u i env users place := by
      simp [Clears, Sets, Marks, Deletes, hrequest]
    simp only [rowOf_signUp]
    split_ifs with hnew
    · obtain ⟨-, rfl, hfree⟩ := hnew
      have hnone : rowOf users u = none := by
        unfold rowOf
        rw [Table.find?_eq_none.mpr hfree]
        rfl
      rw [hnone]
      exact .make _ hclears
    · exact .stay _ hclears
  | delete id =>
    simp only [rowOf_delete]
    split_ifs with hgone
    · obtain ⟨hplace, rfl⟩ := hgone
      exact .delete _ ⟨hrequest, hplace⟩
    · refine .stay _ ?_
      simp [Clears, Sets, Marks, Deletes, hrequest]
      grind

/-- **An account is marked after a step exactly if a verify has just marked it, or it was and has not been
deleted.** -/
theorem verified_step : Verified (step isUuid bytes requests i env users place).1 u ↔
    Marks requests u i env users place ∨ Verified users u ∧ ¬ Deletes requests u i place := by
  have hmoves := rowMoves_step isUuid bytes requests u i env users place
  unfold Verified
  generalize rowOf (step isUuid bytes requests i env users place).1 u = row' at hmoves
  generalize hrow : rowOf users u = row at hmoves
  cases hmoves with
  | set user code e hsets =>
    obtain ⟨⟨auth, hrequest, -⟩, -⟩ := hsets
    simp [Marks, Deletes, hrequest]
  | mark user hmarks => simp [hmarks]
  | delete row hdeletes =>
    obtain ⟨hrequest, hplace⟩ := hdeletes
    simp [Marks, Deletes, hrequest, hplace]
  | make handle hclears =>
    have hmarks : ¬ Marks requests u i env users place := fun h => hclears (Or.inr (Or.inl h))
    simp [hmarks]
  | stay row hclears =>
    have hmarks : ¬ Marks requests u i env users place := fun h => hclears (Or.inr (Or.inl h))
    have hdeletes : ¬ Deletes requests u i place := fun h => hclears (Or.inr (Or.inr h))
    simp [hmarks, hdeletes]

/-- **A code stands in a row after a step exactly if a start has just written it, or it stood there and
nothing has cleared it.** -/
theorem pending_step : Pending (step isUuid bytes requests i env users place).1 u code e ↔
    Sets bytes requests u code e i env users place ∨
      Pending users u code e ∧ ¬ Clears bytes requests u i env users place := by
  have hmoves := rowMoves_step isUuid bytes requests u i env users place
  unfold Pending
  generalize rowOf (step isUuid bytes requests i env users place).1 u = row' at hmoves
  generalize hrow : rowOf users u = row at hmoves
  cases hmoves with
  | set user code' e' hsets =>
    have hclears : Clears bytes requests u i env users place := Or.inl ⟨code', e', hsets⟩
    have hone : Sets bytes requests u code e i env users place ↔ code' = code ∧ e' = e := by
      constructor
      · rintro ⟨-, ⟨handle, hplace⟩, hcode, -⟩
        obtain ⟨-, ⟨handle', hplace'⟩, hcode', -⟩ := hsets
        exact ⟨hcode'.symm.trans hcode, (Place.drawn.inj (hplace'.symm.trans hplace)).1⟩
      · rintro ⟨rfl, rfl⟩
        exact hsets
    simp [hclears, hone]
  | mark user hmarks =>
    have hclears : Clears bytes requests u i env users place := Or.inr (Or.inl hmarks)
    obtain ⟨⟨auth, hrequest, -⟩, -⟩ := hmarks
    simp [hclears, Sets, hrequest]
  | delete row hdeletes =>
    have hclears : Clears bytes requests u i env users place := Or.inr (Or.inr hdeletes)
    simp [hclears, Sets, hdeletes.1]
  | make handle hclears =>
    have hsets : ¬ Sets bytes requests u code e i env users place := fun h => hclears (Or.inl ⟨_, _, h⟩)
    simp [hsets]
  | stay row hclears =>
    have hsets : ¬ Sets bytes requests u code e i env users place := fun h => hclears (Or.inl ⟨_, _, h⟩)
    simp [hclears, hsets]

theorem checkBio_eq_bioContains {fetch : String → Fetched} : checkBio fetch handle code = .bioContains ↔
    ∃ status body, fetch (profileUrl handle) = .response status (some body) ∧
      200 ≤ status ∧ status < 300 ∧ contains body code = true := by
  unfold checkBio
  cases fetch (profileUrl handle) with
  | failed => simp
  | response status body =>
    simp only
    split_ifs with hmissing hsuccess
    · refine iff_of_false nofun ?_
      rintro ⟨_, _, heq, hlow, hhigh, -⟩
      obtain ⟨rfl, -⟩ := Fetched.response.inj heq
      omega
    · cases body with
      | none => simp
      | some body =>
        cases hcontains : contains body code with
        | true => simp [hcontains, hsuccess]
        | false => simp [hcontains]
    · refine iff_of_false nofun ?_
      rintro ⟨_, _, heq, hlow, hhigh, -⟩
      obtain ⟨rfl, -⟩ := Fetched.response.inj heq
      exact hsuccess ⟨hlow, hhigh⟩

theorem callerOf_eq_ok {auth : AuthenticatedUser} {user : User} : callerOf isUuid env users auth = .ok user ↔
    auth.tokenType = .user ∧ isUuid auth.sub = true ∧ env.fault = false ∧
      rowOf users auth.sub = some user := by
  unfold callerOf requireUserToken
  by_cases htype : auth.tokenType = .user
  · cases huuid : isUuid auth.sub with
    | false => simp [htype]
    | true =>
      cases hfault : env.fault with
      | true => simp [htype]
      | false => cases hrow : rowOf users auth.sub <;> simp [htype]
  · simp [htype]

/-- A verify comes to a code as it reads it, and leaves it at its next step. -/
theorem pendingPlace_step : (step isUuid bytes requests i env users place).2 = .pending handle code ↔
    (∃ u e, Reads isUuid requests u handle code e i env users place) ∨
      place = .pending handle code ∧ ¬ ∃ auth, requests i = .verify auth := by
  unfold step Reads
  cases requests i with
  | start auth =>
    unfold start
    cases place with
    | asked =>
      simp only
      split
      · simp
      · split_ifs
        · simp
        · split <;> simp
    | drawn => simp only; split_ifs <;> simp
    | _ => simp
  | verify auth =>
    unfold verify
    cases place with
    | asked =>
      cases hcaller : callerOf isUuid env users auth with
      | error r =>
        have hnot : ∀ user, callerOf isUuid env users auth ≠ .ok user := by simp [hcaller]
        simp only [ne_eq, callerOf_eq_ok] at hnot
        simp only [hcaller]
        grind
      | ok user =>
        obtain ⟨htype, huuid, hfault, hrow⟩ := callerOf_eq_ok.mp hcaller
        obtain ⟨id, claimedHandle, verifiedAt, code', expiresAt⟩ := user
        simp only [hcaller]
        cases verifiedAt with
        | some t => simp [hrow]
        | none =>
          cases code' with
          | none => simp [hrow]
          | some code' =>
            cases expiresAt with
            | none => simp [hrow]
            | some expiresAt =>
              by_cases hlate : expiresAt ≤ env.now
              · simp [hrow, hlate]
              · simp [hrow, hlate, htype, huuid, hfault, not_le.mp hlate]
    | pending => simp only; split <;> simp
    | found => simp only; split_ifs <;> simp
    | _ => simp
  | signUp => cases place <;> simp [signUp]
  | delete => cases place <;> simp [delete]

theorem found_step : (step isUuid bytes requests i env users place).2 = .found ↔
    (∃ handle code, Matches requests handle code i env place) ∨
      place = .found ∧ ¬ ∃ auth, requests i = .verify auth := by
  unfold step Matches
  cases requests i with
  | start auth =>
    unfold start
    cases place with
    | asked =>
      simp only
      split
      · simp
      · split_ifs
        · simp
        · split <;> simp
    | drawn => simp only; split_ifs <;> simp
    | _ => simp
  | verify auth =>
    unfold verify
    cases place with
    | asked =>
      simp only
      split
      · simp
      · split_ifs
        · simp
        · split <;> [split_ifs <;> simp; simp]
    | pending h c =>
      have hcheck := @checkBio_eq_bioContains h c env.fetch
      simp only
      split <;> simp_all
    | found => simp only; split_ifs <;> simp
    | _ => simp
  | signUp => cases place <;> simp [signUp]
  | delete => cases place <;> simp [delete]

end Steps

/-! ### Runs -/

section Runs
variable {ι : Type} [DecidableEq ι] (isUuid : String → Bool) (bytes : ι → List UInt8)
  (requests : ι → Request) (as : List (ι × Env))

/-- A verify of the account goes the whole way: in one turn it reads the handle and the code, in its next
it finds the code on the page of the handle, in its next it marks the account. -/
structure Proves (u handle code : String) (e : ℤ) (i : ι) (m n p : ℕ) : Prop where
  reads : TurnOf (step isUuid bytes requests) initial as i (Reads isUuid requests u handle code e i) m
  looks : TurnOf (step isUuid bytes requests) initial as i (fun env _ => Matches requests handle code i env) n
  marks : TurnOf (step isUuid bytes requests) initial as i (Marks requests u i) p
  between : m < n ∧ n < p ∧ Idle as i m n ∧ Idle as i n p

variable {isUuid bytes requests as} {n p N : ℕ} {i : ι} {u handle code : String} {e : ℤ}

theorem verified_state : Verified (state isUuid bytes requests as N).store u ↔
    Since (Turns (step isUuid bytes requests) initial as (Marks requests u))
      (Turns (step isUuid bytes requests) initial as fun i _ _ => Deletes requests u i) N := by
  have hstart : ¬ Verified (@initial ι).store u := by
    rintro ⟨user, hrow, -⟩
    cases hrow
  exact store_iff_since (Verified · u) (Marks requests u) (fun i _ _ => Deletes requests u i) hstart
    (fun _ _ _ _ => verified_step) N

theorem pending_state : Pending (state isUuid bytes requests as n).store u code e ↔
    Since (Turns (step isUuid bytes requests) initial as (Sets bytes requests u code e))
      (Turns (step isUuid bytes requests) initial as (Clears bytes requests u)) n := by
  have hstart : ¬ Pending (@initial ι).store u code e := by
    rintro ⟨user, hrow, -⟩
    cases hrow
  exact store_iff_since (Pending · u code e) (Sets bytes requests u code e) (Clears bytes requests u)
    hstart (fun _ _ _ _ => pending_step) n

theorem profileUrl_inj {handle' : String} (h : profileUrl handle' = profileUrl handle) :
    handle' = handle := by
  unfold profileUrl encodePathSegment at h
  rw [String.append_right_inj] at h
  exact encodeSegment_inj.mp (String.ofList_injective h)

/-- Where a verify is, it has come to by its last turn. -/
theorem found_state : (state isUuid bytes requests as n).place i = .found ↔
    Since
      (TurnOf (step isUuid bytes requests) initial as i fun env _ place =>
        ∃ handle code, Matches requests handle code i env place)
      (TurnOf (step isUuid bytes requests) initial as i fun _ _ _ => ∃ auth, requests i = .verify auth) n :=
  @place_iff_since ι Users Place Env _ (step isUuid bytes requests) initial as i (· = .found)
    (fun env _ place => ∃ handle code, Matches requests handle code i env place)
    (fun _ _ _ => ∃ auth, requests i = .verify auth) (by simp [initial]) (fun _ _ _ => found_step) n

theorem pendingPlace_state : (state isUuid bytes requests as n).place i = .pending handle code ↔
    Since
      (TurnOf (step isUuid bytes requests) initial as i fun env users place =>
        ∃ u e, Reads isUuid requests u handle code e i env users place)
      (TurnOf (step isUuid bytes requests) initial as i fun _ _ _ => ∃ auth, requests i = .verify auth) n :=
  @place_iff_since ι Users Place Env _ (step isUuid bytes requests) initial as i
    (· = .pending handle code)
    (fun env users place => ∃ u e, Reads isUuid requests u handle code e i env users place)
    (fun _ _ _ => ∃ auth, requests i = .verify auth) (by simp [initial])
    (fun _ _ _ => pendingPlace_step) n

/-- A turn that marks an account ends a proof of its handle. -/
theorem exists_proves (h : TurnOf (step isUuid bytes requests) initial as i (Marks requests u i) p) :
    ∃ handle code e m n, Proves isUuid bytes requests as u handle code e i m n p := by
  have hmarks := h
  obtain ⟨_, _, -, rfl, ⟨auth, hrequest, rfl⟩, hfound, -, -⟩ := h
  obtain ⟨n, hnp, ⟨_, env, ha, rfl, handle, code, hlooks⟩, hidle⟩ := found_state.mp hfound
  obtain ⟨m, hmn, ⟨_, env', ha', rfl, u, e, hreads⟩, hidle'⟩ := pendingPlace_state.mp hlooks.2.1
  obtain rfl : u = auth.sub := by
    obtain ⟨auth', hrequest', hu, -⟩ := hreads.1
    obtain rfl := Request.verify.inj (hrequest.symm.trans hrequest')
    exact hu.symm
  refine ⟨handle, code, e, m, n, ⟨_, env', ha', rfl, hreads⟩, ⟨_, env, ha, rfl, hlooks⟩, hmarks, hmn, hnp,
    ?_, ?_⟩
  · intro q hmq hqn env'' hq
    exact hidle' q hmq hqn ⟨_, env'', hq, rfl, auth, hrequest⟩
  · intro q hnq hqp env'' hq
    exact hidle q hnq hqp ⟨_, env'', hq, rfl, auth, hrequest⟩

/-- **An account is marked exactly if a verify of it has gone the whole way, with a code that a start had
written for it and nothing had cleared, and it has not been deleted since.** -/
theorem verified_iff : Verified (state isUuid bytes requests as N).store u ↔
    ∃ handle code e i m n p, Proves isUuid bytes requests as u handle code e i m n p ∧
      Since (Turns (step isUuid bytes requests) initial as (Sets bytes requests u code e))
        (Turns (step isUuid bytes requests) initial as (Clears bytes requests u)) m ∧
      (∀ handle', profileUrl handle' = profileUrl handle → handle' = handle) ∧ p < N ∧
      ∀ q, p < q → q < N →
        ¬ Turns (step isUuid bytes requests) initial as (fun i _ _ => Deletes requests u i) q := by
  rw [verified_state]
  constructor
  · rintro ⟨p, hpN, ⟨i, env, ha, hmarks⟩, hkept⟩
    obtain ⟨handle, code, e, m, n, hproves⟩ :=
      @exists_proves ι _ isUuid bytes requests as p i u ⟨i, env, ha, rfl, hmarks⟩
    refine ⟨handle, code, e, i, m, n, p, hproves, ?_, fun _ => profileUrl_inj, hpN, hkept⟩
    obtain ⟨_, _, -, rfl, -, -, -, user, hrow, -, -, hcode, hexpires, -⟩ := hproves.reads
    exact pending_state.mp ⟨user, hrow, hcode, hexpires⟩
  · rintro ⟨handle, code, e, i, m, n, p, hproves, -, -, hpN, hkept⟩
    obtain ⟨_, env, ha, rfl, hmarks⟩ := hproves.marks
    exact ⟨p, hpN, ⟨_, env, ha, hmarks⟩, hkept⟩

end Runs

end StarStats.Server.RsiVerify
