import StarStats.Lib.Histories
import StarStats.Lib.Tables
import StarStats.Lib.Text
import StarStats.Server.Credentials

/-! # Magic links

A start looks an address up, inserts a token for the account and mails it. A redeem marks the token as
consumed, in the one statement that looks it up, then fetches the account and signs a token for it: a
whole one, or half of one where the account has a second factor. Beside both, other routes change the
accounts, and with an account its links go.

A redeem goes through exactly if its token has been inserted for the account less than a quarter of an
hour ago, and since then no redeem has gone through with it and the account has not been deleted
(`redeems_iff`). A request is signed in exactly if it went through, and then found the account
(`signedIn_iff`). -/

namespace StarStats.Server.MagicLinks

open StarStats.Lib.Tables StarStats.Lib.Text StarStats.Lib.Threads StarStats.Lib.Histories
open StarStats.Server.Credentials (Casing)

/-- `MAGIC_LINK_TTL`, in seconds. -/
def magicLinkTtl : ℤ := 15 * 60

/-- The columns of `users` that the routes read. -/
structure User where
  id : String
  email : String
  claimedHandle : String
  totpEnabledAt : Option ℤ
  deriving DecidableEq

/-- A row of `magic_link_tokens`. -/
structure MagicLinkToken where
  token : String
  userId : String
  expiresAt : ℤ
  consumedAt : Option ℤ
  deriving DecidableEq

abbrev Users := Table User.id

/-- The links that were sent. -/
abbrev Links := Table MagicLinkToken.token

inductive Request where
  | start (email : String)
  | redeem (token : String)
  /-- A statement of another route on the accounts. -/
  | other (change : Users → Users)

inductive Response where
  | error (status : ℕ) (code : String)
  | sent
  | auth (userId claimedHandle : String) (totpRequired : Bool)
  | done
  deriving DecidableEq

/-- Where a request is. -/
inductive Place where
  | asked
  /-- The account with the address. -/
  | known (user : User)
  | issued (user : User)
  | redeemed (userId : String)
  | answered (r : Response)
  deriving DecidableEq

/-- The clock, whether the call of a step fails, and whether the signing of a token does. -/
structure Env where
  now : ℤ
  fault : Bool
  signFails : Bool

/-- The accounts, their links, and the mails sent: to which address and handle, with which token. -/
structure Store where
  users : Users
  links : Links
  mails : List (String × String × String)

section Handlers
variable (c : Casing) (env : Env) (st : Store)

def findById (userId : String) : Option User := (st.users.find? userId).map (·.2)

/-- Whatever the case of the address. -/
def findByEmail (email : String) : Option User :=
  st.users.contents.find? fun u => c.lower u.email = c.lower email

/-- The row of a token. -/
def linkOf (token : String) : Option MagicLinkToken := (st.links.find? token).map (·.2)

/-- `none` where the token is in use, or the account is not there any more. -/
def issue (token userId : String) : Option Links :=
  if userId ∈ st.users.keys ∧ token ∉ st.links.keys then
    some (st.links.insert ⟨token, userId, env.now + magicLinkTtl, none⟩)
  else none

/-- The link is used up. -/
def consume (token : String) : Links :=
  st.links.updateKey token (fun r => { r with consumedAt := some env.now }) fun _ => rfl

/-- The row is marked, and its account returned, if it is neither consumed nor expired. -/
def redeemLink (token : String) : Links × Option String :=
  match linkOf st token with
  | none => (st.links, none)
  | some row =>
    if row.consumedAt = none ∧ env.now < row.expiresAt then (consume env st token, some row.userId)
    else (st.links, none)

/-- The steps of a start, with the token that it generates; its answer tells nothing. -/
def start (token email : String) : Place → Store × Place
  | .asked =>
    match if env.fault then none else findByEmail c st (c.toLowercase (trim email)) with
    | none => (st, .answered .sent)
    | some user => (st, .known user)
  | .known user =>
    match if env.fault then none else issue env st token user.id with
    | none => (st, .answered .sent)
    | some links => ({ st with links := links }, .issued user)
  | .issued user =>
    (if env.fault then st else { st with mails := st.mails ++ [(user.email, user.claimedHandle, token)] },
      .answered .sent)
  | place => (st, place)

/-- The steps of a redeem. -/
def redeem (token : String) : Place → Store × Place
  | .asked =>
    if env.fault then (st, .answered (.error 500 "internal"))
    else
      match redeemLink env st token with
      | (_, none) => (st, .answered (.error 401 "invalid_or_expired"))
      | (links, some userId) => ({ st with links := links }, .redeemed userId)
  | .redeemed userId =>
    if env.fault then (st, .answered (.error 500 "internal"))
    else
      match findById st userId with
      | none => (st, .answered (.error 500 "internal"))
      | some user =>
        if env.signFails then (st, .answered (.error 500 "sign_failed"))
        else (st, .answered (.auth user.id user.claimedHandle user.totpEnabledAt.isSome))
  | place => (st, place)

/-- A statement on the accounts; the links of accounts that are gone go too. -/
def other (change : Users → Users) : Place → Store × Place
  | .asked =>
    ({ st with
        users := change st.users
        links := st.links.deleteWhere (·.userId ∉ (change st.users).keys) },
      .answered .done)
  | place => (st, place)

end Handlers

section Machine
variable {ι : Type} [DecidableEq ι] (c : Casing) (token : ι → String) (requests : ι → Request)

/-- A request takes its next step. -/
def step (i : ι) (env : Env) (st : Store) (place : Place) : Store × Place :=
  match requests i with
  | .start email => start c env st (token i) email place
  | .redeem t => redeem env st t place
  | .other change => other st change place

/-- There are no links, and all requests are yet to begin. -/
def initial (users : Users) : Shared ι Store Place := ⟨⟨users, Table.empty, []⟩, fun _ => .asked⟩

variable (users : Users) (as : List (ι × Env))

/-- The state after the first turns. -/
def state (n : ℕ) : Shared ι Store Place := after (step c token requests) (initial users) as n

section Turn
variable (t u : String) (e : ℤ) (i : ι) (env : Env) (st : Store) (place : Place)

/-- A start inserts the token for the account, good until `e`. -/
def Issues : Prop :=
  (∃ email, requests i = .start email) ∧ token i = t ∧ env.now + magicLinkTtl = e ∧ env.fault = false ∧
    (∃ user, place = .known user ∧ user.id = u) ∧ u ∈ st.users.keys ∧ t ∉ st.links.keys

/-- A redeem goes through with the token, for the account. -/
def Redeems : Prop :=
  requests i = .redeem t ∧ place = .asked ∧ (redeem env st t place).2 = .redeemed u

/-- The accounts are written, and this one is not among them. -/
def Deletes : Prop := place = .asked ∧ ∃ change, requests i = .other change ∧ u ∉ (change st.users).keys

/-- The token is no longer good: a redeem goes through with it, or its account goes. -/
def Ends : Prop := Redeems requests t u i env st place ∨ Deletes requests u i st place

/-- The account is found, and a token signed for it. -/
def Signs (h : String) (totpRequired : Bool) : Prop :=
  (∃ t, requests i = .redeem t) ∧ place = .redeemed u ∧ env.fault = false ∧ env.signFails = false ∧
    ∃ user ∈ st.users.contents, user.id = u ∧ user.claimedHandle = h ∧
      user.totpEnabledAt.isSome = totpRequired

end Turn

end Machine

/-! ### What a step does -/

section Steps
variable {ι : Type} {c : Casing} {token : ι → String} {requests : ι → Request} {i : ι} {env : Env}
  {st st' : Store} {place place' : Place} {t u h : String} {e : ℤ} {totpRequired : Bool}

theorem linkOf_some {row : MagicLinkToken} :
    linkOf st t = some row ↔ row ∈ st.links.contents ∧ row.token = t := Table.map_find?_eq_some

theorem findById_some {user : User} :
    findById st u = some user ↔ user ∈ st.users.contents ∧ user.id = u := Table.map_find?_eq_some

/-- A redeem at its first step. -/
theorem redeem_asked : redeem env st t .asked =
    if env.fault then (st, .answered (.error 500 "internal"))
    else
      match linkOf st t with
      | none => (st, .answered (.error 401 "invalid_or_expired"))
      | some row =>
        if row.consumedAt = none ∧ env.now < row.expiresAt then
          ({ st with links := consume env st t }, .redeemed row.userId)
        else (st, .answered (.error 401 "invalid_or_expired")) := by
  unfold redeem redeemLink
  cases linkOf st t with
  | none => rfl
  | some row =>
    by_cases hgood : row.consumedAt = none ∧ env.now < row.expiresAt
    · simp only [if_pos hgood]
    · simp only [if_neg hgood]

/-- A redeem at its second step. -/
theorem redeem_redeemed : redeem env st t (.redeemed u) =
    if env.fault then (st, .answered (.error 500 "internal"))
    else
      match findById st u with
      | none => (st, .answered (.error 500 "internal"))
      | some user =>
        if env.signFails then (st, .answered (.error 500 "sign_failed"))
        else (st, .answered (.auth user.id user.claimedHandle user.totpEnabledAt.isSome)) := rfl

@[simp] theorem store_redeem_redeemed : (redeem env st t (.redeemed u)).1 = st := by
  rw [redeem_redeemed]
  cases findById st u with
  | none => split_ifs <;> rfl
  | some user =>
    simp only
    split_ifs <;> rfl

theorem place_redeem_redeemed {v : String} : (redeem env st t (.redeemed u)).2 ≠ .redeemed v := by
  rw [redeem_redeemed]
  cases findById st u with
  | none => split_ifs <;> nofun
  | some user =>
    simp only
    split_ifs <;> nofun

theorem redeem_redeemed_iff {v : String} :
    (redeem env st t (.redeemed v)).2 = .answered (.auth u h totpRequired) ↔
      v = u ∧ env.fault = false ∧ env.signFails = false ∧
        ∃ user ∈ st.users.contents, user.id = u ∧ user.claimedHandle = h ∧
          user.totpEnabledAt.isSome = totpRequired := by
  rw [redeem_redeemed]
  cases hfault : env.fault with
  | true => simp
  | false =>
    cases hfind : findById st v with
    | none =>
      have hnot : ∀ user ∈ st.users.contents, user.id ≠ v := by
        intro user huser hid
        rw [findById_some.mpr ⟨huser, hid⟩] at hfind
        cases hfind
      simp
      grind
    | some user =>
      obtain ⟨huser, hid⟩ := findById_some.mp hfind
      have hone : ∀ user' ∈ st.users.contents, user'.id = v → user' = user := by
        intro user' huser' hid'
        have hfind' := findById_some.mpr ⟨huser', hid'⟩
        rw [hfind] at hfind'
        exact (Option.some.inj hfind').symm
      cases env.signFails with
      | true => simp
      | false =>
        simp
        grind

/-- A redeem goes through for the account of a row that is neither consumed nor expired. -/
theorem redeem_asked_iff : (redeem env st t .asked).2 = .redeemed u ↔
    env.fault = false ∧ ∃ e, env.now < e ∧ linkOf st t = some ⟨t, u, e, none⟩ := by
  rw [redeem_asked]
  cases hfault : env.fault with
  | true => simp
  | false =>
    cases hrow : linkOf st t with
    | none => simp
    | some row =>
      obtain ⟨-, htoken⟩ := linkOf_some.mp hrow
      obtain ⟨t', u', e, consumed⟩ := row
      simp only at htoken
      subst htoken
      by_cases hgood : consumed = none ∧ env.now < e
      · simp [hgood, eq_comm]
      · simp [hgood]
        grind

/-- A start leaves the good tokens good, and inserts its own. -/
theorem linkOf_start {tok email : String} :
    linkOf (start c env st tok email place).1 t = some ⟨t, u, e, none⟩ ↔
      (tok = t ∧ env.now + magicLinkTtl = e ∧ env.fault = false ∧
        (∃ user, place = .known user ∧ user.id = u) ∧ u ∈ st.users.keys ∧ t ∉ st.links.keys) ∨
      linkOf st t = some ⟨t, u, e, none⟩ := by
  unfold start
  cases place with
  | known user =>
    cases hfault : env.fault with
    | true => simp
    | false =>
      unfold issue
      by_cases hfree : user.id ∈ st.users.keys ∧ tok ∉ st.links.keys
      · have hinsert : linkOf { st with
            links := st.links.insert ⟨tok, user.id, env.now + magicLinkTtl, none⟩ } t =
              if t = tok then some ⟨tok, user.id, env.now + magicLinkTtl, none⟩ else linkOf st t :=
          Table.map_find?_insert hfree.2
        simp only [Bool.false_eq_true, if_false, if_pos hfree, hinsert]
        by_cases ht : t = tok
        · subst ht
          have hnone : linkOf st t = none := by
            unfold linkOf
            rw [Table.find?_eq_none.mpr hfree.2]
            rfl
          simp only [if_true, hnone]
          grind
        · grind
      · simp only [Bool.false_eq_true, if_false, if_neg hfree]
        grind
  | asked =>
    have hnone : ¬ ∃ user, Place.asked = .known user ∧ user.id = u := by
      rintro ⟨user, hplace, -⟩
      cases hplace
    simp only [hnone, false_and, and_false, false_or]
    split <;> rfl
  | issued user => cases env.fault <;> simp [linkOf]
  | redeemed | answered => simp

/-- A redeem leaves the good tokens good but the one that it goes through with. -/
theorem linkOf_redeem {t' : String} :
    linkOf (redeem env st t' place).1 t = some ⟨t, u, e, none⟩ ↔
      linkOf st t = some ⟨t, u, e, none⟩ ∧
        ¬ (t' = t ∧ place = .asked ∧ (redeem env st t place).2 = .redeemed u) := by
  cases place with
  | asked =>
    rw [redeem_asked_iff, redeem_asked]
    cases hfault : env.fault with
    | true => simp
    | false =>
      simp only [Bool.false_eq_true, if_false, true_and]
      cases hrow : linkOf st t' with
      | none => grind
      | some row =>
        by_cases hgood : row.consumedAt = none ∧ env.now < row.expiresAt
        · have hconsume : linkOf { st with links := consume env st t' } t =
              if t = t' then (linkOf st t).map (fun r => { r with consumedAt := some env.now })
              else linkOf st t :=
            Table.map_find?_updateKey
          simp only [if_pos hgood, hconsume]
          grind
        · simp only [if_neg hgood]
          grind
  | redeemed v =>
    have hplace : Place.redeemed v ≠ .asked := nofun
    simp only [hplace, false_and, and_false, not_false_iff, and_true, store_redeem_redeemed]
  | _ => simp [redeem]

theorem linkOf_other {change : Users → Users} :
    linkOf (other st change place).1 t = some ⟨t, u, e, none⟩ ↔
      linkOf st t = some ⟨t, u, e, none⟩ ∧ ¬ (place = .asked ∧ u ∉ (change st.users).keys) := by
  unfold other
  cases place with
  | asked =>
    simp [linkOf_some, Table.mem_contents_deleteWhere]
  | _ => simp

/-- **A token is good for an account after a step exactly if a start has just inserted it, or it was good
and is neither redeemed nor gone with the account.** -/
theorem linkOf_step : linkOf (step c token requests i env st place).1 t = some ⟨t, u, e, none⟩ ↔
    Issues token requests t u e i env st place ∨
      linkOf st t = some ⟨t, u, e, none⟩ ∧ ¬ Ends requests t u i env st place := by
  unfold step Issues Ends Redeems Deletes
  cases requests i with
  | start email =>
    simp only [linkOf_start]
    simp
  | redeem t' =>
    simp only [linkOf_redeem]
    simp
  | other change =>
    simp only [linkOf_other]
    simp

/-- A redeem comes to an account as it goes through, and leaves it at its next step. -/
theorem redeemed_step : (step c token requests i env st place).2 = .redeemed u ↔
    (∃ t, Redeems requests t u i env st place) ∨
      place = .redeemed u ∧ ¬ ∃ t, requests i = .redeem t := by
  unfold step Redeems
  cases requests i with
  | start email =>
    have hstart : (start c env st (token i) email place).2 = .redeemed u ↔ place = .redeemed u := by
      unfold start
      cases place with
      | asked | known => simp only; split <;> simp
      | issued | redeemed | answered => simp
    simp [hstart]
  | redeem t =>
    cases place with
    | redeemed v => simp [place_redeem_redeemed]
    | asked => simp
    | _ => simp [redeem]
  | other change => cases place <;> simp [other]

theorem answered_step : (step c token requests i env st place).2 = .answered (.auth u h totpRequired) ↔
    Signs requests u i env st place h totpRequired ∨ place = .answered (.auth u h totpRequired) := by
  unfold step Signs
  cases requests i with
  | start email =>
    unfold start
    cases place with
    | asked | known => simp only; split <;> simp
    | issued | redeemed | answered => simp
  | redeem t =>
    cases place with
    | redeemed v =>
      simp only [redeem_redeemed_iff]
      simp
    | asked =>
      simp only [redeem_asked]
      cases env.fault with
      | true => simp
      | false =>
        cases linkOf st t with
        | none => simp
        | some row =>
          simp only
          split_ifs <;> simp
    | _ => simp [redeem]
  | other change => cases place <;> simp [other]

end Steps

/-! ### Runs -/

section Runs
variable {ι : Type} [DecidableEq ι] (c : Casing) (token : ι → String) (requests : ι → Request)
  (users : Users) (as : List (ι × Env))

/-- A redeem has its turn with a token that has been inserted for the account, has not expired, and has
not ended since. -/
structure Due (n : ℕ) (i : ι) (t u : String) : Prop where
  request : requests i = .redeem t
  place : (state c token requests users as n).place i = .asked
  turns : ∃ env e, as[n]? = some (i, env) ∧ env.fault = false ∧ env.now < e ∧
    Since (Turns (step c token requests) (initial users) as (Issues token requests t u e))
      (Turns (step c token requests) (initial users) as (Ends requests t u)) n

/-- The account is found, and a token signed for it, in a turn of the request. -/
def SignsIn (n : ℕ) (i : ι) (u h : String) (totpRequired : Bool) : Prop :=
  TurnOf (step c token requests) (initial users) as i
    (fun env st place => Signs requests u i env st place h totpRequired) n

variable {c token requests users as} {n m N : ℕ} {i : ι} {t u h : String} {e : ℤ} {totpRequired : Bool}

/-- The good tokens are those that have been inserted and have not ended. -/
theorem linkOf_state : linkOf (state c token requests users as n).store t = some ⟨t, u, e, none⟩ ↔
    Since (Turns (step c token requests) (initial users) as (Issues token requests t u e))
      (Turns (step c token requests) (initial users) as (Ends requests t u)) n := by
  have hstart : linkOf (@initial ι users).store t = none := rfl
  exact store_iff_since (linkOf · t = some ⟨t, u, e, none⟩) (Issues token requests t u e)
    (Ends requests t u) (by rw [hstart]; nofun) (fun _ _ _ _ => linkOf_step) n

/-- **A redeem goes through exactly if it is due.** -/
theorem turnOf_redeems_iff : TurnOf (step c token requests) (initial users) as i
    (Redeems requests t u i) n ↔
      Due c token requests users as n i t u := by
  constructor
  · rintro ⟨j, env, ha, rfl, hrequest, hplace, hredeem⟩
    rw [hplace] at hredeem
    obtain ⟨hfault, e, hnow, hrow⟩ := redeem_asked_iff.mp hredeem
    exact ⟨hrequest, hplace, env, e, ha, hfault, hnow, linkOf_state.mp hrow⟩
  · rintro ⟨hrequest, hplace, env, e, ha, hfault, hnow, hsince⟩
    refine ⟨i, env, ha, rfl, hrequest, hplace, ?_⟩
    have hredeem := redeem_asked_iff.mpr ⟨hfault, e, hnow, linkOf_state.mpr hsince⟩
    unfold state at hplace hredeem
    rwa [hplace]

/-- A request has an account between its first step and its second. -/
theorem redeemed_state : (state c token requests users as n).place i = .redeemed u ↔
    Since
      (TurnOf (step c token requests) (initial users) as i
        fun env st place => ∃ t, Redeems requests t u i env st place)
      (TurnOf (step c token requests) (initial users) as i fun _ _ _ => ∃ t, requests i = .redeem t) n :=
  @place_iff_since ι Store Place Env _ (step c token requests) (initial users) as i (· = .redeemed u)
    (fun env st place => ∃ t, Redeems requests t u i env st place)
    (fun _ _ _ => ∃ t, requests i = .redeem t) (by simp [initial]) (fun _ _ _ => redeemed_step) n

/-- A request keeps the token that it has got. -/
theorem answered_state :
    (state c token requests users as n).place i = .answered (.auth u h totpRequired) ↔
      ∃ k < n, SignsIn c token requests users as k i u h totpRequired := by
  have hsince := @place_iff_since ι Store Place Env _ (step c token requests) (initial users) as i
    (· = .answered (.auth u h totpRequired))
    (fun env st place => Signs requests u i env st place h totpRequired) (fun _ _ _ => False)
    (by simp [initial]) (fun _ _ _ => by simpa using answered_step) n
  refine hsince.trans ⟨?_, ?_⟩
  · rintro ⟨k, hk, hsigns, -⟩
    exact ⟨k, hk, hsigns⟩
  · rintro ⟨k, hk, hsigns⟩
    refine ⟨k, hk, hsigns, fun p _ _ hlost => ?_⟩
    obtain ⟨_, _, -, -, hfalse⟩ := hlost
    exact hfalse

/-- **A request is signed in as an account exactly if its redeem was due with a token for it, and its next
turn found the account and signed.** -/
theorem signedIn_iff :
    (state c token requests users as N).place i = .answered (.auth u h totpRequired) ↔
      ∃ m n t, m < n ∧ n < N ∧ Due c token requests users as m i t u ∧
        Idle as i m n ∧ SignsIn c token requests users as n i u h totpRequired := by
  rw [answered_state]
  constructor
  · rintro ⟨n, hn, j, env, ha, rfl, hsigns⟩
    obtain ⟨m, hmn, ⟨j', env', ha', rfl, t, hredeems⟩, hidle⟩ := redeemed_state.mp hsigns.2.1
    refine ⟨m, n, t, hmn, hn, turnOf_redeems_iff.mp ⟨_, env', ha', rfl, hredeems⟩, ?_,
      ⟨_, env, ha, rfl, hsigns⟩⟩
    intro p hmp hpn env'' hp
    exact hidle p hmp hpn ⟨_, env'', hp, rfl, hsigns.1⟩
  · rintro ⟨m, n, t, -, hn, -, -, hsigns⟩
    exact ⟨n, hn, hsigns⟩

end Runs

/-- A link is mailed to an address, and opened twice. -/
def openedTwice : List (Fin 3 × Env) :=
  [(0, ⟨0, false, false⟩), (0, ⟨1, false, false⟩), (0, ⟨2, false, false⟩), (1, ⟨800, false, false⟩),
    (2, ⟨801, false, false⟩), (1, ⟨802, false, false⟩)]

example :
    let requests : Fin 3 → Request := fun i => if i = 0 then .start " Jim@b.c" else .redeem "token"
    let users : Users := Table.empty.insert ⟨"u1", "jim@b.c", "Jim", none⟩
    let last := state Credentials.asciiCasing (fun _ => "token") requests users openedTwice 6
    last.place 1 = .answered (.auth "u1" "Jim" false) ∧
      last.place 2 = .answered (.error 401 "invalid_or_expired") := by
  decide

end StarStats.Server.MagicLinks
