import StarStats.Server.Routes

/-! # What the routes turn away

A request is turned away where its handler answers with an error, and has changed nothing by then. What is
checked first is all there is to it for the handlers of the account, of snapshots and of orders; after the
checks they write, or answer with data. -/

namespace StarStats.Server.Routes

open StarStats.Lib.Text StarStats.Lib.Tables
open StarStats.Client.Hangar (HangarPushRequest maxShipsPerPush)
open StarStats.Server.Auth StarStats.Server.Accounts
open StarStats.Server.Credentials (Account)
open StarStats.Server.Orgs (OrgTable)

/-! ### Checks -/

/-- A request is turned away by its checks. -/
def Turned {α : Type} (x : Except Rejection α) : Prop := ∀ a, x ≠ .ok a

section Turned
variable {α β : Type} {c : Bool} {status : ℕ} {code : String}

@[simp] theorem turned_error {e : Rejection} : Turned (α := α) (.error e) ↔ True := by simp [Turned]

@[simp] theorem turned_ok {a : α} : Turned (.ok a) ↔ False := by simp [Turned]

@[simp] theorem turned_pure {a : α} : Turned (pure a) ↔ False := turned_ok

@[simp] theorem turned_rejectWith {detail : Option String} :
    Turned (α := α) (rejectWith status code detail) ↔ True := turned_error

@[simp] theorem turned_reject : Turned (α := α) (reject status code) ↔ True := turned_error

@[simp] theorem turned_check_bind {f : Unit → Except Rejection β} :
    Turned (check c status code >>= f) ↔ c = true ∨ Turned (f ()) := by
  cases c with
  | true => exact iff_of_true (turned_error.mpr trivial) (Or.inl rfl)
  | false => simp only [Bool.false_eq_true, false_or]; exact Iff.rfl

@[simp] theorem turned_checkFound_bind {f : Unit → Except Rejection β} :
    Turned (checkFound c >>= f) ↔ c = true ∨ Turned (f ()) := by
  cases c with
  | true => exact iff_of_true (turned_error.mpr trivial) (Or.inl rfl)
  | false => simp only [Bool.false_eq_true, false_or]; exact Iff.rfl

@[simp] theorem turned_ofOption_bind {o : Option α} {f : α → Except Rejection β} :
    Turned (ofOption status code o >>= f) ↔ ∀ a, o = some a → Turned (f a) := by
  cases o with
  | none => exact iff_of_true (turned_error.mpr trivial) nofun
  | some a => exact ⟨fun h b hb => Option.some.inj hb ▸ h, fun h => h a rfl⟩

/-! A request that is not turned away has passed every check. -/

theorem bind_eq_ok {x : Except Rejection α} {f : α → Except Rejection β} {b : β} (h : x >>= f = .ok b) :
    ∃ a, x = .ok a ∧ f a = .ok b := by
  cases x with
  | error e => cases h
  | ok a => exact ⟨a, rfl, h⟩

theorem check_eq_ok {u : Unit} (h : check c status code = .ok u) : c = false := by
  cases c with
  | true => cases h
  | false => rfl

theorem ofOption_eq_ok {o : Option α} {a : α} (h : ofOption status code o = .ok a) : o = some a := by
  cases o with
  | none => cases h
  | some b => exact congrArg some (Except.ok.inj h)

theorem turned_ite {p : Prop} [Decidable p] {x y : Except Rejection α} :
    Turned (if p then x else y) ↔ (p ∧ Turned x) ∨ (¬ p ∧ Turned y) := by
  by_cases h : p <;> simp [h]

end Turned

/-! ### Unchanged stores -/

/-- All stores are as they were; of the table of organisations, its rows. -/
structure Unchanged (s s' : Stores) : Prop where
  orgs : s'.site.orgs.contents = s.site.orgs.contents
  others : ∀ orgs : OrgTable, { s' with site.orgs := orgs } = { s with site.orgs := orgs }

section Handlers
variable {s : Stores} {env : Env} {auth : AuthenticatedUser}

/-- The answer of a handler that turns a request away, with all as it was. -/
structure TurnsAway {α : Type} (s : Stores) (r : Stores × Except Rejection α) : Prop where
  unchanged : Unchanged s r.1
  turned : Turned r.2

theorem Unchanged.refl (s : Stores) : Unchanged s s := ⟨rfl, fun _ => rfl⟩

theorem turnsAway_handled {α : Type} {x : Except Rejection (Stores × α)} :
    TurnsAway s (handled s x) ↔ Turned x := by
  cases x with
  | error e => exact iff_of_true ⟨.refl s, turned_error.mpr trivial⟩ (turned_error.mpr trivial)
  | ok r => exact iff_of_false (fun h => turned_ok.mp h.turned) turned_ok.mp

/-- The checks of an id that come before its row is looked up. -/
theorem looked_up_iff {α : Type} {uuid fails : Bool} {p : α → Prop} :
    (uuid = false ∨ fails = true ∨ ∀ a, p a) ↔ ∀ a, uuid = true → fails = false → p a := by
  cases uuid <;> cases fails <;> simp

/-- What does not depend on the value that has to be there. -/
theorem forall_some_iff {α : Type} {o : Option α} {p : Prop} :
    (∀ a, o = some a → p) ↔ o = none ∨ p := by
  cases o <;> simp

end Handlers

/-! ### The account -/

section Conditions
variable (s : Stores) (env : Env) (auth : AuthenticatedUser)

/-- The account of the token is there, and is found. -/
structure Resolves (user : User) (account : Account) : Prop where
  uuid : env.isUuid auth.sub = true
  found : env.site.world.share.fails .findById = false
  user : findById s.site.users auth.sub = some user
  account : s.logins.accounts.findById auth.sub = some account

end Conditions

section Handlers
variable {s : Stores} {env : Env} {auth : AuthenticatedUser}

theorem turned_resolveUser_bind {f : User × Account → Except Rejection (Stores × Data)} :
    Turned (resolveUser s env auth >>= f) ↔
      ∀ user account, Resolves s env auth user account → Turned (f (user, account)) := by
  unfold resolveUser
  simp only [bind_assoc, turned_check_bind, turned_ofOption_bind, pure_bind, Bool.not_eq_true', looked_up_iff]
  constructor
  · rintro h user account ⟨huuid, hfound, huser, haccount⟩
    exact h user huuid hfound huser account haccount
  · exact fun h user huuid hfound huser account haccount =>
      h user account ⟨huuid, hfound, huser, haccount⟩

theorem turned_changePassword {currentPassword newPassword : String} :
    Turned (changePassword s env auth currentPassword newPassword) ↔
      ∀ user account, Resolves s env auth user account →
        env.verifyPassword currentPassword account.passwordHash = false ∨
          newPassword.utf8ByteSize < minPasswordLen ∨ env.hashPassword newPassword = none ∨
          env.fails .updatePassword = true := by
  unfold changePassword
  rw [turned_resolveUser_bind]
  refine forall₂_congr fun user account => imp_congr_right fun _ => ?_
  simp only [turned_check_bind, turned_ite, turned_rejectWith, turned_ofOption_bind, turned_pure, or_false,
    forall_some_iff, Bool.not_eq_true']
  tauto

theorem turned_resendVerification : Turned (resendVerification s env auth) ↔
    ∀ user account, Resolves s env auth user account →
      account.emailVerifiedAt.isSome = true ∨ env.fails .setVerificationToken = true ∨
        FirstAddress.setVerificationToken ⟨env.now, false⟩ s.logins user.id env.token = none := by
  unfold resendVerification
  rw [turned_resolveUser_bind]
  refine forall₂_congr fun user account => imp_congr_right fun _ => ?_
  simp only [turned_check_bind, turned_ofOption_bind, turned_pure, forall_some_iff, or_false]
  cases env.fails .setVerificationToken <;> simp

theorem turned_getMe : Turned (getMe s env auth) ↔
    ∀ user account, ¬ Resolves s env auth user account := by
  unfold getMe
  rw [turned_resolveUser_bind]
  exact forall₂_congr fun user account => imp_congr_right fun _ => turned_pure

theorem turned_emailChangeStart {newEmail : String} :
    Turned (emailChangeStart s env auth newEmail) ↔
      EmailChange.addressOf env.casing newEmail = "" ∨
        contains (EmailChange.addressOf env.casing newEmail) "@" = false ∨
        env.isUuid auth.sub = false ∨
        env.fails .findByEmail = false ∧ (∃ other, s.logins.accounts.findByEmail env.casing
          (EmailChange.addressOf env.casing newEmail) = some other ∧ other.id ≠ auth.sub) ∨
        env.fails .setPendingEmail = true := by
  unfold emailChangeStart
  simp only [turned_check_bind, turned_pure, or_false, Option.any_eq_true, Bool.or_eq_true,
    decide_eq_true_eq, Bool.not_eq_true', or_assoc]
  cases env.fails .findByEmail <;> simp

theorem turned_supporterMe : Turned (supporterMe s env auth) ↔
    env.isUuid auth.sub = false ∨ env.fails .supporter = true := by
  unfold supporterMe
  simp only [turned_check_bind, turned_pure, or_false, Bool.not_eq_true']

end Handlers

/-! ### Snapshots -/

section Conditions
variable (s : Stores) (env : Env) (auth : AuthenticatedUser)

/-- No snapshot of the caller can be read. -/
def NoSnapshot {α : Type} (rows : List (String × Snapshot α)) : Prop :=
  env.isUuid auth.sub = false ∨ env.fails .latestForUser = true ∨ latestForUser rows auth.sub = none

/-- RSI is not asked for the caller, or has nothing, or what it has is not saved. -/
def RefreshTurnedAway {α β : Type} (rows : List (String × Snapshot β)) (fetch : String → RsiOutcome α) :
    Prop :=
  ∀ user, env.isUuid auth.sub = true → env.site.world.share.fails .findById = false →
    findById s.site.users auth.sub = some user →
    user.rsiVerifiedAt = none ∨ env.fails .latestForUser = true ∨
      (latestForUser rows auth.sub).any (env.now < ·.capturedAt + refreshCooldown) = true ∨
      (∀ content, fetch user.claimedHandle ≠ .found content) ∨ env.fails .putSnapshot = true

end Conditions

section Handlers
variable {s : Stores} {env : Env} {auth : AuthenticatedUser}

theorem turned_hangarPush {body : HangarPushRequest} : Turned (hangarPush s env auth body) ↔
    body.schemaVersion ≠ 1 ∨ maxShipsPerPush < body.ships.length ∨
      (validateShips body.ships).isSome = true ∨ env.isUuid auth.sub = false ∨
      env.fails .putSnapshot = true ∨ findById s.site.users auth.sub = none := by
  unfold hangarPush
  cases hships : validateShips body.ships with
  | some reason =>
    simp only [turned_ite, turned_rejectWith]
    tauto
  | none =>
    simp only [turned_ite, turned_rejectWith, turned_check_bind, turned_pure, or_false, Bool.not_eq_true',
      Bool.or_eq_true, Option.isNone_iff_eq_none, Option.isSome_none]
    tauto

theorem turned_snapshotMe {α : Type} {rows : List (String × Snapshot α)} {code detail : String}
    {data : Snapshot α → Data} :
    Turned (snapshotMe s env auth rows code detail data) ↔ NoSnapshot env auth rows := by
  unfold snapshotMe NoSnapshot
  simp only [turned_check_bind, Bool.not_eq_true']
  cases latestForUser rows auth.sub <;> simp

theorem turned_refresh {α : Type} {rows : List (String × Snapshot α)} {what : String}
    {fetch : String → RsiOutcome α} {save : String → Snapshot α → Stores} {data : Snapshot α → Data} :
    Turned (refresh s env auth rows what fetch save data) ↔ RefreshTurnedAway s env auth rows fetch := by
  unfold refresh RefreshTurnedAway
  simp only [turned_check_bind, turned_ofOption_bind, turned_ite, turned_rejectWith, Bool.not_eq_true',
    looked_up_iff, Option.any_map]
  refine forall_congr' fun user =>
    imp_congr_right fun _ => imp_congr_right fun _ => imp_congr_right fun _ => ?_
  cases fetch user.claimedHandle with
  | found content =>
    simp only [turned_check_bind, turned_pure, or_false, RsiOutcome.found.injEq, forall_eq', ne_eq]
    tauto
  | handleNotFound | upstreamUnavailable =>
    simp only [turned_rejectWith, ne_eq, reduceCtorEq, not_false_eq_true, implies_true]
    tauto

theorem map_ne_found_iff {α β : Type} {f : α → β} {o : RsiOutcome α} :
    (∀ b, o.map f ≠ .found b) ↔ ∀ a, o ≠ .found a := by
  cases o <;> simp [RsiOutcome.map]

/-- What RSI shows is found before it is looked through. -/
theorem refreshTurnedAway_map {α β : Type} {rows : List (String × Snapshot β)} {f : α → β}
    {fetch : String → RsiOutcome α} : RefreshTurnedAway s env auth rows (fun handle => (fetch handle).map f) ↔
      RefreshTurnedAway s env auth rows fetch := by
  simp only [RefreshTurnedAway, map_ne_found_iff]

end Handlers

/-! ### Reports and orders -/

section Conditions
variable (s : Stores) (env : Env) (auth : AuthenticatedUser)

/-- An order gets no row. -/
def CheckoutTurnedAway (req : Donate.CheckoutRequest) : Prop :=
  env.isUuid auth.sub = false ∨ env.orders.revolut = false ∨
    Donate.tiers.find? (·.key = req.tierKey) = none ∨
    (Donate.plateOf req.namePlate).any (Donate.namePlateMaxChars < ·.length) = true ∨
    env.orders.fails .createPending = true ∨ findById s.site.users auth.sub = none ∨
    ∃ a ∈ s.orders.orders.rows, a.id = env.orderId

end Conditions

section Handlers
variable {s : Stores} {env : Env} {auth : AuthenticatedUser}

theorem turnsAway_reportShare {body : ShareReports.ReportShareRequest} :
    TurnsAway s (reportShare s env auth body) ↔ ∀ row,
      ShareReports.created ⟨s.site.world.stores, s.reports⟩ env.reports auth body ≠ .ok row := by
  unfold reportShare ShareReports.reportShare
  cases ShareReports.created ⟨s.site.world.stores, s.reports⟩ env.reports auth body with
  | error reply =>
    refine iff_of_true ?_ nofun
    cases reply <;> exact ⟨.refl s, turned_error.mpr trivial⟩
  | ok row => exact iff_of_false (fun h => turned_ok.mp h.turned) fun h => h row rfl

/-- An order that has its row is one more, whatever becomes of it. -/
theorem not_unchanged_of_orders {orders : Donate.Stores}
    (h : orders.orders.rows.length ≠ s.orders.orders.rows.length) :
    ¬ Unchanged s { s with orders := orders } := fun hsame =>
  h (congrArg (·.orders.orders.rows.length) (hsame.others s.site.orgs))

theorem length_checkoutAttach (st : Donate.Stores) (env : Donate.Env)
    (localId revolutOrderId checkoutUrl : String) :
    (Donate.checkoutAttach st env localId revolutOrderId checkoutUrl).1.orders.rows.length =
      st.orders.rows.length := by
  unfold Donate.checkoutAttach
  split_ifs <;> simp [Donate.Orders.attach]

/-- A checkout up to the call of the payment service is turned away, or lands a row. -/
theorem checkoutPending_cases (st : Donate.Stores) (env : Donate.Env) (auth : AuthenticatedUser)
    (req : Donate.CheckoutRequest) (newId : String) :
    (∃ status body, Donate.checkoutPending st env auth req newId = (st, some (.error status body))) ∧
        (env.isUuid auth.sub = false ∨ env.revolut = false ∨
          Donate.tiers.find? (·.key = req.tierKey) = none ∨
          (Donate.plateOf req.namePlate).any (Donate.namePlateMaxChars < ·.length) = true ∨
          env.fails .createPending = true ∨ ∃ a ∈ st.orders.rows, a.id = newId) ∨
      (∃ st', Donate.checkoutPending st env auth req newId = (st', none) ∧
        st'.orders.rows.length = st.orders.rows.length + 1) ∧
        env.isUuid auth.sub = true ∧ env.revolut = true ∧
          (∃ tier, Donate.tiers.find? (·.key = req.tierKey) = some tier) ∧
          (Donate.plateOf req.namePlate).any (Donate.namePlateMaxChars < ·.length) = false ∧
          env.fails .createPending = false ∧ ∀ a ∈ st.orders.rows, a.id ≠ newId := by
  unfold Donate.checkoutPending
  cases env.isUuid auth.sub with
  | false => exact Or.inl ⟨⟨_, _, rfl⟩, Or.inl rfl⟩
  | true =>
  cases env.revolut with
  | false => exact Or.inl ⟨⟨_, _, rfl⟩, Or.inr (Or.inl rfl)⟩
  | true =>
  cases Donate.tiers.find? (·.key = req.tierKey) with
  | none => exact Or.inl ⟨⟨_, _, rfl⟩, Or.inr (Or.inr (Or.inl rfl))⟩
  | some tier =>
  simp only [Bool.not_true, Bool.false_eq_true, if_false]
  cases (Donate.plateOf req.namePlate).any (Donate.namePlateMaxChars < ·.length) with
  | true => exact Or.inl ⟨⟨_, _, rfl⟩, by simp⟩
  | false =>
  cases env.fails .createPending with
  | true => exact Or.inl ⟨⟨_, _, rfl⟩, by simp⟩
  | false =>
  simp only [Bool.false_eq_true, if_false]
  by_cases hid : ∀ a ∈ st.orders.rows, a.id ≠ newId
  · rw [dif_pos hid]
    refine Or.inr ⟨⟨_, rfl, ?_⟩, trivial, trivial, ⟨tier, rfl⟩, trivial, trivial, hid⟩
    simp [Donate.Orders.create]
  · rw [dif_neg hid]
    push Not at hid
    exact Or.inl ⟨⟨_, _, rfl⟩, by simpa using hid⟩

theorem turnsAway_checkout {req : Donate.CheckoutRequest} :
    TurnsAway s (checkout s env auth req) ↔ CheckoutTurnedAway s env auth req := by
  have hcreate : (ordersEnv s env auth).fails .createPending =
      (env.orders.fails .createPending || (findById s.site.users auth.sub).isNone) := by simp [ordersEnv]
  have huuid : (ordersEnv s env auth).isUuid = env.isUuid := rfl
  have hrevolut : (ordersEnv s env auth).revolut = env.orders.revolut := rfl
  unfold checkout CheckoutTurnedAway
  have hcases := checkoutPending_cases s.orders (ordersEnv s env auth) auth req env.orderId
  rw [hcreate, huuid, hrevolut] at hcases
  rcases hcases with ⟨⟨status, body, heq⟩, hcond⟩ |
    ⟨⟨orders, heq, hlen⟩, hsub, hservice, ⟨tier, htier⟩, hplate, hlands, hid⟩
  · rw [heq]
    refine iff_of_true ⟨.refl s, turned_error.mpr trivial⟩ ?_
    simpa only [Bool.or_eq_true, Option.isNone_iff_eq_none, or_assoc] using hcond
  · rw [heq]
    refine iff_of_false (fun h => ?_) ?_
    · cases hcalled : env.createOrder with
      | none =>
        rw [hcalled] at h
        exact not_unchanged_of_orders (by omega) h.unchanged
      | some created =>
        rw [hcalled] at h
        refine not_unchanged_of_orders ?_ h.unchanged
        rw [length_checkoutAttach]
        omega
    · obtain ⟨hfails, husers⟩ := Bool.or_eq_false_iff.mp hlands
      have huser : findById s.site.users auth.sub ≠ none := Option.isNone_eq_false_iff.mp husers |>
        Option.isSome_iff_ne_none.mp
      simpa [hsub, hservice, htier, hplate, hfails, huser] using hid

end Handlers

end StarStats.Server.Routes
