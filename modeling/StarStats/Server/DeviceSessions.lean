import Mathlib.Tactic.FinCases
import StarStats.Server.PairingCodes
import StarStats.Server.PasswordReset
import StarStats.Server.SecondFactor

/-! # Device sessions across a password reset

Pairings, redeems, revocations and resets run beside each other over one store. A reset revokes, last, the
devices that are there; a code that was issued before it can still be redeemed after it. All sessions from
before a reset are over exactly when the revocation goes through and no such code is redeemed any more. -/

namespace StarStats.Server.DeviceSessions

open StarStats.Lib.Tables StarStats.Lib.Threads StarStats.Server.Credentials StarStats.Server.Auth
open StarStats.Server.Devices (DeviceStore Pairing Device RedeemedDevice findPairing findDevice
  isDeviceActive)
open StarStats.Server.SecondFactor (Claims fromRequestParts)

/-- The requests on devices and those on the password. -/
inductive Request where
  | devices (r : Devices.Request)
  | reset (r : PasswordReset.Request)

/-- Where a request is, in its own kind. -/
inductive Place where
  | devices (p : Devices.Place)
  | reset (p : PasswordReset.Place)
  deriving DecidableEq

/-- The clock, whether the call of a step fails, and what is drawn at random or hashed. -/
structure Env where
  now : ℤ
  fault : Bool
  code : String
  uuid : String
  phc : Option String

/-- What the handlers of devices see of it. -/
def Env.devices (env : Env) : Devices.Env := ⟨env.now, env.fault, env.code, env.uuid⟩

/-- What the handlers of resets see of it. -/
def Env.reset (env : Env) : PasswordReset.Env := ⟨env.now, env.fault, env.phc⟩

/-- The accounts and the devices. -/
abbrev Store (ι : Type) := PasswordReset.Store ι

section Machine
variable {ι : Type} [DecidableEq ι] (c : Casing) (toUppercase : String → String) (token : ι → String)
  (requests : ι → Request)

/-- What a request asks of the device store; a reset asks to revoke. -/
def deviceRequest (i : ι) : Devices.Request :=
  match requests i with
  | .devices r => r
  | .reset _ => .revokeAllForUser ""

/-- A request takes its next step. -/
def step (i : ι) (env : Env) (st : Store ι) (place : Place) : Store ι × Place :=
  match requests i, place with
  | .devices _, .devices p =>
    let (devices, p) :=
      Devices.step toUppercase (deviceRequest requests) i env.devices st.devices p
    ({ st with devices := devices }, .devices p)
  | .reset r, .reset p =>
    let (st, p) := PasswordReset.step c token (fun _ => r) i env.reset st p
    (st, .reset p)
  | _, place => (st, place)

/-- Where a request starts. -/
def initialPlace : Request → Place
  | .devices _ => .devices .asked
  | .reset _ => .reset .asked

variable (accounts : Accounts) (pairings : Table Pairing.code) (devices : Table Device.id)
  (as : List (ι × Env))

/-- All requests are yet to begin. -/
def initial : Shared ι (Store ι) Place :=
  ⟨⟨accounts, ⟨pairings, devices, fun _ => none⟩, []⟩, fun i => initialPlace (requests i)⟩

/-- The state after the first turns. -/
def state (n : ℕ) : Shared ι (Store ι) Place :=
  after (step c toUppercase token requests) (initial requests accounts pairings devices) as n

/-- The claims of a device token. -/
def deviceClaims (userId handle deviceId : String) : Claims := ⟨userId, handle, .device, some deviceId⟩

/-- A request with the token of the device gets past the extractor. -/
def Served (st : Store ι) (userId deviceId : String) : Prop :=
  ∃ handle user,
    fromRequestParts (isDeviceActive st.devices) (some (deviceClaims userId handle deviceId)) = .ok user

/-- A reset of the account answers 200. -/
structure Resets (n : ℕ) (i : ι) (user : Account) (env : Env) : Prop where
  turns : as[n]? = some (i, env)
  complete : ∃ t newPassword, requests i = .reset (.complete t newPassword)
  place : (state c toUppercase token requests accounts pairings devices as n).place i =
    .reset (.written user)

/-- The device comes from a code that was not there after so many turns. -/
def FromLaterCode (r n : ℕ) (deviceId : String) : Prop :=
  ∃ j row d, (state c toUppercase token requests accounts pairings devices as n).place j =
      .devices (.redeemed row d) ∧ d.deviceId = deviceId ∧
    row.code ∉ (state c toUppercase token requests accounts pairings devices as r).store.devices.pairings.keys

/-- **After a reset only devices from codes issued since are served.** -/
def EndsSessions : Prop :=
  ∀ r i user env, Resets c toUppercase token requests accounts pairings devices as r i user env →
    ∀ n id device, r < n →
      findDevice (state c toUppercase token requests accounts pairings devices as n).store.devices id =
        some device → device.userId = user.id →
      Served (state c toUppercase token requests accounts pairings devices as n).store user.id id →
      FromLaterCode c toUppercase token requests accounts pairings devices as r n id

/-- A redeem commits. -/
structure Commits (n : ℕ) (j : ι) (row : Pairing) (deviceId : String) : Prop where
  turns : ∃ env, as[n]? = some (j, env) ∧ env.fault = false
  request : ∃ text, requests j = .devices (.redeem text)
  place : ∃ redeemedAt, (state c toUppercase token requests accounts pairings devices as n).place j =
    .devices (.updated row deviceId redeemedAt)
  fresh : deviceId ∉
    (state c toUppercase token requests accounts pairings devices as n).store.devices.devices.keys

/-- At each reset the revocation goes through, or there is nothing to revoke, and no code of the account
that is there by then is redeemed later. -/
def NoneRedeemedAfter : Prop :=
  ∀ r i user env, Resets c toUppercase token requests accounts pairings devices as r i user env →
    (env.fault = false ∨ ∀ id device,
      findDevice (state c toUppercase token requests accounts pairings devices as r).store.devices id =
        some device → device.userId = user.id → device.revokedAt ≠ none) ∧
    ∀ n j row deviceId, r < n →
      Commits c toUppercase token requests accounts pairings devices as n j row deviceId →
      row.userId = user.id →
      row.code ∉
        (state c toUppercase token requests accounts pairings devices as r).store.devices.pairings.keys

end Machine

/-! ### What a step does to the devices -/

section Steps
variable {ι : Type} {c : Casing} {toUppercase : String → String} {token : ι → String}
  {requests : ι → Request} {i j : ι} {env : Env} {st : Store ι} {place : Place}

theorem served_iff {userId deviceId : String} :
    Served st userId deviceId ↔ isDeviceActive st.devices deviceId = true := by
  unfold Served fromRequestParts deviceClaims
  constructor
  · rintro ⟨handle, user, hserved⟩
    simp only [if_pos] at hserved
    split_ifs at hserved with hactive
    · exact hactive
  · intro hactive
    exact ⟨"", _, by simp only [if_pos, hactive]; rfl⟩

theorem isDeviceActive_iff {devices : DeviceStore ι} {id : String} :
    isDeviceActive devices id = true ↔
      ∃ device, findDevice devices id = some device ∧ device.revokedAt = none := by
  unfold isDeviceActive findDevice
  cases (devices.devices.find? id).map (·.2) <;> simp

/-- A revocation of the devices of an account, or its failure. -/
theorem moves_revoke {requests : ι → Devices.Request} (hno : ∀ text, requests i ≠ .redeem text)
    (user : Account) :
    ∃ p, Devices.Moves toUppercase requests i env.devices st.devices .asked
      (PasswordReset.revokeDevices env.reset st user) p ∧ p.row = none := by
  unfold PasswordReset.revokeDevices Devices.revokeAllForUser
  simp only
  split_ifs with hfault
  · exact ⟨.asked, .stay _, rfl⟩
  · exact ⟨.revoked 0, .revoke _ 0 hno, rfl⟩

/-- What a step does to the devices is a move of the request, of a redeem by its own place and of a reset
by that of a revocation. -/
theorem devices_step (c : Casing) (toUppercase : String → String) (token : ι → String)
    (requests : ι → Request) (i : ι) (env : Env) (st : Store ι) (place : Place) :
    (∃ r p, requests i = .devices r ∧ place = .devices p ∧
      (step c toUppercase token requests i env st place).1.devices =
        (Devices.step toUppercase (deviceRequest requests) i env.devices st.devices p).1 ∧
      (step c toUppercase token requests i env st place).2 =
        .devices (Devices.step toUppercase (deviceRequest requests) i env.devices st.devices p).2) ∨
    (∃ p' q, Devices.Moves toUppercase (deviceRequest requests) i env.devices st.devices .asked
        (step c toUppercase token requests i env st place).1.devices p' ∧ p'.row = none ∧
      (step c toUppercase token requests i env st place).2 = .reset q) ∨
    step c toUppercase token requests i env st place = (st, place) := by
  unfold step
  cases hrequest : requests i with
  | devices r =>
    cases place with
    | devices p => exact Or.inl ⟨r, p, rfl, rfl, rfl, rfl⟩
    | reset p => exact Or.inr (Or.inr rfl)
  | reset r =>
    cases place with
    | devices p => exact Or.inr (Or.inr rfl)
    | reset p =>
      right
      left
      have hmove := PasswordReset.moves_step c token (fun _ => r) i env.reset st p
      have hdevices : ∃ p', Devices.Moves toUppercase (deviceRequest requests) i env.devices st.devices
          .asked (PasswordReset.step c token (fun _ => r) i env.reset st p).1.devices p' ∧
            p'.row = none := by
        have hno : ∀ text, deviceRequest requests i ≠ .redeem text := by
          unfold deviceRequest
          rw [hrequest]
          simp
        generalize PasswordReset.step c token (fun _ => r) i env.reset st p = after at hmove
        generalize after.1 = st' at hmove
        generalize after.2 = p' at hmove
        cases hmove with
        | revoke user => exact moves_revoke hno user
        | _ => exact ⟨.asked, .stay _, rfl⟩
      obtain ⟨p', hmoves, hrow⟩ := hdevices
      exact ⟨p', _, hmoves, hrow, rfl⟩

end Steps

/-! ### What holds in every state -/

section Invariant
variable {ι : Type} {c : Casing} {toUppercase : String → String} {token : ι → String}
  {requests : ι → Request} {accounts : Accounts} {pairings : Table Pairing.code}
  {devices : Table Device.id} {as : List (ι × Env)} {i j : ι} {env : Env} {n m r : ℕ} {row : Pairing}
  {d : RedeemedDevice} {userId id : String}

/-- A redeem relies on the row that it has locked, and on the device that it has made. -/
def Fits (toUppercase : String → String) (requests : ι → Request) (i : ι) (st : Store ι)
    (place : Place) : Prop :=
  ∀ p, place = .devices p → Devices.Fits toUppercase (deviceRequest requests) i st.devices p

theorem fits_asked {requests : ι → Devices.Request} {st : DeviceStore ι} :
    Devices.Fits toUppercase requests i st .asked :=
  ⟨by simp [Devices.Place.held], by simp, by simp, by simp⟩

theorem revoked_of_revokes {st : Store ι} {user : Account} (hfault : env.fault = false)
    {device : Device} (h : findDevice (PasswordReset.revokeDevices env.reset st user) id = some device)
    (huser : device.userId = user.id) : device.revokedAt ≠ none := by
  have hrevoke : PasswordReset.revokeDevices env.reset st user =
      { st.devices with
        devices := Devices.revokeWhere st.devices.devices
          (fun d => d.userId = user.id && d.revokedAt = none) env.now } := by
    unfold PasswordReset.revokeDevices Devices.revokeAllForUser
    simp [Env.reset, hfault]
  rw [hrevoke] at h
  obtain ⟨d, -, rfl⟩ := Option.map_eq_some_iff.mp (Table.map_find?_mapRows.symm.trans h)
  split_ifs at huser ⊢ with hselected
  · simp
  · intro hnone
    exact hselected (by simp [huser, hnone])

variable [DecidableEq ι]

theorem fits_state (c : Casing) (toUppercase : String → String) (token : ι → String)
    (requests : ι → Request) (accounts : Accounts) (pairings : Table Pairing.code)
    (devices : Table Device.id) (as : List (ι × Env)) (n : ℕ) (i : ι) :
    Fits toUppercase requests i
      (state c toUppercase token requests accounts pairings devices as n).store
      ((state c toUppercase token requests accounts pairings devices as n).place i) := by
  refine (@placed_after ι (Store ι) Place Env _ (step c toUppercase token requests)
    (initial requests accounts pairings devices) (fun _ => True) (Fits toUppercase requests)
    ?_ ?_ ?_ as n).2 i
  · refine fun i e st l _ hfits => ⟨trivial, fun p hp => ?_⟩
    rcases devices_step c toUppercase token requests i e st l with
      ⟨r, q, -, hplace, hdevices, hafter⟩ | ⟨p', q, -, -, hafter⟩ | hsame
    · have hown := (hfits q hplace).own
        (Devices.moves_step toUppercase (deviceRequest requests) i e.devices st.devices q)
      rw [hafter] at hp
      rw [hdevices, ← Place.devices.inj hp]
      exact hown
    · rw [hafter] at hp
      cases hp
    · rw [hsame] at hp ⊢
      exact hfits p hp
  · intro i e st l j l' hj _ hi hfits p hp
    rcases devices_step c toUppercase token requests i e st l with
      ⟨r, q, -, hplace, hdevices, -⟩ | ⟨p', q, hmove, -, -⟩ | hsame
    · rw [hdevices]
      exact (hi q hplace).others
        (Devices.moves_step toUppercase (deviceRequest requests) i e.devices st.devices q) hj (hfits p hp)
    · exact fits_asked.others hmove hj (hfits p hp)
    · rw [hsame]
      exact hfits p hp
  · refine ⟨trivial, fun i p hp => ?_⟩
    unfold initial initialPlace at hp
    simp only at hp
    split at hp
    · obtain rfl := Place.devices.inj hp
      exact fits_asked
    · cases hp

/-- A device that becomes active in a turn is that of a redeem that commits. -/
theorem commits_of_active (ha : as[n]? = some (i, env)) (hid : isDeviceActive
      (state c toUppercase token requests accounts pairings devices as n).store.devices id = false)
    (hafter : isDeviceActive
      (state c toUppercase token requests accounts pairings devices as (n + 1)).store.devices id = true) :
    ∃ row, Commits c toUppercase token requests accounts pairings devices as n i row id ∧
      findDevice (state c toUppercase token requests accounts pairings devices as (n + 1)).store.devices
        id = some ⟨id, row.userId, row.label, none⟩ ∧
      (state c toUppercase token requests accounts pairings devices as (n + 1)).place i =
        .devices (.redeemed row ⟨id, row.userId, row.label⟩) := by
  have hturn : state c toUppercase token requests accounts pairings devices as (n + 1) =
    turn (step c toUppercase token requests)
      (state c toUppercase token requests accounts pairings devices as n) (i, env) := after_succ ha
  rw [hturn, store_turn] at hafter ⊢
  rw [place_turn_self]
  obtain ⟨device, hdevice, hactive⟩ := isDeviceActive_iff.mp hafter
  -- What was not active before is not by a revocation.
  have hrevoked : ∀ {st st' : DeviceStore ι} (f : Device → Option ℤ),
      isDeviceActive st id = false → (∀ d, f d = none → d.revokedAt = none) →
      findDevice st' id = (findDevice st id).map (fun d => { d with revokedAt := f d }) →
      findDevice st' id ≠ some device := by
    intro st st' f hinactive hf hmap hsome
    obtain ⟨d, hd, rfl⟩ := Option.map_eq_some_iff.mp (hmap.symm.trans hsome)
    rw [isDeviceActive_iff.mpr ⟨d, hd, hf d hactive⟩] at hinactive
    cases hinactive
  rcases devices_step c toUppercase token requests i env
      (state c toUppercase token requests accounts pairings devices as n).store
      ((state c toUppercase token requests accounts pairings devices as n).place i) with
    ⟨r, q, hrequest, hplace, hdevices, hplace'⟩ | ⟨p', q, hmove, hrow, -⟩ | hsame
  · have hmove := Devices.moves_step toUppercase (deviceRequest requests) i env.devices
      (state c toUppercase token requests accounts pairings devices as n).store.devices q
    rw [hdevices] at hdevice ⊢
    rcases hmove.device_cases id with ⟨hnone, row, hnew, hredeemed⟩ | ⟨f, hf, hmap⟩
    · rw [hredeemed] at hmove
      have hne : q ≠ .redeemed row ⟨id, row.userId, row.label⟩ := by
        intro hq
        obtain ⟨-, -, -, -, at', hfound⟩ :=
          (fits_state c toUppercase token requests accounts pairings devices as n i q hplace).redeemed
            row _ hq
        rw [hnone] at hfound
        cases hfound
      obtain ⟨redeemedAt, hupdated, hfresh, hfault, text, htext⟩ := hmove.of_redeemed hne
      have htext : r = .redeem text := by
        unfold deviceRequest at htext
        rw [hrequest] at htext
        exact htext
      refine ⟨row, ⟨⟨env, ha, hfault⟩, ⟨text, htext ▸ hrequest⟩, ⟨redeemedAt, hupdated ▸ hplace⟩, hfresh⟩,
        hnew, ?_⟩
      rw [hplace', hredeemed]
    · exact absurd hdevice (hrevoked f hid hf hmap)
  · rcases hmove.device_cases id with ⟨-, row, -, hredeemed⟩ | ⟨f, hf, hmap⟩
    · rw [hredeemed] at hrow
      cases hrow
    · exact absurd hdevice (hrevoked f hid hf hmap)
  · rw [hsame] at hdevice
    rw [isDeviceActive_iff.mpr ⟨device, hdevice, hactive⟩] at hid
    cases hid

theorem redeemed_place {p : Devices.Place} (hp : p = .redeemed row d)
    (h : (state c toUppercase token requests accounts pairings devices as n).place i = .devices p)
    (hnm : n ≤ m) :
    (state c toUppercase token requests accounts pairings devices as m).place i = .devices p := by
  subst hp
  refine @place_keeps ι (Store ι) Place Env _ (step c toUppercase token requests)
    (initial requests accounts pairings devices) as i n m (· = .devices (.redeemed row d)) ?_ hnm h
  rintro e st l rfl
  unfold step
  cases requests i with
  | devices r =>
    simp only
    unfold Devices.step
    cases deviceRequest requests i <;> rfl
  | reset r => rfl

/-- A device stays its user's. -/
theorem device_keeps {label : String} (hnm : n ≤ m)
    (h : ∃ at₁, findDevice (state c toUppercase token requests accounts pairings devices as n).store.devices
      id = some ⟨id, userId, label, at₁⟩) :
    ∃ at₂, findDevice (state c toUppercase token requests accounts pairings devices as m).store.devices
      id = some ⟨id, userId, label, at₂⟩ := by
  refine @keeps_after ι (Store ι) Place Env _ (step c toUppercase token requests)
    (initial requests accounts pairings devices) as n m
    (fun s => ∃ at₂, findDevice s.store.devices id = some ⟨id, userId, label, at₂⟩) ?_ hnm h
  rintro s ⟨i, e⟩ hs
  rw [store_turn]
  rcases devices_step c toUppercase token requests i e s.store (s.place i) with
    ⟨r, q, -, -, hdevices, -⟩ | ⟨p', q, hmove, -, -⟩ | hsame
  · rw [hdevices]
    exact (Devices.moves_step toUppercase (deviceRequest requests) i e.devices s.store.devices q).device hs
  · exact hmove.device hs
  · rwa [hsame]

/-- A device that is active belongs to the user that it belongs to later. -/
theorem active_before {device : Device} (hnm : n ≤ m)
    (hactive : isDeviceActive
      (state c toUppercase token requests accounts pairings devices as n).store.devices id = true)
    (hdevice : findDevice
      (state c toUppercase token requests accounts pairings devices as m).store.devices id = some device) :
    ∃ old, findDevice (state c toUppercase token requests accounts pairings devices as n).store.devices id =
      some old ∧ old.revokedAt = none ∧ old.userId = device.userId := by
  obtain ⟨⟨oldId, userId, label, revokedAt⟩, hold, hnone⟩ := isDeviceActive_iff.mp hactive
  obtain rfl : oldId = id := (Table.map_find?_eq_some.mp hold).2
  obtain ⟨at', hlater⟩ := device_keeps hnm ⟨revokedAt, hold⟩
  rw [hdevice] at hlater
  exact ⟨_, hold, hnone, by rw [Option.some.inj hlater]⟩

/-- A commit makes the device, active. -/
theorem Commits.made {deviceId : String}
    (h : Commits c toUppercase token requests accounts pairings devices as n j row deviceId) :
    findDevice (state c toUppercase token requests accounts pairings devices as (n + 1)).store.devices
        deviceId = some ⟨deviceId, row.userId, row.label, none⟩ ∧
      (state c toUppercase token requests accounts pairings devices as (n + 1)).place j =
        .devices (.redeemed row ⟨deviceId, row.userId, row.label⟩) := by
  obtain ⟨⟨env, ha, hfault⟩, ⟨text, hrequest⟩, ⟨redeemedAt, hplace⟩, hfresh⟩ := h
  have hturn : state c toUppercase token requests accounts pairings devices as (n + 1) =
    turn (step c toUppercase token requests)
      (state c toUppercase token requests accounts pairings devices as n) (j, env) := after_succ ha
  have hstep : step c toUppercase token requests j env
      (state c toUppercase token requests accounts pairings devices as n).store
      (.devices (.updated row deviceId redeemedAt)) =
      ({ (state c toUppercase token requests accounts pairings devices as n).store with
        devices := Devices.commit
          (state c toUppercase token requests accounts pairings devices as n).store.devices row deviceId
          redeemedAt }, .devices (.redeemed row ⟨deviceId, row.userId, row.label⟩)) := by
    unfold step Devices.step deviceRequest
    rw [hrequest]
    simp [Devices.redeem, Env.devices, hfault, hfresh]
  rw [hturn, store_turn, place_turn_self, hplace, hstep]
  exact ⟨(Table.map_find?_insert hfresh).trans (if_pos rfl), rfl⟩

/-- The turn in which a reset answers revokes the devices, or fails to. -/
theorem Resets.revokes {user : Account}
    (h : Resets c toUppercase token requests accounts pairings devices as r i user env) :
    (state c toUppercase token requests accounts pairings devices as (r + 1)).store.devices =
      PasswordReset.revokeDevices env.reset
        (state c toUppercase token requests accounts pairings devices as r).store user := by
  obtain ⟨ha, ⟨t, newPassword, hrequest⟩, hplace⟩ := h
  have hturn : state c toUppercase token requests accounts pairings devices as (r + 1) =
    turn (step c toUppercase token requests)
      (state c toUppercase token requests accounts pairings devices as r) (i, env) := after_succ ha
  rw [hturn, store_turn, hplace]
  unfold step
  rw [hrequest]
  rfl

end Invariant

/-- **After every reset only devices from later codes are served, exactly when every revocation goes
through and no code from before a reset is redeemed after it.** -/
theorem endsSessions_iff {ι : Type} [DecidableEq ι] {c : Casing} {toUppercase : String → String}
    {token : ι → String} {requests : ι → Request} {accounts : Accounts} {pairings : Table Pairing.code}
    {devices : Table Device.id} {as : List (ι × Env)} :
    EndsSessions c toUppercase token requests accounts pairings devices as ↔
      NoneRedeemedAfter c toUppercase token requests accounts pairings devices as := by
  constructor
  · intro hends r i user env hresets
    constructor
    · by_contra hcon
      push Not at hcon
      obtain ⟨hfault, id, device, hdevice, huser, hactive⟩ := hcon
      have hsame : (state c toUppercase token requests accounts pairings devices as
          (r + 1)).store.devices =
          (state c toUppercase token requests accounts pairings devices as r).store.devices := by
        rw [hresets.revokes]
        unfold PasswordReset.revokeDevices Devices.revokeAllForUser
        simp [Env.reset, hfault]
      rw [← hsame] at hdevice
      have hserved : Served _ user.id id :=
        served_iff.mpr (isDeviceActive_iff.mpr ⟨device, hdevice, hactive⟩)
      obtain ⟨j, row, d, hplace, -, hcode⟩ :=
        hends r i user env hresets (r + 1) id device (by omega) hdevice huser hserved
      obtain ⟨-, -, -, ⟨p, hp, -⟩, -⟩ := (fits_state c toUppercase token requests accounts pairings
        devices as (r + 1) j _ hplace).redeemed row d rfl
      rw [hsame] at hp
      unfold findPairing at hp
      rw [Table.find?_eq_none.mpr hcode] at hp
      cases hp
    · intro n j row deviceId hrn hcommits huser hcode
      obtain ⟨hmade, hplace⟩ := hcommits.made
      have hserved : Served _ user.id deviceId :=
        served_iff.mpr (isDeviceActive_iff.mpr ⟨_, hmade, rfl⟩)
      obtain ⟨j', row', d', hplace', rfl, hcode'⟩ := hends r i user env hresets (n + 1) _ _ (by omega)
        hmade huser hserved
      obtain ⟨⟨e, ha, -⟩, -, -, hfresh⟩ := hcommits
      by_cases hj : j' = j
      · subst hj
        obtain ⟨rfl, -⟩ := Devices.Place.redeemed.inj (Place.devices.inj (hplace.symm.trans hplace'))
        exact hcode' hcode
      · rw [state, after_succ ha, place_turn_of_ne hj] at hplace'
        obtain ⟨-, -, -, -, at', hfound⟩ := (fits_state c toUppercase token requests accounts pairings
          devices as n j' _ hplace').redeemed row' d' rfl
        unfold findDevice at hfound
        rw [Table.find?_eq_none.mpr hfresh] at hfound
        cases hfound
  · intro hnone r i user env hresets n id device hrn hdevice huser hserved
    obtain ⟨hrevokes, hcodes⟩ := hnone r i user env hresets
    have hcases := @holds_or_turned ι (Store ι) Place Env _ (step c toUppercase token requests)
      (initial requests accounts pairings devices) as n (r + 1)
      (fun st => isDeviceActive st.devices id = true) (by omega) (served_iff.mp hserved)
    rcases hcases with hfirst | ⟨m, j, e, hrm, hmn, ha, hbefore, hmade⟩
    · -- The device would have been active when the reset answered.
      exfalso
      obtain ⟨dev, hdev, hactive, hdevuser⟩ := active_before (show r + 1 ≤ n by omega) hfirst hdevice
      rcases hrevokes with hfault | hnoneactive
      · rw [hresets.revokes] at hdev
        exact revoked_of_revokes hfault hdev (hdevuser.trans huser) hactive
      · by_cases hbefore : isDeviceActive
            (state c toUppercase token requests accounts pairings devices as r).store.devices id = true
        · obtain ⟨old, hold, holdactive, holduser⟩ := active_before (show r ≤ n by omega) hbefore hdevice
          exact hnoneactive id old hold (holduser.trans huser) holdactive
        · obtain ⟨row, ⟨-, ⟨text, hredeem⟩, -⟩, -⟩ :=
            commits_of_active hresets.turns (Bool.eq_false_iff.mpr hbefore) hfirst
          obtain ⟨t, newPassword, hrequest⟩ := hresets.complete
          rw [hrequest] at hredeem
          cases hredeem
    · have hafter : isDeviceActive (state c toUppercase token requests accounts pairings devices as
          (m + 1)).store.devices id = true :=
        (congrArg (fun s : Shared ι (Store ι) Place => isDeviceActive s.store.devices id)
          (after_succ ha)).trans hmade
      obtain ⟨row, hcommits, -, hplace⟩ := commits_of_active ha (Bool.eq_false_iff.mpr hbefore) hafter
      have hstays := redeemed_place rfl hplace (show m + 1 ≤ n by omega)
      obtain ⟨-, -, -, -, at', hfound⟩ := (fits_state c toUppercase token requests accounts pairings
        devices as n j _ hstays).redeemed row _ rfl
      rw [hdevice] at hfound
      have huser' : row.userId = user.id := by
        rw [← huser, Option.some.inj hfound]
      exact ⟨j, row, _, hstays, rfl, hcodes m j row id (by omega) hcommits huser'⟩

/-! ### A code redeemed after a reset -/

open PasswordReset (onlyAlice resetting)

def pairAndReset : Fin 4 → Request
  | 0 => .devices (.createPairing "1" "")
  | 1 => .reset (.start "alice@a.org")
  | 2 => .reset (.complete "first" "a long password")
  | 3 => .devices (.redeem "abcd2345")

/-- The letters of a code in upper case. -/
def upperAscii (s : String) : String := String.ofList (s.toList.map Char.toUpper)

/-- Alice starts a pairing, resets her password, and then the code is redeemed; nothing fails. -/
def redeemedAfter : List (Fin 4 × Env) :=
  [0, 0, 1, 1, 1, 2, 2, 2, 2, 3, 3, 3, 3].map (·, ⟨0, false, "ABCD2345", "d", some "new"⟩)

/-- The device of the old code is served after the reset. -/
theorem not_endsSessions_redeemedAfter :
    ¬ EndsSessions asciiCasing upperAscii (fun _ => "first") pairAndReset onlyAlice Table.empty
      Table.empty redeemedAfter := by
  intro h
  have hplaces : ∀ j : Fin 4, (state asciiCasing upperAscii (fun _ => "first") pairAndReset onlyAlice
      Table.empty Table.empty redeemedAfter 13).place j =
      match j with
      | 0 => .devices (.created ⟨"ABCD2345", "1", "Desktop client", 300, none⟩)
      | 1 => .reset (.answered .sent)
      | 2 => .reset (.answered .ok)
      | 3 => .devices (.redeemed ⟨"ABCD2345", "1", "Desktop client", 300, none⟩
          ⟨"d", "1", "Desktop client"⟩) := by
    decide +kernel
  obtain ⟨j, row, d, hplace, -, hcode⟩ := h 8 2 resetting ⟨0, false, "ABCD2345", "d", some "new"⟩
    ⟨rfl, ⟨_, _, rfl⟩, by decide +kernel⟩ 13 "d" ⟨"d", "1", "Desktop client", none⟩ (by decide)
    (by decide +kernel) rfl (served_iff.mpr (by decide +kernel))
  rw [hplaces j] at hplace
  fin_cases j
  · cases hplace
  · cases hplace
  · cases hplace
  · obtain ⟨rfl, -⟩ := Devices.Place.redeemed.inj (Place.devices.inj hplace)
    exact hcode (by decide +kernel)

end StarStats.Server.DeviceSessions
