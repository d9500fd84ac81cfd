import StarStats.Lib.Threads
import StarStats.Server.Devices

/-! # A pairing code yields at most one device

Pairings, redeems and revocations run beside each other, each statement by itself, and any statement may
fail. A redeem keeps the row of its code locked from its first statement to its last, so the row stays as
it was read, and of two redeems of one code the second finds it used up. -/

namespace StarStats.Server.Devices

open StarStats.Lib.Tables StarStats.Lib.Threads

/-- The row of a code. -/
def findPairing {ι : Type} (st : DeviceStore ι) (code : String) : Option Pairing :=
  (st.pairings.find? code).map (·.2)

/-- The row of a device. -/
def findDevice {ι : Type} (st : DeviceStore ι) (id : String) : Option Device :=
  (st.devices.find? id).map (·.2)

namespace Place

/-- The row that an open transaction has locked. -/
def held : Place → Option Pairing
  | .locked row | .inserted row _ | .updated row _ _ => some row
  | _ => none

/-- The row that a redeem works on, or has worked on with success. -/
def row : Place → Option Pairing
  | .locked row | .inserted row _ | .updated row _ _ | .redeemed row _ => some row
  | _ => none

end Place

section Machine
variable {ι : Type} [DecidableEq ι] (toUppercase : String → String) (requests : ι → Request)
  (pairings : Table Pairing.code) (devices : Table Device.id) (as : List (ι × Env))

/-- All requests are yet to begin. -/
def initial : Shared ι (DeviceStore ι) Place := ⟨⟨pairings, devices, fun _ => none⟩, fun _ => .asked⟩

/-- The state after the first turns. -/
def state (n : ℕ) : Shared ι (DeviceStore ι) Place :=
  after (step toUppercase requests) (initial pairings devices) as n

/-- A request redeems the code. -/
def RedeemsCode (i : ι) (code : String) : Prop :=
  ∃ text, requests i = .redeem text ∧ codeOf toUppercase text = some code

/-- A redeem has succeeded, with the row of its code and the device that it has made. -/
def Redeemed (n : ℕ) (i : ι) (row : Pairing) (d : RedeemedDevice) : Prop :=
  (state toUppercase requests pairings devices as n).place i = .redeemed row d

/-- **In every state of every run each code has been redeemed once at most**, in time, for the user and
with the label of its pairing; and what has not been redeemed is as if it had not been tried. -/
structure SingleUse : Prop where
  /-- Two redeems of one code that succeed are one, and no two redeems make one device. -/
  once : ∀ n i j row d row' d', Redeemed toUppercase requests pairings devices as n i row d →
    Redeemed toUppercase requests pairings devices as n j row' d' →
    row.code = row'.code ∨ d.deviceId = d'.deviceId → i = j
  /-- The row was that of the code asked for, not redeemed and not expired by the clock of the redeem. -/
  timely : ∀ n i row d, Redeemed toUppercase requests pairings devices as n i row d →
    RedeemsCode toUppercase requests i row.code ∧ ∃ m env, m < n ∧ as[m]? = some (i, env) ∧
      findPairing (state toUppercase requests pairings devices as m).store row.code = some row ∧
      row.redeemedAt = none ∧ env.now ≤ row.expiresAt
  /-- The device is the user's, with the label of the pairing. -/
  owner : ∀ n i row d, Redeemed toUppercase requests pairings devices as n i row d →
    d.userId = row.userId ∧ d.label = row.label ∧ ∃ revokedAt,
      findDevice (state toUppercase requests pairings devices as n).store d.deviceId =
        some ⟨d.deviceId, d.userId, d.label, revokedAt⟩
  /-- A row was there before, or is that of a pairing that its user has started with its label. -/
  started : ∀ n code row, findPairing (state toUppercase requests pairings devices as n).store code =
      some row →
    (∃ r, (pairings.find? code).map (·.2) = some { row with redeemedAt := r }) ∨
    ∃ j label, requests j = .createPairing row.userId label ∧ row.label = labelOf label ∧
      (state toUppercase requests pairings devices as n).place j =
        .created { row with redeemedAt := none }
  /-- A device was there before, or a redeem that has succeeded has made it. -/
  made : ∀ n id device, findDevice (state toUppercase requests pairings devices as n).store id =
      some device →
    (∃ r, (devices.find? id).map (·.2) = some { device with revokedAt := r }) ∨
    ∃ i row, Redeemed toUppercase requests pairings devices as n i row
      ⟨device.id, device.userId, device.label⟩
  /-- A code that is used up was so before, or a redeem of it has succeeded. -/
  usedUp : ∀ n code row, findPairing (state toUppercase requests pairings devices as n).store code =
      some row → row.redeemedAt ≠ none →
    (∃ row₀, (pairings.find? code).map (·.2) = some row₀ ∧ row₀.redeemedAt ≠ none) ∨
    ∃ i row' d, row'.code = code ∧ Redeemed toUppercase requests pairings devices as n i row' d
  /-- No turn of a redeem but the one that ends it with success changes a row. -/
  untouched : ∀ n i env text, as[n]? = some (i, env) → requests i = .redeem text →
    (∀ row d, ¬ Redeemed toUppercase requests pairings devices as (n + 1) i row d) →
    (state toUppercase requests pairings devices as (n + 1)).store.pairings =
        (state toUppercase requests pairings devices as n).store.pairings ∧
      (state toUppercase requests pairings devices as (n + 1)).store.devices =
        (state toUppercase requests pairings devices as n).store.devices

end Machine

/-! ### What a step does -/

section Steps
variable {ι : Type} {toUppercase : String → String} {requests : ι → Request} {i j : ι} {env : Env}
  {st st' : DeviceStore ι} {place place' : Place}

/-- The moves of a request. -/
inductive Moves (toUppercase : String → String) (requests : ι → Request) (i : ι) (env : Env)
    (st : DeviceStore ι) : Place → DeviceStore ι → Place → Prop
  | stay (place : Place) : Moves toUppercase requests i env st place st place
  | begin (userId label : String) : requests i = .createPairing userId label →
      Moves toUppercase requests i env st .asked st
        (.creating (labelOf label) (env.now + pairingTtl) 5)
  | retry (label : String) (expiresAt : ℤ) (tries : ℕ) :
      Moves toUppercase requests i env st (.creating label expiresAt (tries + 1)) st
        (.creating label expiresAt tries)
  | create (userId label₀ label : String) (expiresAt : ℤ) (tries : ℕ) :
      requests i = .createPairing userId label₀ → env.code ∉ st.pairings.keys →
      Moves toUppercase requests i env st (.creating label expiresAt (tries + 1))
        { st with pairings := st.pairings.insert ⟨env.code, userId, label, expiresAt, none⟩ }
        (.created ⟨env.code, userId, label, expiresAt, none⟩)
  | malformed : Moves toUppercase requests i env st .asked st .malformed
  | refuse (place : Place) (e : DeviceError) : place.held = none →
      Moves toUppercase requests i env st place st (.refused e)
  | lock (row : Pairing) : RedeemsCode toUppercase requests i row.code → st.lock row.code = none →
      findPairing st row.code = some row → row.redeemedAt = none → env.now ≤ row.expiresAt →
      Moves toUppercase requests i env st .asked
        { st with lock := Function.update st.lock row.code (some i) } (.locked row)
  | insert (row : Pairing) :
      Moves toUppercase requests i env st (.locked row) st (.inserted row env.uuid)
  | update (row : Pairing) (deviceId : String) :
      Moves toUppercase requests i env st (.inserted row deviceId) st (.updated row deviceId env.now)
  | rollback (place : Place) (row : Pairing) : place.held = some row →
      Moves toUppercase requests i env st place (unlock st row.code) (.refused .database)
  | commit (row : Pairing) (deviceId : String) (redeemedAt : ℤ) : deviceId ∉ st.devices.keys →
      env.fault = false → (∃ text, requests i = .redeem text) →
      Moves toUppercase requests i env st (.updated row deviceId redeemedAt)
        (commit st row deviceId redeemedAt) (.redeemed row ⟨deviceId, row.userId, row.label⟩)
  | revoke (p : Device → Bool) (rows : ℕ) : (∀ text, requests i ≠ .redeem text) →
      Moves toUppercase requests i env st .asked
        { st with devices := revokeWhere st.devices p env.now } (.revoked rows)

/-- Every step is a move. -/
theorem moves_step (toUppercase : String → String) (requests : ι → Request) (i : ι) (env : Env)
    (st : DeviceStore ι) (place : Place) :
    Moves toUppercase requests i env st place (step toUppercase requests i env st place).1
      (step toUppercase requests i env st place).2 := by
  unfold step
  cases hrequest : requests i with
  | createPairing userId label =>
    simp only
    unfold createPairing
    cases place with
    | asked => exact .begin userId label hrequest
    | creating l x tries =>
      cases tries with
      | zero => exact .refuse _ _ rfl
      | succ tries =>
        simp only
        split_ifs with hfault hcode
        · exact .refuse _ _ rfl
        · exact .retry l x tries
        · exact .create userId label l x tries hrequest hcode
    | _ => exact .stay _
  | redeem text =>
    simp only
    unfold redeem
    cases place with
    | asked =>
      simp only
      cases hcode : codeOf toUppercase text with
      | none => exact .malformed
      | some code =>
        simp only
        split_ifs with hfault hlock
        · exact .refuse _ _ rfl
        · exact .stay _
        · cases hrow : (st.pairings.find? code).map (·.2) with
          | none => exact .refuse _ _ rfl
          | some row =>
            simp only
            split_ifs with hredeemed hexpired
            · exact .refuse _ _ rfl
            · exact .refuse _ _ rfl
            · obtain rfl := (Table.map_find?_eq_some.mp hrow).2
              exact .lock row ⟨text, hrequest, hcode⟩ (by simpa using hlock) hrow
                (by simpa using hredeemed) (by omega)
    | locked row =>
      simp only
      split_ifs
      · exact .rollback _ row rfl
      · exact .insert row
    | inserted row deviceId =>
      simp only
      split_ifs
      · exact .rollback _ row rfl
      · exact .update row deviceId
    | updated row deviceId redeemedAt =>
      simp only
      split_ifs with hstop
      · exact .rollback _ row rfl
      · simp only [Bool.or_eq_true, decide_eq_true_eq, not_or] at hstop
        exact .commit row deviceId redeemedAt hstop.2 (Bool.eq_false_iff.mpr hstop.1) ⟨text, hrequest⟩
    | _ => exact .stay _
  | revoke userId deviceId =>
    simp only
    unfold Devices.revoke
    cases place with
    | asked =>
      simp only
      split_ifs
      · exact .refuse _ _ rfl
      · exact .refuse _ _ rfl
      · exact .revoke _ _ (by simp [hrequest])
    | _ => exact .stay _
  | revokeAllForUser userId =>
    simp only
    unfold Devices.revokeAllForUser
    cases place with
    | asked =>
      simp only
      split_ifs
      · exact .refuse _ _ rfl
      · exact .revoke _ _ (by simp [hrequest])
    | _ => exact .stay _

/-- What becomes of the row of a code: it stays, or it is made, or a redeem commits it. -/
theorem Moves.pairing_cases (h : Moves toUppercase requests i env st place st' place') (code : String) :
    findPairing st' code = findPairing st code ∨
    (findPairing st code = none ∧ ∃ row : Pairing, row.redeemedAt = none ∧
      findPairing st' code = some row ∧ place' = .created row) ∨
    ∃ row deviceId redeemedAt, row.code = code ∧ place = .updated row deviceId redeemedAt ∧
      place' = .redeemed row ⟨deviceId, row.userId, row.label⟩ ∧
      findPairing st' code =
        (findPairing st code).map fun p => { p with redeemedAt := some redeemedAt } := by
  cases h with
  | create userId label₀ label expiresAt tries hrequest hcode =>
    have hfind := @Table.map_find?_insert _ _ Pairing.code _ st.pairings
      ⟨env.code, userId, label, expiresAt, none⟩ code hcode
    by_cases hk : code = env.code
    · rw [if_pos hk] at hfind
      refine Or.inr (Or.inl ⟨?_, _, rfl, hfind, rfl⟩)
      unfold findPairing
      rw [hk, Table.find?_eq_none.mpr hcode]
      rfl
    · rw [if_neg hk] at hfind
      exact Or.inl hfind
  | commit row deviceId redeemedAt hid =>
    have hfind : findPairing (Devices.commit st row deviceId redeemedAt) code =
        if code = row.code then (findPairing st code).map fun p =>
          { p with redeemedAt := some redeemedAt } else findPairing st code :=
      Table.map_find?_updateKey
    by_cases hk : code = row.code
    · rw [if_pos hk] at hfind
      exact Or.inr (Or.inr ⟨row, deviceId, redeemedAt, hk.symm, rfl, rfl, hfind⟩)
    · rw [if_neg hk] at hfind
      exact Or.inl hfind
  | _ => exact Or.inl rfl

/-- What becomes of a device: it stays but for its revocation, or a redeem commits it. -/
theorem Moves.device_cases (h : Moves toUppercase requests i env st place st' place') (id : String) :
    (findDevice st id = none ∧ ∃ row, findDevice st' id = some ⟨id, row.userId, row.label, none⟩ ∧
      place' = .redeemed row ⟨id, row.userId, row.label⟩) ∨
    ∃ f : Device → Option ℤ, (∀ d, f d = none → d.revokedAt = none) ∧
      findDevice st' id = (findDevice st id).map fun d => { d with revokedAt := f d } := by
  have hsame : findDevice st id =
      (findDevice st id).map fun d => { d with revokedAt := d.revokedAt } :=
    Option.map_id'.symm
  cases h with
  | commit row deviceId redeemedAt hid =>
    have hfind := @Table.map_find?_insert _ _ Device.id _ st.devices
      ⟨deviceId, row.userId, row.label, none⟩ id hid
    by_cases hk : id = deviceId
    · subst hk
      rw [if_pos rfl] at hfind
      refine Or.inl ⟨?_, row, hfind, rfl⟩
      unfold findDevice
      rw [Table.find?_eq_none.mpr hid]
      rfl
    · rw [if_neg hk] at hfind
      exact Or.inr ⟨_, fun _ h => h, hfind.trans hsame⟩
  | revoke p rows hno =>
    refine Or.inr ⟨fun d => if p d then some (d.revokedAt.getD env.now) else d.revokedAt,
      fun d hd => ?_, ?_⟩
    · simp only at hd
      split_ifs at hd
      exact hd
    refine Table.map_find?_mapRows.trans (congrArg (fun f => Option.map f _) (funext fun d => ?_))
    simp only
    split_ifs <;> rfl
  | _ => exact Or.inr ⟨_, fun _ h => h, hsame⟩

/-- Only the commit of its row leads a redeem to success. -/
theorem Moves.of_redeemed {row : Pairing} {d : RedeemedDevice}
    (h : Moves toUppercase requests i env st place st' (.redeemed row d))
    (hne : place ≠ .redeemed row d) :
    ∃ redeemedAt, place = .updated row d.deviceId redeemedAt ∧ d.deviceId ∉ st.devices.keys ∧
      env.fault = false ∧ ∃ text, requests i = .redeem text := by
  cases h with
  | stay => exact absurd rfl hne
  | commit row deviceId redeemedAt hid hfault hrequest =>
    exact ⟨redeemedAt, rfl, hid, hfault, hrequest⟩

/-- A redeem works on the row of its code, which it has found unredeemed and in time. -/
theorem Moves.of_row {row : Pairing} (h : Moves toUppercase requests i env st place st' place')
    (hrow : place'.row = some row) : place.row = some row ∨
      findPairing st row.code = some row ∧ row.redeemedAt = none ∧ env.now ≤ row.expiresAt := by
  cases h with
  | lock row' hcode hfree hcurrent hnone hexpires =>
    obtain rfl := Option.some.inj hrow
    exact Or.inr ⟨hcurrent, hnone, hexpires⟩
  | stay | insert | update | commit => exact Or.inl hrow
  | begin | retry | create | malformed | refuse | rollback | revoke => cases hrow

theorem Moves.untouched {text : String} (h : Moves toUppercase requests i env st place st' place')
    (hredeem : requests i = .redeem text) (hno : ∀ row d, place' ≠ .redeemed row d) :
    st'.pairings = st.pairings ∧ st'.devices = st.devices := by
  cases h with
  | create userId label₀ label expiresAt tries hrequest =>
    rw [hredeem] at hrequest
    cases hrequest
  | commit row deviceId redeemedAt => exact absurd rfl (hno _ _)
  | revoke p rows hother => exact absurd hredeem (hother text)
  | _ => exact ⟨rfl, rfl⟩

/-- A request only gives up its own lock, and takes one that is free. -/
theorem Moves.lock_of_ne (h : Moves toUppercase requests i env st place st' place') {code : String}
    (hheld : ∀ row, place.held = some row → st.lock row.code = some i) (hj : j ≠ i)
    (hlock : st.lock code = some j) : st'.lock code = some j := by
  have hother : ∀ row, place.held = some row → code ≠ row.code := by
    rintro row hrow rfl
    exact hj (Option.some.inj (hlock.symm.trans (hheld row hrow)))
  cases h with
  | lock row _ hfree =>
    have hne : code ≠ row.code := by
      rintro rfl
      rw [hfree] at hlock
      cases hlock
    exact (Function.update_of_ne hne ..).trans hlock
  | rollback place row hrow => exact (Function.update_of_ne (hother row hrow) ..).trans hlock
  | commit row deviceId redeemedAt => exact (Function.update_of_ne (hother row rfl) ..).trans hlock
  | _ => exact hlock

end Steps

/-! ### What holds of each request -/

section Invariant
variable {ι : Type} {toUppercase : String → String} {requests : ι → Request} {i j : ι} {env : Env}
  {st st' : DeviceStore ι} {place place' : Place} {row : Pairing} {d : RedeemedDevice}

/-- What a request relies on, wherever it is. -/
structure Fits (toUppercase : String → String) (requests : ι → Request) (i : ι) (st : DeviceStore ι)
    (place : Place) : Prop where
  /-- The row of a code stays as it was read while it is locked. -/
  held : ∀ row, place.held = some row → RedeemsCode toUppercase requests i row.code ∧
    st.lock row.code = some i ∧ findPairing st row.code = some row ∧ row.redeemedAt = none
  redeemed : ∀ row d, place = .redeemed row d → RedeemsCode toUppercase requests i row.code ∧
    d.userId = row.userId ∧ d.label = row.label ∧
    (∃ p, findPairing st row.code = some p ∧ p.redeemedAt ≠ none) ∧
    ∃ r, findDevice st d.deviceId = some ⟨d.deviceId, d.userId, d.label, r⟩
  creating : ∀ label expiresAt tries, place = .creating label expiresAt tries →
    ∃ userId label₀, requests i = .createPairing userId label₀ ∧ label = labelOf label₀
  created : ∀ p, place = .created p →
    ∃ label₀, requests i = .createPairing p.userId label₀ ∧ p.label = labelOf label₀

theorem Moves.usedUp (h : Moves toUppercase requests i env st place st' place') {code : String}
    (hused : ∃ p, findPairing st code = some p ∧ p.redeemedAt ≠ none) :
    ∃ p, findPairing st' code = some p ∧ p.redeemedAt ≠ none := by
  obtain ⟨p, hp, hat⟩ := hused
  rcases h.pairing_cases code with hsame | ⟨hnone, -⟩ | ⟨row, deviceId, redeemedAt, -, -, -, hset⟩
  · exact ⟨p, hsame.trans hp, hat⟩
  · rw [hp] at hnone
    cases hnone
  · rw [hp] at hset
    exact ⟨_, hset, by simp⟩

theorem Moves.device (h : Moves toUppercase requests i env st place st' place') {id userId label : String}
    (hdevice : ∃ r, findDevice st id = some ⟨id, userId, label, r⟩) :
    ∃ r, findDevice st' id = some ⟨id, userId, label, r⟩ := by
  obtain ⟨r, hr⟩ := hdevice
  rcases h.device_cases id with ⟨hnone, -⟩ | ⟨f, -, hf⟩
  · rw [hr] at hnone
    cases hnone
  · rw [hr] at hf
    exact ⟨_, hf⟩

theorem Fits.others (hmove : Moves toUppercase requests i env st place st' place') (hj : j ≠ i)
    (hi : Fits toUppercase requests i st place) {placej : Place}
    (h : Fits toUppercase requests j st placej) : Fits toUppercase requests j st' placej := by
  constructor
  · intro row hheld
    obtain ⟨hcode, hlock, hcurrent, hnone⟩ := h.held row hheld
    refine ⟨hcode, hmove.lock_of_ne (fun r hr => (hi.held r hr).2.1) hj hlock, ?_, hnone⟩
    rcases hmove.pairing_cases row.code with hsame | ⟨hfree, -⟩ | ⟨row', deviceId, at', hsame, hplace, -⟩
    · exact hsame.trans hcurrent
    · rw [hcurrent] at hfree
      cases hfree
    · -- The other commits this code only if it has the lock.
      have hlock' := (hi.held row' (hplace ▸ rfl)).2.1
      rw [hsame, hlock] at hlock'
      exact absurd (Option.some.inj hlock') hj
  · intro row d hplace
    obtain ⟨hcode, huser, hlabel, hused, hdevice⟩ := h.redeemed row d hplace
    exact ⟨hcode, huser, hlabel, hmove.usedUp hused, hmove.device hdevice⟩
  · exact h.creating
  · exact h.created

theorem Fits.own (hmove : Moves toUppercase requests i env st place st' place')
    (h : Fits toUppercase requests i st place) : Fits toUppercase requests i st' place' := by
  have hstay : ∀ {place}, place.held = none → (∀ row d, place ≠ .redeemed row d) →
      (∀ l x n, place ≠ .creating l x n) → (∀ p, place ≠ .created p) →
      Fits toUppercase requests i st' place := by
    intro place hheld hredeemed hcreating hcreated
    refine ⟨fun row hrow => ?_, fun row d hplace => absurd hplace (hredeemed row d),
      fun l x n hplace => absurd hplace (hcreating l x n), fun p hplace => absurd hplace (hcreated p)⟩
    rw [hheld] at hrow
    cases hrow
  cases hmove with
  | stay => exact h
  | begin userId label hrequest =>
    refine ⟨by simp [Place.held], by simp, fun l x n hplace => ?_, by simp⟩
    obtain ⟨rfl, -, -⟩ := Place.creating.inj hplace
    exact ⟨userId, label, hrequest, rfl⟩
  | retry label expiresAt tries =>
    refine ⟨by simp [Place.held], by simp, fun l x n hplace => ?_, by simp⟩
    obtain ⟨rfl, -, -⟩ := Place.creating.inj hplace
    exact h.creating label expiresAt (tries + 1) rfl
  | create userId label₀ label expiresAt tries hrequest hcode =>
    refine ⟨by simp [Place.held], by simp, by simp, fun p hplace => ?_⟩
    obtain rfl := Place.created.inj hplace
    obtain ⟨userId', label₁, hrequest', hlabel⟩ := h.creating label expiresAt (tries + 1) rfl
    rw [hrequest] at hrequest'
    obtain ⟨rfl, rfl⟩ := Request.createPairing.inj hrequest'
    exact ⟨label₀, hrequest, hlabel⟩
  | lock row hcode hfree hcurrent hnone hexpires =>
    refine ⟨fun row' hheld => ?_, by simp, by simp, by simp⟩
    obtain rfl := Option.some.inj hheld
    exact ⟨hcode, Function.update_self .., hcurrent, hnone⟩
  | insert row =>
    refine ⟨fun row' hheld => ?_, by simp, by simp, by simp⟩
    exact h.held row' hheld
  | update row deviceId =>
    refine ⟨fun row' hheld => ?_, by simp, by simp, by simp⟩
    exact h.held row' hheld
  | commit row deviceId redeemedAt hid =>
    refine ⟨by simp [Place.held], fun row' d hplace => ?_, by simp, by simp⟩
    obtain ⟨rfl, rfl⟩ := Place.redeemed.inj hplace
    obtain ⟨hcode, -, hcurrent, -⟩ := h.held row rfl
    refine ⟨hcode, rfl, rfl, ⟨{ row with redeemedAt := some redeemedAt }, ?_, by simp⟩, none, ?_⟩
    · refine Table.map_find?_updateKey.trans ?_
      rw [if_pos rfl]
      exact congrArg (Option.map _) hcurrent
    · exact (Table.map_find?_insert hid).trans (if_pos rfl)
  | malformed | refuse | rollback | revoke =>
    exact hstay rfl (by simp) (by simp) (by simp)

variable [DecidableEq ι] {pairings : Table Pairing.code} {devices : Table Device.id}
  {as : List (ι × Env)} {n : ℕ}

theorem fits_state (toUppercase : String → String) (requests : ι → Request)
    (pairings : Table Pairing.code) (devices : Table Device.id) (as : List (ι × Env)) (n : ℕ) (i : ι) :
    Fits toUppercase requests i (state toUppercase requests pairings devices as n).store
      ((state toUppercase requests pairings devices as n).place i) := by
  refine (@placed_after ι (DeviceStore ι) Place Env _ (step toUppercase requests)
    (initial pairings devices) (fun _ => True) (Fits toUppercase requests) ?_ ?_ ?_ as n).2 i
  · exact fun i e st l _ hfits => ⟨trivial, hfits.own (moves_step toUppercase requests i e st l)⟩
  · exact fun i e st l j l' hj _ hi hfits =>
      hi.others (moves_step toUppercase requests i e st l) hj hfits
  · exact ⟨trivial, fun i => ⟨by simp [initial, Place.held], by simp [initial], by simp [initial],
      by simp [initial]⟩⟩

/-- A redeem that has succeeded did so in one turn, and has been there since. -/
theorem exists_commit (h : Redeemed toUppercase requests pairings devices as n i row d) :
    ∃ m e redeemedAt, m < n ∧ as[m]? = some (i, e) ∧
      (state toUppercase requests pairings devices as m).place i = .updated row d.deviceId redeemedAt ∧
      d.deviceId ∉ (state toUppercase requests pairings devices as m).store.devices.keys ∧
      ∀ p, m < p → p ≤ n → Redeemed toUppercase requests pairings devices as p i row d := by
  obtain ⟨m, e, hmn, ha, hne, hstays⟩ :=
    exists_arrival (Q := fun l : Place => l = .redeemed row d) (by simp [initial]) h
  have hplace := hstays (m + 1) (by omega) (by omega)
  rw [after_succ ha, place_turn_self] at hplace
  have hmove := moves_step toUppercase requests i e
    (state toUppercase requests pairings devices as m).store
    ((state toUppercase requests pairings devices as m).place i)
  have hmove' : Moves toUppercase requests i e
      (state toUppercase requests pairings devices as m).store
      ((state toUppercase requests pairings devices as m).place i) _ (.redeemed row d) :=
    hplace ▸ hmove
  obtain ⟨redeemedAt, hupdated, hid, -⟩ := hmove'.of_redeemed hne
  exact ⟨m, e, redeemedAt, hmn, ha, hupdated, hid, hstays⟩

theorem redeemed_place (h : Redeemed toUppercase requests pairings devices as n i row d) {m : ℕ}
    (hnm : n ≤ m) : Redeemed toUppercase requests pairings devices as m i row d := by
  refine @place_keeps ι (DeviceStore ι) Place Env _ (step toUppercase requests)
    (initial pairings devices) as i n m (· = .redeemed row d) ?_ hnm h
  rintro e st l rfl
  unfold step
  cases requests i <;> rfl

theorem created_place {p : Pairing}
    (h : (state toUppercase requests pairings devices as n).place i = .created p) {m : ℕ}
    (hnm : n ≤ m) : (state toUppercase requests pairings devices as m).place i = .created p := by
  refine @place_keeps ι (DeviceStore ι) Place Env _ (step toUppercase requests)
    (initial pairings devices) as i n m (· = .created p) ?_ hnm h
  rintro e st l rfl
  unfold step
  cases requests i <;> rfl

/-- Of two redeems of one code, or with one device, the second finds the work of the first. -/
theorem not_redeemed_twice {row' : Pairing} {d' : RedeemedDevice} {redeemedAt : ℤ}
    (h : Redeemed toUppercase requests pairings devices as n i row d)
    (hplace : (state toUppercase requests pairings devices as n).place j =
      .updated row' d'.deviceId redeemedAt)
    (hid : d'.deviceId ∉ (state toUppercase requests pairings devices as n).store.devices.keys) :
    ¬ (row.code = row'.code ∨ d.deviceId = d'.deviceId) := by
  obtain ⟨-, -, -, ⟨p, hp, hused⟩, r, hdevice⟩ :=
    (fits_state toUppercase requests pairings devices as n i).redeemed row d h
  rintro (hcode | hsame)
  · obtain ⟨-, -, hcurrent, hnone⟩ :=
      (fits_state toUppercase requests pairings devices as n j).held row' (by rw [hplace]; rfl)
    rw [hcode, hcurrent] at hp
    obtain rfl := Option.some.inj hp
    exact hused hnone
  · rw [← hsame] at hid
    unfold findDevice at hdevice
    rw [Table.find?_eq_none.mpr hid] at hdevice
    cases hdevice

end Invariant

/-- **A pairing code yields at most one device**, whatever runs beside each other and whatever fails. -/
theorem singleUse {ι : Type} [DecidableEq ι] (toUppercase : String → String) (requests : ι → Request)
    (pairings : Table Pairing.code) (devices : Table Device.id) (as : List (ι × Env)) :
    SingleUse toUppercase requests pairings devices as := by
  have hfits := fits_state toUppercase requests pairings devices as
  have hmove : ∀ m i e, Moves toUppercase requests i e
      (state toUppercase requests pairings devices as m).store
      ((state toUppercase requests pairings devices as m).place i)
      (turn (step toUppercase requests) (state toUppercase requests pairings devices as m) (i, e)).store
      ((turn (step toUppercase requests) (state toUppercase requests pairings devices as m)
        (i, e)).place i) := by
    intro m i e
    rw [place_turn_self, store_turn]
    exact moves_step toUppercase requests i e _ _
  constructor
  · intro n i j row d row' d' hi hj hsame
    by_contra hij
    obtain ⟨m, e, at₁, hmn, ha, hplace, hid, hstays⟩ := exists_commit hi
    obtain ⟨m', e', at₂, hmn', ha', hplace', hid', hstays'⟩ := exists_commit hj
    have hne : m ≠ m' := by
      rintro rfl
      rw [ha] at ha'
      exact hij (Prod.mk.inj (Option.some.inj ha')).1
    by_cases hlt : m < m'
    · exact not_redeemed_twice (hstays m' hlt (by omega)) hplace' hid' hsame
    · refine not_redeemed_twice (hstays' m (by omega) (by omega)) hplace hid ?_
      exact hsame.imp Eq.symm Eq.symm
  · intro n i row d h
    refine ⟨((hfits n i).redeemed row d h).1, ?_⟩
    exact @exists_turn ι (DeviceStore ι) Place Env _ (step toUppercase requests)
      (initial pairings devices) as i (fun l => l.row = some row)
      (fun e st => findPairing st row.code = some row ∧ row.redeemedAt = none ∧ e.now ≤ row.expiresAt)
      (fun e st l hrow => (moves_step toUppercase requests i e st l).of_row hrow)
      (by simp [initial, Place.row]) n (congrArg Place.row h)
  · intro n i row d h
    obtain ⟨-, huser, hlabel, -, hdevice⟩ := (hfits n i).redeemed row d h
    exact ⟨huser, hlabel, hdevice⟩
  · intro n code row hrow
    have hcases := @holds_or_turned ι (DeviceStore ι) Place Env _ (step toUppercase requests)
      (initial pairings devices) as n 0
      (fun st => ∃ r, findPairing st code = some { row with redeemedAt := r }) (Nat.zero_le n)
      ⟨row.redeemedAt, hrow⟩
    refine hcases.imp_right ?_
    rintro ⟨m, i, e, -, hmn, ha, hbefore, r, hafter⟩
    rcases (hmove m i e).pairing_cases code with hsame | ⟨-, p, hnone, hp, hplace⟩ |
      ⟨p, deviceId, at', -, -, -, hset⟩
    · exact absurd ⟨r, hsame.symm.trans hafter⟩ hbefore
    · have hcreated : (state toUppercase requests pairings devices as (m + 1)).place i = .created p := by
        rw [← hplace]
        exact congrArg (fun s => Shared.place s i) (after_succ ha)
      have hrow' : p = { row with redeemedAt := r } := Option.some.inj (hp.symm.trans hafter)
      obtain ⟨label₀, hrequest, hlabel⟩ := (hfits (m + 1) i).created p hcreated
      rw [hrow'] at hrequest hlabel
      refine ⟨i, label₀, hrequest, hlabel, (created_place hcreated (by omega)).trans ?_⟩
      have hr : r = none := by
        rw [hrow'] at hnone
        exact hnone
      rw [hrow', hr]
    · obtain ⟨q, hq, hqr⟩ := Option.map_eq_some_iff.mp (hset.symm.trans hafter)
      obtain ⟨hcode, huser, hlabel, hexpires, -⟩ := Pairing.mk.inj hqr
      refine absurd ⟨q.redeemedAt, hq.trans ?_⟩ hbefore
      rw [← hcode, ← huser, ← hlabel, ← hexpires]
  · intro n id device hdevice
    have hcases := @holds_or_turned ι (DeviceStore ι) Place Env _ (step toUppercase requests)
      (initial pairings devices) as n 0
      (fun st => ∃ r, findDevice st id = some { device with revokedAt := r }) (Nat.zero_le n)
      ⟨device.revokedAt, hdevice⟩
    refine hcases.imp_right ?_
    rintro ⟨m, i, e, -, hmn, ha, hbefore, r, hafter⟩
    rcases (hmove m i e).device_cases id with ⟨-, row, hnew, hplace⟩ | ⟨f, -, hf⟩
    · have hredeemed : Redeemed toUppercase requests pairings devices as (m + 1) i row
          ⟨id, row.userId, row.label⟩ := by
        unfold Redeemed
        rw [← hplace]
        exact congrArg (fun s => Shared.place s i) (after_succ ha)
      obtain ⟨hid, huser, hlabel, -⟩ := Device.mk.inj (Option.some.inj (hnew.symm.trans hafter))
      rw [hid, huser, hlabel] at hredeemed
      exact ⟨i, row, redeemed_place hredeemed (by omega)⟩
    · obtain ⟨q, hq, hqr⟩ := Option.map_eq_some_iff.mp (hf.symm.trans hafter)
      obtain ⟨hid, huser, hlabel, -⟩ := Device.mk.inj hqr
      refine absurd ⟨q.revokedAt, hq.trans ?_⟩ hbefore
      rw [← hid, ← huser, ← hlabel]
  · intro n code row hrow hused
    have hcases := @holds_or_turned ι (DeviceStore ι) Place Env _ (step toUppercase requests)
      (initial pairings devices) as n 0
      (fun st => ∃ p, findPairing st code = some p ∧ p.redeemedAt ≠ none) (Nat.zero_le n)
      ⟨row, hrow, hused⟩
    refine hcases.imp_right ?_
    rintro ⟨m, i, e, -, hmn, ha, hbefore, p, hp, hpused⟩
    rcases (hmove m i e).pairing_cases code with hsame | ⟨-, q, hnone, hq, -⟩ |
      ⟨q, deviceId, at', hcode, -, hplace, -⟩
    · exact absurd ⟨p, hsame.symm.trans hp, hpused⟩ hbefore
    · obtain rfl := Option.some.inj (hq.symm.trans hp)
      exact absurd hnone hpused
    · have hredeemed : Redeemed toUppercase requests pairings devices as (m + 1) i q
          ⟨deviceId, q.userId, q.label⟩ := by
        unfold Redeemed
        rw [← hplace]
        exact congrArg (fun s => Shared.place s i) (after_succ ha)
      exact ⟨i, q, _, hcode, redeemed_place hredeemed (by omega)⟩
  · intro n i env text ha hrequest hno
    have hturn : state toUppercase requests pairings devices as (n + 1) =
      turn (step toUppercase requests) (state toUppercase requests pairings devices as n) (i, env) :=
        after_succ ha
    unfold Redeemed at hno
    rw [hturn] at hno ⊢
    exact (hmove n i env).untouched hrequest hno

end StarStats.Server.Devices
