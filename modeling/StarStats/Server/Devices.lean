import StarStats.Lib.Tables
import StarStats.Lib.Text

/-! # Pairing codes and devices

A pairing code is a row that its user has made; a redeem is a transaction that locks the row, inserts a
device for the user and marks the code as redeemed. What a transaction has written is in the tables from
its commit on. -/

namespace StarStats.Server.Devices

open StarStats.Lib.Tables StarStats.Lib.Text

/-- `PAIRING_TTL`, in seconds. -/
def pairingTtl : ℤ := 5 * 60

/-- The label of a device without one. -/
def defaultLabel : String := "Desktop client"

structure Pairing where
  code : String
  userId : String
  label : String
  expiresAt : ℤ
  redeemedAt : Option ℤ
  deriving DecidableEq

structure Device where
  id : String
  userId : String
  label : String
  revokedAt : Option ℤ
  deriving DecidableEq

/-- What a redeemed code comes to. -/
structure RedeemedDevice where
  deviceId : String
  userId : String
  label : String
  deriving DecidableEq

inductive DeviceError where
  | unknownCode
  | alreadyRedeemed
  | expired
  | deviceNotFound
  | database
  deriving DecidableEq

/-- The two tables, and which transaction holds the row of a code. -/
structure DeviceStore (ι : Type) where
  pairings : Table Pairing.code
  devices : Table Device.id
  lock : String → Option ι

/-- The clock, whether the call of a step fails, and what is drawn at random. -/
structure Env where
  now : ℤ
  fault : Bool
  code : String
  uuid : String

/-- The requests that touch pairings and devices. -/
inductive Request where
  | createPairing (userId label : String)
  | redeem (code : String)
  | revoke (userId deviceId : String)
  | revokeAllForUser (userId : String)

/-- Where a request is; a redeem keeps the row that it has locked. -/
inductive Place where
  | asked
  /-- So many tries are left. -/
  | creating (label : String) (expiresAt : ℤ) (tries : ℕ)
  | created (p : Pairing)
  | malformed
  | locked (row : Pairing)
  | inserted (row : Pairing) (deviceId : String)
  | updated (row : Pairing) (deviceId : String) (redeemedAt : ℤ)
  | redeemed (row : Pairing) (d : RedeemedDevice)
  | revoked (rows : ℕ)
  | refused (e : DeviceError)
  deriving DecidableEq

section Steps
variable {ι : Type} (env : Env) (st : DeviceStore ι)

/-- A blank label gives way to the default. -/
def labelOf (label : String) : String := if trim label = "" then defaultLabel else label

/-- A code that is taken is drawn again; five are drawn at most. -/
def createPairing (userId label : String) : Place → DeviceStore ι × Place
  | .asked => (st, .creating (labelOf label) (env.now + pairingTtl) 5)
  | .creating _ _ 0 => (st, .refused .database)
  | .creating label expiresAt (tries + 1) =>
    if env.fault then (st, .refused .database)
    else if env.code ∈ st.pairings.keys then (st, .creating label expiresAt tries)
    else
      ({ st with pairings := st.pairings.insert ⟨env.code, userId, label, expiresAt, none⟩ },
        .created ⟨env.code, userId, label, expiresAt, none⟩)
  | place => (st, place)

/-- The code that a redeem looks for, where it has the length of one. -/
def codeOf (toUppercase : String → String) (code : String) : Option String :=
  if len (toUppercase (trim code)) = 8 then some (toUppercase (trim code)) else none

/-- The transaction is over. -/
def unlock (code : String) : DeviceStore ι := { st with lock := Function.update st.lock code none }

/-- The device is there and the code is used up. -/
def commit (row : Pairing) (deviceId : String) (redeemedAt : ℤ) : DeviceStore ι :=
  { st with
    pairings := st.pairings.updateKey row.code (fun p => { p with redeemedAt := some redeemedAt })
      fun _ => rfl
    devices := st.devices.insert ⟨deviceId, row.userId, row.label, none⟩
    lock := Function.update st.lock row.code none }

/-- The statements of a redeem; where one fails, the transaction is rolled back. -/
def redeem (toUppercase : String → String) (i : ι) (code : String) : Place → DeviceStore ι × Place
  | .asked =>
    match codeOf toUppercase code with
    | none => (st, .malformed)
    | some code =>
      if env.fault then (st, .refused .database)
      -- The row is another's until that transaction is over.
      else if (st.lock code).isSome then (st, .asked)
      else
        match (st.pairings.find? code).map (·.2) with
        | none => (st, .refused .unknownCode)
        | some row =>
          if row.redeemedAt.isSome then (st, .refused .alreadyRedeemed)
          else if row.expiresAt < env.now then (st, .refused .expired)
          else ({ st with lock := Function.update st.lock code (some i) }, .locked row)
  | .locked row =>
    if env.fault || env.uuid ∈ st.devices.keys then (unlock st row.code, .refused .database)
    else (st, .inserted row env.uuid)
  | .inserted row deviceId =>
    if env.fault then (unlock st row.code, .refused .database)
    else (st, .updated row deviceId env.now)
  | .updated row deviceId redeemedAt =>
    if env.fault || deviceId ∈ st.devices.keys then (unlock st row.code, .refused .database)
    else (commit st row deviceId redeemedAt, .redeemed row ⟨deviceId, row.userId, row.label⟩)
  | place => (st, place)

/-- `COALESCE(revoked_at, NOW())` on the rows that `p` selects. -/
def revokeWhere (devices : Table Device.id) (p : Device → Bool) (now : ℤ) : Table Device.id :=
  devices.mapRows (fun d => if p d then { d with revokedAt := some (d.revokedAt.getD now) } else d)
    fun d => by split <;> rfl

/-- A user revokes a device of theirs. -/
def revoke (userId deviceId : String) : Place → DeviceStore ι × Place
  | .asked =>
    let p := fun d : Device => d.id = deviceId && d.userId = userId
    if env.fault then (st, .refused .database)
    else if st.devices.contents.countP p = 0 then (st, .refused .deviceNotFound)
    else ({ st with devices := revokeWhere st.devices p env.now }, .revoked 1)
  | place => (st, place)

/-- Every device of the user that is still active. -/
def revokeAllForUser (userId : String) : Place → DeviceStore ι × Place
  | .asked =>
    let p := fun d : Device => d.userId = userId && d.revokedAt = none
    if env.fault then (st, .refused .database)
    else ({ st with devices := revokeWhere st.devices p env.now },
      .revoked (st.devices.contents.countP p))
  | place => (st, place)

/-- A device the table does not have is not active. -/
def isDeviceActive (deviceId : String) : Bool :=
  ((st.devices.find? deviceId).map (·.2)).any (·.revokedAt = none)

/-- A request takes its next step. -/
def step (toUppercase : String → String) (requests : ι → Request) (i : ι) (env : Env)
    (st : DeviceStore ι) (place : Place) : DeviceStore ι × Place :=
  match requests i with
  | .createPairing userId label => createPairing env st userId label place
  | .redeem code => redeem env st toUppercase i code place
  | .revoke userId deviceId => revoke env st userId deviceId place
  | .revokeAllForUser userId => revokeAllForUser env st userId place

end Steps

end StarStats.Server.Devices
