import Winkd.Auth
import Winkd.Threads
import Mathlib.Data.List.MinMax

/-!
# The tables behind the key endpoints

`pre_key_bundles`, `one_time_pre_keys` and `devices`, with the statements that `auth.rs`
and `db.rs` make on them.  A bundle is kept for each device of a user, one-time keys for
each user: the table has no column for the device that uploaded one.

A statement may fail, for any reason: it then has no effect, and the transaction it
belongs to is rolled back.  The transaction of `revoke_device` keeps what it has deleted
to itself until it commits.  The rows it has deleted stay locked until then: a statement
that would change one of them waits (`Blocked`).
-/

namespace Winkd.Server

/-- A row of `pre_key_bundles`, but for its user. -/
structure Bundle where
  deviceId : ℤ
  registrationId : ℤ
  identityKey : Text
  spkId : ℤ
  spkPublicKey : Text
  spkSignature : Text
  deriving DecidableEq

structure BundleRow where
  userId : Id
  bundle : Bundle
  deriving DecidableEq

structure OneTimePreKey where
  keyId : ℤ
  publicKey : Text
  deriving DecidableEq

structure OneTimePreKeyRow where
  userId : Id
  key : OneTimePreKey
  deriving DecidableEq

structure DeviceRow where
  userId : Id
  deviceId : ℤ
  deviceName : Text
  deriving DecidableEq

/-- The two entries of the audit log about devices. -/
inductive DeviceAudit where
  | deviceRegistered (userId : Id) (ip : IpAddr) (deviceId : ℤ) (deviceName : Text)
  | deviceRevoked (userId : Id) (ip : IpAddr) (deviceId : ℤ)
  deriving DecidableEq

/-- The rows a transaction has deleted: bundles and devices, by user and device. -/
structure Revocation where
  bundles : List (Id × ℤ)
  devices : List (Id × ℤ)
  deriving DecidableEq

/-- A transaction that has deleted nothing. -/
def Revocation.begun : Revocation := ⟨[], []⟩

/-- The tables the key endpoints share. -/
structure KeyTables where
  /-- The users, their sessions and the clock. -/
  accounts : Backend
  preKeyBundles : List BundleRow
  oneTimePreKeys : List OneTimePreKeyRow
  devices : List DeviceRow
  revocations : ℕ → Revocation
  /-- How many transactions were begun. -/
  begun : ℕ
  auditLog : List DeviceAudit

/-- No keys yet. -/
def KeyTables.init (accounts : Backend) : KeyTables where
  accounts := accounts
  preKeyBundles := []
  oneTimePreKeys := []
  devices := []
  revocations _ := .begun
  begun := 0
  auditLog := []

/-- The statements. -/
inductive KeyOp where
  | findUserBySession (token : Text)
  | findUserByWinkdId (winkdId : Text)
  | upsertPreKeyBundle (userId : Id) (bundle : Bundle)
  /-- `deviceId` is the uploading device, for the record: the statement does not bind it. -/
  | insertOneTimePreKey (userId : Id) (deviceId : ℤ) (key : OneTimePreKey)
  | registerDevice (userId : Id) (deviceId : ℤ) (deviceName : Text)
  | selectPreKeyBundle (userId : Id)
  | consumeOneTimePreKey (userId : Id)
  /-- The statements of `db::revoke_device`. -/
  | beginTransaction
  | deletePreKeyBundle (tx : ℕ) (userId : Id) (deviceId : ℤ)
  | deleteDevice (tx : ℕ) (userId : Id) (deviceId : ℤ)
  | commit (tx : ℕ)
  | insertAuditLog (entry : DeviceAudit)
  deriving DecidableEq

/-- What a statement answers with, if it does not fail.  The driver reports how many rows
were affected. -/
@[reducible] def KeyOp.Value : KeyOp → Type
  | .findUserBySession _ => Option User
  | .findUserByWinkdId _ => Option User
  | .upsertPreKeyBundle _ _ => Unit
  | .insertOneTimePreKey _ _ _ => ℕ
  | .registerDevice _ _ _ => DeviceRow
  | .selectPreKeyBundle _ => Option Bundle
  | .consumeOneTimePreKey _ => Option OneTimePreKey
  | .beginTransaction => ℕ
  | .deletePreKeyBundle _ _ _ => ℕ
  | .deleteDevice _ _ _ => ℕ
  | .commit _ => Unit
  | .insertAuditLog _ => Unit

@[reducible] def KeyOp.Reply (r : KeyOp) : Type := Except DbError r.Value

namespace KeyTables

/-! ## Statements -/

def findUserByWinkdId (t : KeyTables) (winkdId : Text) : Option User :=
  t.accounts.users.find? fun u => u.winkdId = winkdId

def HasBundle (t : KeyTables) (userId : Id) (deviceId : ℤ) : Prop :=
  ∃ row ∈ t.preKeyBundles, row.userId = userId ∧ row.bundle.deviceId = deviceId

instance (t : KeyTables) (userId : Id) (deviceId : ℤ) : Decidable (t.HasBundle userId deviceId) :=
  inferInstanceAs (Decidable (∃ row ∈ t.preKeyBundles, _))

def HasDevice (t : KeyTables) (userId : Id) (deviceId : ℤ) : Prop :=
  ∃ row ∈ t.devices, row.userId = userId ∧ row.deviceId = deviceId

instance (t : KeyTables) (userId : Id) (deviceId : ℤ) : Decidable (t.HasDevice userId deviceId) :=
  inferInstanceAs (Decidable (∃ row ∈ t.devices, _))

/-- `ON CONFLICT (user_id, device_id) DO UPDATE`. -/
def upsertPreKeyBundle (t : KeyTables) (userId : Id) (bundle : Bundle) : KeyTables :=
  if t.HasBundle userId bundle.deviceId then
    { t with preKeyBundles := t.preKeyBundles.map fun row =>
        if row.userId = userId ∧ row.bundle.deviceId = bundle.deviceId then ⟨userId, bundle⟩ else row }
  else { t with preKeyBundles := t.preKeyBundles ++ [⟨userId, bundle⟩] }

/-- `ON CONFLICT (user_id, key_id) DO NOTHING`. -/
def insertOneTimePreKey (t : KeyTables) (userId : Id) (key : OneTimePreKey) : ℕ × KeyTables :=
  if t.oneTimePreKeys.any fun row => row.userId = userId ∧ row.key.keyId = key.keyId then (0, t)
  else (1, { t with oneTimePreKeys := t.oneTimePreKeys ++ [⟨userId, key⟩] })

/-- `ON CONFLICT (user_id, device_id) DO UPDATE`; `device_name` is a VARCHAR(64). -/
def registerDevice (t : KeyTables) (userId : Id) (deviceId : ℤ) (deviceName : Text) :
    Except DbError DeviceRow × KeyTables :=
  if 64 < deviceName.length then (.error (.tooLong 64), t)
  else if t.HasDevice userId deviceId then
    (.ok ⟨userId, deviceId, deviceName⟩, { t with devices := t.devices.map fun row =>
      if row.userId = userId ∧ row.deviceId = deviceId then ⟨userId, deviceId, deviceName⟩ else row })
  else
    (.ok ⟨userId, deviceId, deviceName⟩,
      { t with devices := t.devices ++ [⟨userId, deviceId, deviceName⟩] })

/-- The order that `argmin` goes by. -/
local instance : Preorder ℤ := Int.instLinearOrder.toPreorder

/-- `ORDER BY device_id ASC LIMIT 1`. -/
def selectPreKeyBundle (t : KeyTables) (userId : Id) : Option Bundle :=
  ((t.preKeyBundles.filter fun row => row.userId = userId).map BundleRow.bundle).argmin
    Bundle.deviceId

/-- The user's one-time keys. -/
def oneTimePreKeysOf (t : KeyTables) (userId : Id) : List OneTimePreKey :=
  (t.oneTimePreKeys.filter fun row => row.userId = userId).map OneTimePreKeyRow.key

/-- The key with the smallest id is deleted and returned. -/
def consumeOneTimePreKey (t : KeyTables) (userId : Id) : Option OneTimePreKey × KeyTables :=
  match (t.oneTimePreKeysOf userId).argmin OneTimePreKey.keyId with
  | none => (none, t)
  | some key =>
    (some key, { t with oneTimePreKeys := t.oneTimePreKeys.filter fun row => row ≠ ⟨userId, key⟩ })

def setRevocation (t : KeyTables) (tx : ℕ) (r : Revocation) : KeyTables :=
  { t with revocations := Function.update t.revocations tx r }

/-- The row is deleted as far as the transaction is concerned, if it is there. -/
def deletePreKeyBundle (t : KeyTables) (tx : ℕ) (userId : Id) (deviceId : ℤ) : ℕ × KeyTables :=
  if t.HasBundle userId deviceId ∧ (userId, deviceId) ∉ (t.revocations tx).bundles then
    (1, t.setRevocation tx ⟨(userId, deviceId) :: (t.revocations tx).bundles,
      (t.revocations tx).devices⟩)
  else (0, t)

def deleteDevice (t : KeyTables) (tx : ℕ) (userId : Id) (deviceId : ℤ) : ℕ × KeyTables :=
  if t.HasDevice userId deviceId ∧ (userId, deviceId) ∉ (t.revocations tx).devices then
    (1, t.setRevocation tx ⟨(t.revocations tx).bundles,
      (userId, deviceId) :: (t.revocations tx).devices⟩)
  else (0, t)

def commit (t : KeyTables) (tx : ℕ) : KeyTables :=
  let r := t.revocations tx
  { t with
    preKeyBundles := t.preKeyBundles.filter fun row => (row.userId, row.bundle.deviceId) ∉ r.bundles
    devices := t.devices.filter fun row => (row.userId, row.deviceId) ∉ r.devices
    revocations := Function.update t.revocations tx .begun }

end KeyTables

/-- The transaction a statement belongs to. -/
def KeyOp.transaction : KeyOp → Option ℕ
  | .deletePreKeyBundle tx _ _ => some tx
  | .deleteDevice tx _ _ => some tx
  | .commit tx => some tx
  | _ => none

/-- How a statement is carried out. -/
def carryOut : Prog.Handler KeyOp KeyOp.Reply KeyTables
  | .findUserBySession token, t => (.ok (t.accounts.findUserBySession token), t)
  | .findUserByWinkdId winkdId, t => (.ok (t.findUserByWinkdId winkdId), t)
  | .upsertPreKeyBundle userId bundle, t => (.ok (), t.upsertPreKeyBundle userId bundle)
  | .insertOneTimePreKey userId _ key, t =>
      (.ok (t.insertOneTimePreKey userId key).1, (t.insertOneTimePreKey userId key).2)
  | .registerDevice userId deviceId deviceName, t => t.registerDevice userId deviceId deviceName
  | .selectPreKeyBundle userId, t => (.ok (t.selectPreKeyBundle userId), t)
  | .consumeOneTimePreKey userId, t =>
      (.ok (t.consumeOneTimePreKey userId).1, (t.consumeOneTimePreKey userId).2)
  | .beginTransaction, t => (.ok t.begun, { t with begun := t.begun + 1 })
  | .deletePreKeyBundle tx userId deviceId, t =>
      (.ok (t.deletePreKeyBundle tx userId deviceId).1, (t.deletePreKeyBundle tx userId deviceId).2)
  | .deleteDevice tx userId deviceId, t =>
      (.ok (t.deleteDevice tx userId deviceId).1, (t.deleteDevice tx userId deviceId).2)
  | .commit tx, t => (.ok (), t.commit tx)
  | .insertAuditLog entry, t => (.ok (), { t with auditLog := t.auditLog ++ [entry] })

/-- What a failed statement leaves: its transaction is rolled back. -/
def KeyTables.rolledBack (t : KeyTables) : Option ℕ → KeyTables
  | none => t
  | some tx => t.setRevocation tx .begun

/-- How a statement is answered, given whether it fails. -/
def answerKeys (fault : Option DbError) : Prog.Handler KeyOp KeyOp.Reply KeyTables := fun r t =>
  match fault with
  | none => carryOut r t
  | some e => (.error e, t.rolledBack r.transaction)

/-- A row that the statement would change is deleted in a transaction that has not
committed. -/
def KeyTables.Blocked (t : KeyTables) : KeyOp → Prop
  | .upsertPreKeyBundle userId bundle =>
      ∃ tx < t.begun, (userId, bundle.deviceId) ∈ (t.revocations tx).bundles
  | .registerDevice userId deviceId _ =>
      ∃ tx < t.begun, (userId, deviceId) ∈ (t.revocations tx).devices
  | .deletePreKeyBundle own userId deviceId =>
      ∃ tx < t.begun, tx ≠ own ∧ (userId, deviceId) ∈ (t.revocations tx).bundles
  | .deleteDevice own userId deviceId =>
      ∃ tx < t.begun, tx ≠ own ∧ (userId, deviceId) ∈ (t.revocations tx).devices
  | _ => False

instance (t : KeyTables) : ∀ r, Decidable (t.Blocked r)
  | .upsertPreKeyBundle userId bundle =>
      inferInstanceAs (Decidable (∃ tx < t.begun, (userId, bundle.deviceId) ∈ (t.revocations tx).bundles))
  | .registerDevice userId deviceId _ =>
      inferInstanceAs (Decidable (∃ tx < t.begun, (userId, deviceId) ∈ (t.revocations tx).devices))
  | .deletePreKeyBundle own userId deviceId => inferInstanceAs
      (Decidable (∃ tx < t.begun, tx ≠ own ∧ (userId, deviceId) ∈ (t.revocations tx).bundles))
  | .deleteDevice own userId deviceId => inferInstanceAs
      (Decidable (∃ tx < t.begun, tx ≠ own ∧ (userId, deviceId) ∈ (t.revocations tx).devices))
  | .findUserBySession _ => isFalse id
  | .findUserByWinkdId _ => isFalse id
  | .insertOneTimePreKey _ _ _ => isFalse id
  | .selectPreKeyBundle _ => isFalse id
  | .consumeOneTimePreKey _ => isFalse id
  | .beginTransaction => isFalse id
  | .commit _ => isFalse id
  | .insertAuditLog _ => isFalse id

end Winkd.Server
