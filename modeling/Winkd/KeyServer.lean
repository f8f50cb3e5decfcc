import Winkd.KeyTables
import Winkd.Service

/-!
# The key endpoints at work

`upload_pre_key_bundle`, `fetch_pre_key_bundle` and `revoke_device` of `auth.rs`, as
programs over the statements of `KeyTables`, and the server that serves such requests
side by side.  Between two statements of one request those of others are carried out,
each of them may fail, and the users and sessions change as other endpoints change them.

The trace of a run lists the statements carried out.  What it says about the tables is
read off its entries one by one (`KeyEntry`).
-/

namespace Winkd.Server

structure PreKeyBundleUpload where
  deviceId : ℤ
  deviceName : Text
  registrationId : ℤ
  identityKey : Text
  spkId : ℤ
  spkPublicKey : Text
  spkSignature : Text
  oneTimePreKeys : List OneTimePreKey

/-- The row of `pre_key_bundles` an upload writes. -/
def PreKeyBundleUpload.bundle (body : PreKeyBundleUpload) : Bundle where
  deviceId := body.deviceId
  registrationId := body.registrationId
  identityKey := body.identityKey
  spkId := body.spkId
  spkPublicKey := body.spkPublicKey
  spkSignature := body.spkSignature

/-- What the key endpoints answer with. -/
inductive KeyResponse where
  | ok
  | bundle (bundle : Bundle) (oneTimePreKey : Option OneTimePreKey)
  deriving DecidableEq

abbrev KeyHandler (α : Type) : Type := Prog KeyOp KeyOp.Reply AppError α

/-- A statement, with `.map_err(|e| AppError::Internal(e.to_string()))?`. -/
def statement (r : KeyOp) : KeyHandler r.Value := do
  let reply ← Prog.ask r
  Prog.ofExcept (reply.mapError fun e => .internal e.text.toList)

/-- `audit::log`: a failure is not passed on. -/
def auditDevice (entry : DeviceAudit) : KeyHandler Unit := do
  let _ ← Prog.ask (.insertAuditLog entry)
  pure ()

/-- `require_auth`. -/
def requireKeyAuth (headers : Headers) : KeyHandler User := do
  let token ← Prog.ofOption .unauthorized
    (headers.authorization.bind (Text.stripPrefix "Bearer ".toList))
  let user ← statement (.findUserBySession token)
  Prog.ofOption .unauthorized user

/-- The loop of `upload_pre_key_bundle` over the one-time keys: duplicates and failures
are ignored. -/
def insertOneTimePreKeys (userId : Id) (deviceId : ℤ) : List OneTimePreKey → KeyHandler Unit
  | [] => pure ()
  | key :: keys => do
    let _ ← Prog.ask (.insertOneTimePreKey userId deviceId key)
    insertOneTimePreKeys userId deviceId keys

def uploadPreKeyBundle (headers : Headers) (body : PreKeyBundleUpload) : KeyHandler KeyResponse := do
  let user ← requireKeyAuth headers
  statement (.upsertPreKeyBundle user.id body.bundle)
  insertOneTimePreKeys user.id body.deviceId body.oneTimePreKeys
  let _ ← statement (.registerDevice user.id body.deviceId body.deviceName)
  auditDevice (.deviceRegistered user.id (extractIp headers) body.deviceId body.deviceName)
  pure .ok

def fetchPreKeyBundle (headers : Headers) (winkdId : Text) : KeyHandler KeyResponse := do
  let _ ← requireKeyAuth headers
  let found ← statement (.findUserByWinkdId winkdId)
  let target ← Prog.ofOption (.notFound "User not found".toList) found
  let selected ← statement (.selectPreKeyBundle target.id)
  let bundle ← Prog.ofOption (.notFound "No pre-key bundle for this user".toList) selected
  let oneTimePreKey ← statement (.consumeOneTimePreKey target.id)
  pure (.bundle bundle oneTimePreKey)

/-- `db::revoke_device`: whether a device was found and deleted. -/
def revokeDeviceRows (userId : Id) (deviceId : ℤ) : KeyHandler Bool := do
  let tx ← statement .beginTransaction
  let _ ← statement (.deletePreKeyBundle tx userId deviceId)
  let rowsAffected ← statement (.deleteDevice tx userId deviceId)
  statement (.commit tx)
  pure (0 < rowsAffected)

def revokeDevice (headers : Headers) (deviceId : ℤ) : KeyHandler KeyResponse := do
  let user ← requireKeyAuth headers
  let removed ← revokeDeviceRows user.id deviceId
  if removed then do
    auditDevice (.deviceRevoked user.id (extractIp headers) deviceId)
    pure .ok
  else .throw (.notFound "Device not found".toList)

/-! ## The server -/

/-- The tables, with the requests under way. -/
abbrev KeyServer : Type := Threads.Pool KeyOp KeyOp.Reply AppError KeyResponse KeyTables

abbrev KeyEntry : Type := Threads.Entry KeyOp KeyOp.Reply KeyTables

/-- What happens at the server. -/
inductive KeyEvent where
  | upload (headers : Headers) (body : PreKeyBundleUpload)
  | fetch (headers : Headers) (winkdId : Text)
  | revoke (headers : Headers) (deviceId : ℤ)
  /-- The statement a request has come to is carried out, or fails. -/
  | statement (task : ℕ) (fault : Option DbError)
  /-- Other endpoints change the users and sessions, or time passes. -/
  | others (accounts : Backend)

/-- Whether the event is a statement that fails. -/
def KeyEvent.fault : KeyEvent → Option DbError
  | .statement _ fault => fault
  | _ => none

namespace KeyServer

/-- The act of the pool that an event is. -/
def act (s : KeyServer) : KeyEvent → Threads.Act KeyOp KeyOp.Reply AppError KeyResponse KeyTables
  | .upload headers body => .start (uploadPreKeyBundle headers body)
  | .fetch headers winkdId => .start (fetchPreKeyBundle headers winkdId)
  | .revoke headers deviceId => .start (revokeDevice headers deviceId)
  | .statement i _ => .answer i
  | .others accounts => .outside { s.state with accounts := accounts }

def next (s : KeyServer) (e : KeyEvent) : KeyServer :=
  Threads.Pool.next (answerKeys e.fault) s (s.act e)

/-- A statement waits for the transactions that have deleted its row. -/
def Unblocked (s : KeyServer) : KeyEvent → Prop
  | .statement i _ => ∀ r ∈ Threads.Pool.waiting s i, ¬ s.state.Blocked r
  | _ => True

instance (s : KeyServer) : ∀ e, Decidable (s.Unblocked e)
  | .statement i _ => inferInstanceAs (Decidable (∀ r ∈ Threads.Pool.waiting s i, ¬ s.state.Blocked r))
  | .upload _ _ => isTrue trivial
  | .fetch _ _ => isTrue trivial
  | .revoke _ _ => isTrue trivial
  | .others _ => isTrue trivial

/-- A server with empty key tables. -/
def start (accounts : Backend) : KeyServer := Threads.Pool.idle (.init accounts)

/-- The states a server can come to when every step satisfies `P`. -/
def ReachedBy (P : KeyServer → KeyEvent → Prop) (s : KeyServer) : Prop :=
  ∃ accounts, Transitions.Reaches next (fun s e => s.Unblocked e ∧ P s e) (start accounts) s

/-- What a step does: a request starts, a statement is carried out, or nothing of the
keys changes. -/
theorem next_cases (s : KeyServer) (e : KeyEvent) :
    (∃ p, s.act e = .start p ∧ s.next e = { s with tasks := s.tasks ++ [p] }) ∨
      (∃ i fault r k, e = .statement i fault ∧ s.tasks[i]? = some (.request r k) ∧
        s.next e = s.answered (answerKeys fault) i r k) ∨
      (∃ accounts, s.next e = { s with state := { s.state with accounts := accounts } }) := by
  cases e with
  | upload headers body => exact .inl ⟨_, rfl, rfl⟩
  | fetch headers winkdId => exact .inl ⟨_, rfl, rfl⟩
  | revoke headers deviceId => exact .inl ⟨_, rfl, rfl⟩
  | others accounts => exact .inr (.inr ⟨accounts, rfl⟩)
  | statement i fault =>
    rcases Threads.Pool.next_answer_cases (h := answerKeys fault) s i with heq | ⟨r, k, hp, heq⟩
    · exact .inr (.inr ⟨s.state.accounts, heq⟩)
    · exact .inr (.inl ⟨i, fault, r, k, rfl, hp, heq⟩)

/-- **An invariant of the tables and the trace** is kept by a run if each statement
keeps it, and a change of the accounts does. -/
theorem next_invariant {I : KeyTables → List KeyEntry → Prop} {s : KeyServer} {e : KeyEvent}
    (hs : I s.state s.trace)
    (hstatement : ∀ i fault r k, e = .statement i fault → s.tasks[i]? = some (.request r k) →
      I (answerKeys fault r s.state).2 (s.entry (answerKeys fault) i r :: s.trace))
    (hothers : ∀ accounts, I { s.state with accounts := accounts } s.trace) :
    I (s.next e).state (s.next e).trace := by
  rcases next_cases s e with ⟨p, -, heq⟩ | ⟨i, fault, r, k, he, hp, heq⟩ | ⟨accounts, heq⟩
  · rw [heq]
    exact hs
  · rw [heq]
    exact hstatement i fault r k he hp
  · rw [heq]
    exact hothers accounts

end KeyServer

/-! ## What an entry says -/

/-- The one-time key that an upload offers: its user, its device and the key. -/
def KeyOp.offered : KeyOp → Option (Id × ℤ × OneTimePreKey)
  | .insertOneTimePreKey userId deviceId key => some (userId, deviceId, key)
  | _ => none

/-- The user whose one-time keys a fetch takes from. -/
def KeyOp.consumes : KeyOp → Option Id
  | .consumeOneTimePreKey userId => some userId
  | _ => none

/-- The transaction a revocation commits. -/
def KeyOp.commits : KeyOp → Option ℕ
  | .commit tx => some tx
  | _ => none

/-- The name under which an upload registers its device. -/
def KeyOp.registers : KeyOp → Option Text
  | .registerDevice _ _ deviceName => some deviceName
  | _ => none

/-- The statement is one of those that an upload writes with. -/
def KeyOp.ofUpload : KeyOp → Bool
  | .upsertPreKeyBundle _ _ => true
  | .insertOneTimePreKey _ _ _ => true
  | .registerDevice _ _ _ => true
  | _ => false

namespace KeyEntry

def offered (e : KeyEntry) : Option (Id × ℤ × OneTimePreKey) := e.request.offered

/-- The one-time key that was stored. -/
def stored : KeyEntry → Option (Id × ℤ × OneTimePreKey)
  | ⟨_, _, .insertOneTimePreKey userId deviceId key, .ok (_ + 1)⟩ => some (userId, deviceId, key)
  | _ => none

/-- The one-time key that a fetch took. -/
def consumed : KeyEntry → Option (Id × OneTimePreKey)
  | ⟨_, _, .consumeOneTimePreKey userId, .ok (some key)⟩ => some (userId, key)
  | _ => none

/-- The bundle that an upload wrote. -/
def written : KeyEntry → Option (Id × Bundle)
  | ⟨_, _, .upsertPreKeyBundle userId bundle, .ok ()⟩ => some (userId, bundle)
  | _ => none

/-- The bundle that a fetch read. -/
def read : KeyEntry → Option (Id × Bundle)
  | ⟨_, _, .selectPreKeyBundle userId, .ok (some bundle)⟩ => some (userId, bundle)
  | _ => none

/-- The rows a committed revocation has deleted. -/
def revoked : KeyEntry → Revocation
  | ⟨_, before, .commit tx, .ok ()⟩ => before.revocations tx
  | _ => .begun

end KeyEntry

/-! ## A server with one user

The user has a session, and devices that are told apart by their keys. -/

namespace Sample

def ada : User :=
  { id := 0, username := "ada".toList, winkdId := "ada#0042".toList, displayName := "Ada".toList
    moodMessage := [], avatarData := none, displayNameColor := none, avColor := none
    email := none, passwordHash := none, totpEnabled := false, totpSecret := none }

def keyAccounts : Backend :=
  { Backend.init 0 with users := [ada], sessions := [⟨0, "s".toList, 1000⟩], drawn := 1 }

def bearer : Headers := ⟨"10.0.0.1", some "Bearer s".toList, none, none, none, none⟩

def keyA : OneTimePreKey := ⟨1, "A".toList⟩

def keyB : OneTimePreKey := ⟨2, "B".toList⟩

/-- An upload of one device: its keys are named after it. -/
def upload (deviceId : ℤ) (keys : List OneTimePreKey) : KeyEvent :=
  .upload bearer
    { deviceId := deviceId, deviceName := "phone".toList, registrationId := 7
      identityKey := 'I' :: Text.ofInt deviceId, spkId := 1, spkPublicKey := 'S' :: Text.ofInt deviceId
      spkSignature := [], oneTimePreKeys := keys }

def fetch : KeyEvent := .fetch bearer "ada#0042".toList

def revoke (deviceId : ℤ) : KeyEvent := .revoke bearer deviceId

/-- The bundle of one of the devices. -/
def deviceBundle (deviceId : ℤ) : Bundle :=
  ⟨deviceId, 7, 'I' :: Text.ofInt deviceId, 1, 'S' :: Text.ofInt deviceId, []⟩

/-- A request that starts, and so many statements of it, as task `i`. -/
def request (i n : ℕ) (e : KeyEvent) : List KeyEvent := e :: List.replicate n (.statement i none)

/-- The server after `events`. -/
def afterKeys (events : List KeyEvent) : KeyServer :=
  events.foldl KeyServer.next (KeyServer.start keyAccounts)

theorem afterKeys_reached {P : KeyServer → KeyEvent → Prop} {events : List KeyEvent}
    (h : Transitions.Admits KeyServer.next (fun s e => s.Unblocked e ∧ P s e)
      (KeyServer.start keyAccounts) events) : (afterKeys events).ReachedBy P :=
  ⟨keyAccounts, h.reaches⟩

end Sample

end Winkd.Server
