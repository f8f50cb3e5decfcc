import Winkd.Crypto
import Mathlib.Logic.Function.Basic

/-!
# The key store

`encryption/keystore.ts` as the session manager uses it.  IndexedDB keeps values
by key and hands out copies, so a store is a value: a session changed after it
was loaded is not the stored session until it is stored again.

Next to the store accesses a call draws random values: key pairs and AES-GCM
initialisation vectors.  `Entropy` fixes what is drawn, and a `World` counts how
much has been.
-/

namespace Winkd

/-- The object stores of `winkd_keys`. -/
structure KeyStore (β : Type) where
  identity : Option (IdentityKeyPair β)
  registrationId : Option Int
  preKeys : Int → Option (PreKey β)
  signedPreKeys : Int → Option (SignedPreKey β)
  sessions : String → Option (RatchetSession β)

namespace KeyStore
variable {β : Type}

/-- `idbDelete(STORE_PRE_KEYS, id)`. -/
def removePreKey (s : KeyStore β) (id : Int) : KeyStore β :=
  { s with preKeys := Function.update s.preKeys id none }

/-- `idbPut(STORE_SESSIONS, peerId, session)`. -/
def storeSession (s : KeyStore β) (peerId : String) (session : RatchetSession β) : KeyStore β :=
  { s with sessions := Function.update s.sessions peerId (some session) }

@[simp] theorem storeSession_sessions_self (s : KeyStore β) (p : String) (x : RatchetSession β) :
    (s.storeSession p x).sessions p = some x := by simp [storeSession]

@[simp] theorem storeSession_sessions_ne (s : KeyStore β) {p q : String} (x : RatchetSession β)
    (h : q ≠ p) : (s.storeSession p x).sessions q = s.sessions q := by simp [storeSession, h]

@[simp] theorem storeSession_storeSession (s : KeyStore β) (p : String) (x y : RatchetSession β) :
    (s.storeSession p x).storeSession p y = s.storeSession p y := by simp [storeSession]

@[simp] theorem removePreKey_preKeys (s : KeyStore β) (id : Int) :
    (s.removePreKey id).preKeys = Function.update s.preKeys id none := rfl

end KeyStore

/-- What a call throws: an `Error` with its text, or an exception of the
platform. -/
inductive Failure where
  | error (message : String)
  /-- `atob` or `JSON.parse` refuses the payload. -/
  | syntaxError
  /-- A property of `undefined` is read, or an object has no primitive value. -/
  | typeError
  /-- A key cannot be imported, or IndexedDB is given no key. -/
  | dataError
  /-- AES-GCM decryption fails. -/
  | operationError
  /-- A loop does not end: the call never comes back. -/
  | endless
  deriving DecidableEq

/-- The points at which a call touches the store or draws random values. -/
inductive Request (β : Type) where
  | getIdentityKeyPair
  | getLocalRegistrationId
  | loadPreKey (id : Int)
  | removePreKey (id : Int)
  | loadSignedPreKey (id : Int)
  | loadSession (peerId : String)
  | storeSession (peerId : String) (session : RatchetSession β)
  /-- `subtle.generateKey`, exported. -/
  | generateKey
  /-- `getRandomValues` of twelve bytes. -/
  | getRandomValues

/-- The type of each request's reply. -/
@[reducible] def Reply (β : Type) : Request β → Type
  | .getIdentityKeyPair => Option (IdentityKeyPair β)
  | .getLocalRegistrationId => Option Int
  | .loadPreKey _ => Option (PreKey β)
  | .removePreKey _ => Unit
  | .loadSignedPreKey _ => Option (SignedPreKey β)
  | .loadSession _ => Option (RatchetSession β)
  | .storeSession _ _ => Unit
  | .generateKey => ExportedKeyPair β
  | .getRandomValues => β

/-- An asynchronous method of the session manager. -/
abbrev Call (β α : Type) : Type := Prog (Request β) (Reply β) Failure α

/-- The random values a party draws, in the order it draws them. -/
structure Entropy (β : Type) where
  key : ℕ → ExportedKeyPair β
  iv : ℕ → β

/-- A party's store, and how many random values it has drawn. -/
structure World (β : Type) where
  store : KeyStore β
  keysDrawn : ℕ
  ivsDrawn : ℕ

/-- How a party's environment answers each request. -/
def serve {β : Type} (E : Entropy β) : Prog.Handler (Request β) (Reply β) (World β)
  | .getIdentityKeyPair, w => (w.store.identity, w)
  | .getLocalRegistrationId, w => (w.store.registrationId, w)
  | .loadPreKey id, w => (w.store.preKeys id, w)
  | .removePreKey id, w => ((), { w with store := w.store.removePreKey id })
  | .loadSignedPreKey id, w => (w.store.signedPreKeys id, w)
  | .loadSession peerId, w => (w.store.sessions peerId, w)
  | .storeSession peerId session, w =>
      ((), { w with store := w.store.storeSession peerId session })
  | .generateKey, w => (E.key w.keysDrawn, { w with keysDrawn := w.keysDrawn + 1 })
  | .getRandomValues, w => (E.iv w.ivsDrawn, { w with ivsDrawn := w.ivsDrawn + 1 })

end Winkd
