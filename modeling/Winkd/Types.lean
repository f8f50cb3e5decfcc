import Winkd.JsValues
import Mathlib.Data.Finmap

/-!
# Keys, bundles, envelopes and the ratchet session

The records of `encryption/types.ts`, and the two wire formats of
`encryption/session.ts`.  `β` is the type of key material and other byte data,
in whichever form the code holds it (byte array, hex, base64 or JWK text), and
`ω` the type of serialised payloads.  Ids and the counts of what is sent are
JavaScript numbers, taken as integers.  The numbers in a header are what its
sender wrote there, and so is `recvCount`, which is set from them.
-/

namespace Winkd
open Js UnicodeText

/-- A P-256 identity key pair. -/
structure IdentityKeyPair (β : Type) where
  publicKey : β
  privateKey : β
  deriving DecidableEq

/-- A one-time pre-key. -/
structure PreKey (β : Type) where
  id : Int
  publicKey : β
  privateKey : β
  deriving DecidableEq

/-- A signed pre-key: the signature is over its public key. -/
structure SignedPreKey (β : Type) extends PreKey β where
  signature : β
  deriving DecidableEq

/-- `Omit<PreKey, "privateKey">`. -/
structure PublicPreKey (β : Type) where
  id : Int
  publicKey : β
  deriving DecidableEq

/-- `Omit<SignedPreKey, "privateKey">`. -/
structure PublicSignedPreKey (β : Type) extends PublicPreKey β where
  signature : β
  deriving DecidableEq

/-- Bundle uploaded to the server so that contacts can initiate X3DH. -/
structure PreKeyBundle (β : Type) where
  identityKey : β
  signedPreKey : PublicSignedPreKey β
  oneTimePreKey : Option (PublicPreKey β)
  deriving DecidableEq

/-- Envelope types 1 and 2. -/
inductive EnvelopeType where
  | preKeySignalMessage
  | signalMessage
  deriving DecidableEq

/-- An encrypted message as it travels over the wire. -/
structure EncryptedEnvelope (ω : Type) where
  type : EnvelopeType
  ciphertext : ω
  registrationId : Int
  deriving DecidableEq

/-- X3DH parameters an initiator keeps until its first message. -/
structure PendingPreKeyMsg (β : Type) where
  identityKey : β
  ephemeralKey : β
  spkId : Int
  opkId : Option Int
  deriving DecidableEq

/-- Double Ratchet state, stored per peer.  `skipped` is keyed by ratchet public
key and the text of the message number, as `${rk}:${n}` is: a ratchet key has no
colon. -/
structure RatchetSession (β : Type) where
  rootKey : β
  sendChainKey : Option β
  recvChainKey : Option β
  sendCount : Int
  recvCount : Primitive
  prevSendCount : Int
  ourRatchetPublic : β
  ourRatchetPrivate : β
  theirRatchetPublic : Option β
  skipped : Finmap (fun _ : β × CodeUnits => β)
  isInitiator : Bool
  pendingPreKeyMsg : Option (PendingPreKeyMsg β)
  deriving DecidableEq

/-! ## Wire formats -/

/-- Sender's ratchet key, message number in its chain, length of the previous
sending chain.  Nothing checks that the numbers are there, or are numbers. -/
structure RatchetHeader (β : Type) where
  rk : β
  n : Value
  pn : Value
  deriving DecidableEq

/-- What a type-1 payload carries on top of a type-2 payload. -/
structure PreKeyParams (β : Type) where
  ik : β
  ek : β
  spkId : Int
  opkId : Option Int
  deriving DecidableEq

/-- `WireMessage | PreKeyWireMessage`.  A parsed payload is only cast to this
type, so the header and the X3DH parameters may be absent. -/
structure WireMessage (β : Type) where
  h : Option (RatchetHeader β)
  ct : β
  iv : β
  preKey : Option (PreKeyParams β)
  deriving DecidableEq

end Winkd
