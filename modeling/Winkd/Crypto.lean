import Winkd.Types
import Winkd.Effects
import Winkd.UnicodeText

/-!
# The cryptographic primitives

The functions of `encryption/crypto.ts` that sessions use.  What they take from
the platform — WebCrypto, byte arrays, the text encodings of bytes, `JSON` with
`btoa` — is the `Platform` they are parameterised by; nothing is assumed of it
here.
-/

namespace Winkd
open UnicodeText

/-- WebCrypto and the byte library.  Operations that can reject return `none`
when they do. -/
structure Platform (β ω : Type) where
  /-- `bufToBase64`, and `base64ToBuf`, which `atob` may refuse. -/
  bufToBase64 : β → β
  base64ToBuf : β → Option β
  bufToHex : β → β
  hexToBuf : β → β
  /-- `new Uint8Array([...])`. -/
  bytes : List UInt8 → β
  concatBufs : List β → β
  slice : β → Nat → Nat → β
  /-- ECDH `deriveBits`, from a private JWK and a raw public key. -/
  deriveBits : β → β → Option β
  /-- HKDF-SHA-256 `deriveBits`: key material, salt, info, output bytes. -/
  hkdfBits : β → β → String → Nat → β
  /-- HMAC-SHA-256 `sign`: key, data. -/
  hmacSign : β → β → β
  /-- AES-GCM `encrypt`: key, iv, plaintext. -/
  aesEncrypt : β → β → List UInt8 → β
  /-- AES-GCM `decrypt`: key, iv, ciphertext. -/
  aesDecrypt : β → β → β → Option (List UInt8)
  /-- ECDSA `sign`: private JWK, data. -/
  ecdsaSign : β → β → β
  /-- ECDSA `verify`: raw public key, signature, data. -/
  ecdsaVerify : β → β → β → Option Bool
  /-- `btoa(JSON.stringify(payload))`. -/
  stringify : WireMessage β → ω
  /-- `JSON.parse(atob(ciphertext))`. -/
  parse : ω → Option (WireMessage β)

/-- A key pair as `exportKey` gives it: raw public key, private JWK. -/
structure ExportedKeyPair (β : Type) where
  raw : β
  jwk : β
  deriving DecidableEq

/-- `DHKeyPair`: base64 public key, private JWK. -/
structure DHKeyPair (β : Type) where
  publicKeyRaw : β
  privateKeyJwk : β
  deriving DecidableEq

namespace Platform
variable {β ω : Type} (P : Platform β ω)

/-- `generateDHKeyPair`, on the pair WebCrypto generated. -/
def toDHKeyPair (kp : ExportedKeyPair β) : DHKeyPair β :=
  { publicKeyRaw := P.bufToBase64 kp.raw, privateKeyJwk := kp.jwk }

/-- ECDH of a private JWK and a base64 public key. -/
def dh (privateKeyJwk publicKeyB64 : β) : Option β := do
  let raw ← P.base64ToBuf publicKeyB64
  P.deriveBits privateKeyJwk raw

/-- HKDF-SHA256: input key material → `outBytes` bytes. -/
def hkdf (ikm salt : β) (info : String) (outBytes : Nat) : β := P.hkdfBits ikm salt info outBytes

/-- `kdfRootKey`'s two results. -/
structure RootStep (β : Type) where
  newRootKey : β
  chainKey : β
  deriving DecidableEq

/-- Double Ratchet KDF_RK. -/
def kdfRootKey (rootKeyHex dhOutput : β) : RootStep β :=
  let out := P.hkdf dhOutput (P.hexToBuf rootKeyHex) "WinkdRatchetRK v1" 64
  { newRootKey := P.bufToHex (P.slice out 0 32), chainKey := P.bufToHex (P.slice out 32 64) }

/-- `kdfChainKey`'s two results. -/
structure ChainStep (β : Type) where
  messageKey : β
  nextChainKey : β
  deriving DecidableEq

/-- Double Ratchet KDF_CK. -/
def kdfChainKey (chainKeyHex : β) : ChainStep β :=
  let ck := P.hexToBuf chainKeyHex
  { messageKey := P.hmacSign ck (P.bytes [0x01])
    nextChainKey := P.bufToHex (P.hmacSign ck (P.bytes [0x02])) }

/-- `aesGcmEncrypt` under the random `iv`: base64 ciphertext and base64 iv. -/
def aesGcmEncrypt (keyBytes iv : β) (plaintext : List UInt8) : β × β :=
  (P.bufToBase64 (P.aesEncrypt (P.slice keyBytes 0 32) iv plaintext), P.bufToBase64 iv)

/-- `aesGcmDecrypt`; `none` when a text is no base64 or the tag does not verify. -/
def aesGcmDecrypt (keyBytes ciphertext iv : β) : Option (List UInt8) := do
  let ivBuf ← P.base64ToBuf iv
  let ct ← P.base64ToBuf ciphertext
  P.aesDecrypt (P.slice keyBytes 0 32) ivBuf ct

/-- The last step of both X3DH sides: `F ‖ DH1 ‖ DH2 ‖ DH3 [‖ DH4]` through HKDF. -/
def x3dhSecret (dh1 dh2 dh3 : β) (dh4 : Option β) : β :=
  let F := P.bytes (List.replicate 32 0xff)
  let dhInput := P.concatBufs [dh1, dh2, dh3]
  let dhInput := match dh4 with
    | none => dhInput
    | some d => P.concatBufs [dhInput, d]
  P.hkdf (P.concatBufs [F, dhInput]) (P.bytes (List.replicate 32 0)) "Winkd X3DH v1" 32

/-- X3DH, initiator side. -/
def x3dh (myIdentityPrivJwk myEphemeralPrivJwk theirIdentityPubB64 theirSignedPreKeyPubB64 : β)
    (theirOneTimePreKeyPubB64 : Option β) : Option β := do
  let dh1 ← P.dh myIdentityPrivJwk theirSignedPreKeyPubB64
  let dh2 ← P.dh myEphemeralPrivJwk theirIdentityPubB64
  let dh3 ← P.dh myEphemeralPrivJwk theirSignedPreKeyPubB64
  match theirOneTimePreKeyPubB64 with
  | none => pure (P.x3dhSecret dh1 dh2 dh3 none)
  | some opk => do
      let dh4 ← P.dh myEphemeralPrivJwk opk
      pure (P.x3dhSecret dh1 dh2 dh3 (some dh4))

/-- X3DH, responder side. -/
def x3dhRespond (myIdentityPrivJwk mySignedPreKeyPrivJwk : β)
    (myOneTimePreKeyPrivJwk : Option β) (theirIdentityPubB64 theirEphemeralPubB64 : β) :
    Option β := do
  let dh1 ← P.dh mySignedPreKeyPrivJwk theirIdentityPubB64
  let dh2 ← P.dh myIdentityPrivJwk theirEphemeralPubB64
  let dh3 ← P.dh mySignedPreKeyPrivJwk theirEphemeralPubB64
  match myOneTimePreKeyPrivJwk with
  | none => pure (P.x3dhSecret dh1 dh2 dh3 none)
  | some opk => do
      let dh4 ← P.dh opk theirEphemeralPubB64
      pure (P.x3dhSecret dh1 dh2 dh3 (some dh4))

/-- Sign a pre-key's public key with the identity key. -/
def signPreKey (identityPrivateJwk preKeyPublicB64 : β) : Option β := do
  let data ← P.base64ToBuf preKeyPublicB64
  pure (P.bufToBase64 (P.ecdsaSign identityPrivateJwk data))

/-- Verify a pre-key signature; `false` on any failure. -/
def verifyPreKey (identityPublicB64 preKeyPublicB64 signatureB64 : β) : Bool :=
  (do
    let key ← P.base64ToBuf identityPublicB64
    let signature ← P.base64ToBuf signatureB64
    let data ← P.base64ToBuf preKeyPublicB64
    P.ecdsaVerify key signature data).getD false

end Platform

/-! ## What the claims about runs rely on

These are the documented properties of the platform; a result that needs one
takes it as a hypothesis. -/

/-- The byte encodings and the wire form are read back as they were written, and
AES-GCM decryption undoes encryption under the same key and iv. -/
structure Platform.RoundTrips {β ω : Type} (P : Platform β ω) : Prop where
  base64 : ∀ b, P.base64ToBuf (P.bufToBase64 b) = some b
  hex : ∀ b, P.hexToBuf (P.bufToHex b) = b
  aes : ∀ key iv p, P.aesDecrypt key iv (P.aesEncrypt key iv p) = some p
  wire : ∀ m, P.parse (P.stringify m) = some m

/-- Key agreement between the pairs `pair` holds of: ECDH succeeds, and both
sides compute the same secret. -/
def Platform.Agrees {β ω : Type} (P : Platform β ω) (pair : DHKeyPair β → Prop) : Prop :=
  ∀ a b, pair a → pair b → ∃ z,
    P.dh a.privateKeyJwk b.publicKeyRaw = some z ∧ P.dh b.privateKeyJwk a.publicKeyRaw = some z

theorem Platform.RoundTrips.aesGcm {β ω : Type} {P : Platform β ω} (hP : P.RoundTrips)
    (key iv : β) (p : List UInt8) :
    P.aesGcmDecrypt key (P.aesGcmEncrypt key iv p).1 (P.aesGcmEncrypt key iv p).2 = some p := by
  simp [Platform.aesGcmDecrypt, Platform.aesGcmEncrypt, hP.base64, hP.aes]

/-- Ideal primitives, for the key pairs `pair` holds of: round trips, agreement,
and signatures that verify. -/
structure Platform.Ideal {β ω : Type} (P : Platform β ω) (pair : DHKeyPair β → Prop) : Prop where
  roundTrips : P.RoundTrips
  agrees : P.Agrees pair
  verifies : ∀ kp data signature, pair kp → P.signPreKey kp.privateKeyJwk data = some signature →
    P.verifyPreKey kp.publicKeyRaw data signature = true

/-- **Both sides of X3DH compute the same secret.** -/
theorem Platform.Agrees.x3dh {β ω : Type} {P : Platform β ω} {pair : DHKeyPair β → Prop}
    (hP : P.Agrees pair) {myIdentity ek theirIdentity spk : DHKeyPair β}
    {opk : Option (DHKeyPair β)} (h1 : pair myIdentity) (h2 : pair ek) (h3 : pair theirIdentity)
    (h4 : pair spk) (h5 : ∀ k, opk = some k → pair k) :
    ∃ SK, P.x3dh myIdentity.privateKeyJwk ek.privateKeyJwk theirIdentity.publicKeyRaw
        spk.publicKeyRaw (opk.map DHKeyPair.publicKeyRaw) = some SK ∧
      P.x3dhRespond theirIdentity.privateKeyJwk spk.privateKeyJwk
        (opk.map DHKeyPair.privateKeyJwk) myIdentity.publicKeyRaw ek.publicKeyRaw = some SK := by
  obtain ⟨z1, hz1, hz1'⟩ := hP myIdentity spk h1 h4
  obtain ⟨z2, hz2, hz2'⟩ := hP ek theirIdentity h2 h3
  obtain ⟨z3, hz3, hz3'⟩ := hP ek spk h2 h4
  cases opk with
  | none =>
    exact ⟨P.x3dhSecret z1 z2 z3 none, by simp [Platform.x3dh, hz1, hz2, hz3],
      by simp [Platform.x3dhRespond, hz1', hz2', hz3']⟩
  | some k =>
    obtain ⟨z4, hz4, hz4'⟩ := hP ek k h2 (h5 k rfl)
    exact ⟨P.x3dhSecret z1 z2 z3 (some z4), by simp [Platform.x3dh, hz1, hz2, hz3, hz4],
      by simp [Platform.x3dhRespond, hz1', hz2', hz3', hz4']⟩

end Winkd
