import Winkd.KeyStore

/-!
# The session manager

`SignalSessionManager` of `encryption/session.ts`: X3DH as initiator and
responder, and the Double Ratchet's encryption and decryption.  Every method is
a `Call`: store accesses and random draws are its requests, in the order the
source makes them, and everything between two of them is local to the call.
-/

namespace Winkd
open UnicodeText Js

/-- Most message keys one call may skip in a chain. -/
def MAX_SKIP : Int := 500

namespace SignalSessionManager
variable {β ω : Type} [DecidableEq β] (P : Platform β ω)

/-! ## Requests, under the source's names -/

def getIdentityKeyPair : Call β (Option (IdentityKeyPair β)) :=
  Prog.ask Request.getIdentityKeyPair
def getLocalRegistrationId : Call β (Option Int) := Prog.ask Request.getLocalRegistrationId
def loadPreKey (id : Int) : Call β (Option (PreKey β)) := Prog.ask (Request.loadPreKey id)
def removePreKey (id : Int) : Call β Unit := Prog.ask (Request.removePreKey id)
def loadSignedPreKey (id : Int) : Call β (Option (SignedPreKey β)) :=
  Prog.ask (Request.loadSignedPreKey id)
def loadSession (peerId : String) : Call β (Option (RatchetSession β)) :=
  Prog.ask (Request.loadSession peerId)
def storeSession (peerId : String) (session : RatchetSession β) : Call β Unit :=
  Prog.ask (Request.storeSession peerId session)
def getRandomValues : Call β β := Prog.ask Request.getRandomValues

def generateDHKeyPair : Call β (DHKeyPair β) := do
  let kp ← (Prog.ask Request.generateKey : Call β (ExportedKeyPair β))
  pure (P.toDHKeyPair kp)

/-- `dh`, which throws when a key cannot be imported. -/
def dh (privateKeyJwk publicKeyB64 : β) : Call β β :=
  Prog.ofOption .dataError (P.dh privateKeyJwk publicKeyB64)

/-! ## Initiator setup -/

/-- The session an initiator starts with. -/
def initiatorSession (idKP : IdentityKeyPair β) (ek ratchetKP : DHKeyPair β)
    (bundle : PreKeyBundle β) (keys : Platform.RootStep β) : RatchetSession β :=
  { rootKey := keys.newRootKey
    sendChainKey := some keys.chainKey
    recvChainKey := none
    sendCount := 0
    recvCount := .int 0
    prevSendCount := 0
    ourRatchetPublic := ratchetKP.publicKeyRaw
    ourRatchetPrivate := ratchetKP.privateKeyJwk
    theirRatchetPublic := some bundle.signedPreKey.publicKey
    skipped := ∅
    isInitiator := true
    pendingPreKeyMsg := some
      { identityKey := idKP.publicKey
        ephemeralKey := ek.publicKeyRaw
        spkId := bundle.signedPreKey.id
        opkId := bundle.oneTimePreKey.map PublicPreKey.id } }

/-- Start a session with a contact from its pre-key bundle. -/
def initSessionFromBundle (peerId : String) (bundle : PreKeyBundle β) : Call β Unit := do
  if P.verifyPreKey bundle.identityKey bundle.signedPreKey.publicKey
      bundle.signedPreKey.signature then
    match ← getIdentityKeyPair with
    | none =>
      Prog.throw (.error
        "[SignalSession] No local identity key — call generateIdentityKeyPair() first")
    | some idKP =>
      let ek ← generateDHKeyPair P
      let SK ← Prog.ofOption .dataError
        (P.x3dh idKP.privateKey ek.privateKeyJwk bundle.identityKey bundle.signedPreKey.publicKey
          (bundle.oneTimePreKey.map PublicPreKey.publicKey))
      let ratchetKP ← generateDHKeyPair P
      let dhOut ← dh P ratchetKP.privateKeyJwk bundle.signedPreKey.publicKey
      let keys := P.kdfRootKey (P.bufToHex SK) dhOut
      storeSession peerId (initiatorSession idKP ek ratchetKP bundle keys)
  else
    Prog.throw (.error s!"[SignalSession] Invalid signed pre-key signature from {peerId}")

/-! ## Encrypt -/

/-- Whether the next envelope carries the X3DH parameters, and which. -/
def preKeyInfo (session : RatchetSession β) : Option (PendingPreKeyMsg β) :=
  if session.isInitiator ∧ session.sendCount = 0 then session.pendingPreKeyMsg else none

/-- The header of the next envelope. -/
def nextHeader (session : RatchetSession β) : RatchetHeader β :=
  { rk := session.ourRatchetPublic, n := .int session.sendCount, pn := .int session.prevSendCount }

/-- The payload of the next envelope, around a ciphertext and its iv. -/
def wirePayload (session : RatchetSession β) (ct iv : β) : WireMessage β :=
  { h := some (nextHeader session)
    ct := ct
    iv := iv
    preKey := (preKeyInfo session).map fun pkInfo =>
      { ik := pkInfo.identityKey, ek := pkInfo.ephemeralKey, spkId := pkInfo.spkId,
        opkId := pkInfo.opkId } }

/-- The type of the next envelope. -/
def nextType (session : RatchetSession β) : EnvelopeType :=
  if (preKeyInfo session).isSome then .preKeySignalMessage else .signalMessage

/-- The session once one message has been sent on its sending chain. -/
def afterSend (session : RatchetSession β) (nextChainKey : β) : RatchetSession β :=
  { session with
    sendChainKey := some nextChainKey
    pendingPreKeyMsg :=
      if (preKeyInfo session).isSome then none else session.pendingPreKeyMsg
    sendCount := session.sendCount + 1 }

/-- Encrypt a plaintext for `peerId`. -/
def encrypt (peerId : String) (plaintext : CodeUnits) : Call β (EncryptedEnvelope ω) := do
  match ← loadSession peerId with
  | none =>
    Prog.throw (.error
      s!"[SignalSession] No session for {peerId} — call initSessionFromBundle() first")
  | some session =>
    let regId := (← getLocalRegistrationId).getD 0
    match session.sendChainKey with
    | none => Prog.throw (.error "[SignalSession] Session has no sending chain key")
    | some sendChainKey =>
      let keys := P.kdfChainKey sendChainKey
      let pt := textEncode plaintext
      let iv ← getRandomValues
      let (ciphertext, iv) := P.aesGcmEncrypt keys.messageKey iv pt
      storeSession peerId (afterSend session keys.nextChainKey)
      pure
        { type := nextType session
          ciphertext := P.stringify (wirePayload session ciphertext iv)
          registrationId := regId }

/-! ## Skipped message keys -/

/-- One pass of `skipMessageKeys`' loop, on the receiving chain of `their`. -/
def skipOne (their : β) (session : RatchetSession β) : RatchetSession β :=
  match session.recvChainKey with
  | none => session
  | some recvChainKey =>
    let keys := P.kdfChainKey recvChainKey
    { session with
      skipped :=
        session.skipped.insert (their, session.recvCount.toText) (P.bufToHex keys.messageKey)
      recvChainKey := some keys.nextChainKey
      recvCount := session.recvCount.increment }

/-- How many passes the loop of `skipMessageKeys` makes.  `target` is whatever the
header has: a text or an absent number passes the guard, and a loop may not end. -/
def skipPasses (recvCount : Primitive) (target : Value) : Except Failure ℕ :=
  match target.toPrimitive with
  | none => .error .typeError
  | some target =>
    if (recvCount.plus MAX_SKIP).lt target then
      .error (.error s!"[SignalSession] Too many skipped messages (max {MAX_SKIP})")
    else
      match recvCount.passes target with
      | none => .error .endless
      | some passes => .ok passes

/-- Advance the receiving chain up to (but not including) `target`, saving each
skipped message key.  Every pass of the loop increments `recvCount`. -/
def skipMessageKeys (session : RatchetSession β) (target : Value) :
    Except Failure (RatchetSession β) :=
  match session.recvChainKey, session.theirRatchetPublic with
  | some _, some their =>
    match skipPasses session.recvCount target with
    | .error e => .error e
    | .ok passes => .ok ((skipOne P their)^[passes] session)
  | _, _ => .ok session

/-! ## Responder setup -/

/-- The session a responder starts with. -/
def responderSession (rk : β) (keys1 keys2 : Platform.RootStep β) (bobRatchetKP : DHKeyPair β) :
    RatchetSession β :=
  { rootKey := keys2.newRootKey
    sendChainKey := some keys2.chainKey
    recvChainKey := some keys1.chainKey
    sendCount := 0
    recvCount := .int 0
    prevSendCount := 0
    ourRatchetPublic := bobRatchetKP.publicKeyRaw
    ourRatchetPrivate := bobRatchetKP.privateKeyJwk
    theirRatchetPublic := some rk
    skipped := ∅
    isInitiator := false
    pendingPreKeyMsg := none }

/-- Load the one-time pre-key a type-1 envelope names, and consume it. -/
def consumePreKey (opkId : Option Int) : Call β (Option β) :=
  match opkId with
  | none => pure none
  | some id => do
    match ← loadPreKey id with
    | none => pure none
    | some opk =>
      removePreKey id
      pure (some opk.privateKey)

/-- Initialise the session from a received type-1 message, and store it. -/
def initSessionFromPreKey (peerId : String) (msg : WireMessage β) : Call β (RatchetSession β) := do
  match ← getIdentityKeyPair with
  | none => Prog.throw (.error "[SignalSession] No local identity key")
  | some idKP =>
    let params ← Prog.ofOption .dataError msg.preKey
    match ← loadSignedPreKey params.spkId with
    | none =>
      Prog.throw (.error
        ("[SignalSession] Signed pre-key " ++ toString params.spkId ++ " not found"))
    | some spk =>
      let opkPrivate ← consumePreKey params.opkId
      let SK ← Prog.ofOption .dataError
        (P.x3dhRespond idKP.privateKey spk.privateKey opkPrivate params.ik params.ek)
      let h ← Prog.ofOption .typeError msg.h
      let dhOut1 ← dh P spk.privateKey h.rk
      let keys1 := P.kdfRootKey (P.bufToHex SK) dhOut1
      let bobRatchetKP ← generateDHKeyPair P
      let dhOut2 ← dh P bobRatchetKP.privateKeyJwk h.rk
      let keys2 := P.kdfRootKey keys1.newRootKey dhOut2
      let session := responderSession h.rk keys1 keys2 bobRatchetKP
      storeSession peerId session
      pure session

/-! ## Decrypt -/

/-- The session after a DH ratchet step to `theirRatchetKey`. -/
def ratchetedSession (session : RatchetSession β) (theirRatchetKey : β)
    (step1 step2 : Platform.RootStep β) (newKP : DHKeyPair β) : RatchetSession β :=
  { session with
    rootKey := step2.newRootKey
    sendChainKey := some step2.chainKey
    recvChainKey := some step1.chainKey
    sendCount := 0
    recvCount := .int 0
    prevSendCount := session.sendCount
    ourRatchetPublic := newKP.publicKeyRaw
    ourRatchetPrivate := newKP.privateKeyJwk
    theirRatchetPublic := some theirRatchetKey }

/-- The DH ratchet step, when the peer's ratchet key changed. -/
def dhRatchet (session : RatchetSession β) (theirRatchetKey : β) (prevCount : Value) :
    Call β (RatchetSession β) := do
  -- Save skipped keys from the tail of the previous receiving chain.
  let session ← Prog.ofExcept (skipMessageKeys P session prevCount)
  let dhOut1 ← dh P session.ourRatchetPrivate theirRatchetKey
  let step1 := P.kdfRootKey session.rootKey dhOut1
  let newKP ← generateDHKeyPair P
  let dhOut2 ← dh P newKP.privateKeyJwk theirRatchetKey
  let step2 := P.kdfRootKey step1.newRootKey dhOut2
  pure (ratchetedSession session theirRatchetKey step1 step2 newKP)

/-- Take the message key for `(theirRatchetKey, msgNum)`: a saved one, or the
next one of the receiving chain. -/
def retrieveMessageKey (session : RatchetSession β) (theirRatchetKey : β) (msgNum : Value) :
    Except Failure (β × RatchetSession β) :=
  match msgNum.toPrimitive with
  | none => .error .typeError
  | some number =>
    match session.skipped.lookup (theirRatchetKey, number.toText) with
    | some saved =>
      .ok (P.hexToBuf saved,
        { session with skipped := session.skipped.erase (theirRatchetKey, number.toText) })
    | none =>
      match skipMessageKeys P session msgNum with
      | .error e => .error e
      | .ok session =>
        match session.recvChainKey with
        | none => .error (.error "[SignalSession] No receiving chain key")
        | some recvChainKey =>
          let keys := P.kdfChainKey recvChainKey
          .ok (keys.messageKey,
            { session with recvChainKey := some keys.nextChainKey, recvCount := number.plus 1 })

/-- `decrypt` from its session on: the message key, and the session to store. -/
def receive (session : RatchetSession β) (h : RatchetHeader β) :
    Call β (β × RatchetSession β) := do
  let session ←
    if session.theirRatchetPublic ≠ some h.rk then dhRatchet P session h.rk h.pn
    else pure session
  Prog.ofExcept (retrieveMessageKey P session h.rk h.n)

/-- `decrypt` up to its `storeSession`: the message key, and the message it is
to open. -/
def decryptKey (peerId : String) (envelope : EncryptedEnvelope ω) :
    Call β (β × WireMessage β) := do
  let msg ← Prog.ofOption .syntaxError (P.parse envelope.ciphertext)
  let session ← match envelope.type with
    | .preKeySignalMessage => initSessionFromPreKey P peerId msg
    | .signalMessage => do
      match ← loadSession peerId with
      | none => Prog.throw (.error s!"[SignalSession] No session for {peerId}")
      | some session => pure session
  let h ← Prog.ofOption .typeError msg.h
  let (messageKey, session) ← receive P session h
  storeSession peerId session
  pure (messageKey, msg)

/-- Decrypt an envelope from `peerId`. -/
def decrypt (peerId : String) (envelope : EncryptedEnvelope ω) : Call β CodeUnits := do
  let (messageKey, msg) ← decryptKey P peerId envelope
  let pt ← Prog.ofOption .operationError (P.aesGcmDecrypt messageKey msg.ct msg.iv)
  pure (textDecode pt)

end SignalSessionManager
end Winkd
