import Winkd.Session
import Winkd.KeyChain

/-!
# What each call does

Every method of the session manager, run on its own, as a function of the store
and of the random values it draws.  Later modules read the behaviour of a call
off these equations and of `DecryptEffect`, which lists what `decrypt` can do to
the store; none of them unfolds a method again.
-/

namespace Winkd
open UnicodeText
namespace SignalSessionManager
variable {β ω : Type} [DecidableEq β] (P : Platform β ω) (E : Entropy β)

/-- The key pair the next `generateDHKeyPair` returns. -/
def nextPair (w : World β) : DHKeyPair β := P.toDHKeyPair (E.key w.keysDrawn)

/-! ## Encrypt -/

/-- The envelope `encrypt` makes of `session`, whose sending chain key is
`sendChainKey`. -/
def envelopeOf (session : RatchetSession β) (sendChainKey iv : β) (plaintext : CodeUnits)
    (regId : Option Int) : EncryptedEnvelope ω :=
  let sealed := P.aesGcmEncrypt (P.kdfChainKey sendChainKey).messageKey iv (textEncode plaintext)
  { type := nextType session
    ciphertext := P.stringify (wirePayload session sealed.1 sealed.2)
    registrationId := regId.getD 0 }

omit [DecidableEq β] in
/-- `encrypt` on a session that can send. -/
theorem run_encrypt {peerId : String} (plaintext : CodeUnits) {w : World β}
    {session : RatchetSession β} {ck : β} (hs : w.store.sessions peerId = some session)
    (hck : session.sendChainKey = some ck) :
    (encrypt P peerId plaintext).run (serve E) w =
      (.ok (envelopeOf P session ck (E.iv w.ivsDrawn) plaintext w.store.registrationId),
        { store := w.store.storeSession peerId (afterSend session (P.kdfChainKey ck).nextChainKey)
          keysDrawn := w.keysDrawn
          ivsDrawn := w.ivsDrawn + 1 }) := by
  simp [encrypt, Prog.run_bind, loadSession, serve, hs, getLocalRegistrationId, hck,
    getRandomValues, storeSession, envelopeOf]

omit [DecidableEq β] in
/-- `encrypt` either throws and leaves the world as it was, or sends from a
stored session. -/
theorem run_encrypt_cases (peerId : String) (plaintext : CodeUnits) (w : World β) :
    (∃ e, (encrypt P peerId plaintext).run (serve E) w = (.error e, w)) ∨
      ∃ session ck, w.store.sessions peerId = some session ∧ session.sendChainKey = some ck := by
  cases hs : w.store.sessions peerId with
  | none => exact .inl ⟨_, by simp [encrypt, Prog.run_bind, loadSession, serve, hs]; rfl⟩
  | some session =>
    cases hck : session.sendChainKey with
    | none =>
      exact .inl ⟨_, by
        simp [encrypt, Prog.run_bind, loadSession, serve, hs, getLocalRegistrationId, hck]; rfl⟩
    | some ck => exact .inr ⟨session, ck, rfl, hck⟩

/-! ## The DH ratchet and the message key -/

/-- `dhRatchet`, given the key pair it generates. -/
def dhRatchetWith (newKP : DHKeyPair β) (session : RatchetSession β) (theirRatchetKey : β)
    (prevCount : Js.Value) : Except Failure (RatchetSession β) :=
  match skipMessageKeys P session prevCount with
  | .error e => .error e
  | .ok session =>
    match P.dh session.ourRatchetPrivate theirRatchetKey with
    | none => .error .dataError
    | some dhOut1 =>
      match P.dh newKP.privateKeyJwk theirRatchetKey with
      | none => .error .dataError
      | some dhOut2 =>
        let step1 := P.kdfRootKey session.rootKey dhOut1
        .ok (ratchetedSession session theirRatchetKey step1
          (P.kdfRootKey step1.newRootKey dhOut2) newKP)

/-- How many key pairs `dhRatchet` draws: none when it throws before. -/
def dhRatchetDraws (session : RatchetSession β) (theirRatchetKey : β) (prevCount : Js.Value) : ℕ :=
  match skipMessageKeys P session prevCount with
  | .error _ => 0
  | .ok session => if (P.dh session.ourRatchetPrivate theirRatchetKey).isSome then 1 else 0

theorem run_dhRatchet (session : RatchetSession β) (rk : β) (pn : Js.Value) (w : World β) :
    (dhRatchet P session rk pn).run (serve E) w =
      (dhRatchetWith P (nextPair P E w) session rk pn,
        { w with keysDrawn := w.keysDrawn + dhRatchetDraws P session rk pn }) := by
  simp only [dhRatchet, dhRatchetWith, dhRatchetDraws, Prog.run_bind, dh, generateDHKeyPair,
    Prog.run_ask, Prog.run_pure]
  cases skipMessageKeys P session pn with
  | error e => rfl
  | ok session =>
    simp only [Prog.run_ofExcept_ok]
    cases P.dh session.ourRatchetPrivate rk with
    | none => rfl
    | some d1 =>
      simp only [Prog.run_ofOption_some, serve, nextPair]
      cases P.dh (P.toDHKeyPair (E.key w.keysDrawn)).privateKeyJwk rk <;> rfl

/-- `receive`, given the key pair it would generate. -/
def receiveWith (newKP : DHKeyPair β) (session : RatchetSession β) (h : RatchetHeader β) :
    Except Failure (β × RatchetSession β) :=
  if session.theirRatchetPublic ≠ some h.rk then
    match dhRatchetWith P newKP session h.rk h.pn with
    | .error e => .error e
    | .ok session => retrieveMessageKey P session h.rk h.n
  else retrieveMessageKey P session h.rk h.n

/-- How many key pairs `receive` draws. -/
def receiveDraws (session : RatchetSession β) (h : RatchetHeader β) : ℕ :=
  if session.theirRatchetPublic ≠ some h.rk then dhRatchetDraws P session h.rk h.pn else 0

theorem run_receive (session : RatchetSession β) (h : RatchetHeader β) (w : World β) :
    (receive P session h).run (serve E) w =
      (receiveWith P (nextPair P E w) session h,
        { w with keysDrawn := w.keysDrawn + receiveDraws P session h }) := by
  rw [receive, receiveWith, receiveDraws]
  split
  · rw [Prog.run_bind, run_dhRatchet]
    cases dhRatchetWith P (nextPair P E w) session h.rk h.pn with
    | error e => rfl
    | ok session => cases hr : retrieveMessageKey P session h.rk h.n <;> simp [hr]
  · cases hr : retrieveMessageKey P session h.rk h.n <;> simp [Prog.run_bind, hr]

/-! ## The responder's handshake -/

/-- The private key of the one-time pre-key a type-1 envelope names, if it is
still there. -/
def opkPrivate (store : KeyStore β) (opkId : Option Int) : Option β :=
  opkId.bind fun id => (store.preKeys id).map PreKey.privateKey

/-- The store once that pre-key is consumed. -/
def dropPreKey (store : KeyStore β) (opkId : Option Int) : KeyStore β :=
  match opkId with
  | none => store
  | some id => if (store.preKeys id).isSome then store.removePreKey id else store

omit [DecidableEq β] in
theorem run_consumePreKey (opkId : Option Int) (w : World β) :
    (consumePreKey opkId).run (serve E) w =
      (.ok (opkPrivate w.store opkId), { w with store := dropPreKey w.store opkId }) := by
  cases opkId with
  | none => rfl
  | some id =>
    cases hk : w.store.preKeys id <;>
      simp [consumePreKey, Prog.run_bind, loadPreKey, removePreKey, serve, opkPrivate,
        dropPreKey, hk]

/-- The identity key, the X3DH parameters and the signed pre-key a type-1
message is answered with. -/
def handshakeKeys (store : KeyStore β) (msg : WireMessage β) :
    Except Failure (IdentityKeyPair β × PreKeyParams β × SignedPreKey β) :=
  match store.identity with
  | none => .error (.error "[SignalSession] No local identity key")
  | some idKP =>
    match msg.preKey with
    | none => .error .dataError
    | some params =>
      match store.signedPreKeys params.spkId with
      | none => .error (.error
          ("[SignalSession] Signed pre-key " ++ toString params.spkId ++ " not found"))
      | some spk => .ok (idKP, params, spk)

/-- The shared secret, and the first root step, the responder computes. -/
def handshakeStep (store : KeyStore β) (msg : WireMessage β) (idKP : IdentityKeyPair β)
    (params : PreKeyParams β) (spk : SignedPreKey β) :
    Except Failure (RatchetHeader β × Platform.RootStep β) :=
  match P.x3dhRespond idKP.privateKey spk.privateKey (opkPrivate store params.opkId) params.ik
      params.ek with
  | none => .error .dataError
  | some SK =>
    match msg.h with
    | none => .error .typeError
    | some h =>
      match P.dh spk.privateKey h.rk with
      | none => .error .dataError
      | some dhOut1 => .ok (h, P.kdfRootKey (P.bufToHex SK) dhOut1)

/-- `initSessionFromPreKey`, given the key pair it generates. -/
def respondWith (bobKP : DHKeyPair β) (store : KeyStore β) (msg : WireMessage β) :
    Except Failure (RatchetSession β) :=
  match handshakeKeys store msg with
  | .error e => .error e
  | .ok (idKP, params, spk) =>
    match handshakeStep P store msg idKP params spk with
    | .error e => .error e
    | .ok (h, keys1) =>
      match P.dh bobKP.privateKeyJwk h.rk with
      | none => .error .dataError
      | some dhOut2 =>
        .ok (responderSession h.rk keys1 (P.kdfRootKey keys1.newRootKey dhOut2) bobKP)

/-- The store once `initSessionFromPreKey` has consumed the one-time pre-key. -/
def respondStore (store : KeyStore β) (msg : WireMessage β) : KeyStore β :=
  match handshakeKeys store msg with
  | .error _ => store
  | .ok (_, params, _) => dropPreKey store params.opkId

/-- How many key pairs `initSessionFromPreKey` draws. -/
def respondDraws (store : KeyStore β) (msg : WireMessage β) : ℕ :=
  match handshakeKeys store msg with
  | .error _ => 0
  | .ok (idKP, params, spk) =>
    match handshakeStep P store msg idKP params spk with
    | .error _ => 0
    | .ok _ => 1

omit [DecidableEq β] in
theorem run_initSessionFromPreKey (peerId : String) (msg : WireMessage β) (w : World β) :
    (initSessionFromPreKey P peerId msg).run (serve E) w =
      (respondWith P (nextPair P E w) w.store msg,
        { store := match respondWith P (nextPair P E w) w.store msg with
            | .error _ => respondStore w.store msg
            | .ok session => (respondStore w.store msg).storeSession peerId session
          keysDrawn := w.keysDrawn + respondDraws P w.store msg
          ivsDrawn := w.ivsDrawn }) := by
  simp only [initSessionFromPreKey, respondWith, respondStore, respondDraws, handshakeKeys,
    Prog.run_bind, getIdentityKeyPair, Prog.run_ask, serve]
  cases w.store.identity with
  | none => rfl
  | some idKP =>
    cases msg.preKey with
    | none => rfl
    | some params =>
      simp only [Prog.run_bind, Prog.run_ofOption_some, loadSignedPreKey, Prog.run_ask, serve]
      cases w.store.signedPreKeys params.spkId with
      | none => rfl
      | some spk =>
        simp only [Prog.run_bind, run_consumePreKey, handshakeStep]
        cases P.x3dhRespond idKP.privateKey spk.privateKey (opkPrivate w.store params.opkId)
            params.ik params.ek with
        | none => rfl
        | some SK =>
          cases msg.h with
          | none => rfl
          | some h =>
            simp only [Prog.run_ofOption_some, dh]
            cases P.dh spk.privateKey h.rk with
            | none => rfl
            | some d1 =>
              simp only [Prog.run_bind, Prog.run_ofOption_some, generateDHKeyPair, Prog.run_ask,
                Prog.run_pure, serve, nextPair]
              cases P.dh (P.toDHKeyPair (E.key w.keysDrawn)).privateKeyJwk h.rk <;> rfl

/-! ## Decrypt -/

/-- The header of an envelope's payload. -/
def headerOf (envelope : EncryptedEnvelope ω) : Option (RatchetHeader β) :=
  (P.parse envelope.ciphertext).bind WireMessage.h

omit [DecidableEq β] in
theorem headerOf_eq {envelope : EncryptedEnvelope ω} {msg : WireMessage β} {h : RatchetHeader β}
    (hparse : P.parse envelope.ciphertext = some msg) (hh : msg.h = some h) :
    headerOf P envelope = some h := by
  rw [headerOf, hparse, Option.bind_some, hh]

/-- **What `decryptKey` can do** — everything `decrypt` does except opening the
ciphertext: its result, and the store it leaves.  `kp` is the key pair the call
generates, if it generates one. -/
inductive DecryptEffect (peerId : String) (envelope : EncryptedEnvelope ω) (kp : DHKeyPair β)
    (store : KeyStore β) : Except Failure (β × WireMessage β) → KeyStore β → Prop where
  /-- It throws before it writes anything. -/
  | refused (e : Failure) : DecryptEffect peerId envelope kp store (.error e) store
  /-- A type-2 envelope: the stored session is replaced. -/
  | received {msg : WireMessage β} {h : RatchetHeader β} {session session' : RatchetSession β}
      {mk : β} (type : envelope.type = .signalMessage)
      (parsed : P.parse envelope.ciphertext = some msg) (header : msg.h = some h)
      (loaded : store.sessions peerId = some session)
      (received : receiveWith P kp session h = .ok (mk, session')) :
      DecryptEffect peerId envelope kp store (.ok (mk, msg)) (store.storeSession peerId session')
  /-- A type-1 envelope whose handshake fails after the pre-key was consumed. -/
  | consumed {msg : WireMessage β} (e : Failure) (type : envelope.type = .preKeySignalMessage)
      (parsed : P.parse envelope.ciphertext = some msg)
      (failed : respondWith P kp store msg = .error e) :
      DecryptEffect peerId envelope kp store (.error e) (respondStore store msg)
  /-- A type-1 envelope whose session is stored, and whose message key is not
  found. -/
  | created {msg : WireMessage β} {h : RatchetHeader β} {session : RatchetSession β}
      (e : Failure) (type : envelope.type = .preKeySignalMessage)
      (parsed : P.parse envelope.ciphertext = some msg) (header : msg.h = some h)
      (responded : respondWith P kp store msg = .ok session)
      (failed : receiveWith P kp session h = .error e) :
      DecryptEffect peerId envelope kp store (.error e)
        ((respondStore store msg).storeSession peerId session)
  /-- A type-1 envelope: a new session is stored, and then stored again. -/
  | established {msg : WireMessage β} {h : RatchetHeader β}
      {session session' : RatchetSession β} {mk : β}
      (type : envelope.type = .preKeySignalMessage)
      (parsed : P.parse envelope.ciphertext = some msg) (header : msg.h = some h)
      (responded : respondWith P kp store msg = .ok session)
      (received : receiveWith P kp session h = .ok (mk, session')) :
      DecryptEffect peerId envelope kp store (.ok (mk, msg))
        ((respondStore store msg).storeSession peerId session')

omit [DecidableEq β] in
/-- A handshake that succeeds saw a header, and made the session for it. -/
theorem respondWith_ok {kp : DHKeyPair β} {store : KeyStore β} {msg : WireMessage β}
    {session : RatchetSession β} (hok : respondWith P kp store msg = .ok session) :
    ∃ idKP params spk SK h dhOut1 dhOut2,
      store.identity = some idKP ∧ msg.preKey = some params ∧
      store.signedPreKeys params.spkId = some spk ∧
      P.x3dhRespond idKP.privateKey spk.privateKey (opkPrivate store params.opkId) params.ik
        params.ek = some SK ∧
      msg.h = some h ∧ P.dh spk.privateKey h.rk = some dhOut1 ∧
      P.dh kp.privateKeyJwk h.rk = some dhOut2 ∧
      session = responderSession h.rk (P.kdfRootKey (P.bufToHex SK) dhOut1)
        (P.kdfRootKey (P.kdfRootKey (P.bufToHex SK) dhOut1).newRootKey dhOut2) kp := by
  simp only [respondWith, handshakeKeys, handshakeStep] at hok
  cases hid : store.identity with
  | none => simp [hid] at hok
  | some idKP =>
    cases hpk : msg.preKey with
    | none => simp [hid, hpk] at hok
    | some params =>
      cases hspk : store.signedPreKeys params.spkId with
      | none => simp [hid, hpk, hspk] at hok
      | some spk =>
        simp only [hid, hpk, hspk] at hok
        cases hx : P.x3dhRespond idKP.privateKey spk.privateKey (opkPrivate store params.opkId)
            params.ik params.ek with
        | none => simp [hx] at hok
        | some SK =>
          cases hh : msg.h with
          | none => simp [hx, hh] at hok
          | some h =>
            cases hd1 : P.dh spk.privateKey h.rk with
            | none => simp [hx, hh, hd1] at hok
            | some d1 =>
              cases hd2 : P.dh kp.privateKeyJwk h.rk with
              | none => simp [hx, hh, hd1, hd2] at hok
              | some d2 =>
                simp only [hx, hh, hd1, hd2, Except.ok.injEq] at hok
                exact ⟨idKP, params, spk, SK, h, d1, d2, rfl, rfl, hspk, hx, rfl, hd1, hd2,
                  hok.symm⟩

omit [DecidableEq β] in
/-- A handshake for which everything is there. -/
theorem respondWith_eq {kp : DHKeyPair β} {store : KeyStore β} {msg : WireMessage β}
    {idKP : IdentityKeyPair β} {spk : SignedPreKey β} {params : PreKeyParams β}
    {h : RatchetHeader β} {SK z z₂ : β} (hid : store.identity = some idKP)
    (hpk : msg.preKey = some params) (hspk : store.signedPreKeys params.spkId = some spk)
    (hx : P.x3dhRespond idKP.privateKey spk.privateKey (opkPrivate store params.opkId) params.ik
      params.ek = some SK)
    (hh : msg.h = some h) (hz : P.dh spk.privateKey h.rk = some z)
    (hz₂ : P.dh kp.privateKeyJwk h.rk = some z₂) :
    respondWith P kp store msg =
      .ok (responderSession h.rk (P.kdfRootKey (P.bufToHex SK) z)
        (P.kdfRootKey (P.kdfRootKey (P.bufToHex SK) z).newRootKey z₂) kp) := by
  simp only [respondWith, handshakeKeys, hid, hpk, hspk, handshakeStep, hx, hh, hz, hz₂]

omit [DecidableEq β] in
/-- A responder's session is receiving from the header's ratchet key. -/
theorem respondWith_their {kp : DHKeyPair β} {store : KeyStore β} {msg : WireMessage β}
    {h : RatchetHeader β} {session : RatchetSession β} (hh : msg.h = some h)
    (hok : respondWith P kp store msg = .ok session) : session.theirRatchetPublic = some h.rk := by
  obtain ⟨_, _, _, _, h', _, _, _, _, _, _, hh', _, _, rfl⟩ := respondWith_ok P hok
  rw [hh] at hh'
  cases hh'
  rfl

omit [DecidableEq β] in
/-- Consuming a pre-key leaves the sessions alone. -/
@[simp] theorem respondStore_sessions (store : KeyStore β) (msg : WireMessage β) :
    (respondStore store msg).sessions = store.sessions := by
  unfold respondStore
  split
  · rfl
  · unfold dropPreKey
    split
    · rfl
    · split <;> rfl

theorem receiveWith_of_eq {kp : DHKeyPair β} {session : RatchetSession β} {h : RatchetHeader β}
    (heq : session.theirRatchetPublic = some h.rk) :
    receiveWith P kp session h = retrieveMessageKey P session h.rk h.n := by
  rw [receiveWith, if_neg (fun hne => hne heq)]

theorem receiveDraws_le (session : RatchetSession β) (h : RatchetHeader β) :
    receiveDraws P session h ≤ 1 := by
  unfold receiveDraws dhRatchetDraws
  split
  · cases skipMessageKeys P session h.pn with
    | error e => exact Nat.zero_le _
    | ok s => dsimp only; split <;> omega
  · exact Nat.zero_le _

omit [DecidableEq β] in
theorem respondDraws_le (store : KeyStore β) (msg : WireMessage β) :
    respondDraws P store msg ≤ 1 := by
  unfold respondDraws
  split
  · exact Nat.zero_le _
  · split
    · exact Nat.zero_le _
    · exact Nat.le_refl _

/-- `decryptKey` on a type-2 envelope for a stored session. -/
theorem run_decryptKey_signal {peerId : String} {envelope : EncryptedEnvelope ω} {w : World β}
    {msg : WireMessage β} {h : RatchetHeader β} {session : RatchetSession β}
    (htype : envelope.type = .signalMessage) (hparse : P.parse envelope.ciphertext = some msg)
    (hh : msg.h = some h) (hs : w.store.sessions peerId = some session) :
    (decryptKey P peerId envelope).run (serve E) w =
      match receiveWith P (nextPair P E w) session h with
      | .error e => (.error e, { w with keysDrawn := w.keysDrawn + receiveDraws P session h })
      | .ok (mk, session') =>
        (.ok (mk, msg),
          { store := w.store.storeSession peerId session'
            keysDrawn := w.keysDrawn + receiveDraws P session h
            ivsDrawn := w.ivsDrawn }) := by
  rw [decryptKey, hparse, htype]
  simp only [Prog.run_bind, Prog.run_ofOption_some, loadSession, Prog.run_ask, serve, hs,
    Prog.run_pure, hh, run_receive]
  cases receiveWith P (nextPair P E w) session h <;> rfl

/-- `decryptKey` on a type-1 envelope whose handshake succeeds. -/
theorem run_decryptKey_preKey {peerId : String} {envelope : EncryptedEnvelope ω} {w : World β}
    {msg : WireMessage β} {h : RatchetHeader β} {session : RatchetSession β}
    (htype : envelope.type = .preKeySignalMessage)
    (hparse : P.parse envelope.ciphertext = some msg) (hh : msg.h = some h)
    (hs : respondWith P (nextPair P E w) w.store msg = .ok session) :
    (decryptKey P peerId envelope).run (serve E) w =
      match receiveWith P (nextPair P E w) session h with
      | .error e =>
        (.error e,
          { store := (respondStore w.store msg).storeSession peerId session
            keysDrawn := w.keysDrawn + respondDraws P w.store msg
            ivsDrawn := w.ivsDrawn })
      | .ok (mk, session') =>
        (.ok (mk, msg),
          { store := (respondStore w.store msg).storeSession peerId session'
            keysDrawn := w.keysDrawn + respondDraws P w.store msg
            ivsDrawn := w.ivsDrawn }) := by
  have htheir := respondWith_their P hh hs
  rw [decryptKey, hparse, htype]
  simp only [Prog.run_bind, Prog.run_ofOption_some, run_initSessionFromPreKey, hs, hh,
    run_receive, receiveWith_of_eq P htheir]
  have hd : receiveDraws P session h = 0 := by
    rw [receiveDraws, if_neg (fun hne => hne htheir)]
  rw [hd]
  cases retrieveMessageKey P session h.rk h.n with
  | error e => rfl
  | ok r => simp [storeSession, serve]

/-- **`decryptKey`, run on its own, does one of these things**; it draws at most
one key pair, and no iv. -/
theorem run_decryptKey (peerId : String) (envelope : EncryptedEnvelope ω) (w : World β) :
    ∃ r store draws, draws ≤ 1 ∧
      (decryptKey P peerId envelope).run (serve E) w =
        (r, { store := store, keysDrawn := w.keysDrawn + draws, ivsDrawn := w.ivsDrawn }) ∧
      DecryptEffect P peerId envelope (nextPair P E w) w.store r store := by
  cases hparse : P.parse envelope.ciphertext with
  | none => exact ⟨_, _, 0, Nat.zero_le _, by rw [decryptKey, hparse]; rfl, .refused _⟩
  | some msg =>
    cases htype : envelope.type with
    | signalMessage =>
      cases hs : w.store.sessions peerId with
      | none =>
        refine ⟨_, _, 0, Nat.zero_le _, ?_,
          .refused (.error s!"[SignalSession] No session for {peerId}")⟩
        rw [decryptKey, hparse, htype]
        simp only [Prog.run_bind, Prog.run_ofOption_some, loadSession, Prog.run_ask, serve, hs]
        rfl
      | some session =>
        cases hh : msg.h with
        | none =>
          refine ⟨_, _, 0, Nat.zero_le _, ?_, .refused .typeError⟩
          rw [decryptKey, hparse, htype]
          simp only [Prog.run_bind, Prog.run_ofOption_some, loadSession, Prog.run_ask, serve, hs,
            Prog.run_pure, hh]
          rfl
        | some h =>
          -- the message is for a session that is there, and nothing is stored unless a key is found
          rw [run_decryptKey_signal P E htype hparse hh hs]
          cases hr : receiveWith P (nextPair P E w) session h with
          | error e => exact ⟨_, _, _, receiveDraws_le P session h, rfl, .refused e⟩
          | ok r =>
            exact ⟨_, _, _, receiveDraws_le P session h, rfl, .received htype hparse hh hs hr⟩
    | preKeySignalMessage =>
      cases hs : respondWith P (nextPair P E w) w.store msg with
      | error e =>
        refine ⟨.error e, respondStore w.store msg, _, respondDraws_le P w.store msg, ?_,
          .consumed e htype hparse hs⟩
        rw [decryptKey, hparse, htype]
        simp only [Prog.run_bind, Prog.run_ofOption_some, run_initSessionFromPreKey, hs]
      | ok session =>
        obtain ⟨_, _, _, _, h, _, _, _, _, _, _, hh, _⟩ := respondWith_ok P hs
        -- the new session is stored before the key is looked for
        rw [run_decryptKey_preKey P E htype hparse hh hs]
        cases hr : receiveWith P (nextPair P E w) session h with
        | error e =>
          exact ⟨_, _, _, respondDraws_le P w.store msg, rfl, .created e htype hparse hh hs hr⟩
        | ok r =>
          exact ⟨_, _, _, respondDraws_le P w.store msg, rfl, .established htype hparse hh hs hr⟩

/-- `decrypt` opens the ciphertext with the key `decryptKey` returns; whether it
opens no longer matters for the store. -/
theorem run_decrypt (peerId : String) (envelope : EncryptedEnvelope ω) (w : World β) :
    (decrypt P peerId envelope).run (serve E) w =
      match (decryptKey P peerId envelope).run (serve E) w with
      | (.error e, w') => (.error e, w')
      | (.ok (mk, msg), w') =>
        match P.aesGcmDecrypt mk msg.ct msg.iv with
        | none => (.error .operationError, w')
        | some pt => (.ok (textDecode pt), w') := by
  rw [decrypt, Prog.run_bind]
  rcases (decryptKey P peerId envelope).run (serve E) w with ⟨_ | ⟨mk, msg⟩, w'⟩
  · rfl
  · cases hopen : P.aesGcmDecrypt mk msg.ct msg.iv <;> simp [Prog.run_bind, hopen]

/-- What a call of `decrypt` that returns a plaintext opened, and with which key. -/
theorem run_decrypt_ok {peerId : String} {envelope : EncryptedEnvelope ω} {w : World β}
    {plaintext : CodeUnits}
    (h : ((decrypt P peerId envelope).run (serve E) w).1 = .ok plaintext) :
    ∃ mk msg bytes, ((decryptKey P peerId envelope).run (serve E) w).1 = .ok (mk, msg) ∧
      P.aesGcmDecrypt mk msg.ct msg.iv = some bytes ∧ plaintext = textDecode bytes := by
  rw [run_decrypt] at h
  rcases hrun : (decryptKey P peerId envelope).run (serve E) w with ⟨_ | ⟨mk, msg⟩, w'⟩
  · rw [hrun] at h
    cases h
  · rw [hrun] at h
    cases hopen : P.aesGcmDecrypt mk msg.ct msg.iv with
    | none => simp [hopen] at h
    | some bytes =>
      simp only [hopen, Except.ok.injEq] at h
      exact ⟨mk, msg, bytes, rfl, hopen, h.symm⟩

end SignalSessionManager
end Winkd
