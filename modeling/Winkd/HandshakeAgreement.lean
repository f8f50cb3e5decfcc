import Winkd.EndToEnd

/-!
# When both ends of a handshake agree

An initiator takes the one-time pre-key of the bundle into its secret; a responder
takes the one its store still has under the id it is told.  The two decisions are
made apart, and nothing compares them: a store that has lost the pre-key leaves
the fourth DH out, and the session it stores comes from another secret
(`handshake_agrees_iff`).  A lost signed pre-key is refused.

Nor does the initiator keep the ratchet key its first chain was made with.  Until it has
sent something, whatever comes in may ratchet its session, and the X3DH parameters then
go out with the ratchet key of another chain.
-/

namespace Winkd
open UnicodeText SignalSessionManager Transitions

variable {β ω : Type} [DecidableEq β] (P : Platform β ω)

/-- The fourth DH is part of the secret. -/
def Platform.SeparatesFourthDH : Prop :=
  ∀ z1 z2 z3 z4, P.x3dhSecret z1 z2 z3 (some z4) ≠ P.x3dhSecret z1 z2 z3 none

/-- A DH output tells the keys apart it was made with, on either side. -/
def Platform.TellsApart (pair : DHKeyPair β → Prop) : Prop :=
  ∀ a b c, pair a → pair b → pair c → P.dh a.privateKeyJwk b.publicKeyRaw =
    P.dh a.privateKeyJwk c.publicKeyRaw → b.publicKeyRaw = c.publicKeyRaw

/-- A bundle of the keys of an identity: a signed pre-key, and perhaps a one-time
pre-key. -/
structure BundleOf (pair : DHKeyPair β → Prop) (bundle : PreKeyBundle β) (idB : IdentityKeyPair β)
    (spk : SignedPreKey β) (opk : Option (PreKey β)) : Prop where
  identity : bundle.identityKey = idB.publicKey
  signedPreKeyId : bundle.signedPreKey.id = spk.id
  signedPreKey : bundle.signedPreKey.publicKey = spk.publicKey
  oneTimePreKey : bundle.oneTimePreKey = opk.map fun k => ⟨k.id, k.publicKey⟩
  identityPair : pair (Net.identityPair idB)
  signedPair : pair (Net.preKeyPair spk.toPreKey)
  oneTimePair : ∀ k, opk = some k → pair (Net.preKeyPair k)

/-- What the responder's store has at delivery: its own keys, or no longer. -/
structure StoreOf (store : KeyStore β) (idB : IdentityKeyPair β) (spk : SignedPreKey β)
    (opk : Option (PreKey β)) : Prop where
  identity : store.identity = none ∨ store.identity = some idB
  signedPreKey : store.signedPreKeys spk.id = none ∨ store.signedPreKeys spk.id = some spk
  oneTimePreKey : ∀ k, opk = some k → store.preKeys k.id = none ∨ store.preKeys k.id = some k

/-- The responder refuses, or its session is made from the initiator's secret: its
receiving chain is the initiator's sending chain, and its root key is one step
on from the initiator's. -/
def AgreesOrRefuses (initiator : RatchetSession β) :
    Except Failure (RatchetSession β) → Prop
  | .error _ => True
  | .ok session => session.recvChainKey = initiator.sendChainKey ∧
      ∃ z, session.rootKey = (P.kdfRootKey initiator.rootKey z).newRootKey

variable {P} {pair : DHKeyPair β → Prop} {bundle : PreKeyBundle β} {idA idB : IdentityKeyPair β}
  {spk : SignedPreKey β} {opk : Option (PreKey β)}

omit [DecidableEq β] in
/-- The secrets that go into X3DH are the same on both sides; only whether there is a
fourth one depends on the responder's store. -/
theorem x3dh_both_sides (hag : P.Agrees pair) (hb : BundleOf pair bundle idB spk opk)
    (hA : pair (Net.identityPair idA)) {ek : DHKeyPair β} (hek : pair ek) {SK : β}
    (hx : P.x3dh idA.privateKey ek.privateKeyJwk bundle.identityKey bundle.signedPreKey.publicKey
      (bundle.oneTimePreKey.map PublicPreKey.publicKey) = some SK) :
    ∃ z1 z2 z3 z4, z4.isSome = opk.isSome ∧ SK = P.x3dhSecret z1 z2 z3 z4 ∧
      P.x3dhRespond idB.privateKey spk.privateKey (opk.map PreKey.privateKey) idA.publicKey
        ek.publicKeyRaw = some SK ∧
      P.x3dhRespond idB.privateKey spk.privateKey none idA.publicKey ek.publicKeyRaw =
        some (P.x3dhSecret z1 z2 z3 none) := by
  obtain ⟨z1, hz1, hz1'⟩ := hag _ _ hA hb.signedPair
  obtain ⟨z2, hz2, hz2'⟩ := hag _ _ hek hb.identityPair
  obtain ⟨z3, hz3, hz3'⟩ := hag _ _ hek hb.signedPair
  simp only [Net.identityPair, Net.preKeyPair] at hz1 hz1' hz2 hz2' hz3 hz3'
  rw [hb.identity, hb.signedPreKey, hb.oneTimePreKey] at hx
  cases ho : opk with
  | none =>
    simp [ho, Platform.x3dh, hz1, hz2, hz3] at hx
    exact ⟨z1, z2, z3, none, rfl, hx.symm,
      by simp [Platform.x3dhRespond, hz1', hz2', hz3', hx],
      by simp [Platform.x3dhRespond, hz1', hz2', hz3']⟩
  | some k =>
    obtain ⟨z4, hz4, hz4'⟩ := hag _ _ hek (hb.oneTimePair k ho)
    simp only [Net.preKeyPair] at hz4 hz4'
    simp [ho, Platform.x3dh, hz1, hz2, hz3, hz4] at hx
    exact ⟨z1, z2, z3, some z4, rfl, hx.symm,
      by simp [Platform.x3dhRespond, hz1', hz2', hz3', hz4', hx],
      by simp [Platform.x3dhRespond, hz1', hz2', hz3']⟩

/-! ## What an initiator sends -/

section Initiator
variable (P) (E : Entropy β) (peerId : String)

/-- A call for any peer. -/
def act (w : World β) (call : String × ManagerCall β ω) : World β := perform P E call.1 w call.2

/-- No other session is started for the peer. -/
def Continues (w : World β) (call : String × ManagerCall β ω) : Prop :=
  call.1 = peerId → ∀ bundle, call.2 = .initSessionFromBundle bundle →
    ∃ e, ((initSessionFromBundle P peerId bundle).run (serve E) w).1 = .error e

/-- What becomes of an initiator's session: it keeps the parameters of its first message, or
none, and its ratchet key pair is one it has generated. -/
structure Initiated (initiator session : RatchetSession β) : Prop where
  pending : session.pendingPreKeyMsg = none ∨
    session.pendingPreKeyMsg = initiator.pendingPreKeyMsg
  pair : ∃ i, session.ourRatchetPublic = (P.toDHKeyPair (E.key i)).publicKeyRaw

variable {P E peerId} {initiator : RatchetSession β}

/-- Receiving leaves the parameters, and the ratchet key pair or makes a new one. -/
theorem Initiated.receive {session session' : RatchetSession β} (h : Initiated P E initiator session)
    {i : ℕ} {header : RatchetHeader β} {mk : β}
    (hr : receiveWith P (P.toDHKeyPair (E.key i)) session header = .ok (mk, session')) :
    Initiated P E initiator session' := by
  obtain ⟨-, hpend, hours⟩ := receiveWith_public P hr
  refine ⟨hpend ▸ h.pending, ?_⟩
  rcases hours with ⟨-, hour⟩ | hour
  · exact hour ▸ h.pair
  · exact ⟨i, hour⟩

omit [DecidableEq β] in
/-- A responder keeps no parameters. -/
theorem initiated_respond {store : KeyStore β} {msg : WireMessage β} {session : RatchetSession β}
    {i : ℕ} (hok : respondWith P (P.toDHKeyPair (E.key i)) store msg = .ok session) :
    Initiated P E initiator session := by
  obtain ⟨_, _, _, _, _, _, _, -, -, -, -, -, -, -, rfl⟩ := respondWith_ok P hok
  exact ⟨.inl rfl, i, rfl⟩

/-- **One call**, for the peer or for another, leaves an initiator's session one. -/
theorem initiated_act {w : World β}
    (h : ∀ session, w.store.sessions peerId = some session → Initiated P E initiator session)
    {call : String × ManagerCall β ω} (ha : Continues P E peerId w call) :
    ∀ session, (act P E w call).store.sessions peerId = some session →
      Initiated P E initiator session := by
  obtain ⟨q, call⟩ := call
  intro new hs
  rw [act] at hs
  by_cases hq : q = peerId
  · subst hq
    cases call with
    | initSessionFromBundle bundle =>
      obtain ⟨e, he⟩ := ha rfl bundle rfl
      rw [perform] at hs
      rcases run_initSessionFromBundle_cases P E q bundle w with
        ⟨_, _, -, hrun⟩ | ⟨_, _, _, -, -, -, -, hrun⟩
      · rw [hrun] at hs
        exact h new hs
      · rw [hrun] at he
        cases he
    | encrypt plaintext =>
      rw [perform] at hs
      rcases run_encrypt_cases P E q plaintext w with ⟨e, he⟩ | ⟨session, ck, hl, hck⟩
      · rw [he] at hs
        exact h new hs
      · rw [run_encrypt P E plaintext hl hck, KeyStore.storeSession_sessions_self] at hs
        obtain rfl := Option.some.inj hs
        have hold := h session hl
        refine ⟨?_, hold.pair⟩
        simp only [afterSend]
        split
        · exact .inl rfl
        · exact hold.pending
    | decrypt envelope =>
      obtain ⟨r, store, draws, -, hrun, heff⟩ := run_decryptKey P E q envelope w
      rw [perform_decrypt, hrun] at hs
      cases heff with
      | refused => exact h new hs
      | received _ _ _ hl hr =>
        rw [KeyStore.storeSession_sessions_self] at hs
        exact Option.some.inj hs ▸ (h _ hl).receive hr
      | consumed =>
        rw [respondStore_sessions] at hs
        exact h new hs
      | created _ _ _ _ hok =>
        rw [KeyStore.storeSession_sessions_self] at hs
        exact Option.some.inj hs ▸ initiated_respond hok
      | established _ _ _ hok hr =>
        rw [KeyStore.storeSession_sessions_self] at hs
        exact Option.some.inj hs ▸ (initiated_respond hok).receive hr
  · rw [perform_sessions_ne P E q (Ne.symm hq)] at hs
    exact h new hs

variable {w started before after : World β} {session : RatchetSession β} {plaintext : CodeUnits}
  {envelope : EncryptedEnvelope ω} {msg : WireMessage β}

/-- **What a type-1 envelope carries**: the parameters of the session that was started from the
bundle, and the ratchet key that its session has now. -/
theorem preKey_envelope (hP : P.RoundTrips) (hid : w.store.identity = some idA)
    (hinit : (initSessionFromBundle P peerId bundle).run (serve E) w = (.ok (), started))
    (hl : started.store.sessions peerId = some initiator)
    (hrun : Reaches (act P E) (Continues P E peerId) started before)
    (hs : before.store.sessions peerId = some session)
    (henc : (encrypt P peerId plaintext).run (serve E) before = (.ok envelope, after))
    (htype : envelope.type = .preKeySignalMessage)
    (hmsg : P.parse envelope.ciphertext = some msg) :
    ∃ i j k SK dhOut, P.x3dh idA.privateKey (P.toDHKeyPair (E.key i)).privateKeyJwk
        bundle.identityKey bundle.signedPreKey.publicKey
        (bundle.oneTimePreKey.map PublicPreKey.publicKey) = some SK ∧
      P.dh (P.toDHKeyPair (E.key j)).privateKeyJwk bundle.signedPreKey.publicKey = some dhOut ∧
      initiator.ourRatchetPublic = (P.toDHKeyPair (E.key j)).publicKeyRaw ∧
      initiator.sendChainKey = some (P.kdfRootKey (P.bufToHex SK) dhOut).chainKey ∧
      initiator.rootKey = (P.kdfRootKey (P.bufToHex SK) dhOut).newRootKey ∧
      session.ourRatchetPublic = (P.toDHKeyPair (E.key k)).publicKeyRaw ∧
      (∃ h, msg.h = some h ∧ h.rk = session.ourRatchetPublic) ∧
      msg.preKey = some ⟨idA.publicKey, (P.toDHKeyPair (E.key i)).publicKeyRaw,
        bundle.signedPreKey.id, bundle.oneTimePreKey.map PublicPreKey.id⟩ := by
  rcases run_initSessionFromBundle_cases P E peerId bundle w with
    ⟨e, draws, -, hrun'⟩ | ⟨idKP, SK, dhOut, -, hidk, hx, hd, hrun'⟩
  · rw [hinit] at hrun'
    cases (Prod.mk.inj hrun').1
  · obtain rfl : idA = idKP := Option.some.inj (hid.symm.trans hidk)
    rw [hinit] at hrun'
    obtain rfl := (Prod.mk.inj hrun').2
    -- what the session keeps at the end of the run is what it kept at its start
    obtain ⟨hpending, k, hk⟩ : Initiated P E initiator session := by
      refine hrun.invariant (I := fun w => ∀ session, w.store.sessions peerId = some session →
        Initiated P E initiator session) ?_ (fun _ _ h ha => initiated_act h ha) session hs
      intro new hnew
      obtain rfl := Option.some.inj (hl.symm.trans hnew)
      rw [KeyStore.storeSession_sessions_self] at hl
      obtain rfl := Option.some.inj hl
      exact ⟨.inr rfl, _, rfl⟩
    rw [KeyStore.storeSession_sessions_self] at hl
    obtain rfl := Option.some.inj hl
    rcases run_encrypt_cases P E peerId plaintext before with ⟨e, he⟩ | ⟨_, ck, hl', hck⟩
    · rw [henc] at he
      cases (Prod.mk.inj he).1
    · obtain rfl := Option.some.inj (hs.symm.trans hl')
      rw [run_encrypt P E plaintext hs hck] at henc
      obtain rfl := Except.ok.inj (Prod.mk.inj henc).1
      rw [envelopeOf, hP.wire] at hmsg
      obtain rfl := Option.some.inj hmsg
      -- an envelope of type 1 carries them
      obtain ⟨info, hinfo⟩ : ∃ info, preKeyInfo session = some info := by
        by_contra hnone
        have hnone : preKeyInfo session = none := Option.eq_none_iff_forall_ne_some.mpr
          fun info hinfo => hnone ⟨info, hinfo⟩
        simp [envelopeOf, nextType, hnone] at htype
      have hkept : session.pendingPreKeyMsg = some info := by
        unfold preKeyInfo at hinfo
        split at hinfo
        · exact hinfo
        · cases hinfo
      rw [hkept] at hpending
      obtain rfl := Option.some.inj (hpending.resolve_left (Option.some_ne_none info))
      refine ⟨_, _, k, SK, dhOut, hx, hd, rfl, rfl, rfl, hk, ⟨_, rfl, rfl⟩, ?_⟩
      simp only [wirePayload, hinfo, Option.map_some, nextPair]

/-- **A handshake agrees or is refused if and only if** the responder does not get as
far as its secret, or the initiator's ratchet key is still the one its session was started with
and the bundle had no one-time pre-key, or the store still has it. -/
theorem handshake_agrees_iff (hP : P.RoundTrips) (hag : P.Agrees pair) (hfree : P.FreeKdf)
    (hsep : P.SeparatesFourthDH) (hapart : P.TellsApart pair) (hb : BundleOf pair bundle idB spk opk)
    (hA : pair (Net.identityPair idA)) (hE : ∀ i, pair (P.toDHKeyPair (E.key i)))
    (hid : w.store.identity = some idA)
    (hinit : (initSessionFromBundle P peerId bundle).run (serve E) w = (.ok (), started))
    (hl : started.store.sessions peerId = some initiator)
    (hrun : Reaches (act P E) (Continues P E peerId) started before)
    (hs : before.store.sessions peerId = some session)
    (henc : (encrypt P peerId plaintext).run (serve E) before = (.ok envelope, after))
    (htype : envelope.type = .preKeySignalMessage)
    (hmsg : P.parse envelope.ciphertext = some msg) {E' : Entropy β}
    (hE' : ∀ i, pair (P.toDHKeyPair (E'.key i))) {w' : World β}
    (hstore : StoreOf w'.store idB spk opk) (peerId' : String) :
    AgreesOrRefuses P initiator ((initSessionFromPreKey P peerId' msg).run (serve E') w').1 ↔
      w'.store.identity = none ∨ w'.store.signedPreKeys spk.id = none ∨
        session.ourRatchetPublic = initiator.ourRatchetPublic ∧
          ∀ k, opk = some k → (w'.store.preKeys k.id).isSome := by
  obtain ⟨i, j, k, SK, dhOut, hx, hd, hfirst, hsend, hroot, hnow, ⟨h, hh, hrk⟩, hpre⟩ :=
    preKey_envelope hP hid hinit hl hrun hs henc htype hmsg
  obtain ⟨z1, z2, z3, z4, hz4, rfl, hwith, hwithout⟩ := x3dh_both_sides hag hb hA (hE i) hx
  rw [hnow] at hrk ⊢
  rw [hfirst]
  -- The two root steps the responder takes with the ratchet key in the header.
  obtain ⟨d0, hd0, hd0'⟩ := hag _ _ (hE j) hb.signedPair
  obtain ⟨d1, hd1, hd1'⟩ := hag _ _ (hE k) hb.signedPair
  obtain ⟨d2, hd2, -⟩ := hag _ _ (hE' w'.keysDrawn) (hE k)
  simp only [Net.preKeyPair] at hd0 hd0' hd1 hd1'
  rw [hb.signedPreKey, hd0] at hd
  obtain rfl := Option.some.inj hd
  have hrespond : ((initSessionFromPreKey P peerId' msg).run (serve E') w').1 =
      respondWith P (P.toDHKeyPair (E'.key w'.keysDrawn)) w'.store msg := by
    rw [run_initSessionFromPreKey]
    rfl
  rw [hrespond]
  have hopk : opkPrivate w'.store (bundle.oneTimePreKey.map PublicPreKey.id) =
      opk.bind fun k => (w'.store.preKeys k.id).map PreKey.privateKey := by
    rw [hb.oneTimePreKey, opkPrivate, Option.map_map]
    cases opk <;> rfl
  rcases hstore.identity with hnone | hidB
  · simp [respondWith, handshakeKeys, hnone, AgreesOrRefuses]
  rcases hstore.signedPreKey with hnone | hspk
  · simp [respondWith, handshakeKeys, hidB, hpre, hb.signedPreKeyId, hnone, AgreesOrRefuses]
  -- The responder takes the fourth DH if it has what the initiator used, or leaves it out.
  obtain ⟨z4', hsecret, hsame⟩ : ∃ z4', P.x3dhRespond idB.privateKey spk.privateKey
      (opkPrivate w'.store (bundle.oneTimePreKey.map PublicPreKey.id)) idA.publicKey
      (P.toDHKeyPair (E.key i)).publicKeyRaw = some (P.x3dhSecret z1 z2 z3 z4') ∧
      (P.x3dhSecret z1 z2 z3 z4' = P.x3dhSecret z1 z2 z3 z4 ↔
        ∀ k, opk = some k → (w'.store.preKeys k.id).isSome) := by
    rw [hopk]
    cases ho : opk with
    | none =>
      rw [ho] at hwith
      refine ⟨z4, hwith, iff_of_true rfl fun k hk => ?_⟩
      cases hk
    | some k =>
      rw [ho] at hwith hz4
      obtain ⟨z4, rfl⟩ := Option.isSome_iff_exists.mp hz4
      rw [Option.bind_some]
      rcases hstore.oneTimePreKey k ho with hk | hk
      · refine ⟨none, by rw [hk]; exact hwithout, iff_of_false (fun he => hsep _ _ _ _ he.symm) ?_⟩
        intro hheld
        have hsome := hheld k rfl
        rw [hk] at hsome
        cases hsome
      · refine ⟨some z4, by rw [hk]; exact hwith, iff_of_true rfl ?_⟩
        intro k' hk'
        rw [← Option.some.inj hk', hk]
        rfl
  rw [respondWith_eq _ hidB hpre (hb.signedPreKeyId ▸ hspk) hsecret hh (hrk ▸ hd1') (hrk ▸ hd2)]
  constructor
  · rintro ⟨hrecv, -⟩
    have hck := Option.some.inj (hrecv.trans hsend)
    obtain ⟨hhex, hz⟩ := hfree.root _ _ _ _ hck
    have hsecret := congrArg P.hexToBuf hhex
    rw [hP.hex, hP.hex] at hsecret
    refine .inr (.inr ⟨hapart _ _ _ hb.signedPair (hE k) (hE j) ?_, hsame.mp hsecret⟩)
    simp only [Net.preKeyPair, hd1', hd0', hz]
  · rintro (h | h | ⟨hkey, hheld⟩)
    · rw [hidB] at h
      cases h
    · rw [hspk] at h
      cases h
    · rw [hkey, hd0'] at hd1'
      obtain rfl := Option.some.inj hd1'
      rw [hsame.mpr hheld]
      exact ⟨hsend.symm, d2, by rw [hroot]; rfl⟩

end Initiator

/-! ## A one-time pre-key that is gone -/

open Symbolic

theorem symbolic_separatesFourthDH {N : Type} [LinearOrder N] :
    (symbolic N).SeparatesFourthDH := by
  intro z1 z2 z3 z4 h
  simp [Platform.x3dhSecret, Platform.hkdf, symbolic, Term.concat] at h

theorem symbolic_tellsApart {N : Type} [LinearOrder N] :
    (symbolic N).TellsApart (fun kp => ∃ n, kp = (symbolic N).toDHKeyPair (pairOf n)) := by
  rintro _ _ _ ⟨a, rfl⟩ ⟨b, rfl⟩ ⟨c, rfl⟩ h
  have hsame : Term.agree a b = Term.agree a c := Option.some.inj h
  rcases Term.agree_inj hsame with ⟨-, rfl⟩ | ⟨rfl, rfl⟩ <;> rfl

theorem bob_bundleOf (opkId : Option Int) :
    BundleOf (fun kp => ∃ n, kp = (symbolic Name).toDHKeyPair (pairOf n))
      (Party.bob.bundle 1 opkId) Party.bob.identityKeyPair (Party.bob.signedPreKey 1)
      (opkId.map Party.bob.oneTimePreKey) where
  identity := rfl
  signedPreKeyId := rfl
  signedPreKey := rfl
  oneTimePreKey := by cases opkId <;> rfl
  identityPair := ⟨.identity .bob, rfl⟩
  signedPair := ⟨.signedPreKey .bob 1, rfl⟩
  oneTimePair k hk := by
    obtain ⟨id, -, rfl⟩ := Option.map_eq_some_iff.mp hk
    exact ⟨.preKey .bob id, rfl⟩

/-- Alice has started a session from Bob's bundle with the one-time pre-key 7. -/
def aliceStarted : World Bytes :=
  ((initSessionFromBundle (symbolic Name) "bob" (Party.bob.bundle 1 (some 7))).run
    (serve (freshEntropy .alice)) (newParties [] .alice)).2

/-- Her session. -/
def aliceInitiator : RatchetSession Bytes :=
  (aliceStarted.store.sessions "bob").get (by decide)

/-- Her first message. -/
def aliceFirst : WireMessage Bytes :=
  (envelopeOf (symbolic Name) aliceInitiator (aliceInitiator.sendChainKey.get (by decide)) (.lit [0])
    [104] (some 1)).ciphertext.get (by rfl)

/-- What Bob's `initSessionFromPreKey` makes of it when his store has the one-time
pre-keys `opkIds`. -/
def bobAnswers (opkIds : List Int) : Except Failure (RatchetSession Bytes) :=
  ((initSessionFromPreKey (symbolic Name) "alice" aliceFirst).run (serve (freshEntropy .bob))
    (newParties opkIds .bob)).1

/-- Bob's store still has the pre-key. -/
theorem handshake_agrees_iff_held : AgreesOrRefuses (symbolic Name) aliceInitiator (bobAnswers [7]) := by
  have hinit : (initSessionFromBundle (symbolic Name) "bob" (Party.bob.bundle 1 (some 7))).run
      (serve (freshEntropy .alice)) (newParties [] .alice) = (.ok (), aliceStarted) :=
    Prod.ext (by rfl) rfl
  have hencrypt : (encrypt (symbolic Name) "bob" [104]).run (serve (freshEntropy .alice))
      aliceStarted = (.ok ⟨.preKeySignalMessage, some aliceFirst, 1⟩,
        ((encrypt (symbolic Name) "bob" [104]).run (serve (freshEntropy .alice)) aliceStarted).2) :=
    Prod.ext (by rfl) rfl
  have hheld : StoreOf (newParties [7] .bob).store Party.bob.identityKeyPair
      (Party.bob.signedPreKey 1) ((some 7).map Party.bob.oneTimePreKey) := by
    refine ⟨.inr rfl, .inr rfl, fun k hk => .inr ?_⟩
    obtain rfl := Option.some.inj hk
    rfl
  have hgenerated : ∀ p i, ∃ n, (symbolic Name).toDHKeyPair ((freshEntropy p).key i) =
      (symbolic Name).toDHKeyPair (pairOf n) := fun p i => ⟨.generated p i, rfl⟩
  refine (handshake_agrees_iff symbolic_roundTrips symbolic_agrees symbolic_freeKdf
    symbolic_separatesFourthDH symbolic_tellsApart (bob_bundleOf (some 7)) ⟨.identity .alice, rfl⟩
    (hgenerated .alice) rfl hinit (Option.some_get _).symm (Reaches.refl _) (Option.some_get _).symm
    hencrypt rfl rfl (hgenerated .bob) hheld "alice").mpr (.inr (.inr ⟨rfl, fun k hk => ?_⟩))
  obtain rfl := Option.some.inj hk
  decide

/-- **Bob's store has lost the pre-key**: he stores a session whose receiving chain is
not Alice's sending chain. -/
theorem lost_preKey_disagrees :
    (∃ session, bobAnswers [] = .ok session) ∧
      ¬ AgreesOrRefuses (symbolic Name) aliceInitiator (bobAnswers []) := by
  constructor
  · exact ⟨_, rfl⟩
  · rintro ⟨hrecv, -⟩
    exact absurd hrecv (by decide)

/-- An empty message of type 2 comes in before Alice has sent hers, under a key of somebody
else's. -/
def aliceRatcheted : World Bytes :=
  perform (symbolic Name) (freshEntropy .alice) "bob" aliceStarted (.decrypt ⟨.signalMessage,
    some ⟨some ⟨.pub (.outsider 0), .int 0, .int 0⟩, .lit [], .lit [], none⟩, 0⟩)

/-- Her session is ratcheted, and what she sends first is still of type 1. -/
def ratchetedFirst : Except Failure (EncryptedEnvelope Payload) :=
  ((encrypt (symbolic Name) "bob" [104]).run (serve (freshEntropy .alice)) aliceRatcheted).1

/-- **A forged message has ratcheted Alice's session**: Bob, who holds the pre-key, stores a
session whose receiving chain is not her first sending chain. -/
theorem ratcheted_start_disagrees :
    ∃ msg regId session, ratchetedFirst = .ok ⟨.preKeySignalMessage, some msg, regId⟩ ∧
      ((initSessionFromPreKey (symbolic Name) "alice" msg).run (serve (freshEntropy .bob))
        (newParties [7] .bob)).1 = .ok session ∧
      ¬ AgreesOrRefuses (symbolic Name) aliceInitiator (.ok session) := by
  refine ⟨_, _, _, rfl, rfl, ?_⟩
  rintro ⟨hrecv, -⟩
  exact absurd hrecv (by decide)

end Winkd
