import Winkd.Synchrony

/-!
# What arrives is what was sent

A conversation in order, from Alice's `initSessionFromBundle` on: until Bob gets
Alice's type-1 envelope only she has a session (`Invited`), afterwards the two
sessions are `Linked`.  Every delivery opens under the key it was sealed with,
and `decrypt` returns what `TextDecoder` makes of what `TextEncoder` made of the
plaintext.  That is the plaintext exactly when the encodings carry it:
a leading byte order mark is dropped, and a lone surrogate is replaced.
-/

namespace Winkd
open UnicodeText SignalSessionManager Transitions

namespace Net
variable {β ω : Type} [DecidableEq β] (P : Platform β ω) (E : Party → Entropy β)

/-! ## The start -/

def identityPair (idKP : IdentityKeyPair β) : DHKeyPair β := ⟨idKP.publicKey, idKP.privateKey⟩

def preKeyPair (k : PreKey β) : DHKeyPair β := ⟨k.publicKey, k.privateKey⟩

/-- Alice is about to start a session from a bundle whose keys Bob still holds,
and generated keys are fresh. -/
structure Setup (pair : DHKeyPair β → Prop) (w : Party → World β) (bundle : PreKeyBundle β)
    (idA idB : IdentityKeyPair β) (spk : SignedPreKey β) : Prop where
  aliceIdentity : (w .alice).store.identity = some idA
  bobIdentity : (w .bob).store.identity = some idB
  bundleIdentity : bundle.identityKey = idB.publicKey
  spkHeld : (w .bob).store.signedPreKeys bundle.signedPreKey.id = some spk
  spkPublic : bundle.signedPreKey.publicKey = spk.publicKey
  spkSigned : P.signPreKey idB.privateKey spk.publicKey = some bundle.signedPreKey.signature
  opkHeld : ∀ k, bundle.oneTimePreKey = some k → ∃ opk, (w .bob).store.preKeys k.id = some opk ∧
    opk.publicKey = k.publicKey ∧ pair (preKeyPair opk)
  noSession : (w .bob).store.sessions Party.alice.userId = none
  alicePair : pair (identityPair idA)
  bobPair : pair (identityPair idB)
  spkPair : pair (preKeyPair spk.toPreKey)
  generated : ∀ p i, pair (P.toDHKeyPair ((E p).key i))
  distinct : ∀ p, Function.Injective (publicKeyAt P (E p))
  spkFresh : ∀ i, publicKeyAt P (E .bob) i ≠ spk.publicKey

/-- The conversation once Alice has started her session. -/
def started (w : Party → World β) (bundle : PreKeyBundle β) : Net β ω :=
  (start w).next P E (.initSessionFromBundle .alice bundle)

/-- A session that has heard nothing: what Bob's would be before it exists. -/
def unheard (session : RatchetSession β) : RatchetSession β :=
  { session with theirRatchetPublic := none, skipped := ∅ }

/-- The X3DH parameters of Alice's first envelope, and the secret Bob computes
from them. -/
structure Invitation (w : Party → World β) (bundle : PreKeyBundle β) (idA idB : IdentityKeyPair β)
    (spk : SignedPreKey β) (info : PendingPreKeyMsg β) (SK : β) : Prop where
  identityKey : info.identityKey = idA.publicKey
  spkId : info.spkId = bundle.signedPreKey.id
  secret : P.x3dhRespond idB.privateKey spk.privateKey (opkPrivate (w .bob).store info.opkId)
    info.identityKey info.ephemeralKey = some SK

/-- The invariant until Bob gets Alice's type-1 envelope. -/
structure Invited (pair : DHKeyPair β → Prop) (w : Party → World β) (spk : SignedPreKey β)
    (info : PendingPreKeyMsg β) (SK : β) (s : Net β ω) (a : RatchetSession β) (sa : β) : Prop where
  session : s.session .alice = some a
  noSession : s.session .bob = none
  bobStore : (s.world .bob).store = (w .bob).store
  nothing : s.delivered = []
  unreceived : a.recvChainKey = none ∧ a.skipped = ∅
  their : a.theirRatchetPublic = some spk.publicKey
  root : ∃ z, P.dh spk.privateKey a.ourRatchetPublic = some z ∧
    P.kdfRootKey (P.bufToHex SK) z = ⟨a.rootKey, sa⟩
  ratchet : pair (ratchetPair a)
  out : Flow P (E .alice) (s.world .alice).keysDrawn s.sent [] .alice a (unheard a) sa
  fromAlice : ∀ e ∈ s.sent, e.sender = .alice ∧ e.header.rk = a.ourRatchetPublic
  pending : (preKeyInfo a = some info ∧ a.sendCount = 0 ∧ s.sent = []) ∨ a.pendingPreKeyMsg = none
  types : ∀ e ∈ s.sent, preKeyInfo e.session = none ∨
    preKeyInfo e.session = some info ∧ e.header.number = 0

variable {P E} {pair : DHKeyPair β → Prop} {w : Party → World β} {bundle : PreKeyBundle β}
  {idA idB : IdentityKeyPair β} {spk : SignedPreKey β}

/-- Alice's call starts a session, and Bob will compute its secret. -/
theorem started_invited (hP : P.Ideal pair) (hs : Setup P E pair w bundle idA idB spk) :
    ∃ info SK a sa, Invitation P w bundle idA idB spk info SK ∧
      Invited P E pair w spk info SK (started P E w bundle : Net β ω) a sa := by
  -- The one-time pre-key, when the bundle has one, is the pair Bob holds.
  have hopk : ∃ opk : Option (DHKeyPair β), (∀ k, opk = some k → pair k) ∧
      bundle.oneTimePreKey.map PublicPreKey.publicKey = opk.map DHKeyPair.publicKeyRaw ∧
      opkPrivate (w .bob).store (bundle.oneTimePreKey.map PublicPreKey.id) =
        opk.map DHKeyPair.privateKeyJwk := by
    cases hk : bundle.oneTimePreKey with
    | none => exact ⟨none, by simp, rfl, rfl⟩
    | some k =>
      obtain ⟨opk, hheld, hpub, hpair⟩ := hs.opkHeld k hk
      refine ⟨some (preKeyPair opk), ?_, ?_, ?_⟩
      · rintro _ ⟨⟩
        exact hpair
      · simp [preKeyPair, hpub]
      · simp [opkPrivate, hheld, preKeyPair]
  obtain ⟨opk, hpairs, hpublic, hprivate⟩ := hopk
  set ek := nextPair P (E .alice) (w .alice)
  set rat := P.toDHKeyPair ((E .alice).key ((w .alice).keysDrawn + 1)) with hrat
  obtain ⟨SK, hx, hx'⟩ := hP.agrees.x3dh hs.alicePair (hs.generated .alice (w .alice).keysDrawn)
    hs.bobPair hs.spkPair hpairs
  obtain ⟨z, hz, hz'⟩ := hP.agrees rat (preKeyPair spk.toPreKey) (hs.generated _ _) hs.spkPair
  have hv : P.verifyPreKey bundle.identityKey bundle.signedPreKey.publicKey
      bundle.signedPreKey.signature = true := by
    rw [hs.bundleIdentity, hs.spkPublic]
    exact hP.verifies (identityPair idB) _ _ hs.bobPair hs.spkSigned
  have hrun := run_initSessionFromBundle P (E .alice) Party.bob.userId hv hs.aliceIdentity
    (by rw [hs.bundleIdentity, hs.spkPublic, hpublic]; exact hx)
    (by rw [hs.spkPublic]; exact hz)
  have hne : Party.bob ≠ Party.alice := by decide
  refine ⟨⟨idA.publicKey, ek.publicKeyRaw, bundle.signedPreKey.id,
      bundle.oneTimePreKey.map PublicPreKey.id⟩, SK,
    initiatorSession idA ek rat bundle (P.kdfRootKey (P.bufToHex SK) z), (P.kdfRootKey
      (P.bufToHex SK) z).chainKey, ⟨rfl, rfl, by rw [← hx', ← hprivate]; rfl⟩, ?_⟩
  rw [started, next_init, start]
  simp only [Party.other] at hrun ⊢
  rw [hrun]
  constructor
  · rw [session_update_self]
    exact KeyStore.storeSession_sessions_self ..
  · rw [session_update_ne _ hne]
    exact hs.noSession
  · simp only [Function.update_of_ne hne]
  · rfl
  · exact ⟨rfl, rfl⟩
  · exact congrArg some hs.spkPublic
  · exact ⟨z, hz', rfl⟩
  · exact hs.generated _ _
  · refine Flow.ofUnsent rfl rfl ⟨_, ?_, rfl⟩ (fun _ he => by cases he) (fun _ _ => rfl) ?_
    · simp only [Function.update_self]
      exact Nat.lt_succ_self _
    · intro h
      cases h
  · exact fun _ he => by cases he
  · exact .inl ⟨rfl, rfl, rfl⟩
  · exact fun _ he => by cases he

/-! ## Before Bob has a session -/

variable {info : PendingPreKeyMsg β} {SK : β} {s : Net β ω} {a : RatchetSession β} {sa : β}

/-- Alice sends. -/
theorem Invited.send (hv : Invited P E pair w spk info SK s a sa) (plaintext : CodeUnits) :
    ∃ a', Invited P E pair w spk info SK (s.next P E (.encrypt .alice plaintext)) a' sa := by
  have hck := hv.out.key
  rw [next_encrypt P E plaintext hv.session hck]
  set ck := P.chain.chainAt sa a.sendCount.toNat
  have hne : Party.bob ≠ Party.alice := by decide
  have hinfo : preKeyInfo a = none ∨ preKeyInfo a = some info ∧ a.sendCount = 0 := by
    rcases hv.pending with ⟨hp, hn, -⟩ | hp
    · exact .inr ⟨hp, hn⟩
    · exact .inl (by simp [preKeyInfo, hp])
  refine ⟨afterSend a (P.kdfChainKey ck).nextChainKey, ?_⟩
  constructor
  · rw [session_update_self]
    exact KeyStore.storeSession_sessions_self ..
  · rw [session_update_ne _ hne]
    exact hv.noSession
  · simp only [Function.update_of_ne hne]
    exact hv.bobStore
  · exact hv.nothing
  · exact hv.unreceived
  · exact hv.their
  · exact hv.root
  · exact hv.ratchet
  · simp only [Function.update_self]
    refine (hv.out.send (e := nextSent P E s .alice plaintext a ck) rfl rfl hck).congr
      (Nat.le_refl _) ?_ ?_ ?_ ?_ (List.Subset.refl _) <;> rfl
  · intro e he
    rcases List.mem_append.mp he with he | he
    · exact hv.fromAlice e he
    · rw [List.mem_singleton.mp he]
      exact ⟨rfl, rfl⟩
  · right
    rcases hv.pending with ⟨hp, -, -⟩ | hp
    · simp [afterSend, hp]
    · exact afterSend_plain hp _
  · intro e he
    rcases List.mem_append.mp he with he | he
    · exact hv.types e he
    · rw [List.mem_singleton.mp he]
      exact hinfo

/-- Bob cannot send. -/
theorem Invited.refuse (hv : Invited P E pair w spk info SK s a sa) (plaintext : CodeUnits) :
    s.next P E (.encrypt .bob plaintext) = s := by
  rcases next_encrypt_cases P E s .bob plaintext with h | ⟨session, ck, hs, -⟩
  · exact h
  · rw [hv.noSession] at hs
    cases hs

/-- A responder's first session has turned to the header's chain. -/
theorem responderSession_turned {kp : DHKeyPair β} {k z₂ : β} (keys1 : Platform.RootStep β)
    (hz₂ : P.dh kp.privateKeyJwk k = some z₂) :
    Turned P kp k keys1.newRootKey keys1.chainKey
      (responderSession k keys1 (P.kdfRootKey keys1.newRootKey z₂) kp) :=
  ⟨rfl, rfl, rfl, fun _ => rfl, ⟨z₂, hz₂, rfl, rfl⟩, rfl, rfl⟩

/-- Alice's type-1 envelopes are her first, and carry the keys of the invitation. -/
theorem Invited.first_type (hP : P.RoundTrips) (hv : Invited P E pair w spk info SK s a sa)
    {e : Sent β ω} (hmem : e ∈ s.sent) (he : e.Genuine P)
    (htype : e.envelope.type = .preKeySignalMessage) :
    preKeyInfo e.session = some info ∧ e.header.number = 0 := by
  obtain ⟨-, -, -, htype', -⟩ := he.parse hP
  refine (hv.types e hmem).resolve_left fun hnone => ?_
  rw [htype', nextType, hnone] at htype
  cases htype

/-- The others are plain. -/
theorem Invited.others_plain (hP : P.RoundTrips) (hv : Invited P E pair w spk info SK s a sa)
    (hgen : ∀ e ∈ s.sent, e.Genuine P) {i j : ℕ} {e e' : Sent β ω} (hi : s.sent[i]? = some e)
    (hn : e.header.number = 0) (hj : s.sent[j]? = some e') (hne : j ≠ i) :
    e'.envelope.type = .signalMessage := by
  have hmem := List.mem_of_getElem? hj
  obtain ⟨hsender, hrk⟩ := hv.fromAlice e (List.mem_of_getElem? hi)
  obtain ⟨hsender', hrk'⟩ := hv.fromAlice e' hmem
  obtain ⟨-, -, -, htype, -⟩ := (hgen e' hmem).parse hP
  rcases hv.types e' hmem with hnone | ⟨-, hn'⟩
  · rw [htype, nextType, hnone]
    rfl
  · exact absurd (hv.out.distinct j i e' e hj hi hsender' hsender (hrk'.trans hrk.symm)
      (hn'.trans hn.symm)) hne

/-- Bob's side: he starts a session that has turned to Alice's chain, opens the envelope
with its first key, and stores the session. -/
theorem Invited.answered (hP : P.Ideal pair) (hs : Setup P E pair w bundle idA idB spk)
    (hinv : Invitation P w bundle idA idB spk info SK)
    (hv : Invited P E pair w spk info SK s a sa) {i : ℕ} {e : Sent β ω}
    (hi : s.sent[i]? = some e) (he : e.Genuine P)
    (htype : e.envelope.type = .preKeySignalMessage) {kp : DHKeyPair β}
    (hkp : kp = nextPair P (E .bob) (s.world .bob)) {z₂ : β}
    (hz₂ : P.dh kp.privateKeyJwk a.ourRatchetPublic = some z₂) :
    ∃ (store : KeyStore β) (b₁ b' : RatchetSession β),
      Turned P kp e.header.rk a.rootKey sa b₁ ∧ b₁.skipped = ∅ ∧
        b₁.pendingPreKeyMsg = none ∧ InStepFrom P sa b' ∧ Taken e.header.rk e.header.number b₁ b' ∧
      s.next P E (.deliver i) =
        { world := Function.update s.world .bob
            { store := store.storeSession Party.alice.userId b'
              keysDrawn := (s.world .bob).keysDrawn + 1
              ivsDrawn := (s.world .bob).ivsDrawn }
          sent := s.sent
          delivered := s.delivered ++ [(i, .ok (textDecode (textEncode e.plaintext)))]
          used := Function.update s.used .bob (s.used .bob ++ [e.messageKey P]) } := by
  have hmem := List.mem_of_getElem? hi
  obtain ⟨hsender, hrk⟩ := hv.fromAlice e hmem
  obtain ⟨hinfo, hn⟩ := hv.first_type hP.roundTrips hmem he htype
  obtain ⟨msg, hparse, hh, -, hparams, -⟩ := he.parse hP.roundTrips
  rw [hinfo, Option.map_some] at hparams
  obtain ⟨z, hz, hroot⟩ := hv.root
  -- Bob has the keys that the bundle named
  have hresp : respondWith P kp (s.world .bob).store msg =
      .ok (responderSession e.header.rk (P.kdfRootKey (P.bufToHex SK) z)
        (P.kdfRootKey (P.kdfRootKey (P.bufToHex SK) z).newRootKey z₂) kp) := by
    refine respondWith_eq P (by rw [hv.bobStore]; exact hs.bobIdentity) hparams ?_ ?_ hh
      (by rw [hrk]; exact hz) (by rw [hrk]; exact hz₂)
    · rw [hv.bobStore]
      exact hinv.spkId ▸ hs.spkHeld
    · rw [hv.bobStore]
      exact hinv.secret
  rw [hroot] at hresp
  have hturned : Turned P kp e.header.rk a.rootKey sa _ :=
    responderSession_turned ⟨a.rootKey, sa⟩ (by rw [hrk]; exact hz₂)
  obtain ⟨hnonneg, -, -, hmk⟩ := hv.out.chain e hmem hsender hrk
  obtain ⟨b', hret, hin, htaken⟩ := hturned.receive hP.roundTrips rfl hnonneg (by rw [hn]; decide)
  rw [← hmk] at hret
  have hother : e.sender.other = .bob := by rw [hsender]; rfl
  have hnext := next_deliver_preKey P E hP.roundTrips hi he htype hparse
    (by rw [hother, ← hkp]; exact hresp) hret
  rw [hother, hsender] at hnext
  exact ⟨_, _, b', hturned, rfl, rfl, hin, htaken, hnext⟩

/-- **Bob gets Alice's type-1 envelope**, and is one ratchet ahead of her. -/
theorem Invited.deliver (hP : P.Ideal pair) (hs : Setup P E pair w bundle idA idB spk)
    (hinv : Invitation P w bundle idA idB spk info SK)
    (hv : Invited P E pair w spk info SK s a sa) {i : ℕ} {e : Sent β ω}
    (hi : s.sent[i]? = some e) (hgen : ∀ e ∈ s.sent, e.Genuine P) (hturn : InTurn s i e) :
    (∃ b sb, Linked P E pair (s.next P E (.deliver i)) .bob b a sb sa) ∧ Delivers P E s i e := by
  have hmem := List.mem_of_getElem? hi
  obtain ⟨hsender, hrk⟩ := hv.fromAlice e hmem
  have hpositions : s.positions = [] := by rw [positions, hv.nothing]; rfl
  have htype := hturn.first hsender (by rw [hpositions]; intro j hj; cases hj)
  obtain ⟨-, hn⟩ := hv.first_type hP.roundTrips hmem (hgen e hmem) htype
  set kp := nextPair P (E .bob) (s.world .bob) with hkp
  obtain ⟨z₂, hz₂, hz₂'⟩ := hP.agrees kp (ratchetPair a) (hs.generated _ _) hv.ratchet
  obtain ⟨store, b₁, b', hturned, hskipped, hplain, hin, htaken, hnext⟩ :=
    hv.answered hP hs hinv hi (hgen e hmem) htype hkp hz₂
  rw [hrk] at hturned
  have hdel : Delivers P E s i e := by rw [Delivers, hnext]; exact ⟨rfl, rfl⟩
  refine ⟨⟨b', (P.kdfRootKey a.rootKey z₂).chainKey, ?_⟩, hdel⟩
  have hne : Party.alice ≠ Party.bob := by decide
  -- Bob has sent nothing, and Alice has seen no key of his but the bundle's
  have hnone : ∀ e' ∈ s.sent, e'.sender ≠ .bob := by
    intro e' he' heq
    rw [(hv.fromAlice e' he').1] at heq
    cases heq
  have hunseen : a.theirRatchetPublic ≠ some kp.publicKeyRaw := by
    rw [hv.their]
    exact fun heq => hs.spkFresh _ (Option.some.inj heq).symm
  have hunsaved : ∀ k j, a.skipped.lookup (k, j) = none := by
    intro k j
    rw [hv.unreceived.2]
    rfl
  have hplainA : a.pendingPreKeyMsg = none := by
    refine hv.pending.resolve_left ?_
    rintro ⟨-, -, hnil⟩
    rw [hnil] at hmem
    cases hmem
  refine Linked.turned (show Party.bob.other = .alice from rfl) hi hsender hrk hdel.1 hdel.positions
    ?_ ?_ ?_ (by rw [hpositions]; exact hv.out) ?_ ?_ hturned hz₂ hz₂' ?_ htaken hin hunseen
    (hunsaved _) hv.ratchet (hs.generated _ _) hplainA hplain ?_
  · rw [hnext, session_update_ne _ hne]
    exact hv.session
  · rw [hnext, session_update_self]
    exact KeyStore.storeSession_sessions_self ..
  · rw [hnext]
    simp only [Function.update_of_ne hne]
  · obtain ⟨z, hz, -, hkey⟩ := hturned.sending
    obtain rfl := Option.some.inj (hz₂.symm.trans hz)
    have hours : b₁.ourRatchetPublic = kp.publicKeyRaw :=
      congrArg DHKeyPair.publicKeyRaw hturned.ours
    refine Flow.ofUnsent hkey hturned.sendCount ⟨(s.world .bob).keysDrawn, ?_, hours⟩ hnone
      hunsaved (hours ▸ hunseen)
    rw [hnext]
    simp only [Function.update_self]
    exact Nat.lt_succ_self _
  · refine .inl ⟨hv.unreceived.1, hv.unreceived.2, fun e' he' hb => ?_⟩
    exact absurd hb (hnone e' he')
  · intro k j h
    rw [hskipped] at h
    simp at h
  · intro j e' hj _ hne'
    exact hv.others_plain hP.roundTrips hgen hi hn hj hne'

/-! ## Runs in order -/

variable (P E)

/-- The invariant of a run in order. -/
structure InOrder (pair : DHKeyPair β → Prop) (w : Party → World β) (bundle : PreKeyBundle β)
    (idA idB : IdentityKeyPair β) (spk : SignedPreKey β) (s : Net β ω) : Prop where
  genuine : ∀ e ∈ s.sent, e.Genuine P
  decoded : Decoded s
  stage : (∃ info SK a sa, Invitation P w bundle idA idB spk info SK ∧
      Invited P E pair w spk info SK s a sa) ∨
    ∃ x a b sa sb, Linked P E pair s x a b sa sb

variable {P E}

omit [DecidableEq β] in
theorem Decoded.concat {s' : Net β ω} (hd : Decoded s) {e : List (Sent β ω)}
    (hsent : s'.sent = s.sent ++ e) (hdel : s'.delivered = s.delivered) : Decoded s' := by
  intro i r hr
  rw [hdel] at hr
  obtain ⟨e', he', hr'⟩ := hd i r hr
  exact ⟨e', by rw [hsent]; exact getElem?_append_of_some he', hr'⟩

theorem Decoded.deliver (hd : Decoded s) {i : ℕ} {e : Sent β ω} (hi : s.sent[i]? = some e)
    (hdel : Delivers P E s i e) : Decoded (s.next P E (.deliver i)) := by
  intro j r hr
  rw [hdel.1]
  rw [hdel.2] at hr
  rcases List.mem_append.mp hr with hr | hr
  · exact hd j r hr
  · obtain ⟨rfl, rfl⟩ := Prod.mk.inj (List.mem_singleton.mp hr)
    exact ⟨e, hi, rfl⟩

theorem Decoded.encrypt (hd : Decoded s) (p : Party) (plaintext : CodeUnits) :
    Decoded (s.next P E (.encrypt p plaintext)) := by
  rcases next_encrypt_cases P E s p plaintext with h | ⟨session, ck, hl, hck⟩
  · rw [h]; exact hd
  · rw [next_encrypt P E plaintext hl hck]
    exact hd.concat rfl rfl

/-- **One step in order keeps the invariant.** -/
theorem InOrder.next (hP : P.Ideal pair) (hs : Setup P E pair w bundle idA idB spk)
    (hinv : InOrder P E pair w bundle idA idB spk s) {ev : Event β} (hev : Orderly s ev) :
    InOrder P E pair w bundle idA idB spk (s.next P E ev) := by
  have hgen := genuine_next P E hinv.genuine ev
  cases ev with
  | initSessionFromBundle p bundle => exact absurd hev id
  | encrypt p plaintext =>
    refine ⟨hgen, hinv.decoded.encrypt p plaintext, ?_⟩
    rcases hinv.stage with ⟨info, SK, a, sa, hi, hv⟩ | ⟨x, a, b, sa, sb, hl⟩
    · cases p with
      | alice =>
        obtain ⟨a', hv'⟩ := hv.send plaintext
        exact .inl ⟨info, SK, a', sa, hi, hv'⟩
      | bob =>
        rw [hv.refuse plaintext]
        exact .inl ⟨info, SK, a, sa, hi, hv⟩
    · exact .inr (hl.encrypt p plaintext)
  | deliver i =>
    cases hi : s.sent[i]? with
    | none => rw [next_deliver_none P E hi]; exact hinv
    | some e =>
      have hturn := hev e hi
      have hboth : ((∃ info SK a sa, Invitation P w bundle idA idB spk info SK ∧
            Invited P E pair w spk info SK (s.next P E (.deliver i)) a sa) ∨
          ∃ x a b sa sb, Linked P E pair (s.next P E (.deliver i)) x a b sa sb) ∧
          Delivers P E s i e := by
        rcases hinv.stage with ⟨info, SK, a, sa, hinvite, hv⟩ | ⟨x, a, b, sa, sb, hl⟩
        · obtain ⟨⟨b, sb, h⟩, hdel⟩ := hv.deliver hP hs hinvite hi hinv.genuine hturn
          exact ⟨.inr ⟨.bob, b, a, sb, sa, h⟩, hdel⟩
        · obtain ⟨h, hdel, -⟩ := hl.deliver hP.roundTrips hP.agrees hs.generated hs.distinct hi
            (hinv.genuine e (List.mem_of_getElem? hi)) hturn.once hturn.chains hturn.skip
          exact ⟨.inr h, hdel⟩
      exact ⟨hgen, hinv.decoded.deliver hi hboth.2, hboth.1⟩

/-- A run in order, from Alice's start on, keeps the invariant. -/
theorem inOrder_reaches (hP : P.Ideal pair) (hs : Setup P E pair w bundle idA idB spk)
    (hrun : Reaches (Net.next P E) Orderly (started P E w bundle) s) :
    InOrder P E pair w bundle idA idB spk s := by
  refine hrun.invariant ?_ fun _ _ hinv hev => hinv.next hP hs hev
  obtain ⟨info, SK, a, sa, hi, hv⟩ := started_invited (ω := ω) hP hs
  have hsent : (started P E w bundle : Net β ω).sent = [] := rfl
  have hdelivered : (started P E w bundle : Net β ω).delivered = [] := rfl
  refine ⟨?_, ?_, .inl ⟨info, SK, a, sa, hi, hv⟩⟩
  · rw [hsent]
    exact fun _ he => absurd he List.not_mem_nil
  · rw [Decoded, hdelivered]
    exact fun _ _ h => absurd h List.not_mem_nil

/-- **End-to-end correctness.**  In every run in order, each envelope delivered
decrypts to the plaintext it was made from exactly when the encodings carry that
plaintext. -/
theorem delivered_plaintext_iff (hP : P.Ideal pair) (hs : Setup P E pair w bundle idA idB spk)
    (hrun : Reaches (Net.next P E) Orderly (started P E w bundle) s) {i : ℕ}
    {r : Except Failure CodeUnits} (hr : (i, r) ∈ s.delivered) :
    ∃ e, s.sent[i]? = some e ∧ (r = .ok e.plaintext ↔ Transportable e.plaintext) := by
  obtain ⟨e, he, rfl⟩ := (inOrder_reaches hP hs hrun).decoded i r hr
  refine ⟨e, he, ?_⟩
  rw [Except.ok.injEq]
  exact textDecode_textEncode_iff e.plaintext

/-! ## On the symbolic platform -/

/-- The key pairs of the two parties. -/
def Named (kp : DHKeyPair Bytes) : Prop :=
  ∃ n, kp = (symbolic Name).toDHKeyPair (pairOf n)

/-- Two new parties, and a bundle of Bob's with one of his one-time pre-keys. -/
theorem newParties_setup {opkIds : List Int} {opkId : Int} (h : opkId ∈ opkIds) :
    Setup (symbolic Name) freshEntropy Named (newParties opkIds) (Party.bob.bundle 1 (some opkId))
      Party.alice.identityKeyPair Party.bob.identityKeyPair (Party.bob.signedPreKey 1) where
  aliceIdentity := rfl
  bobIdentity := rfl
  bundleIdentity := rfl
  spkHeld := rfl
  spkPublic := rfl
  spkSigned := rfl
  opkHeld := by
    rintro _ ⟨⟩
    exact ⟨Party.bob.oneTimePreKey opkId, if_pos h, rfl, .preKey .bob opkId, rfl⟩
  noSession := rfl
  alicePair := ⟨.identity .alice, rfl⟩
  bobPair := ⟨.identity .bob, rfl⟩
  spkPair := ⟨.signedPreKey .bob 1, rfl⟩
  generated p i := ⟨.generated p i, rfl⟩
  distinct := publicKeyAt_injective
  spkFresh _ h := by cases h

/-- The conversation after Alice's start and `events`. -/
def afterStart (events : List (Event Bytes)) : Net Bytes Payload :=
  events.foldl (Net.next (symbolic Name) freshEntropy)
    (started (symbolic Name) freshEntropy (newParties [5]) (Party.bob.bundle 1 (some 5)))

/-- Two turns, the last two envelopes in the wrong order. -/
def twoTurns : List (Event Bytes) :=
  [.encrypt .alice [104], .encrypt .alice [105], .deliver 0, .encrypt .bob [106], .deliver 2,
    .encrypt .alice [107], .encrypt .alice [108], .deliver 4, .deliver 3]

theorem delivered_plaintext_iff_twoTurns :
    ∃ e, (afterStart twoTurns).sent[3]? = some e ∧
      ((.ok [107] : Except Failure CodeUnits) = .ok e.plaintext ↔ Transportable e.plaintext) := by
  have hrun : Admits (Net.next (symbolic Name) freshEntropy) Orderly (afterStart []) twoTurns := by
    decide
  exact delivered_plaintext_iff symbolic_ideal (newParties_setup (by decide)) hrun.reaches
    (by decide : (3, .ok [107]) ∈ (afterStart twoTurns).delivered)

/-- **A leading byte order mark does not arrive.**  Alice sends it before `h`,
and Bob's `decrypt` returns `h`. -/
theorem byte_order_mark_is_dropped :
    ¬ ∀ s : Net Bytes Payload,
      Reaches (Net.next (symbolic Name) freshEntropy) Orderly (afterStart []) s →
      ∀ i r, (i, r) ∈ s.delivered → ∃ e, s.sent[i]? = some e ∧ r = .ok e.plaintext := by
  intro hclaim
  have hrun : Admits (Net.next (symbolic Name) freshEntropy) Orderly (afterStart [])
      [.encrypt .alice [0xFEFF, 104], .deliver 0] := by decide
  obtain ⟨e, he, hr⟩ := hclaim (afterStart [.encrypt .alice [0xFEFF, 104], .deliver 0])
    hrun.reaches 0 (.ok [104]) (by decide)
  have hplain : ((afterStart [.encrypt .alice [0xFEFF, 104], .deliver 0]).sent[0]?).map
      (fun e => e.plaintext) = some [0xFEFF, 104] := by decide
  rw [he, Option.map_some, ← Except.ok.inj hr] at hplain
  exact absurd hplain (by decide)

end Net
end Winkd
