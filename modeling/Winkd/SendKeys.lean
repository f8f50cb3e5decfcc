import Winkd.Conversation

/-!
# The sending chain

Four paths give a session a new sending chain: an initiator's start, a
responder's start, a DH ratchet, and a session replaced by a type-1 envelope.
All of them derive it from the DH output of a key pair the same call generates
(`StartsChain`); no other call but `encrypt` touches the sending side
(`perform_sending`).  So when generated pairs are fresh, a new chain shares no
key and no header with what was sent before, and within a chain `encrypt` counts
up.  This holds whatever envelopes `decrypt` is given and however it fails.
-/

namespace Winkd
open UnicodeText Transitions

/-- The two key derivations never collide: a chain key that comes from a root
step tells which DH output it was made with, and is no successor in a chain;
advancing a chain and extracting a message key are injective. -/
structure Platform.FreeKdf {β ω : Type} (P : Platform β ω) : Prop where
  root : ∀ r z r' z', (P.kdfRootKey r z).chainKey = (P.kdfRootKey r' z').chainKey → r = r' ∧ z = z'
  chain : P.chain.Free fun ck => ∃ r z, ck = (P.kdfRootKey r z).chainKey

namespace SignalSessionManager
variable {β ω : Type} [DecidableEq β] (P : Platform β ω) (E : Entropy β) (peerId : String)

/-! ## Where sending chains come from -/

/-- The session sends on a new chain: its ratchet key is the pair `kp`, and the
chain comes from the DH output `z` of `kp` and the peer's key. -/
structure StartsChain (kp : DHKeyPair β) (peerKey z : β) (session : RatchetSession β) : Prop where
  secret : P.dh kp.privateKeyJwk peerKey = some z
  ourPublic : session.ourRatchetPublic = kp.publicKeyRaw
  ourPrivate : session.ourRatchetPrivate = kp.privateKeyJwk
  count : session.sendCount = 0
  chain : ∃ root, session.sendChainKey = some (P.kdfRootKey root z).chainKey

/-- The DH outputs of the key pairs a call from `w` to `w'` generated for a
sending chain. -/
def newSecrets (w w' : World β) : ManagerCall β ω → List β
  | .encrypt _ => []
  | .initSessionFromBundle bundle =>
    if w'.keysDrawn = w.keysDrawn + 2 then
      (P.dh (P.toDHKeyPair (E.key (w.keysDrawn + 1))).privateKeyJwk
        bundle.signedPreKey.publicKey).toList
    else []
  | .decrypt envelope =>
    if w'.keysDrawn = w.keysDrawn + 1 then
      ((headerOf P envelope).bind fun h => P.dh (nextPair P E w).privateKeyJwk h.rk).toList
    else []

/-- The public key of the `i`-th pair. -/
def publicKeyAt (i : ℕ) : β := (P.toDHKeyPair (E.key i)).publicKeyRaw

variable {P}

theorem dhRatchetDraws_of_ok {kp : DHKeyPair β} {session session' : RatchetSession β} {rk : β}
    {pn : Js.Value} (h : dhRatchetWith P kp session rk pn = .ok session') :
    dhRatchetDraws P session rk pn = 1 := by
  obtain ⟨session₀, d1, d2, hskip, hd1, -, -⟩ := dhRatchetWith_cases P h
  have hpriv : session₀.ourRatchetPrivate = session.ourRatchetPrivate :=
    congrArg SendState.ourRatchetPrivate (skipMessageKeys_sendState P hskip).1
  rw [dhRatchetDraws, hskip]
  simp [hpriv, hd1]

omit [DecidableEq β] in
theorem respondDraws_of_ok {kp : DHKeyPair β} {store : KeyStore β} {msg : WireMessage β}
    {session : RatchetSession β} (h : respondWith P kp store msg = .ok session) :
    respondDraws P store msg = 1 := by
  rw [respondWith] at h
  rw [respondDraws]
  cases hk : handshakeKeys store msg with
  | error e => rw [hk] at h; cases h
  | ok r =>
    obtain ⟨idKP, params, spk⟩ := r
    rw [hk] at h
    dsimp only at h ⊢
    cases hs : handshakeStep P store msg idKP params spk with
    | error e => rw [hs] at h; cases h
    | ok r => rfl

/-- `receive` either leaves the sending side alone and draws no key pair, or
starts a sending chain with the pair it draws. -/
theorem receiveWith_sending {kp : DHKeyPair β} {session session' : RatchetSession β}
    {h : RatchetHeader β} {mk : β} (hr : receiveWith P kp session h = .ok (mk, session')) :
    session'.sendState = session.sendState ∨
      (∃ z, StartsChain P kp h.rk z session') ∧ receiveDraws P session h = 1 := by
  obtain ⟨session₁, ht₁, hret, hcase⟩ := receiveWith_cases P hr
  have hsend := retrieve_sendState P ht₁ hret
  rcases hcase with ⟨-, rfl⟩ | ⟨hne, hd⟩
  · exact .inl hsend
  · right
    rw [receiveDraws, if_pos hne]
    refine ⟨?_, dhRatchetDraws_of_ok hd⟩
    obtain ⟨session₀, d1, d2, -, -, hd2, rfl⟩ := dhRatchetWith_cases P hd
    exact ⟨d2, hd2, congrArg SendState.ourRatchetPublic hsend,
      congrArg SendState.ourRatchetPrivate hsend, congrArg SendState.sendCount hsend,
      _, congrArg SendState.sendChainKey hsend⟩

omit [DecidableEq β] in
/-- A responder's first session starts a sending chain. -/
theorem respondWith_startsChain {kp : DHKeyPair β} {store : KeyStore β} {msg : WireMessage β}
    {h : RatchetHeader β} {session : RatchetSession β} (hh : msg.h = some h)
    (hok : respondWith P kp store msg = .ok session) : ∃ z, StartsChain P kp h.rk z session := by
  obtain ⟨_, _, _, _, h', _, z, -, -, -, -, hh', -, hz, rfl⟩ := respondWith_ok P hok
  rw [hh] at hh'
  cases hh'
  exact ⟨z, hz, rfl, rfl, rfl, _, rfl⟩

/-- Taking a key from a responder's first session leaves its sending side alone. -/
theorem responder_sendState {kp : DHKeyPair β} {store : KeyStore β} {msg : WireMessage β}
    {h : RatchetHeader β} {session session' : RatchetSession β} {mk : β} (hh : msg.h = some h)
    (hok : respondWith P kp store msg = .ok session)
    (hr : receiveWith P kp session h = .ok (mk, session')) :
    session'.sendState = session.sendState := by
  have ht := respondWith_their P hh hok
  rw [receiveWith_of_eq P ht] at hr
  exact retrieve_sendState P ht hr

omit [DecidableEq β] in
theorem StartsChain.of_sendState {kp : DHKeyPair β} {peerKey z : β}
    {session session' : RatchetSession β} (hs : StartsChain P kp peerKey z session)
    (heq : session'.sendState = session.sendState) : StartsChain P kp peerKey z session' :=
  ⟨hs.secret, (congrArg SendState.ourRatchetPublic heq).trans hs.ourPublic,
    (congrArg SendState.ourRatchetPrivate heq).trans hs.ourPrivate,
    (congrArg SendState.sendCount heq).trans hs.count,
    hs.chain.imp fun _ h => (congrArg SendState.sendChainKey heq).trans h⟩

variable {E peerId}

/-- What a call other than `encrypt` does to the sending side of the stored
session: nothing, or it starts a new chain with a pair it has just drawn. -/
structure SendingStep (P : Platform β ω) (E : Entropy β) (peerId : String) (w w' : World β)
    (secrets : List β) : Prop where
  drawn : w.keysDrawn ≤ w'.keysDrawn
  sending : (w'.store.sessions peerId).map RatchetSession.sendState =
      (w.store.sessions peerId).map RatchetSession.sendState ∨
    ∃ session i peerKey z, w'.store.sessions peerId = some session ∧ w.keysDrawn ≤ i ∧
      i < w'.keysDrawn ∧ StartsChain P (P.toDHKeyPair (E.key i)) peerKey z session ∧ z ∈ secrets

theorem initSessionFromBundle_sending (w : World β) (bundle : PreKeyBundle β) :
    SendingStep P E peerId w (perform P E peerId w (.initSessionFromBundle bundle))
      (newSecrets P E w (perform P E peerId w (.initSessionFromBundle bundle))
        (.initSessionFromBundle bundle : ManagerCall β ω)) := by
  rw [perform, newSecrets]
  rcases run_initSessionFromBundle_cases P E peerId bundle w with
    ⟨e, draws, -, hrun⟩ | ⟨idKP, SK, dhOut, -, -, -, hdh, hrun⟩
  · rw [hrun]
    exact ⟨Nat.le_add_right _ _, .inl rfl⟩
  · rw [hrun]
    refine ⟨Nat.le_add_right _ _, .inr ⟨_, w.keysDrawn + 1, bundle.signedPreKey.publicKey, dhOut,
      KeyStore.storeSession_sessions_self .., Nat.le_succ _, Nat.lt_succ_self _,
      ⟨hdh, rfl, rfl, rfl, _, rfl⟩, ?_⟩⟩
    simp [hdh]

/-- A type-2 envelope leaves the sending side as it is, or comes with a DH ratchet. -/
theorem signal_sending (w : World β) {envelope : EncryptedEnvelope ω} {msg : WireMessage β}
    (hparse : P.parse envelope.ciphertext = some msg) (htype : envelope.type = .signalMessage) :
    SendingStep P E peerId w (perform P E peerId w (.decrypt envelope))
      (newSecrets P E w (perform P E peerId w (.decrypt envelope)) (.decrypt envelope)) := by
  rw [perform_decrypt, newSecrets]
  by_cases hex : ∃ session h, w.store.sessions peerId = some session ∧ msg.h = some h
  · obtain ⟨session, h, hs, hh⟩ := hex
    rw [run_decryptKey_signal P E htype hparse hh hs]
    cases hr : receiveWith P (nextPair P E w) session h with
    | error e => exact ⟨Nat.le_add_right _ _, .inl rfl⟩
    | ok r =>
      obtain ⟨mk, session'⟩ := r
      refine ⟨Nat.le_add_right _ _, ?_⟩
      rcases receiveWith_sending hr with hsend | ⟨⟨z, hz⟩, hdraws⟩
      · left
        simp [hs, hsend]
      · right
        refine ⟨session', w.keysDrawn, h.rk, z, KeyStore.storeSession_sessions_self ..,
          Nat.le_refl _, by simp [hdraws], hz, ?_⟩
        simp [hdraws, headerOf_eq P hparse hh, hz.secret]
  · -- without a session or a header the envelope is refused
    obtain ⟨r, store, draws, -, hrun, heff⟩ := run_decryptKey P E peerId envelope w
    rw [hrun]
    cases heff with
    | refused e => exact ⟨Nat.le_add_right _ _, .inl rfl⟩
    | received _ hp hh hl =>
      rw [hparse] at hp
      cases hp
      exact absurd ⟨_, _, hl, hh⟩ hex
    | consumed _ hpre => rw [htype] at hpre; cases hpre
    | created _ hpre => rw [htype] at hpre; cases hpre
    | established hpre => rw [htype] at hpre; cases hpre

/-- A type-1 envelope that is answered starts a session. -/
theorem preKey_sending (w : World β) {envelope : EncryptedEnvelope ω} {msg : WireMessage β}
    (hparse : P.parse envelope.ciphertext = some msg)
    (htype : envelope.type = .preKeySignalMessage) :
    SendingStep P E peerId w (perform P E peerId w (.decrypt envelope))
      (newSecrets P E w (perform P E peerId w (.decrypt envelope)) (.decrypt envelope)) := by
  rw [perform_decrypt, newSecrets]
  cases hresp : respondWith P (nextPair P E w) w.store msg with
  | error e =>
    obtain ⟨r, store, draws, -, hrun, heff⟩ := run_decryptKey P E peerId envelope w
    rw [hrun]
    refine ⟨Nat.le_add_right _ _, .inl ?_⟩
    -- at most the one-time pre-key is consumed
    cases heff with
    | refused e => rfl
    | received hsig => rw [htype] at hsig; cases hsig
    | consumed _ _ hp => simp
    | created _ _ hp _ hok =>
      rw [hparse] at hp
      cases hp
      rw [hresp] at hok
      cases hok
    | established _ hp _ hok =>
      rw [hparse] at hp
      cases hp
      rw [hresp] at hok
      cases hok
  | ok session =>
    obtain ⟨_, _, _, _, h, _, _, _, _, _, _, hh, _⟩ := respondWith_ok P hresp
    obtain ⟨z, hz⟩ := respondWith_startsChain hh hresp
    rw [run_decryptKey_preKey P E htype hparse hh hresp, respondDraws_of_ok hresp]
    have hsecret : z ∈ ((headerOf P envelope).bind fun h =>
        P.dh (nextPair P E w).privateKeyJwk h.rk).toList := by
      simp [headerOf_eq P hparse hh, hz.secret]
    cases hr : receiveWith P (nextPair P E w) session h with
    | error e =>
      exact ⟨Nat.le_succ _, .inr ⟨session, w.keysDrawn, h.rk, z,
        KeyStore.storeSession_sessions_self .., Nat.le_refl _, Nat.lt_succ_self _, hz,
        by rw [if_pos rfl]; exact hsecret⟩⟩
    | ok r =>
      obtain ⟨mk, session'⟩ := r
      exact ⟨Nat.le_succ _, .inr ⟨session', w.keysDrawn, h.rk, z,
        KeyStore.storeSession_sessions_self .., Nat.le_refl _, Nat.lt_succ_self _,
        hz.of_sendState (responder_sendState hh hresp hr), by rw [if_pos rfl]; exact hsecret⟩⟩

theorem decrypt_sending (w : World β) (envelope : EncryptedEnvelope ω) :
    SendingStep P E peerId w (perform P E peerId w (.decrypt envelope))
      (newSecrets P E w (perform P E peerId w (.decrypt envelope)) (.decrypt envelope)) := by
  cases hparse : P.parse envelope.ciphertext with
  | none =>
    have hrun : (decryptKey P peerId envelope).run (serve E) w = (.error .syntaxError, w) := by
      rw [decryptKey, hparse]; rfl
    rw [perform_decrypt, newSecrets, hrun]
    exact ⟨Nat.le_refl _, .inl rfl⟩
  | some msg =>
    cases htype : envelope.type with
    | signalMessage => exact signal_sending w hparse htype
    | preKeySignalMessage => exact preKey_sending w hparse htype

end SignalSessionManager
open SignalSessionManager

/-! ## Runs of one manager -/

/-- A run of one manager: its world, the envelopes `encrypt` has returned, and
the DH outputs of the pairs generated for sending chains. -/
structure SendLog (β ω : Type) where
  world : World β
  returned : List (Returned β ω)
  secrets : List β

namespace SendLog
variable {β ω : Type} [DecidableEq β] (P : Platform β ω) (E : Entropy β) (peerId : String)

/-- What a call returned, if it was an `encrypt`. -/
def returnedOf (w : World β) : ManagerCall β ω → List (Returned β ω)
  | .encrypt plaintext =>
    returnedBy plaintext (w.store.sessions peerId) ((encrypt P peerId plaintext).run (serve E) w).1
  | _ => []

/-- One call. -/
def next (s : SendLog β ω) (call : ManagerCall β ω) : SendLog β ω where
  world := perform P E peerId s.world call
  returned := s.returned ++ returnedOf P E peerId s.world call
  secrets := s.secrets ++ newSecrets P E s.world (perform P E peerId s.world call) call

/-- The pair the call generates for a sending chain, if any, is fresh: it agrees
with the peer's key on a secret no earlier pair agreed on. -/
def Fresh (s : SendLog β ω) (call : ManagerCall β ω) : Prop :=
  ∀ z ∈ newSecrets P E s.world (perform P E peerId s.world call) call, z ∉ s.secrets

instance (s : SendLog β ω) (call : ManagerCall β ω) : Decidable (Fresh P E peerId s call) :=
  inferInstanceAs (Decidable (∀ z ∈ _, z ∉ s.secrets))

/-- A base key made with one of the DH outputs. -/
def Base (secrets : List β) (base : β) : Prop :=
  ∃ r z, z ∈ secrets ∧ base = (P.kdfRootKey r z).chainKey

/-- The key and the header of a send state: at `sendCount` in a chain from a base
of the run, under a ratchet key of the run. -/
structure Placed (secrets : List β) (drawn : ℕ) (ck our : β) (count : Int) : Prop where
  chain : ∃ base, Base P secrets base ∧ ck = P.chain.chainAt base count.toNat
  count_nonneg : 0 ≤ count
  drawn : ∃ i < drawn, our = publicKeyAt P E i

/-- Everything sent so far lies behind the send state: what was sent under its
ratchet key has a smaller number, and what was sent on its chain is at an earlier
place. -/
structure Ahead (returned : List (Returned β ω)) (ck our : β) (count : Int) : Prop where
  header : ∀ e ∈ returned, e.session.ourRatchetPublic = our → e.session.sendCount < count
  key : ∀ e ∈ returned, ∀ j, e.chainKey ≠ P.chain.chainAt ck j

/-- The invariant of a run. -/
structure Inv (s : SendLog β ω) : Prop where
  placed : ∀ e ∈ s.returned, Placed P E s.secrets s.world.keysDrawn e.chainKey
    e.session.ourRatchetPublic e.session.sendCount
  current : ∀ session ck, s.world.store.sessions peerId = some session →
    session.sendChainKey = some ck →
      Placed P E s.secrets s.world.keysDrawn ck session.ourRatchetPublic session.sendCount ∧
        Ahead P s.returned ck session.ourRatchetPublic session.sendCount
  headers : (s.returned.map fun e => (e.header.rk, e.header.n)).Nodup
  keys : (s.returned.map fun e => e.messageKey P).Nodup

variable {P E peerId}

omit [DecidableEq β] in
theorem Placed.mono {secrets secrets' : List β} {drawn drawn' : ℕ} {ck our : β} {count : Int}
    (h : Placed P E secrets drawn ck our count) (hs : secrets ⊆ secrets') (hd : drawn ≤ drawn') :
    Placed P E secrets' drawn' ck our count := by
  obtain ⟨⟨base, ⟨r, z, hz, hb⟩, hck⟩, hc, i, hi, ho⟩ := h
  exact ⟨⟨base, ⟨r, z, hs hz, hb⟩, hck⟩, hc, i, Nat.lt_of_lt_of_le hi hd, ho⟩

omit [DecidableEq β] in
/-- An invariant run stays invariant when only the sending side of the session
matters: the same send state, more draws. -/
theorem Inv.of_sendState {s : SendLog β ω} (hinv : Inv P E peerId s) {w' : World β}
    {secrets : List β} (hdrawn : s.world.keysDrawn ≤ w'.keysDrawn)
    (hsend : (w'.store.sessions peerId).map RatchetSession.sendState =
      (s.world.store.sessions peerId).map RatchetSession.sendState) :
    Inv P E peerId ⟨w', s.returned, s.secrets ++ secrets⟩ where
  placed e he := (hinv.placed e he).mono (List.subset_append_left _ _) hdrawn
  current session ck hs hck := by
    dsimp only at hs hck ⊢
    rw [hs, Option.map_some] at hsend
    obtain ⟨old, hold, heq⟩ := Option.map_eq_some_iff.mp hsend.symm
    have hck' : old.sendChainKey = some ck := (congrArg SendState.sendChainKey heq).trans hck
    have hour : old.ourRatchetPublic = session.ourRatchetPublic :=
      congrArg SendState.ourRatchetPublic heq
    have hcount : old.sendCount = session.sendCount := congrArg SendState.sendCount heq
    obtain ⟨h1, h2⟩ := hinv.current old ck hold hck'
    rw [hour, hcount] at h1 h2
    exact ⟨h1.mono (List.subset_append_left _ _) hdrawn, h2⟩
  headers := hinv.headers
  keys := hinv.keys

omit [DecidableEq β] in
/-- A new sending chain lies ahead of everything sent before. -/
theorem ahead_of_startsChain (hP : P.FreeKdf)
    (hpub : Function.Injective (publicKeyAt P E)) {s : SendLog β ω} (hinv : Inv P E peerId s)
    {session : RatchetSession β} {i : ℕ} {peerKey z ck : β} (hi : s.world.keysDrawn ≤ i)
    (hstart : StartsChain P (P.toDHKeyPair (E.key i)) peerKey z session)
    (hck : session.sendChainKey = some ck) (hz : z ∉ s.secrets) :
    Ahead P s.returned ck session.ourRatchetPublic session.sendCount := by
  obtain ⟨root, hchain⟩ := hstart.chain
  obtain rfl := Option.some.inj (hck.symm.trans hchain)
  refine ⟨fun e he heq => ?_, fun e he j heq => ?_⟩
  · obtain ⟨k, hk, hour⟩ := (hinv.placed e he).drawn
    have hik : i = k := hpub (hstart.ourPublic.symm.trans (heq.symm.trans hour))
    omega
  · obtain ⟨base, ⟨r, z', hz', rfl⟩, hat⟩ := (hinv.placed e he).chain
    obtain ⟨hbase, -⟩ := hP.chain.chainAt_inj ⟨r, z', rfl⟩ ⟨root, z, rfl⟩ (hat.symm.trans heq)
    exact hz ((hP.root _ _ _ _ hbase).2 ▸ hz')

omit [DecidableEq β] in
/-- A call that is not an `encrypt` keeps the invariant. -/
theorem Inv.of_sendingStep (hP : P.FreeKdf) (hpub : Function.Injective (publicKeyAt P E))
    {s : SendLog β ω} (hinv : Inv P E peerId s) {w' : World β} {secrets : List β}
    (hstep : SendingStep P E peerId s.world w' secrets) (hfresh : ∀ z ∈ secrets, z ∉ s.secrets) :
    Inv P E peerId ⟨w', s.returned, s.secrets ++ secrets⟩ := by
  rcases hstep.sending with hsame | ⟨session, i, peerKey, z, hs, hi, hi', hstart, hz⟩
  · exact hinv.of_sendState hstep.drawn hsame
  · refine ⟨fun e he => (hinv.placed e he).mono (List.subset_append_left _ _) hstep.drawn, ?_,
      hinv.headers, hinv.keys⟩
    intro session' ck hs' hck
    obtain rfl := Option.some.inj (hs.symm.trans hs')
    refine ⟨?_, ahead_of_startsChain hP hpub hinv hi hstart hck (hfresh z hz)⟩
    obtain ⟨root, hchain⟩ := hstart.chain
    obtain rfl := Option.some.inj (hck.symm.trans hchain)
    rw [hstart.count]
    exact ⟨⟨_, ⟨root, z, List.mem_append_right _ hz, rfl⟩, rfl⟩, Int.le_refl 0, i, hi',
      hstart.ourPublic⟩

/-- `encrypt` keeps the invariant: the new envelope is the one all others lie
behind. -/
theorem Inv.encrypt (hP : P.FreeKdf) {s : SendLog β ω} (hinv : Inv P E peerId s)
    (plaintext : CodeUnits) : Inv P E peerId (s.next P E peerId (.encrypt plaintext)) := by
  rcases run_encrypt_cases P E peerId plaintext s.world with ⟨e, he⟩ | ⟨session, ck, hs, hck⟩
  · simpa only [next, perform, returnedOf, newSecrets, he, returnedBy, List.append_nil] using hinv
  · obtain ⟨hplaced, hahead⟩ := hinv.current session ck hs hck
    have hrun := run_encrypt P E plaintext hs hck
    simp only [next, perform, returnedOf, newSecrets, hrun, returnedBy, hs, hck, List.append_nil]
    obtain ⟨⟨base, hbase, hat⟩, hcount, hour⟩ := hplaced
    refine ⟨?_, ?_, ?_, ?_⟩
    · intro e he
      rcases List.mem_append.mp he with he | he
      · exact hinv.placed e he
      · rw [List.mem_singleton.mp he]
        exact ⟨⟨base, hbase, hat⟩, hcount, hour⟩
    · intro session' ck' hs' hck'
      dsimp only at hs'
      rw [KeyStore.storeSession_sessions_self] at hs'
      obtain rfl := Option.some.inj hs'
      obtain rfl := Option.some.inj hck'
      -- the next key of the chain is one further from its base
      have hnext : (P.kdfChainKey ck).nextChainKey = P.chain.chainAt base (session.sendCount.toNat + 1) :=
        by rw [KeyChain.chainAt_succ, ← hat]; rfl
      refine ⟨⟨⟨base, hbase, ?_⟩, ?_, hour⟩, ?_, ?_⟩
      · rw [hnext]
        congr 1
        simp only [afterSend]
        omega
      · simp only [afterSend]
        omega
      · intro e he heq
        rcases List.mem_append.mp he with he | he
        · have := hahead.header e he heq
          simp only [afterSend]
          omega
        · rw [List.mem_singleton.mp he]
          simp only [afterSend]
          omega
      · intro e he j heq
        rcases List.mem_append.mp he with he | he
        · exact hahead.key e he (j + 1) heq
        · rw [List.mem_singleton.mp he] at heq
          rw [hnext, KeyChain.chainAt_chainAt, hat] at heq
          obtain ⟨r, z, -, rfl⟩ := hbase
          have := (hP.chain.chainAt_inj ⟨r, z, rfl⟩ ⟨r, z, rfl⟩ heq).2
          omega
    · rw [List.map_append, List.nodup_append]
      refine ⟨hinv.headers, List.nodup_singleton _, ?_⟩
      rintro _ ha _ hb rfl
      obtain ⟨e, he, heq⟩ := List.mem_map.mp ha
      rw [List.map_singleton, List.mem_singleton] at hb
      rw [hb] at heq
      -- an older message of this chain has a lower number
      have := hahead.header e he (Prod.mk.inj heq).1
      have hn : e.session.sendCount = session.sendCount := Js.Value.int_injective (Prod.mk.inj heq).2
      omega
    · rw [List.map_append, List.nodup_append]
      refine ⟨hinv.keys, List.nodup_singleton _, ?_⟩
      rintro _ ha _ hb rfl
      obtain ⟨e, he, heq⟩ := List.mem_map.mp ha
      rw [List.map_singleton, List.mem_singleton] at hb
      rw [hb] at heq
      -- the same message key would come from the chain key that is about to be used
      exact hahead.key e he 0 (hP.chain.message_injective heq)

/-- **One call keeps the invariant.** -/
theorem Inv.next (hP : P.FreeKdf) (hpub : Function.Injective (publicKeyAt P E)) {s : SendLog β ω}
    (hinv : Inv P E peerId s) (call : ManagerCall β ω) (hfresh : Fresh P E peerId s call) :
    Inv P E peerId (s.next P E peerId call) := by
  cases call with
  | encrypt plaintext => exact hinv.encrypt hP plaintext
  | initSessionFromBundle bundle =>
    have h := hinv.of_sendingStep hP hpub (initSessionFromBundle_sending s.world bundle) hfresh
    simpa only [SendLog.next, returnedOf, List.append_nil] using h
  | decrypt envelope =>
    have h := hinv.of_sendingStep hP hpub (decrypt_sending s.world envelope) hfresh
    simpa only [SendLog.next, returnedOf, List.append_nil] using h

/-- A manager without a session for the peer. -/
def start (w : World β) : SendLog β ω := ⟨w, [], []⟩

omit [DecidableEq β] in
theorem inv_start {w : World β} (hnone : w.store.sessions peerId = none) :
    Inv P E peerId (start w : SendLog β ω) where
  placed _ he := by cases he
  current _ _ hs := by rw [start, hnone] at hs; cases hs
  headers := List.nodup_nil
  keys := List.nodup_nil

/-- **No header and no message key is used twice for sending.**  In every run of
one manager that starts without a session, with any bundles, plaintexts and
envelopes, the header pairs of the envelopes returned are pairwise distinct, and
so are their message keys. -/
theorem sending_keys_distinct (hP : P.FreeKdf) (hpub : Function.Injective (publicKeyAt P E))
    {w : World β} (hnone : w.store.sessions peerId = none) {s : SendLog β ω}
    (hrun : Reaches (next P E peerId) (Fresh P E peerId) (start w) s) :
    (s.returned.map fun e => (e.header.rk, e.header.n)).Nodup ∧
      (s.returned.map fun e => e.messageKey P).Nodup := by
  have hinv : Inv P E peerId s :=
    hrun.invariant (inv_start hnone) fun _ call hinv hfresh => hinv.next hP hpub call hfresh
  exact ⟨hinv.headers, hinv.keys⟩

end SendLog

/-! ## The symbolic platform -/

theorem symbolic_freeKdf {N : Type} [LinearOrder N] : (symbolic N).FreeKdf where
  root r z r' z' h := by
    simp only [Platform.kdfRootKey, Platform.hkdf, symbolic, Symbolic.Term.cut,
      Symbolic.Term.slice.injEq, Symbolic.Term.hkdf.injEq] at h
    exact ⟨h.1.2.1, h.1.1⟩
  chain :=
    { next_injective := fun _ _ h => (Symbolic.Term.hmac.inj h).1
      message_injective := fun _ _ h => (Symbolic.Term.hmac.inj h).1
      base_ne_next := by
        rintro _ k ⟨r, z, rfl⟩ h
        cases h }

theorem publicKeyAt_injective (p : Party) :
    Function.Injective (publicKeyAt (symbolic Name) (freshEntropy p)) :=
  fun _ _ h => (Name.generated.inj (Symbolic.Term.pub.inj h)).2

namespace SendLog

/-- Bob answers Alice's first message. -/
def reply : EncryptedEnvelope Payload :=
  let net := conversation [] [.initSessionFromBundle .alice (Party.bob.bundle 1 none),
    .encrypt .alice [104], .deliver 0, .encrypt .bob [105]]
  (net.sent.get ⟨1, by decide⟩).envelope

/-- Alice sends twice, receives the answer and sends again. -/
def aliceCalls : List (ManagerCall Bytes Payload) :=
  [.initSessionFromBundle (Party.bob.bundle 1 none), .encrypt [104], .encrypt [105],
    .decrypt reply, .encrypt [106]]

/-- Her run. -/
def aliceRun : SendLog Bytes Payload :=
  aliceCalls.foldl (next (symbolic Name) (freshEntropy .alice) "bob") (start (newParties [] .alice))

theorem sending_keys_distinct_alice :
    aliceRun.returned.length = 3 ∧
      (aliceRun.returned.map fun e => (e.header.rk, e.header.n)).Nodup ∧
      (aliceRun.returned.map fun e => e.messageKey (symbolic Name)).Nodup := by
  have hrun : Admits (next (symbolic Name) (freshEntropy .alice) "bob")
      (Fresh (symbolic Name) (freshEntropy .alice) "bob") (start (newParties [] .alice))
      aliceCalls := by decide
  exact ⟨by decide, sending_keys_distinct symbolic_freeKdf (publicKeyAt_injective .alice) rfl
    hrun.reaches⟩

end SendLog
end Winkd
