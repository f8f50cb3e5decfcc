import Winkd.Flow

/-!
# Two sessions in step

Between an initiator and a responder that have both started, one party is always
one DH ratchet ahead of the other: it has seen the other's current ratchet key,
and made its own current one in answer.  `Linked` is the invariant of such a
pair of sessions — the root keys are one root step apart, the party ahead
receives on the other's current chain and the party behind on the chain before
the current one — together with a `Flow` in each direction.  `encrypt` and
deliveries of the current chains keep it; the first envelope of the new chain
makes the party behind the one ahead.
-/

namespace Winkd
open UnicodeText Js SignalSessionManager Transitions

namespace Net
variable {β ω : Type} [DecidableEq β] (P : Platform β ω) (E : Party → Entropy β)

/-! ## Runs in order -/

/-- The skips a delivery of `h` needs are within bounds. -/
def WithinSkip (session : Option (RatchetSession β)) (h : RatchetHeader β) : Prop :=
  match session with
  | none => h.number ≤ MAX_SKIP
  | some session =>
    if session.theirRatchetPublic = some h.rk then h.number ≤ session.count + MAX_SKIP
    else h.number ≤ MAX_SKIP ∧
      (session.recvChainKey = none ∨ h.previous ≤ session.count + MAX_SKIP)

/-- A delivery in order: the envelope was not delivered before; the first one Bob
gets from Alice has type 1; nothing of a later chain of the sender has arrived;
and no chain has to be skipped too far. -/
structure InTurn (s : Net β ω) (i : ℕ) (e : Sent β ω) : Prop where
  once : i ∉ s.positions
  first : e.sender = .alice →
    (∀ j ∈ s.positions, ∀ e' ∈ s.sent[j]?, e'.sender ≠ .alice) →
    e.envelope.type = .preKeySignalMessage
  chains : ∀ j ∈ s.positions, ∀ e' ∈ s.sent[j]?, e'.sender = e.sender →
    e'.header.rk = e.header.rk ∨ j < i
  skip : WithinSkip (s.session e.sender.other) e.header

/-- The steps of a run in order, after Alice has started the session. -/
def Orderly (s : Net β ω) : Event β → Prop
  | .initSessionFromBundle _ _ => False
  | .encrypt _ _ => True
  | .deliver i => ∀ e ∈ s.sent[i]?, InTurn s i e

instance (session : Option (RatchetSession β)) (h : RatchetHeader β) :
    Decidable (WithinSkip session h) :=
  match session with
  | none => inferInstanceAs (Decidable (h.number ≤ MAX_SKIP))
  | some _ => inferInstanceAs (Decidable (ite _ _ _))

instance (s : Net β ω) (i : ℕ) (e : Sent β ω) : Decidable (InTurn s i e) :=
  decidable_of_iff (i ∉ s.positions ∧
      (e.sender = .alice → (∀ j ∈ s.positions, ∀ e' ∈ s.sent[j]?, e'.sender ≠ .alice) →
        e.envelope.type = .preKeySignalMessage) ∧
      (∀ j ∈ s.positions, ∀ e' ∈ s.sent[j]?, e'.sender = e.sender →
        e'.header.rk = e.header.rk ∨ j < i) ∧
      WithinSkip (s.session e.sender.other) e.header)
    ⟨fun h => ⟨h.1, h.2.1, h.2.2.1, h.2.2.2⟩, fun h => ⟨h.once, h.first, h.chains, h.skip⟩⟩

instance (s : Net β ω) : (ev : Event β) → Decidable (Orderly s ev)
  | .initSessionFromBundle _ _ => isFalse id
  | .encrypt _ _ => isTrue trivial
  | .deliver i => inferInstanceAs (Decidable (∀ e ∈ s.sent[i]?, InTurn s i e))

/-! ## The other party's world is untouched -/

omit [DecidableEq β] in
theorem session_update_self (w : Party → World β) (p : Party) (w' : World β)
    (sent : List (Sent β ω)) (delivered : List (ℕ × Except Failure CodeUnits))
    (used : Party → List β) :
    (⟨Function.update w p w', sent, delivered, used⟩ : Net β ω).session p =
      w'.store.sessions p.other.userId := by
  simp [session]

omit [DecidableEq β] in
theorem session_update_ne (w : Party → World β) {p q : Party} (hne : q ≠ p) (w' : World β)
    (sent : List (Sent β ω)) (delivered : List (ℕ × Except Failure CodeUnits))
    (used : Party → List β) :
    (⟨Function.update w p w', sent, delivered, used⟩ : Net β ω).session q =
      (w q).store.sessions q.other.userId := by
  simp [session, hne]

/-! ## Deliveries -/

/-- A delivery of a type-2 envelope whose key is found. -/
theorem next_deliver_signal (hP : P.RoundTrips) {s : Net β ω} {i : ℕ} {e : Sent β ω}
    {session session' : RatchetSession β} (hi : s.sent[i]? = some e) (he : e.Genuine P)
    (htype : e.envelope.type = .signalMessage) (hs : s.session e.sender.other = some session)
    (hr : receiveWith P (nextPair P (E e.sender.other) (s.world e.sender.other)) session e.header =
      .ok (e.messageKey P, session')) :
    s.next P E (.deliver i) =
      { world := Function.update s.world e.sender.other
          { store := (s.world e.sender.other).store.storeSession e.sender.userId session'
            keysDrawn := (s.world e.sender.other).keysDrawn + receiveDraws P session e.header
            ivsDrawn := (s.world e.sender.other).ivsDrawn }
        sent := s.sent
        delivered := s.delivered ++ [(i, .ok (textDecode (textEncode e.plaintext)))]
        used := Function.update s.used e.sender.other
          (s.used e.sender.other ++ [e.messageKey P]) } := by
  obtain ⟨msg, hparse, hh, -, -, hopen⟩ := he.parse hP
  have hs' : (s.world e.sender.other).store.sessions e.sender.userId = some session := by
    rw [← hs, Net.session, Party.other_other]
  have hkey := run_decryptKey_signal P (E e.sender.other) htype hparse hh hs'
  rw [hr] at hkey
  have hdec := run_decrypt P (E e.sender.other) e.sender.userId e.envelope (s.world e.sender.other)
  rw [hkey] at hdec
  simp only [hopen] at hdec
  rw [next_deliver P E hi, hkey, hdec]
  rfl

/-- A delivery of a type-1 envelope whose handshake succeeds and whose key is
found. -/
theorem next_deliver_preKey (hP : P.RoundTrips) {s : Net β ω} {i : ℕ} {e : Sent β ω}
    {msg : WireMessage β} {session session' : RatchetSession β} (hi : s.sent[i]? = some e)
    (he : e.Genuine P) (htype : e.envelope.type = .preKeySignalMessage)
    (hparse : P.parse e.envelope.ciphertext = some msg)
    (hs : respondWith P (nextPair P (E e.sender.other) (s.world e.sender.other))
      (s.world e.sender.other).store msg = .ok session)
    (hr : retrieveMessageKey P session e.header.rk e.header.n = .ok (e.messageKey P, session')) :
    s.next P E (.deliver i) =
      { world := Function.update s.world e.sender.other
          { store := (respondStore (s.world e.sender.other).store msg).storeSession
              e.sender.userId session'
            keysDrawn := (s.world e.sender.other).keysDrawn + 1
            ivsDrawn := (s.world e.sender.other).ivsDrawn }
        sent := s.sent
        delivered := s.delivered ++ [(i, .ok (textDecode (textEncode e.plaintext)))]
        used := Function.update s.used e.sender.other
          (s.used e.sender.other ++ [e.messageKey P]) } := by
  obtain ⟨msg', hparse', hh, -, -, hopen⟩ := he.parse hP
  obtain rfl := Option.some.inj (hparse.symm.trans hparse')
  have ht := respondWith_their P hh hs
  have hkey := @run_decryptKey_preKey _ _ _ P (E e.sender.other) e.sender.userId _ _ _ _ _ htype
    hparse hh hs
  rw [receiveWith_of_eq P ht, hr, respondDraws_of_ok hs] at hkey
  have hdec := run_decrypt P (E e.sender.other) e.sender.userId e.envelope (s.world e.sender.other)
  rw [hkey] at hdec
  simp only [hopen] at hdec
  rw [next_deliver P E hi, hkey, hdec]
  rfl

/-! ## The invariant -/

/-- The receiver that is behind is in step with the chain before the sender's
current one, or has received nothing yet. -/
def ReceivesBefore (drawn : ℕ) (sent : List (Sent β ω)) (p : Party) (rcv : RatchetSession β) :
    Prop :=
  (rcv.recvChainKey = none ∧ rcv.skipped = ∅ ∧
      ∀ e ∈ sent, e.sender = p → rcv.theirRatchetPublic ≠ some e.header.rk) ∨
    ∃ base, InStepFrom P base rcv ∧
      (∀ k, rcv.theirRatchetPublic = some k → Drawn P (E p) drawn k) ∧
      ∀ e ∈ sent, e.sender = p → rcv.theirRatchetPublic = some e.header.rk →
        0 ≤ e.header.number ∧ e.messageKey P = P.chain.messageAt base e.header.number.toNat

/-- A key pair of a session. -/
def ratchetPair (session : RatchetSession β) : DHKeyPair β :=
  ⟨session.ourRatchetPublic, session.ourRatchetPrivate⟩

/-- The party `x` is one ratchet ahead: `a` is its session, `b` the other's, and
`sa`, `sb` are the bases of their sending chains. -/
structure Linked (pair : DHKeyPair β → Prop) (s : Net β ω) (x : Party) (a b : RatchetSession β)
    (sa sb : β) : Prop where
  ahead : s.session x = some a
  behind : s.session x.other = some b
  their : a.theirRatchetPublic = some b.ourRatchetPublic
  unseen : b.theirRatchetPublic ≠ some a.ourRatchetPublic
  unsaved : ∀ j, b.skipped.lookup (a.ourRatchetPublic, j) = none
  /-- The root step the party behind has still to make. -/
  root : ∃ z, P.dh b.ourRatchetPrivate a.ourRatchetPublic = some z ∧
    P.kdfRootKey b.rootKey z = ⟨a.rootKey, sa⟩
  aheadPair : pair (ratchetPair a)
  behindPair : pair (ratchetPair b)
  out : Flow P (E x) (s.world x).keysDrawn s.sent s.positions x a b sa
  back : Flow P (E x.other) (s.world x.other).keysDrawn s.sent s.positions x.other b a sb
  receives : InStepFrom P sb a
  receivesBefore : ReceivesBefore P E (s.world x).keysDrawn s.sent x b
  aheadPlain : a.pendingPreKeyMsg = none
  behindPlain : b.pendingPreKeyMsg = none
  types : ∀ (i : ℕ) (e : Sent β ω), s.sent[i]? = some e → i ∉ s.positions →
    e.envelope.type = .signalMessage

/-- Every delivery gave what `TextDecoder` makes of the plaintext's encoding. -/
def Decoded (s : Net β ω) : Prop :=
  ∀ i r, (i, r) ∈ s.delivered →
    ∃ e, s.sent[i]? = some e ∧ r = .ok (textDecode (textEncode e.plaintext))

variable {P E}

/-! ## Encryptions -/

theorem InStepFrom.afterSend {base ck : β} {session : RatchetSession β}
    (h : InStepFrom P base session) : InStepFrom P base (afterSend session ck) :=
  ⟨h.count_int, h.count_nonneg, h.key, h.saved⟩

omit [DecidableEq β] in
theorem nextType_plain {session : RatchetSession β} (h : session.pendingPreKeyMsg = none) :
    nextType session = .signalMessage := by
  simp [nextType, preKeyInfo, h]

omit [DecidableEq β] in
theorem afterSend_plain {session : RatchetSession β} (h : session.pendingPreKeyMsg = none) (ck : β) :
    (afterSend session ck).pendingPreKeyMsg = none := by
  simp [SignalSessionManager.afterSend, h]

theorem ReceivesBefore.concat {drawn : ℕ} {sent : List (Sent β ω)} {p : Party}
    {rcv : RatchetSession β} (h : ReceivesBefore P E drawn sent p rcv) {e : Sent β ω}
    (he : e.sender = p → rcv.theirRatchetPublic ≠ some e.header.rk) :
    ReceivesBefore P E drawn (sent ++ [e]) p rcv := by
  have hcases : ∀ e' ∈ sent ++ [e], e'.sender = p → rcv.theirRatchetPublic = some e'.header.rk →
      e' ∈ sent := by
    intro e' he' hs ht
    rcases List.mem_append.mp he' with h | h
    · exact h
    · rw [List.mem_singleton.mp h] at hs ht
      exact absurd ht (he hs)
  rcases h with ⟨h1, h2, h3⟩ | ⟨base, h1, h2, h3⟩
  · exact .inl ⟨h1, h2, fun e' he' hs ht => h3 e' (hcases e' he' hs ht) hs ht⟩
  · exact .inr ⟨base, h1, h2, fun e' he' hs ht => h3 e' (hcases e' he' hs ht) hs ht⟩

variable {pair : DHKeyPair β → Prop} {s : Net β ω} {x : Party} {a b : RatchetSession β} {sa sb : β}

/-- The party ahead sends. -/
theorem Linked.sendAhead (hl : Linked P E pair s x a b sa sb) (plaintext : CodeUnits) :
    ∃ a', Linked P E pair (s.next P E (.encrypt x plaintext)) x a' b sa sb := by
  have hck := hl.out.key
  rw [next_encrypt P E plaintext hl.ahead hck]
  set ck := P.chain.chainAt sa a.sendCount.toNat
  have hne : x ≠ x.other := x.ne_other
  refine ⟨SignalSessionManager.afterSend a (P.kdfChainKey ck).nextChainKey, ?_⟩
  constructor
  · rw [session_update_self]
    exact KeyStore.storeSession_sessions_self ..
  · rw [session_update_ne _ hne.symm]
    exact hl.behind
  · exact hl.their
  · exact hl.unseen
  · exact hl.unsaved
  · exact hl.root
  · exact hl.aheadPair
  · exact hl.behindPair
  · simp only [Function.update_self]
    exact hl.out.send rfl rfl hck
  · simp only [Function.update_of_ne hne.symm]
    refine (hl.back.other (e := nextSent P E s x plaintext a ck) hne).congr (Nat.le_refl _) ?_ ?_ ?_
      ?_ (List.Subset.refl _) <;> rfl
  · exact InStepFrom.afterSend hl.receives
  · simp only [Function.update_self]
    exact hl.receivesBefore.concat fun _ => hl.unseen
  · exact afterSend_plain hl.aheadPlain _
  · exact hl.behindPlain
  · intro i e hi hnot
    rcases getElem?_concat_cases hi with hi | ⟨-, rfl⟩
    · exact hl.types i e hi hnot
    · exact nextType_plain hl.aheadPlain

/-- The party behind sends. -/
theorem Linked.sendBehind (hl : Linked P E pair s x a b sa sb) (plaintext : CodeUnits) :
    ∃ b', Linked P E pair (s.next P E (.encrypt x.other plaintext)) x a b' sa sb := by
  have hck := hl.back.key
  rw [next_encrypt P E plaintext hl.behind hck]
  set ck := P.chain.chainAt sb b.sendCount.toNat
  have hne : x ≠ x.other := x.ne_other
  refine ⟨SignalSessionManager.afterSend b (P.kdfChainKey ck).nextChainKey, ?_⟩
  constructor
  · rw [session_update_ne _ hne]
    exact hl.ahead
  · rw [session_update_self]
    exact KeyStore.storeSession_sessions_self ..
  · exact hl.their
  · exact hl.unseen
  · exact hl.unsaved
  · exact hl.root
  · exact hl.aheadPair
  · exact hl.behindPair
  · simp only [Function.update_of_ne hne]
    refine (hl.out.other (e := nextSent P E s x.other plaintext b ck) hne.symm).congr
      (Nat.le_refl _) ?_ ?_ ?_ ?_ (List.Subset.refl _) <;> rfl
  · simp only [Function.update_self]
    exact hl.back.send rfl rfl hck
  · exact hl.receives
  · simp only [Function.update_of_ne hne]
    have hbefore : ReceivesBefore P E (s.world x).keysDrawn (s.sent ++
        [nextSent P E s x.other plaintext b ck]) x b :=
      hl.receivesBefore.concat fun hs => absurd hs hne.symm
    rcases hbefore with h | ⟨base, h1, h2⟩
    · exact .inl h
    · exact .inr ⟨base, InStepFrom.afterSend h1, h2⟩
  · exact hl.aheadPlain
  · exact afterSend_plain hl.behindPlain _
  · intro i e hi hnot
    rcases getElem?_concat_cases hi with hi | ⟨-, rfl⟩
    · exact hl.types i e hi hnot
    · exact nextType_plain hl.behindPlain

/-- One of two linked parties sends. -/
theorem Linked.encrypt (hl : Linked P E pair s x a b sa sb) (p : Party) (plaintext : CodeUnits) :
    ∃ x a b sa sb, Linked P E pair (s.next P E (.encrypt p plaintext)) x a b sa sb := by
  rcases x.eq_or_eq_other p with rfl | rfl
  · obtain ⟨a', h⟩ := hl.sendAhead plaintext
    exact ⟨_, _, _, _, _, h⟩
  · obtain ⟨b', h⟩ := hl.sendBehind plaintext
    exact ⟨_, _, _, _, _, h⟩

/-! ## Deliveries of the current chains -/

/-- What a delivery that decrypts leaves behind, besides the receiver's world. -/
def Delivers (P : Platform β ω) (E : Party → Entropy β) (s : Net β ω) (i : ℕ) (e : Sent β ω) : Prop :=
  (s.next P E (.deliver i)).sent = s.sent ∧
    (s.next P E (.deliver i)).delivered =
      s.delivered ++ [(i, .ok (textDecode (textEncode e.plaintext)))]

/-- What a delivery of `e`, sent from `snd`, leaves of its receiver's session: it receives on the
chain of `e`, and its counter is just past `e`, unless it was past it before.  Its sending side
stays as it is, or moves to a new chain, under a key that was not drawn before; the sender has
then seen the one it moves from. -/
structure Heard (P : Platform β ω) (E : Entropy β) (drawn : ℕ) (e : Sent β ω)
    (snd rcv rcv' : RatchetSession β) : Prop where
  their : rcv'.theirRatchetPublic = some e.header.rk
  counted : rcv.theirRatchetPublic = some e.header.rk ∧ e.header.number < rcv.count ∨
    rcv'.count = e.header.number + 1
  sending : rcv'.sendState = rcv.sendState ∨
    snd.theirRatchetPublic = some rcv.ourRatchetPublic ∧ rcv'.sendCount = 0 ∧
      rcv'.prevSendCount = rcv.sendCount ∧ ¬ Drawn P E drawn rcv'.ourRatchetPublic

/-- Taking a key of the current chain. -/
theorem heard_of_taken {E : Entropy β} {drawn : ℕ} {e : Sent β ω} {snd rcv rcv' : RatchetSession β}
    (h : Taken e.header.rk e.header.number rcv rcv')
    (htheir : rcv.theirRatchetPublic = some e.header.rk) : Heard P E drawn e snd rcv rcv' where
  their := h.their.trans htheir
  counted := h.counted.imp_left fun hc => ⟨htheir, hc.1⟩
  sending := .inl h.sendState

theorem Delivers.positions {i : ℕ} {e : Sent β ω} (h : Delivers P E s i e) :
    (s.next P E (.deliver i)).positions = s.positions ++ [i] := by
  rw [Net.positions, h.2, List.map_append]
  rfl

/-- A key of the current receiving chain: it is found, and taking it is all that
happens to the session. -/
theorem receive_current (hP : P.RoundTrips) {kp : DHKeyPair β} {base : β}
    {rcv : RatchetSession β} {h : RatchetHeader β} (hin : InStepFrom P base rcv)
    (htheir : rcv.theirRatchetPublic = some h.rk)
    (hn : h.n = .int h.number)
    (hsaved : h.number < rcv.count → (rcv.skipped.lookup (h.rk, intText h.number)).isSome)
    (hskip : WithinSkip (some rcv) h) :
    ∃ rcv', receiveWith P kp rcv h = .ok (P.chain.messageAt base h.number.toNat, rcv') ∧
      InStepFrom P base rcv' ∧ Taken h.rk h.number rcv rcv' := by
  rw [WithinSkip, if_pos htheir] at hskip
  rw [receiveWith_of_eq P htheir, hn]
  refine retrieve_in_order hP hin htheir ?_ hskip
  by_cases hlt : h.number < rcv.count
  · exact .inl (hsaved hlt)
  · exact .inr (by omega)

/-- The counter of the party behind is an integer, once it receives. -/
theorem Linked.behindCount (hl : Linked P E pair s x a b sa sb) :
    b.recvChainKey = none ∨ b.recvCount = .int b.count := by
  rcases hl.receivesBefore with ⟨hnone, -⟩ | ⟨_, hin, -⟩
  · exact .inl hnone
  · exact .inr hin.count_int

/-- The party behind receives from its current chain. -/
theorem Linked.deliverBehind (hP : P.RoundTrips) (hl : Linked P E pair s x a b sa sb) {i : ℕ}
    {e : Sent β ω} (hi : s.sent[i]? = some e) (he : e.Genuine P) (hsender : e.sender = x)
    (htheir : b.theirRatchetPublic = some e.header.rk) (honce : i ∉ s.positions)
    (hskip : WithinSkip (some b) e.header) :
    (∃ b', Linked P E pair (s.next P E (.deliver i)) x a b' sa sb ∧
      Heard P (E x.other) (s.world x.other).keysDrawn e a b b') ∧ Delivers P E s i e := by
  have hmem := List.mem_of_getElem? hi
  have hsess : s.session e.sender.other = some b := by rw [hsender]; exact hl.behind
  rcases hl.receivesBefore with ⟨-, -, hnone⟩ | ⟨base, hin, hdrawn, hchain⟩
  · exact absurd htheir (hnone e hmem hsender)
  obtain ⟨-, hmk⟩ := hchain e hmem hsender htheir
  obtain ⟨b', hr, hin', htaken⟩ := receive_current hP hin htheir rfl
    (hl.out.saved i e hi hsender htheir honce) hskip
  rw [← hmk] at hr
  have hnext := next_deliver_signal P E hP hi he (hl.types i e hi honce) hsess hr
  have hdel : Delivers P E s i e := by rw [Delivers, hnext]; exact ⟨rfl, rfl⟩
  refine ⟨⟨b', ?_, heard_of_taken htaken htheir⟩, hdel⟩
  have hpos := hdel.positions
  rw [hsender] at hnext
  have hne : x ≠ x.other := x.ne_other
  have hour : b'.ourRatchetPublic = b.ourRatchetPublic :=
    congrArg SendState.ourRatchetPublic htaken.sendState
  have hpriv : b'.ourRatchetPrivate = b.ourRatchetPrivate :=
    congrArg SendState.ourRatchetPrivate htaken.sendState
  have hroot : b'.rootKey = b.rootKey := congrArg SendState.rootKey htaken.sendState
  have hpending : b'.pendingPreKeyMsg = b.pendingPreKeyMsg :=
    congrArg SendState.pendingPreKeyMsg htaken.sendState
  constructor
  · rw [hnext, session_update_ne _ hne]
    exact hl.ahead
  · rw [hnext, session_update_self, Party.other_other]
    exact KeyStore.storeSession_sessions_self ..
  · rw [hour]; exact hl.their
  · rw [htaken.their]; exact hl.unseen
  · intro j
    -- What is new is saved under the chain the party behind is receiving on.
    cases hj : b'.skipped.lookup (a.ourRatchetPublic, j) with
    | none => rfl
    | some v =>
      rcases htaken.labels a.ourRatchetPublic j (by rw [hj]; rfl) with h | h
      · rw [hl.unsaved j] at h; cases h
      · exact absurd (h ▸ htheir) hl.unseen
  · rw [hpriv, hroot]; exact hl.root
  · exact hl.aheadPair
  · rw [ratchetPair, hour, hpriv]; exact hl.behindPair
  · rw [hpos, hnext]
    simp only [Function.update_of_ne hne]
    exact hl.out.take hi hsender htheir htaken fun heq => absurd heq hl.unseen
  · rw [hpos, hnext]
    simp only [Function.update_self]
    exact hl.back.congr (Nat.le_add_right _ _) htaken.sendState rfl rfl rfl
      (List.subset_append_left _ _)
  · exact hl.receives
  · rw [hnext]
    simp only [Function.update_of_ne hne]
    refine .inr ⟨base, hin', ?_, ?_⟩
    · rw [htaken.their]; exact hdrawn
    · rw [htaken.their]; exact hchain
  · exact hl.aheadPlain
  · rw [hpending]; exact hl.behindPlain
  · rw [hdel.1, hpos]
    exact fun j e' hj hnot => hl.types j e' hj fun h => hnot (List.mem_append_left _ h)

/-- The party ahead receives from the other's current chain. -/
theorem Linked.deliverAhead (hP : P.RoundTrips) (hl : Linked P E pair s x a b sa sb) {i : ℕ}
    {e : Sent β ω} (hi : s.sent[i]? = some e) (he : e.Genuine P) (hsender : e.sender = x.other)
    (hrk : e.header.rk = b.ourRatchetPublic) (honce : i ∉ s.positions)
    (hskip : WithinSkip (some a) e.header) :
    (∃ a', Linked P E pair (s.next P E (.deliver i)) x a' b sa sb ∧
      Heard P (E x) (s.world x).keysDrawn e b a a') ∧ Delivers P E s i e := by
  have hmem := List.mem_of_getElem? hi
  have htheir : a.theirRatchetPublic = some e.header.rk := by rw [hl.their, hrk]
  have hsess : s.session e.sender.other = some a := by
    rw [hsender, Party.other_other]; exact hl.ahead
  obtain ⟨-, hlt, -, hmk⟩ := hl.back.chain e hmem hsender hrk
  obtain ⟨a', hr, hin', htaken⟩ := receive_current hP hl.receives htheir rfl
    (hl.back.saved i e hi hsender htheir honce) hskip
  rw [← hmk] at hr
  have hnext := next_deliver_signal P E hP hi he (hl.types i e hi honce) hsess hr
  have hdel : Delivers P E s i e := by rw [Delivers, hnext]; exact ⟨rfl, rfl⟩
  refine ⟨⟨a', ?_, heard_of_taken htaken htheir⟩, hdel⟩
  have hpos := hdel.positions
  rw [hsender, Party.other_other] at hnext
  -- the sender has not moved, and the receiver has kept its sending side
  have hne : x ≠ x.other := x.ne_other
  have hour : a'.ourRatchetPublic = a.ourRatchetPublic :=
    congrArg SendState.ourRatchetPublic htaken.sendState
  have hpriv : a'.ourRatchetPrivate = a.ourRatchetPrivate :=
    congrArg SendState.ourRatchetPrivate htaken.sendState
  have hroot : a'.rootKey = a.rootKey := congrArg SendState.rootKey htaken.sendState
  have hpending : a'.pendingPreKeyMsg = a.pendingPreKeyMsg :=
    congrArg SendState.pendingPreKeyMsg htaken.sendState
  constructor
  · rw [hnext, session_update_self]
    exact KeyStore.storeSession_sessions_self ..
  · rw [hnext, session_update_ne _ hne.symm]
    exact hl.behind
  · rw [htaken.their]; exact hl.their
  · rw [hour]; exact hl.unseen
  · rw [hour]; exact hl.unsaved
  · rw [hour, hroot]; exact hl.root
  · rw [ratchetPair, hour, hpriv]; exact hl.aheadPair
  · exact hl.behindPair
  · rw [hpos, hnext]
    simp only [Function.update_self]
    exact hl.out.congr (Nat.le_add_right _ _) htaken.sendState rfl rfl rfl
      (List.subset_append_left _ _)
  · rw [hpos, hnext]
    simp only [Function.update_of_ne hne.symm]
    exact hl.back.take hi hsender htheir htaken fun _ => hlt
  · exact hin'
  · rw [hnext]
    simp only [Function.update_self]
    rcases hl.receivesBefore with h | ⟨base, h1, h2, h3⟩
    · exact .inl h
    · exact .inr ⟨base, h1, fun k hk => (h2 k hk).mono (Nat.le_add_right _ _), h3⟩
  · rw [hpending]; exact hl.aheadPlain
  · exact hl.behindPlain
  · rw [hdel.1, hpos]
    exact fun j e' hj hnot => hl.types j e' hj fun h => hnot (List.mem_append_left _ h)

/-! ## Turning to a new chain -/

/-- The session `b₁` that has turned to `k`, and has received nothing of the new
chain yet. -/
structure Turned (P : Platform β ω) (kp : DHKeyPair β) (k root base : β) (b₁ : RatchetSession β) :
    Prop where
  their : b₁.theirRatchetPublic = some k
  recvCount : b₁.recvCount = .int 0
  chain : b₁.recvChainKey = some base
  fresh : ∀ j, b₁.skipped.lookup (k, j) = none
  sending : ∃ z, P.dh kp.privateKeyJwk k = some z ∧ b₁.rootKey = (P.kdfRootKey root z).newRootKey ∧
    b₁.sendChainKey = some (P.kdfRootKey root z).chainKey
  sendCount : b₁.sendCount = 0
  ours : ratchetPair b₁ = kp

theorem Turned.count {kp : DHKeyPair β} {k root base : β} {b₁ : RatchetSession β}
    (h : Turned P kp k root base b₁) : b₁.count = 0 := by
  rw [RatchetSession.count, h.recvCount]
  rfl

theorem Turned.inStep {kp : DHKeyPair β} {k root base : β} {b₁ : RatchetSession β}
    (h : Turned P kp k root base b₁) : InStepFrom P base b₁ := by
  refine ⟨by rw [h.count, h.recvCount], by rw [h.count], by rw [h.chain, h.count]; rfl,
    fun their t v ht hv => ?_⟩
  rw [h.their] at ht
  rw [← Option.some.inj ht, h.fresh t] at hv
  cases hv

/-- The first key of a chain the session has turned to. -/
theorem Turned.receive (hP : P.RoundTrips) {kp : DHKeyPair β} {root base : β}
    {h : RatchetHeader β} {b₁ : RatchetSession β} (ht : Turned P kp h.rk root base b₁)
    (hint : h.n = .int h.number) (hn : 0 ≤ h.number) (hmax : h.number ≤ MAX_SKIP) :
    ∃ b', retrieveMessageKey P b₁ h.rk h.n = .ok (P.chain.messageAt base h.number.toNat, b') ∧
      InStepFrom P base b' ∧ Taken h.rk h.number b₁ b' := by
  rw [hint]
  exact retrieve_in_order hP ht.inStep ht.their (.inr (ht.count ▸ hn)) (by rw [ht.count]; omega)

/-- A DH ratchet on the envelope of a chain the session has not seen. -/
theorem ratchet_turned {kp : DHKeyPair β} {b : RatchetSession β} {h : RatchetHeader β}
    {z z₂ root base : β} (hne : b.theirRatchetPublic ≠ some h.rk)
    (hfresh : ∀ j, b.skipped.lookup (h.rk, j) = none) (hz : P.dh b.ourRatchetPrivate h.rk = some z)
    (hroot : P.kdfRootKey b.rootKey z = ⟨root, base⟩) (hz₂ : P.dh kp.privateKeyJwk h.rk = some z₂)
    (hcount : b.recvChainKey = none ∨ b.recvCount = .int b.count) (hprevious : h.pn = .int h.previous)
    (hskip : WithinSkip (some b) h) :
    ∃ b₁, receiveWith P kp b h = retrieveMessageKey P b₁ h.rk h.n ∧ receiveDraws P b h = 1 ∧
      Turned P kp h.rk root base b₁ ∧ b₁.pendingPreKeyMsg = b.pendingPreKeyMsg ∧
      b₁.prevSendCount = b.sendCount ∧ ∀ k j, (b₁.skipped.lookup (k, j)).isSome → (b.skipped.lookup (k, j)).isSome ∨
        b.recvChainKey ≠ none ∧ b.theirRatchetPublic = some k := by
  rw [WithinSkip, if_neg hne] at hskip
  -- The skip of the old chain succeeds, and saves under the old key only.
  have hold : ∃ b₀, skipMessageKeys P b h.pn = .ok b₀ ∧
      ∀ k j, (b₀.skipped.lookup (k, j)).isSome → (b.skipped.lookup (k, j)).isSome ∨
        b.recvChainKey ≠ none ∧ b.theirRatchetPublic = some k := by
    cases hck : b.recvChainKey with
    | none => exact ⟨b, skipMessageKeys_none P _ (.inl hck), fun _ _ h => .inl h⟩
    | some ck =>
      cases hth : b.theirRatchetPublic with
      | none => exact ⟨b, skipMessageKeys_none P _ (.inr hth), fun _ _ h => .inl h⟩
      | some their =>
        have hpn : h.previous ≤ b.count + MAX_SKIP :=
          hskip.2.resolve_left (by rw [hck]; simp)
        have hpasses : skipPasses b.recvCount h.pn = .ok (h.previous - b.count).toNat := by
          rw [hcount.resolve_left (by rw [hck]; simp), hprevious]
          exact skipPasses_int_ok hpn
        have hskipped := skipMessageKeys_some P h.pn hck hth
        rw [hpasses] at hskipped
        refine ⟨_, hskipped, ?_⟩
        intro k j hsome
        obtain ⟨v, hv⟩ := Option.isSome_iff_exists.mp hsome
        rcases lookup_saveKeys_cases hv with hold | ⟨hk, -⟩
        · exact .inl (hold ▸ rfl)
        · exact .inr ⟨by simp, by rw [hk]⟩
  obtain ⟨b₀, hb₀, hlabels⟩ := hold
  have hd := dhRatchetWith_ok P hb₀ hz hz₂
  rw [hroot] at hd
  refine ⟨ratchetedSession b₀ h.rk ⟨root, base⟩ (P.kdfRootKey root z₂) kp,
    by rw [receiveWith, if_pos hne, hd], by rw [receiveDraws, if_pos hne, dhRatchetDraws_of_ok hd],
    ?_, ?_, ?_, hlabels⟩
  · refine ⟨rfl, rfl, rfl, fun j => ?_, ⟨z₂, hz₂, rfl, rfl⟩, rfl, rfl⟩
    exact (lookup_skipMessageKeys P hb₀ hne j).trans (hfresh j)
  · exact congrArg SendState.pendingPreKeyMsg (skipMessageKeys_sendState P hb₀).1
  · exact congrArg SendState.sendCount (skipMessageKeys_sendState P hb₀).1

/-- **The party behind becomes the one ahead** when it turns to the other's
current chain, on a delivery of one of its envelopes. -/
theorem Linked.turned {s' : Net β ω} {y : Party} {i : ℕ} {e : Sent β ω} {kp : DHKeyPair β}
    {z₂ : β} {rcv b₁ b' : RatchetSession β} (hxy : y.other = x)
    (hi : s.sent[i]? = some e) (hsender : e.sender = x) (hrk : e.header.rk = a.ourRatchetPublic)
    (hsent : s'.sent = s.sent) (hpos : s'.positions = s.positions ++ [i])
    (ha : s'.session x = some a) (hb : s'.session y = some b')
    (hdrawn : (s'.world x).keysDrawn = (s.world x).keysDrawn)
    (hout : Flow P (E x) (s.world x).keysDrawn s.sent s.positions x a rcv sa)
    (hback : Flow P (E y) (s'.world y).keysDrawn s.sent s.positions y b₁ a
      (P.kdfRootKey a.rootKey z₂).chainKey)
    (hbefore : ReceivesBefore P E (s'.world y).keysDrawn s.sent y a)
    (hturned : Turned P kp a.ourRatchetPublic a.rootKey sa b₁)
    (hz₂ : P.dh kp.privateKeyJwk a.ourRatchetPublic = some z₂)
    (hz₂' : P.dh a.ourRatchetPrivate kp.publicKeyRaw = some z₂)
    (hlabels : ∀ k j, (b₁.skipped.lookup (k, j)).isSome → Drawn P (E x) (s.world x).keysDrawn k)
    (htaken : Taken e.header.rk e.header.number b₁ b') (hin : InStepFrom P sa b')
    (hunseen : a.theirRatchetPublic ≠ some kp.publicKeyRaw)
    (hunsaved : ∀ j, a.skipped.lookup (kp.publicKeyRaw, j) = none)
    (hpairA : pair (ratchetPair a)) (hpairK : pair kp)
    (hplainA : a.pendingPreKeyMsg = none) (hplainB : b₁.pendingPreKeyMsg = none)
    (htypes : ∀ (j : ℕ) (e' : Sent β ω), s.sent[j]? = some e' → j ∉ s.positions → j ≠ i →
      e'.envelope.type = .signalMessage) :
    Linked P E pair s' y b' a (P.kdfRootKey a.rootKey z₂).chainKey sa := by
  subst hxy
  have hn := hout.chain e (List.mem_of_getElem? hi) hsender hrk
  have hpair₁ : ratchetPair b' = kp := by
    rw [← hturned.ours, ratchetPair, ratchetPair]
    exact congrArg₂ DHKeyPair.mk (congrArg SendState.ourRatchetPublic htaken.sendState)
      (congrArg SendState.ourRatchetPrivate htaken.sendState)
  have hour : b'.ourRatchetPublic = kp.publicKeyRaw := congrArg DHKeyPair.publicKeyRaw hpair₁
  have hroot : b'.rootKey = (P.kdfRootKey a.rootKey z₂).newRootKey := by
    obtain ⟨z, hz, hr, -⟩ := hturned.sending
    obtain rfl := Option.some.inj (hz₂.symm.trans hz)
    exact (congrArg SendState.rootKey htaken.sendState).trans hr
  -- the turn makes this the current chain of the sender, and then the envelope is taken
  have hturn := hout.turn hi hsender hrk hturned.their hturned.count hlabels
  constructor
  · exact hb
  · exact ha
  · rw [htaken.their]; exact hturned.their
  · rw [hour]; exact hunseen
  · rw [hour]; exact hunsaved
  · exact ⟨z₂, by rw [hour]; exact hz₂', by rw [hroot]⟩
  · rw [hpair₁]; exact hpairK
  · exact hpairA
  · rw [hsent, hpos]
    exact hback.congr (Nat.le_refl _) htaken.sendState rfl rfl rfl (List.subset_append_left _ _)
  · rw [hsent, hpos, hdrawn]
    have htake := hturn.take hi hsender (by rw [hturned.their, hrk]) htaken fun _ => hn.2.1
    exact htake.congr (Nat.le_refl _) rfl rfl rfl rfl (by simp)
  · exact hin
  · rw [hsent]; exact hbefore
  · exact (congrArg SendState.pendingPreKeyMsg htaken.sendState).trans hplainB
  · exact hplainA
  · rw [hsent, hpos]
    intro j e' hj hnot
    exact htypes j e' hj (fun h => hnot (List.mem_append_left _ h))
      (fun h => hnot (List.mem_append_right _ (List.mem_singleton.mpr h)))

/-- The party behind receives from the other's new chain. -/
theorem Linked.deliverTurn (hP : P.RoundTrips) (hagrees : P.Agrees pair)
    (hgen : ∀ p i, pair (P.toDHKeyPair ((E p).key i)))
    (hpub : ∀ p, Function.Injective (publicKeyAt P (E p)))
    (hl : Linked P E pair s x a b sa sb) {i : ℕ} {e : Sent β ω} (hi : s.sent[i]? = some e)
    (he : e.Genuine P) (hsender : e.sender = x) (hrk : e.header.rk = a.ourRatchetPublic)
    (honce : i ∉ s.positions) (hskip : WithinSkip (some b) e.header) :
    (∃ b' sb', Linked P E pair (s.next P E (.deliver i)) x.other b' a sb' sa ∧
      Heard P (E x.other) (s.world x.other).keysDrawn e a b b') ∧ Delivers P E s i e := by
  have hmem := List.mem_of_getElem? hi
  have hne : x ≠ x.other := x.ne_other
  have hsess : s.session e.sender.other = some b := by rw [hsender]; exact hl.behind
  set kp := nextPair P (E x.other) (s.world x.other) with hkp
  have hkpub : kp.publicKeyRaw = publicKeyAt P (E x.other) (s.world x.other).keysDrawn := rfl
  have hnew : ¬ Drawn P (E x.other) (s.world x.other).keysDrawn kp.publicKeyRaw := by
    rintro ⟨k, hk, heq⟩
    have := hpub x.other (hkpub.symm.trans heq)
    omega
  obtain ⟨z, hz, hroot⟩ := hl.root
  obtain ⟨z₂, hz₂, hz₂'⟩ := hagrees kp (ratchetPair a) (hgen _ _) hl.aheadPair
  -- The key of the envelope lies in the chain the DH ratchet starts.
  obtain ⟨hn, -, -, hmk⟩ := hl.out.chain e hmem hsender hrk
  have hmax : e.header.number ≤ MAX_SKIP := by
    rw [WithinSkip, if_neg (by rw [hrk]; exact hl.unseen)] at hskip
    exact hskip.1
  obtain ⟨b₁, hr, hdraws, hturned, hpending, hprevious, hlabels⟩ := ratchet_turned
    (by rw [hrk]; exact hl.unseen) (by rw [hrk]; exact hl.unsaved) (by rw [hrk]; exact hz) hroot
    (by rw [hrk]; exact hz₂) hl.behindCount rfl hskip
  obtain ⟨b', hret, hin, htaken⟩ := hturned.receive hP rfl hn hmax
  rw [hret, ← hmk] at hr
  rw [hrk] at hturned
  have hnext := next_deliver_signal P E hP hi he (hl.types i e hi honce) hsess
    (by rw [hsender]; exact hr)
  have hdel : Delivers P E s i e := by rw [Delivers, hnext]; exact ⟨rfl, rfl⟩
  have hour : b'.ourRatchetPublic = kp.publicKeyRaw :=
    (congrArg SendState.ourRatchetPublic htaken.sendState).trans
      (congrArg DHKeyPair.publicKeyRaw hturned.ours)
  have hheard : Heard P (E x.other) (s.world x.other).keysDrawn e a b b' := by
    refine ⟨by rw [htaken.their, hturned.their, hrk], .inr ?_, .inr ⟨hl.their, ?_, ?_, hour ▸ hnew⟩⟩
    · rcases htaken.counted with ⟨hlt, -⟩ | hcount
      · rw [hturned.count] at hlt
        omega
      · exact hcount
    · exact (congrArg SendState.sendCount htaken.sendState).trans hturned.sendCount
    · exact (congrArg SendState.prevSendCount htaken.sendState).trans hprevious
  refine ⟨⟨b', (P.kdfRootKey a.rootKey z₂).chainKey, ?_, hheard⟩, hdel⟩
  have hpos := hdel.positions
  rw [hsender, hdraws] at hnext
  have hworld : ((s.next P E (.deliver i)).world x.other).keysDrawn =
      (s.world x.other).keysDrawn + 1 := by
    rw [hnext]
    simp only [Function.update_self]
  have hourB : b₁.ourRatchetPublic = kp.publicKeyRaw :=
    congrArg DHKeyPair.publicKeyRaw hturned.ours
  obtain ⟨z', hz', -, hsend⟩ := hturned.sending
  obtain rfl := Option.some.inj (hz₂.symm.trans hz')
  refine Linked.turned x.other_other hi hsender hrk hdel.1 hpos ?_ ?_ ?_ hl.out ?_ ?_ hturned hz₂
    hz₂' ?_ htaken hin ?_ ?_ hl.aheadPair (hgen _ _) hl.aheadPlain (hpending.trans hl.behindPlain)
    fun j e' hj hnot _ => hl.types j e' hj hnot
  · rw [hnext, session_update_ne _ hne]
    exact hl.ahead
  · rw [hnext, session_update_self, Party.other_other]
    exact KeyStore.storeSession_sessions_self ..
  · rw [hnext]
    simp only [Function.update_of_ne hne]
  · rw [hworld]
    exact hl.back.senderTurn hl.their hsend hturned.sendCount (by rw [hourB]; exact hnew)
      (by rw [hourB]; exact ⟨_, Nat.lt_succ_self _, hkpub⟩) (Nat.le_succ _)
  · rw [hworld]
    refine .inr ⟨sb, hl.receives, fun k hk => ?_, fun e' he' hs ht => ?_⟩
    · rw [hl.their] at hk
      exact Option.some.inj hk ▸ hl.back.ourDrawn.mono (Nat.le_succ _)
    · rw [hl.their] at ht
      have h := hl.back.chain e' he' hs (Option.some.inj ht).symm
      exact ⟨h.1, h.2.2.2⟩
  · -- what the ratchet saves is of the chain it leaves
    intro k j hsome
    rcases hlabels k j hsome with h | ⟨hck, hk⟩
    · exact hl.out.savedDrawn k j h
    · rcases hl.receivesBefore with ⟨hnone, -⟩ | ⟨_, -, h, -⟩
      · exact absurd hnone hck
      · exact h k hk
  · rw [hl.their]
    intro heq
    exact hnew (Option.some.inj heq ▸ hl.back.ourDrawn)
  · intro j
    cases hj : a.skipped.lookup (kp.publicKeyRaw, j) with
    | none => rfl
    | some v => exact absurd (hl.back.savedDrawn _ j (by rw [hj]; rfl)) hnew

/-- **A delivery in order keeps two sessions linked**: what is of neither of the current chains
was overtaken. -/
theorem Linked.deliver (hP : P.RoundTrips) (hagrees : P.Agrees pair)
    (hgen : ∀ p i, pair (P.toDHKeyPair ((E p).key i)))
    (hpub : ∀ p, Function.Injective (publicKeyAt P (E p)))
    (hl : Linked P E pair s x a b sa sb) {i : ℕ} {e : Sent β ω} (hi : s.sent[i]? = some e)
    (he : e.Genuine P) (honce : i ∉ s.positions)
    (hchains : ∀ j ∈ s.positions, ∀ e' ∈ s.sent[j]?, e'.sender = e.sender →
      e'.header.rk = e.header.rk ∨ j < i)
    (hskip : WithinSkip (s.session e.sender.other) e.header) :
    (∃ x' a' b' sa' sb', Linked P E pair (s.next P E (.deliver i)) x' a' b' sa' sb') ∧
      Delivers P E s i e ∧ ∃ snd rcv rcv', s.session e.sender = some snd ∧
        s.session e.sender.other = some rcv ∧
        (s.next P E (.deliver i)).session e.sender = some snd ∧
        (s.next P E (.deliver i)).session e.sender.other = some rcv' ∧
        Heard P (E e.sender.other) (s.world e.sender.other).keysDrawn e snd rcv rcv' := by
  have hlate : ∀ j e', j ∈ s.positions → s.sent[j]? = some e' → e'.sender = e.sender →
      e'.header.rk ≠ e.header.rk → ¬ i < j := by
    intro j e' hj hget hsender hne hlt
    rcases hchains j hj e' hget hsender with h | h
    · exact hne h
    · omega
  rcases x.eq_or_eq_other e.sender with hsender | hsender
  · rw [hsender, hl.behind] at hskip
    rw [hsender]
    by_cases htheir : b.theirRatchetPublic = some e.header.rk
    · obtain ⟨⟨b', h, hheard⟩, hdel⟩ := hl.deliverBehind hP hi he hsender htheir honce hskip
      exact ⟨⟨x, a, b', sa, sb, h⟩, hdel, a, b, b', hl.ahead, hl.behind, h.ahead, h.behind, hheard⟩
    · by_cases hrk : e.header.rk = a.ourRatchetPublic
      · obtain ⟨⟨b', sb', h, hheard⟩, hdel⟩ := hl.deliverTurn hP hagrees hgen hpub hi he hsender hrk
          honce hskip
        have hahead := h.behind
        rw [Party.other_other] at hahead
        exact ⟨⟨_, b', a, sb', sa, h⟩, hdel, a, b, b', hl.ahead, hl.behind, hahead, h.ahead, hheard⟩
      · obtain ⟨j, e', hj, hget, hsender', hne, hlt⟩ :=
          hl.out.overtaken i e hi hsender hrk htheir
        exact absurd hlt (hlate j e' hj hget (hsender'.trans hsender.symm) hne)
  · rw [hsender, Party.other_other, hl.ahead] at hskip
    rw [hsender, Party.other_other]
    by_cases hrk : e.header.rk = b.ourRatchetPublic
    · obtain ⟨⟨a', h, hheard⟩, hdel⟩ := hl.deliverAhead hP hi he hsender hrk honce hskip
      exact ⟨⟨x, a', b, sa, sb, h⟩, hdel, b, a, a', hl.behind, hl.ahead, h.behind, h.ahead, hheard⟩
    · have htheir : a.theirRatchetPublic ≠ some e.header.rk := by
        rw [hl.their]
        exact fun heq => hrk (Option.some.inj heq).symm
      obtain ⟨j, e', hj, hget, hsender', hne, hlt⟩ := hl.back.overtaken i e hi hsender hrk htheir
      exact absurd hlt (hlate j e' hj hget (hsender'.trans hsender.symm) hne)

end Net
end Winkd
