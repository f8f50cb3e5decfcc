import Winkd.HonestRuns
import Winkd.InLine

/-!
# Simultaneous initiation

Both parties start a session before either has heard of the other.  A type-1
envelope replaces whatever session its receiver has, so when both are answered each party
gives up the session it started for the one the other party started, and is left alone in it:
one's root key comes from one secret, the other's from the other.  When both are refused, each
party keeps its own, and is left alone in that.

The conversation goes on when just one of the two is answered, with the one-time pre-key it was
made with, and no more is lost while the two are under way than can be skipped
(`Net.simultaneous_initiation_converges_iff`).
-/

namespace Winkd
open Symbolic Js SignalSessionManager Transitions UnicodeText

/-! ## Pre-keys stay -/

/-- Starting a session and sending leave the pre-keys. -/
theorem SignalSessionManager.perform_preKeys (E : Entropy Bytes) (q : String) (w : World Bytes)
    {call : ManagerCall Bytes Payload} (hcall : ∀ envelope, call ≠ .decrypt envelope) :
    (perform (symbolic Name) E q w call).store.signedPreKeys = w.store.signedPreKeys ∧
      (perform (symbolic Name) E q w call).store.preKeys = w.store.preKeys := by
  cases call with
  | initSessionFromBundle bundle =>
    rw [perform]
    rcases run_initSessionFromBundle_cases (symbolic Name) E q bundle w with
      ⟨e, draws, -, hrun⟩ | ⟨_, _, _, -, -, -, -, hrun⟩
    · rw [hrun]
      exact ⟨rfl, rfl⟩
    · rw [hrun]
      exact ⟨rfl, rfl⟩
  | encrypt plaintext =>
    rw [perform]
    rcases run_encrypt_cases (symbolic Name) E q plaintext w with ⟨e, he⟩ | ⟨_, ck, hs, hck⟩
    · rw [he]
      exact ⟨rfl, rfl⟩
    · rw [run_encrypt _ E plaintext hs hck]
      exact ⟨rfl, rfl⟩
  | decrypt envelope => exact absurd rfl (hcall envelope)

/-! ## Both sides of a handshake -/

/-- The X3DH parameters that ask for a handshake. -/
def Handshake.params (hs : Handshake) : PendingPreKeyMsg Bytes :=
  ⟨.pub hs.identity, .pub hs.ephemeral, hs.spkId, hs.opkId⟩

/-- The handshake as a store answers it: without the one-time pre-key, when that is gone. -/
def Handshake.answered (store : KeyStore Bytes) (hs : Handshake) : Handshake :=
  { hs with opkId := hs.opkId.filter fun id => (store.preKeys id).isSome }

/-- `p`'s session is the one it started for the handshake `hs`: it has sent `i` messages, and
received none. -/
structure Initiates (p : Party) (hs : Handshake) (i : ℕ) (session : RatchetSession Bytes) : Prop where
  ratchet : ∃ m, hs.ratchet = .generated p m
  their : session.theirRatchetPublic = some (.pub (.signedPreKey p.other hs.spkId))
  ourPublic : session.ourRatchetPublic = .pub hs.ratchet
  ourPrivate : session.ourRatchetPrivate = .priv hs.ratchet
  rootKey : session.rootKey = (hs.keys1 p.other).newRootKey
  sendChainKey : session.sendChainKey =
    some ((symbolic Name).chain.chainAt (hs.keys1 p.other).chainKey i)
  sendCount : session.sendCount = i
  recvChainKey : session.recvChainKey = none
  skipped : session.skipped = ∅
  isInitiator : session.isInitiator = true
  pending : session.pendingPreKeyMsg = if i = 0 then some hs.params else none

/-- `p`'s session is the one it answered the handshake `hs` with, made with a key pair generated
after the first `d`: it has received the first message, and sent `i`. -/
structure AnswerTo (p : Party) (hs : Handshake) (d m i : ℕ) (session : RatchetSession Bytes) :
    Prop where
  since : d ≤ m
  their : session.theirRatchetPublic = some (.pub hs.ratchet)
  ourPublic : session.ourRatchetPublic = .pub (.generated p m)
  ourPrivate : session.ourRatchetPrivate = .priv (.generated p m)
  rootKey : session.rootKey = ((symbolic Name).kdfRootKey (hs.keys1 p).newRootKey
    (Term.agree (.generated p m) hs.ratchet)).newRootKey
  sendChainKey : session.sendChainKey = some ((symbolic Name).chain.chainAt
    ((symbolic Name).kdfRootKey (hs.keys1 p).newRootKey
      (Term.agree (.generated p m) hs.ratchet)).chainKey i)
  sendCount : session.sendCount = i
  recvChainKey : session.recvChainKey =
    some ((symbolic Name).chain.chainAt (hs.keys1 p).chainKey 1)
  recvCount : session.recvCount = .int 1
  skipped : session.skipped = ∅
  pending : session.pendingPreKeyMsg = none

variable {p : Party} {hs : Handshake} {i : ℕ} {session : RatchetSession Bytes}

/-- What the initiator's first envelope asks for. -/
theorem Initiates.preKeyInfo (h : Initiates p hs i session) :
    SignalSessionManager.preKeyInfo session = if i = 0 then some hs.params else none := by
  rw [SignalSessionManager.preKeyInfo, h.pending, h.sendCount, h.isInitiator]
  by_cases hi : i = 0 <;> simp [hi]

/-- **X3DH on the initiator's side**, from a bundle of the other party's. -/
theorem x3dh_bundle (p : Party) (j m : ℕ) (spkId : Int) (opkId : Option Int) :
    (symbolic Name).x3dh p.identityKeyPair.privateKey (dhPairOf (.generated p j)).privateKeyJwk
        (p.other.bundle spkId opkId).identityKey (p.other.bundle spkId opkId).signedPreKey.publicKey
        ((p.other.bundle spkId opkId).oneTimePreKey.map PublicPreKey.publicKey) =
      some (Handshake.secret p.other ⟨.identity p, .generated p j, .generated p m, spkId, opkId⟩) := by
  have hdh : ∀ a b : Name, (symbolic Name).dh (.priv a) (.pub b) = some (Term.agree b a) := by
    intro a b
    rw [Term.agree_comm]
    exact symbolic_dh a (Term.publicName_pub b)
  cases opkId with
  | none =>
    simp only [Platform.x3dh, Party.identityKeyPair, dhPairOf, Platform.toDHKeyPair, pairOf,
      Party.bundle, Option.map_none, hdh, Option.bind_eq_bind, Option.bind_some,
      Handshake.secret]
    rfl
  | some id =>
    simp only [Platform.x3dh, Party.identityKeyPair, dhPairOf, Platform.toDHKeyPair, pairOf,
      Party.bundle, Option.map_some, hdh, Option.bind_eq_bind, Option.bind_some,
      Handshake.secret]
    rfl

/-- The session an initiator starts from a bundle of the other party's. -/
theorem initiates_start (p : Party) (j m : ℕ) (spkId : Int) (opkId : Option Int) {SK dhOut : Bytes}
    (hx : (symbolic Name).x3dh p.identityKeyPair.privateKey
      (dhPairOf (.generated p j)).privateKeyJwk (p.other.bundle spkId opkId).identityKey
      (p.other.bundle spkId opkId).signedPreKey.publicKey
      ((p.other.bundle spkId opkId).oneTimePreKey.map PublicPreKey.publicKey) = some SK)
    (hd : (symbolic Name).dh (dhPairOf (.generated p m)).privateKeyJwk
      (p.other.bundle spkId opkId).signedPreKey.publicKey = some dhOut) :
    Initiates p ⟨.identity p, .generated p j, .generated p m, spkId, opkId⟩ 0
      (initiatorSession p.identityKeyPair (dhPairOf (.generated p j)) (dhPairOf (.generated p m))
        (p.other.bundle spkId opkId)
        ((symbolic Name).kdfRootKey ((symbolic Name).bufToHex SK) dhOut)) := by
  obtain rfl := Option.some.inj ((x3dh_bundle p j m spkId opkId).symm.trans hx)
  obtain rfl : Term.agree (.generated p m) (.signedPreKey p.other spkId) = dhOut :=
    Option.some.inj ((symbolic_dh _ (Term.publicName_pub _)).symm.trans hd)
  have hkeys : (symbolic Name).kdfRootKey (Handshake.secret p.other
      ⟨.identity p, .generated p j, .generated p m, spkId, opkId⟩)
      (Term.agree (.generated p m) (.signedPreKey p.other spkId)) =
      Handshake.keys1 p.other ⟨.identity p, .generated p j, .generated p m, spkId, opkId⟩ := by
    rw [Term.agree_comm]
    rfl
  refine ⟨⟨m, rfl⟩, rfl, rfl, rfl, congrArg Platform.RootStep.newRootKey hkeys,
    congrArg (fun keys => some (Platform.RootStep.chainKey keys)) hkeys, rfl, rfl, rfl, rfl, ?_⟩
  cases opkId <;> rfl

/-- The initiator sends. -/
theorem Initiates.send (h : Initiates p hs i session) {ck : Bytes}
    (hck : session.sendChainKey = some ck) :
    Initiates p hs (i + 1) (afterSend session ((symbolic Name).kdfChainKey ck).nextChainKey) where
  ratchet := h.ratchet
  their := h.their
  ourPublic := h.ourPublic
  ourPrivate := h.ourPrivate
  rootKey := h.rootKey
  sendChainKey := by
    obtain rfl := Option.some.inj (hck.symm.trans h.sendChainKey)
    rw [KeyChain.chainAt_succ]
    rfl
  sendCount := by
    simp only [afterSend, h.sendCount, Int.natCast_succ]
  recvChainKey := h.recvChainKey
  skipped := h.skipped
  isInitiator := h.isInitiator
  pending := by
    simp only [afterSend, h.preKeyInfo, h.pending]
    by_cases hi : i = 0 <;> simp [hi]

/-- A signed pre-key is none that a party generates. -/
theorem Initiates.unseen (h : Initiates p hs i session) {q : Party} {m : ℕ} {rk : Bytes}
    (hrk : rk = .pub (.generated q m)) : session.theirRatchetPublic ≠ some rk := by
  rw [h.their, hrk]
  exact fun heq => by cases heq

/-- Only the first envelope of a session is of type 1. -/
theorem Initiates.plain (h : Initiates p hs i session) (hi : 0 < i) :
    session.pendingPreKeyMsg = none := by
  rw [h.pending, if_neg (Nat.ne_of_gt hi)]

variable {d m : ℕ}

/-- The answering party sends. -/
theorem AnswerTo.send (h : AnswerTo p hs d m i session) {ck : Bytes}
    (hck : session.sendChainKey = some ck) :
    AnswerTo p hs d m (i + 1)
      (afterSend session ((symbolic Name).kdfChainKey ck).nextChainKey) where
  since := h.since
  their := h.their
  ourPublic := h.ourPublic
  ourPrivate := h.ourPrivate
  rootKey := h.rootKey
  sendChainKey := by
    obtain rfl := Option.some.inj (hck.symm.trans h.sendChainKey)
    rw [KeyChain.chainAt_succ]
    rfl
  sendCount := by
    simp only [afterSend, h.sendCount, Int.natCast_succ]
  recvChainKey := h.recvChainKey
  recvCount := h.recvCount
  skipped := h.skipped
  pending := by
    simp only [afterSend, h.pending, ite_self]

/-- It counts the first message. -/
theorem AnswerTo.count {d m : ℕ} (h : AnswerTo p hs d m i session) : session.count = 1 := by
  rw [RatchetSession.count, h.recvCount]
  rfl

/-- The first key of a handshake's session. -/
theorem answerTo_retrieve (hd : d ≤ m) :
    ∃ mk session, retrieveMessageKey (symbolic Name) (hs.session p m (.pub hs.ratchet))
        (.pub hs.ratchet) (.int 0) = .ok (mk, session) ∧ AnswerTo p hs d m 0 session := by
  have hunsaved : (hs.session p m (.pub hs.ratchet)).skipped.lookup
      (.pub hs.ratchet, (Primitive.int 0).toText) = none := Finmap.lookup_empty _
  have hr := retrieve_advance (symbolic Name) (Value.toPrimitive_int 0) hunsaved rfl rfl
    (skipPasses_int_ok (by decide))
  exact ⟨_, _, hr, hd, rfl, rfl, rfl, rfl, rfl, rfl, rfl, rfl, rfl, rfl⟩

/-- **The handshake that was asked for is answered**, when the signed pre-key is held. -/
theorem respondWith_asked {store : KeyStore Bytes} (howned : store.Owned p) {msg : WireMessage Bytes}
    {h : RatchetHeader Bytes} (hpre : msg.preKey = some
      ⟨.pub hs.identity, .pub hs.ephemeral, hs.spkId, hs.opkId⟩)
    (hh : msg.h = some h) (hrk : h.rk = .pub hs.ratchet)
    (hheld : (store.signedPreKeys hs.spkId).isSome) :
    respondWith (symbolic Name) (dhPairOf (.generated p m)) store msg =
      .ok ((hs.answered store).session p m (.pub hs.ratchet)) := by
  obtain ⟨spk, hspk⟩ := Option.isSome_iff_exists.mp hheld
  obtain rfl := howned.signedPreKeys _ _ hspk
  have hdh : ∀ a b : Name, (symbolic Name).dh (.priv a) (.pub b) = some (Term.agree a b) :=
    fun a b => symbolic_dh a (Term.publicName_pub b)
  have hx : (symbolic Name).x3dhRespond p.identityKeyPair.privateKey
      (p.signedPreKey hs.spkId).privateKey (opkPrivate store hs.opkId) (.pub hs.identity)
      (.pub hs.ephemeral) = some ((hs.answered store).secret p) := by
    rw [opkPrivate_owned howned]
    simp only [Platform.x3dhRespond, Party.identityKeyPair, Party.signedPreKey, hdh,
      Option.bind_eq_bind, Option.bind_some, Handshake.answered, Handshake.secret]
    cases hs.opkId.filter fun id => (store.preKeys id).isSome with
    | none => rfl
    | some id => simp only [Option.map_some, hdh, Option.bind_some]; rfl
  rw [← hrk, respondWith_eq (symbolic Name) howned.identity hpre hspk hx hh
    (hrk ▸ hdh (.signedPreKey p hs.spkId) hs.ratchet) (hrk ▸ hdh (.generated p m) hs.ratchet)]
  rfl

namespace Net
variable {ivs : Party → ℕ → List UInt8} {w : Party → World Bytes} {s s₁ s₂ : Net Bytes Payload}

/-! ## Before anything is delivered -/

/-- A session is started from a bundle of the other party's, or something is sent. -/
def Opening : Event Bytes → Prop
  | .initSessionFromBundle p bundle => ∃ spkId opkId, bundle = p.other.bundle spkId opkId
  | .encrypt _ _ => True
  | .deliver _ => False

theorem Opening.honest {ev : Event Bytes} (h : Opening ev) : Honest ev := by
  match ev, h with
  | .initSessionFromBundle _ _, h => exact h
  | .encrypt _ _, _ => trivial

/-- `p` has the pre-keys it started with. -/
def Stocked (w : Party → World Bytes) (s : Net Bytes Payload) (p : Party) : Prop :=
  (s.world p).store.signedPreKeys = (w p).store.signedPreKeys ∧
    (s.world p).store.preKeys = (w p).store.preKeys

/-- A party has its pre-keys until something is delivered to it. -/
theorem Stocked.next {p : Party} (h : Stocked w s p) {ev : Event Bytes}
    (hev : ∀ q envelope, s.callOf ev = some (q, .decrypt envelope) → q ≠ p) :
    Stocked w (s.next (symbolic Name) (entropy ivs) ev) p := by
  cases hc : s.callOf ev with
  | none =>
    rw [next_of_no_call ivs hc]
    exact h
  | some r =>
    obtain ⟨q, call⟩ := r
    by_cases hp : p = q
    · subst hp
      obtain ⟨hspk, hopk⟩ := SignalSessionManager.perform_preKeys (entropy ivs p) p.other.userId
        (s.world p) fun envelope heq => hev p envelope (heq ▸ hc) rfl
      rw [Stocked, (next_of_call ivs hc).1, Function.update_self]
      exact ⟨hspk.trans h.1, hopk.trans h.2⟩
    · rw [Stocked, (session_of_ne hc hp).1]
      exact h

/-- `p`'s session is an initiator's, and what was sent under its ratchet key was sent from it. -/
def Started (s : Net Bytes Payload) (p : Party) (session : RatchetSession Bytes) : Prop :=
  ∃ hs i, Initiates p hs i session ∧ ∀ e ∈ s.sent, e.sender = p →
    e.header.rk = session.ourRatchetPublic → ∃ k < i, Initiates p hs k e.session

/-- The invariant before anything is delivered. -/
structure Opened (w : Party → World Bytes) (s : Net Bytes Payload) : Prop where
  conducted : Conducted none s
  stocked : ∀ p, Stocked w s p
  silent : s.delivered = []
  started : ∀ p session, s.session p = some session → Started s p session

/-- A session is started. -/
theorem Opened.init (h : Opened w s) (p : Party) (spkId : Int) (opkId : Option Int) (q : Party)
    (session : RatchetSession Bytes)
    (hs : (s.next (symbolic Name) (entropy ivs)
      (.initSessionFromBundle p (p.other.bundle spkId opkId))).session q = some session) :
    Started (s.next (symbolic Name) (entropy ivs)
      (.initSessionFromBundle p (p.other.bundle spkId opkId))) q session := by
  by_cases hq : q = p
  · subst hq
    rw [session_of_call rfl, perform] at hs
    rcases run_initSessionFromBundle_cases (symbolic Name) (entropy ivs q) q.other.userId
        (q.other.bundle spkId opkId) (s.world q) with ⟨e, draws, -, hrun⟩ |
        ⟨idKP, SK, dhOut, -, hid, hx, hd, hrun⟩
    · rw [hrun] at hs
      exact h.started q session hs
    · rw [hrun, KeyStore.storeSession_sessions_self] at hs
      obtain rfl := Option.some.inj hs
      obtain rfl : q.identityKeyPair = idKP :=
        Option.some.inj ((h.conducted.owned q).identity.symm.trans hid)
      refine ⟨_, 0, initiates_start q _ _ spkId opkId hx hd, fun e he hsender hrk => ?_⟩
      -- nothing was sent under a key that is generated now
      obtain ⟨m, hm, _, _, _, hr, -⟩ := (h.conducted.onWire e he).ratchet
      rw [hsender] at hm hr
      obtain rfl := (Name.generated.inj (Term.pub.inj (hr.symm.trans hrk))).2
      omega
  · rw [(session_of_ne rfl hq).2] at hs
    exact h.started q session hs

/-- Something is sent. -/
theorem Opened.send (h : Opened w s) (p : Party) (plaintext : CodeUnits) (q : Party)
    (session : RatchetSession Bytes)
    (hs : (s.next (symbolic Name) (entropy ivs) (.encrypt p plaintext)).session q = some session) :
    Started (s.next (symbolic Name) (entropy ivs) (.encrypt p plaintext)) q session := by
  rcases next_encrypt_cases (symbolic Name) (entropy ivs) s p plaintext with
    hsame | ⟨old, ck, hl, hck⟩
  · rw [hsame] at hs ⊢
    exact h.started q session hs
  · have hsent : (s.next (symbolic Name) (entropy ivs) (.encrypt p plaintext)).sent =
        s.sent ++ [nextSent (symbolic Name) (entropy ivs) s p plaintext old ck] := by
      rw [next_encrypt _ _ plaintext hl hck]
    by_cases hq : q = p
    · subst hq
      rw [session_of_call rfl, perform, run_encrypt _ _ plaintext hl hck,
        KeyStore.storeSession_sessions_self] at hs
      obtain rfl := Option.some.inj hs
      obtain ⟨hs, i, hold, hall⟩ := h.started q old hl
      refine ⟨hs, i + 1, hold.send hck, fun e he hsender hrk => ?_⟩
      rw [hsent] at he
      rcases List.mem_append.mp he with he | he
      · obtain ⟨k, hk, hfrom⟩ := hall e he hsender hrk
        exact ⟨k, Nat.lt_succ_of_lt hk, hfrom⟩
      · rw [List.mem_singleton.mp he]
        exact ⟨i, Nat.lt_succ_self i, hold⟩
    · rw [(session_of_ne rfl hq).2] at hs
      obtain ⟨hs, i, hold, hall⟩ := h.started q session hs
      refine ⟨hs, i, hold, fun e he hsender hrk => ?_⟩
      rw [hsent] at he
      rcases List.mem_append.mp he with he | he
      · exact hall e he hsender hrk
      · rw [List.mem_singleton.mp he] at hsender
        exact absurd hsender.symm hq

/-- **One event keeps the invariant.** -/
theorem Opened.next (h : Opened w s) {ev : Event Bytes} (hev : Opening ev) :
    Opened w (s.next (symbolic Name) (entropy ivs) ev) := by
  have hc : Conducted none (s.next (symbolic Name) (entropy ivs) ev) :=
    h.conducted.next hev.honest fun hn => absurd rfl hn
  match ev, hev with
  | .initSessionFromBundle p bundle, ⟨spkId, opkId, hb⟩ =>
    subst hb
    exact ⟨hc, fun q => (h.stocked q).next (fun _ _ heq => by cases heq), h.silent,
      h.init p spkId opkId⟩
  | .encrypt p plaintext, _ =>
    exact ⟨hc, fun q => (h.stocked q).next (fun _ _ heq => by cases heq), h.silent,
      h.send p plaintext⟩

theorem opened_reaches (hw : Fresh w)
    (hrun : Reaches (next (symbolic Name) (entropy ivs)) (fun _ ev => Opening ev) (start w) s) :
    Opened w s := by
  refine hrun.invariant ⟨conducted_start hw, fun _ => ⟨rfl, rfl⟩, rfl, ?_⟩
    fun _ _ h hev => h.next hev
  intro p session hs
  rw [Net.session, start, hw.noSession p] at hs
  cases hs

/-! ## While the first messages are under way -/

/-- The two first messages, by their positions in what was sent: each was sent from the session
its sender has. -/
structure Crossed (s : Net Bytes Payload) (first : Party → ℕ) (e : Party → Sent Bytes Payload) :
    Prop where
  sent : ∀ p, s.sent[first p]? = some (e p)
  sender : ∀ p, (e p).sender = p
  type : ∀ p, (e p).envelope.type = .preKeySignalMessage
  current : ∀ p, ∃ session, s.session p = some session ∧
    session.ourRatchetPublic = (e p).header.rk

/-- Something is sent, or one of the two first messages arrives. -/
def Crossing (first : Party → ℕ) (s : Net Bytes Payload) : Event Bytes → Prop
  | .initSessionFromBundle _ _ => False
  | .encrypt _ _ => True
  | .deliver i => (∃ p, i = first p) ∧ i ∉ s.positions

theorem Crossing.honest {first : Party → ℕ} {ev : Event Bytes} (h : Crossing first s ev) :
    Honest ev := by
  match ev, h with
  | .encrypt _ _, _ => trivial
  | .deliver _, _ => trivial

/-- `p` has the signed pre-key that the handshake names. -/
def Holds (w : Party → World Bytes) (p : Party) (hs : Handshake) : Prop :=
  ((w p).store.signedPreKeys hs.spkId).isSome

/-- `p` has its own session, and has sent from it. -/
def Keeps (p : Party) (hs : Handshake) (s : Net Bytes Payload) : Prop :=
  ∃ session i, s.session p = some session ∧ 0 < i ∧ Initiates p hs i session

/-- `p` has answered the handshake. -/
def Answers (p : Party) (hs : Handshake) (d : ℕ) (s : Net Bytes Payload) : Prop :=
  ∃ session m i, s.session p = some session ∧ m < (s.world p).keysDrawn ∧
    AnswerTo p hs d m i session

/-- The invariant while the two are under way; `hs p` is the handshake that `p` asks for, and
`d p` is how many key pairs `p` had drawn when nothing had arrived. -/
structure UnderWay (w : Party → World Bytes) (first : Party → ℕ) (e : Party → Sent Bytes Payload)
    (hs : Party → Handshake) (d : Party → ℕ) (s : Net Bytes Payload) : Prop where
  conducted : Conducted none s
  sent : ∀ p, s.sent[first p]? = some (e p)
  sender : ∀ p, (e p).sender = p
  asks : ∀ p, Initiates p (hs p) 0 (e p).session
  ratchet : ∀ p m, (hs p).ratchet = .generated p m → m < d p
  drawn : ∀ p, d p ≤ (s.world p).keysDrawn
  bound : ∀ i ∈ s.positions, i < s.sent.length
  stocked : ∀ p, first p.other ∉ s.positions → Stocked w s p
  keeps : ∀ p, ¬ (first p.other ∈ s.positions ∧ Holds w p (hs p.other)) → Keeps p (hs p) s
  answers : ∀ p, first p.other ∈ s.positions → Holds w p (hs p.other) →
    Answers p ((hs p.other).answered (w p).store) (d p) s

variable {first : Party → ℕ} {e : Party → Sent Bytes Payload} {hs : Party → Handshake}
  {d : Party → ℕ}

/-- The two first messages are under way, and neither has arrived. -/
theorem Opened.underWay (h : Opened w s) (hcrossed : Crossed s first e) :
    ∃ hs : Party → Handshake, UnderWay w first e hs (fun p => (s.world p).keysDrawn) s := by
  have hboth : ∀ p, ∃ hs, Initiates p hs 0 (e p).session ∧ Keeps p hs s := by
    intro p
    obtain ⟨session, hl, hrk⟩ := hcrossed.current p
    have hmem := List.mem_of_getElem? (hcrossed.sent p)
    obtain ⟨hs, i, hinit, hall⟩ := h.started p session hl
    obtain ⟨k, hk, hfrom⟩ := hall (e p) hmem (hcrossed.sender p) hrk.symm
    -- an envelope of type 1 is the first of its session
    obtain rfl : k = 0 := by
      by_contra hne
      obtain ⟨iv, regId, henv⟩ := (h.conducted.onWire (e p) hmem).envelope
      have htype := hcrossed.type p
      rw [henv, envelopeOf, nextType, hfrom.preKeyInfo, if_neg hne] at htype
      cases htype
    exact ⟨hs, hfrom, session, i, hl, hk, hinit⟩
  choose hs hasks hkeeps using hboth
  have hnone : ∀ i, i ∉ s.positions := by
    intro i hi
    rw [positions, h.silent] at hi
    cases hi
  refine ⟨hs, h.conducted, hcrossed.sent, hcrossed.sender, hasks, ?_, fun _ => Nat.le_refl _,
    fun i hi => absurd hi (hnone i), fun p _ => h.stocked p, fun p _ => hkeeps p,
    fun p hi => absurd hi (hnone _)⟩
  intro p m hm
  obtain ⟨j, hj, _, _, _, hrk, -⟩ :=
    (h.conducted.onWire (e p) (List.mem_of_getElem? (hcrossed.sent p))).ratchet
  rw [hcrossed.sender p] at hj hrk
  rw [(hasks p).ourPublic, hm] at hrk
  rwa [(Name.generated.inj (Term.pub.inj hrk)).2]

/-- What the envelope of a first message reads as. -/
theorem UnderWay.parsed (h : UnderWay w first e hs d s) (p : Party) :
    ∃ msg, (e p).envelope.ciphertext = some msg ∧ msg.h = some (e p).header ∧
      (e p).envelope.type = .preKeySignalMessage ∧ (e p).header.rk = .pub (hs p).ratchet ∧
      (e p).header.n = .int 0 ∧ msg.preKey =
        some ⟨.pub (hs p).identity, .pub (hs p).ephemeral, (hs p).spkId, (hs p).opkId⟩ := by
  have hwire := h.conducted.onWire (e p) (List.mem_of_getElem? (h.sent p))
  obtain ⟨iv, regId, henv⟩ := hwire.envelope
  have hmsg : ∃ msg, (e p).envelope.ciphertext = some msg := ⟨_, by rw [henv]; rfl⟩
  obtain ⟨msg, hmsg⟩ := hmsg
  obtain ⟨hh, htype, hpre⟩ := hwire.parsed hmsg
  have hinfo : preKeyInfo (e p).session = some (hs p).params := (h.asks p).preKeyInfo
  refine ⟨msg, hmsg, hh, ?_, (h.asks p).ourPublic, ?_, ?_⟩
  · rw [htype, nextType, hinfo]
    rfl
  · show Value.int (e p).session.sendCount = .int 0
    rw [(h.asks p).sendCount]
    rfl
  · rw [hpre, hinfo]
    rfl

/-- The call that the delivery of a first message makes. -/
theorem UnderWay.callOf (h : UnderWay w first e hs d s) (p : Party) :
    s.callOf (.deliver (first p.other)) = some (p, .decrypt (e p.other).envelope) := by
  rw [Net.callOf, h.sent p.other, Option.map_some, h.sender p.other, Party.other_other]

/-- A first message whose signed pre-key is held is answered. -/
theorem UnderWay.deliver_answers (h : UnderWay w first e hs d s) (p : Party)
    (hnot : first p.other ∉ s.positions) (hheld : Holds w p (hs p.other)) :
    Answers p ((hs p.other).answered (w p).store) (d p)
      (s.next (symbolic Name) (entropy ivs) (.deliver (first p.other))) := by
  obtain ⟨hspk, hopk⟩ := h.stocked p hnot
  obtain ⟨msg, hmsg, hh, htype, hrk, hn, hpre⟩ := h.parsed p.other
  have hok := respondWith_asked (m := (s.world p).keysDrawn) (h.conducted.owned p) hpre hh hrk
    (by rw [hspk]; exact hheld)
  have hstore : (hs p.other).answered (s.world p).store = (hs p.other).answered (w p).store := by
    rw [Handshake.answered, hopk]
    rfl
  rw [hstore] at hok
  obtain ⟨mk, session, hr, hanswer⟩ := @answerTo_retrieve p ((hs p.other).answered (w p).store) _ _
    (h.drawn p)
  have hreceive : receiveWith (symbolic Name) (nextPair (symbolic Name) (entropy ivs p) (s.world p))
      (((hs p.other).answered (w p).store).session p (s.world p).keysDrawn
        (.pub (hs p.other).ratchet)) (e p.other).header = .ok (mk, session) := by
    rw [receiveWith_of_eq _ (by rw [hrk]; rfl), hrk, hn]
    exact hr
  have hrun := @run_decryptKey_preKey _ _ _ (symbolic Name) (entropy ivs p) p.other.userId _
    (s.world p) _ _ _ htype hmsg hh hok
  rw [hreceive] at hrun
  have hcall := h.callOf p
  refine ⟨session, (s.world p).keysDrawn, 0, ?_, ?_, hanswer⟩
  · rw [session_of_call hcall, perform_decrypt, hrun]
    exact KeyStore.storeSession_sessions_self ..
  · rw [(next_of_call ivs hcall).1, Function.update_self, perform_decrypt, hrun,
      respondDraws_of_ok hok]
    exact Nat.lt_succ_self _

/-- One whose signed pre-key is gone is refused. -/
theorem UnderWay.deliver_refused (h : UnderWay w first e hs d s) (p : Party)
    (hnot : first p.other ∉ s.positions) (hgone : ¬ Holds w p (hs p.other)) :
    (s.next (symbolic Name) (entropy ivs) (.deliver (first p.other))).session p = s.session p := by
  obtain ⟨hspk, -⟩ := h.stocked p hnot
  obtain ⟨msg, hmsg, hh, htype, -, -, hpre⟩ := h.parsed p.other
  have hnone : (s.world p).store.signedPreKeys (hs p.other).spkId = none := by
    rw [hspk]
    exact Option.not_isSome_iff_eq_none.mp hgone
  have herr : ∀ session, respondWith (symbolic Name) (nextPair (symbolic Name) (entropy ivs p)
      (s.world p)) (s.world p).store msg ≠ .ok session := by
    intro session hok
    simp [respondWith, handshakeKeys, (h.conducted.owned p).identity, hpre, hnone] at hok
  have hcall := h.callOf p
  rw [session_of_call hcall, perform_decrypt]
  obtain ⟨r, store, draws, -, hrun, heff⟩ := run_decryptKey (symbolic Name) (entropy ivs p)
    p.other.userId (e p.other).envelope (s.world p)
  rw [hrun]
  cases heff with
  | refused => rfl
  | received type => exact absurd (htype.symm.trans type) (by decide)
  | consumed => exact congrFun (respondStore_sessions ..) _
  | created _ _ parsed _ responded =>
    obtain rfl := Option.some.inj (hmsg.symm.trans parsed)
    exact absurd responded (herr _)
  | established _ parsed _ responded =>
    obtain rfl := Option.some.inj (hmsg.symm.trans parsed)
    exact absurd responded (herr _)

/-- A party that sends keeps what it has. -/
theorem Keeps.send {p : Party} {hs : Handshake} (h : Keeps p hs s) (q : Party)
    (plaintext : CodeUnits) :
    Keeps p hs (s.next (symbolic Name) (entropy ivs) (.encrypt q plaintext)) := by
  obtain ⟨session, i, hl, hi, hinit⟩ := h
  by_cases hp : p = q
  · subst hp
    refine ⟨_, i + 1, ?_, Nat.succ_pos i, hinit.send hinit.sendChainKey⟩
    rw [session_of_call rfl, perform, run_encrypt _ _ plaintext hl hinit.sendChainKey]
    exact KeyStore.storeSession_sessions_self ..
  · exact ⟨session, i, (session_of_ne rfl hp).2.trans hl, hi, hinit⟩

theorem Answers.send {p : Party} {hs : Handshake} {d : ℕ} (h : Answers p hs d s) (q : Party)
    (plaintext : CodeUnits) :
    Answers p hs d (s.next (symbolic Name) (entropy ivs) (.encrypt q plaintext)) := by
  obtain ⟨session, m, i, hl, hm, ha⟩ := h
  have hdrawn : m < ((s.next (symbolic Name) (entropy ivs) (.encrypt q plaintext)).world p).keysDrawn :=
    Nat.lt_of_lt_of_le hm
      (drawn_le (show s.callOf (.encrypt q plaintext) = some (q, .encrypt plaintext) from rfl) p)
  by_cases hp : p = q
  · subst hp
    refine ⟨_, m, i + 1, ?_, hdrawn, ha.send ha.sendChainKey⟩
    rw [session_of_call rfl, perform, run_encrypt _ _ plaintext hl ha.sendChainKey]
    exact KeyStore.storeSession_sessions_self ..
  · exact ⟨session, m, i, (session_of_ne rfl hp).2.trans hl, hdrawn, ha⟩

/-- A first message arrives. -/
theorem UnderWay.deliver (h : UnderWay w first e hs d s) (p : Party)
    (hnot : first p.other ∉ s.positions) :
    UnderWay w first e hs d (s.next (symbolic Name) (entropy ivs) (.deliver (first p.other))) := by
  have hq := h.sent p.other
  have hcall := h.callOf p
  have hsent : (s.next (symbolic Name) (entropy ivs) (.deliver (first p.other))).sent = s.sent := by
    rw [next_deliver _ _ hq]
  have hpos : ∀ i, i ∈ (s.next (symbolic Name) (entropy ivs)
      (.deliver (first p.other))).positions ↔ i ∈ s.positions ∨ i = first p.other := by
    intro i
    rw [positions, next_deliver _ _ hq, List.map_append, List.mem_append]
    exact or_congr_right List.mem_singleton
  -- the two first messages are two
  have hother : ∀ r, r ≠ p → first r.other ≠ first p.other := by
    intro r hr heq
    have he : e r.other = e p.other := Option.some.inj ((h.sent r.other).symm.trans (heq ▸ hq))
    have hsender := (h.sender r.other).symm.trans (he ▸ h.sender p.other)
    rw [← Party.other_other r, hsender, Party.other_other] at hr
    exact hr rfl
  have hne : ∀ {r : Party}, r ≠ p → (first r.other ∈ (s.next (symbolic Name) (entropy ivs)
      (.deliver (first p.other))).positions ↔ first r.other ∈ s.positions) := by
    intro r hr
    rw [hpos, or_iff_left (hother r hr)]
  refine ⟨h.conducted.next trivial fun hn => absurd rfl hn, fun r => hsent ▸ h.sent r, h.sender,
    h.asks, h.ratchet, fun r => Nat.le_trans (h.drawn r) (drawn_le hcall r),
    positions_lt_next h.bound _, ?_, ?_, ?_⟩
  · intro r hr
    have hrp : r ≠ p := by
      rintro rfl
      exact hr ((hpos _).mpr (.inr rfl))
    rw [Stocked, (session_of_ne hcall hrp).1]
    exact h.stocked r fun hmem => hr ((hne hrp).mpr hmem)
  · intro r hr
    by_cases hrp : r = p
    · subst hrp
      have hgone : ¬ Holds w r (hs r.other) := fun hheld => hr ⟨(hpos _).mpr (.inr rfl), hheld⟩
      obtain ⟨session, i, hl, hi, hinit⟩ := h.keeps r fun hmem => hgone hmem.2
      exact ⟨session, i, (h.deliver_refused r hnot hgone).trans hl, hi, hinit⟩
    · obtain ⟨session, i, hl, hi, hinit⟩ := h.keeps r
        fun hmem => hr ⟨(hne hrp).mpr hmem.1, hmem.2⟩
      exact ⟨session, i, (session_of_ne hcall hrp).2.trans hl, hi, hinit⟩
  · intro r hr hheld
    by_cases hrp : r = p
    · subst hrp
      exact h.deliver_answers r hnot hheld
    · obtain ⟨session, m, i, hl, hm, ha⟩ := h.answers r ((hne hrp).mp hr) hheld
      exact ⟨session, m, i, (session_of_ne hcall hrp).2.trans hl,
        Nat.lt_of_lt_of_le hm (drawn_le hcall r), ha⟩

/-- **One event keeps the invariant.** -/
theorem UnderWay.next (h : UnderWay w first e hs d s) {ev : Event Bytes} (hev : Crossing first s ev) :
    UnderWay w first e hs d (s.next (symbolic Name) (entropy ivs) ev) := by
  match ev, hev with
  | .encrypt q plaintext, _ =>
    have hcall : s.callOf (.encrypt q plaintext) = some (q, .encrypt plaintext) := rfl
    exact
      { conducted := h.conducted.next trivial fun hn => absurd rfl hn
        sent := fun p => getElem?_append_of_some (h.sent p)
        sender := h.sender
        asks := h.asks
        ratchet := h.ratchet
        drawn := fun p => Nat.le_trans (h.drawn p) (drawn_le hcall p)
        bound := positions_lt_next h.bound _
        stocked := fun p hp => (h.stocked p hp).next fun _ _ heq => by cases heq
        keeps := fun p hp => (h.keeps p hp).send q plaintext
        answers := fun p hp hheld => (h.answers p hp hheld).send q plaintext }
  | .deliver _, ⟨⟨q, rfl⟩, hnot⟩ =>
    have hdeliver : first q.other.other ∉ s.positions → UnderWay w first e hs d
        (s.next (symbolic Name) (entropy ivs) (.deliver (first q.other.other))) := h.deliver q.other
    rw [Party.other_other] at hdeliver
    exact hdeliver hnot

/-! ## What is not read -/

/-- Under a ratchet key it has not seen a session takes a key of the chain it starts for it. -/
theorem receive_unseen {session new : RatchetSession Bytes} {kp : DHKeyPair Bytes}
    {h : RatchetHeader Bytes} {mine their : Name} {mk : Bytes}
    (hpriv : session.ourRatchetPrivate = .priv mine) (hskipped : session.skipped = ∅)
    (hrk : h.rk = .pub their) (hn : h.n = .int h.number)
    (hunseen : session.theirRatchetPublic ≠ some h.rk)
    (hr : receiveWith (symbolic Name) kp session h = .ok (mk, new)) :
    h.number ≤ MAX_SKIP ∧ ∃ k, mk = (symbolic Name).chain.messageAt
      ((symbolic Name).kdfRootKey session.rootKey (Term.agree mine their)).chainKey k := by
  obtain ⟨session₁, ht₁, hret, ⟨ht, -⟩ | ⟨-, hd⟩⟩ := receiveWith_cases _ hr
  · exact absurd ht hunseen
  · obtain ⟨session₀, dhOut1, _, hskip, hd1, -, rfl⟩ := dhRatchetWith_cases _ hd
    rw [hpriv, hrk] at hd1
    obtain rfl := Option.some.inj ((symbolic_dh _ (Term.publicName_pub _)).symm.trans hd1)
    rw [hn] at hret
    rcases retrieve_int_cases _ ht₁ rfl hret with ⟨saved, hl, -, -⟩ | ⟨ck, -, hck, hle, rfl, -⟩
    · -- nothing is saved under the new key
      have hold : session.skipped.lookup (h.rk, intText h.number) = some saved :=
        (lookup_skipMessageKeys _ hskip hunseen _).symm.trans hl
      rw [hskipped, Finmap.lookup_empty] at hold
      cases hold
    · obtain rfl := Option.some.inj hck
      exact ⟨by omega, _, rfl⟩

/-- On the chain it receives on a session gets no further than it may skip. -/
theorem receive_seen {session new : RatchetSession Bytes} {kp : DHKeyPair Bytes}
    {h : RatchetHeader Bytes} {count : ℤ} {mk : Bytes} (hskipped : session.skipped = ∅)
    (hcount : session.recvCount = .int count) (hn : h.n = .int h.number)
    (hseen : session.theirRatchetPublic = some h.rk)
    (hr : receiveWith (symbolic Name) kp session h = .ok (mk, new)) :
    h.number ≤ count + MAX_SKIP := by
  rw [receiveWith_of_eq _ hseen, hn] at hr
  rcases retrieve_int_cases _ hseen hcount hr with ⟨saved, hl, -, -⟩ | ⟨_, -, -, hle, -, -⟩
  · rw [hskipped, Finmap.lookup_empty] at hl
    cases hl
  · exact hle

/-- The conversation does not go on when the other party does not take the key that the next
message of one is sealed under. -/
theorem not_goesOn {p : Party} {mine theirs : RatchetSession Bytes} {ck : Bytes}
    (hl : s.session p = some mine) (hck : mine.sendChainKey = some ck)
    (hplain : mine.pendingPreKeyMsg = none) (hl' : s.session p.other = some theirs)
    (hbound : ∀ i ∈ s.positions, i < s.sent.length)
    (hkey : ∀ kp mk new, receiveWith (symbolic Name) kp theirs (nextHeader mine) = .ok (mk, new) →
      mk.cut 0 32 ≠ ((symbolic Name).kdfChainKey ck).messageKey.cut 0 32) :
    ¬ GoesOn (symbolic Name) (entropy ivs) s := by
  intro hgoes
  rw [session, Party.other_other] at hl'
  have hnext := next_encrypt (symbolic Name) (entropy ivs) [] hl hck
  set e := nextSent (symbolic Name) (entropy ivs) s p [] mine ck with he
  have hi : (s.sent ++ [e])[s.sent.length]? = some e := List.getElem?_concat_length
  have herr : ∃ err, ((decrypt (symbolic Name) p.userId e.envelope).run
      (serve (entropy ivs p.other)) (s.world p.other)).1 = .error err := by
    cases hr : ((decrypt (symbolic Name) p.userId e.envelope).run
      (serve (entropy ivs p.other)) (s.world p.other)).1 with
    | error err => exact ⟨err, rfl⟩
    | ok pt =>
      exfalso
      obtain ⟨mk, msg, bytes, htaken, hopen, -⟩ := run_decrypt_ok _ _ hr
      obtain ⟨r, store, draws, -, hrun, heff⟩ := run_decryptKey (symbolic Name)
        (entropy ivs p.other) p.userId e.envelope (s.world p.other)
      rw [hrun] at htaken
      obtain rfl : r = .ok (mk, msg) := htaken
      have htype : nextType mine = .signalMessage := nextType_plain hplain
      cases heff with
      | established type => exact absurd (htype.symm.trans type) (by decide)
      | received _ parsed header loaded received =>
        obtain rfl := Option.some.inj parsed
        obtain rfl := Option.some.inj header
        obtain rfl := Option.some.inj (hl'.symm.trans loaded)
        have hseal := (Term.aes.inj (symbolic_aesGcmDecrypt hopen)).1
        exact hkey _ _ _ received hseal.symm
  obtain ⟨err, herr⟩ := herr
  -- it is sent and arrives next
  have hrun : Reaches (Net.next (symbolic Name) (entropy ivs)) (InLine s.sent.length) s
      ((s.next (symbolic Name) (entropy ivs) (.encrypt p [])).next (symbolic Name) (entropy ivs)
        (.deliver s.sent.length)) := by
    refine ((Reaches.refl s).tail (show InLine s.sent.length s (.encrypt p []) from trivial)).tail ?_
    intro e' _
    refine ⟨Nat.le_refl _, fun hmem => ?_, fun j hj hk => absurd hk (Nat.not_le.mpr hj)⟩
    rw [hnext] at hmem
    exact Nat.lt_irrefl _ (hbound _ hmem)
  have hdelivered : (s.sent.length, Except.error err) ∈
      ((s.next (symbolic Name) (entropy ivs) (.encrypt p [])).next (symbolic Name) (entropy ivs)
        (.deliver s.sent.length)).delivered := by
    rw [hnext, next_deliver _ _ hi]
    simp only [show e.sender = p from rfl]
    rw [Function.update_of_ne (Party.other_ne p), herr]
    exact List.mem_append_right _ (List.mem_singleton_self _)
  obtain ⟨_, -, hok⟩ := hgoes _ hrun _ _ (Nat.le_refl _) hdelivered
  cases hok

/-- A key of a chain that another root key started opens nothing of this one. -/
theorem messageAt_ne {r z r' z' : Bytes} {i k : ℕ} (hne : r ≠ r') :
    ((symbolic Name).chain.messageAt ((symbolic Name).kdfRootKey r z).chainKey i).cut 0 32 ≠
      ((symbolic Name).chain.messageAt ((symbolic Name).kdfRootKey r' z').chainKey k).cut 0 32 := by
  intro heq
  have hkeys : (symbolic Name).chain.messageAt ((symbolic Name).kdfRootKey r z).chainKey i =
      (symbolic Name).chain.messageAt ((symbolic Name).kdfRootKey r' z').chainKey k := heq
  obtain ⟨hbase, -⟩ := symbolic_freeKdf.chain.messageAt_inj ⟨_, _, rfl⟩ ⟨_, _, rfl⟩ hkeys
  exact hne (symbolic_freeKdf.root _ _ _ _ hbase).1

/-- The root key of a handshake is not the secret of one. -/
theorem keys1_ne_secret {p q : Party} {hs hs' : Handshake} :
    (hs.keys1 p).newRootKey ≠ hs'.secret q :=
  kdfRootKey_ne_x3dhSecret

/-! ## What becomes of the conversation -/

/-- **Both are answered**: each party is left with the other's handshake. -/
theorem UnderWay.both_answered (h : UnderWay w first e hs d s) (hboth : ∀ p, first p ∈ s.positions)
    (hheld : ∀ p, Holds w p (hs p.other)) : ¬ GoesOn (symbolic Name) (entropy ivs) s := by
  obtain ⟨mine, m, i, hl, -, ha⟩ := h.answers .alice (hboth _) (hheld _)
  obtain ⟨theirs, m', i', hl', -, ha'⟩ := h.answers .bob (hboth _) (hheld _)
  refine not_goesOn hl ha.sendChainKey ha.pending hl' h.bound fun kp mk new hr => ?_
  have hrk : (nextHeader mine).rk = .pub (.generated .alice m) := ha.ourPublic
  obtain ⟨-, k, rfl⟩ := receive_unseen ha'.ourPrivate ha'.skipped hrk rfl
    (by
      -- Alice's ratchet key is younger than the one of her handshake
      rw [ha'.their, hrk]
      intro heq
      have hlt := h.ratchet .alice m (Term.pub.inj (Option.some.inj heq))
      exact absurd ha.since (Nat.not_le.mpr hlt)) hr
  rw [ha'.rootKey]
  refine messageAt_ne fun heq => ?_
  obtain ⟨hroot, -⟩ := kdfRootKey_newRootKey_inj heq
  exact keys1_ne_secret hroot

/-- **Both are refused**: each party is left with its own. -/
theorem UnderWay.both_refused (h : UnderWay w first e hs d s)
    (hgone : ∀ p, ¬ Holds w p (hs p.other)) : ¬ GoesOn (symbolic Name) (entropy ivs) s := by
  obtain ⟨mine, i, hl, hi, ha⟩ := h.keeps .alice fun hmem => hgone _ hmem.2
  obtain ⟨theirs, _, hl', -, ha'⟩ := h.keeps .bob fun hmem => hgone _ hmem.2
  refine not_goesOn hl ha.sendChainKey (ha.plain hi) hl' h.bound fun kp mk new hr => ?_
  obtain ⟨m, hm⟩ := ha.ratchet
  have hrk : (nextHeader mine).rk = .pub (.generated .alice m) := hm ▸ ha.ourPublic
  obtain ⟨-, k, rfl⟩ := receive_unseen ha'.ourPrivate ha'.skipped hrk rfl (ha'.unseen hrk) hr
  rw [ha'.rootKey]
  exact messageAt_ne keys1_ne_secret

/-- The root keys of two handshakes are different. -/
theorem keys1_newRootKey_inj {p : Party} {hs hs' : Handshake}
    (h : (hs.keys1 p).newRootKey = (hs'.keys1 p).newRootKey) : hs = hs' := by
  obtain ⟨hsecret, hagree⟩ := kdfRootKey_newRootKey_inj h
  refine Handshake.chainKey_inj (p := p) ?_
  rw [Handshake.keys1, Handshake.keys1, hsecret, hagree]

section OneAnswered
variable {p : Party} {asked answered : Handshake} {i k m d : ℕ}
  {mine theirs : RatchetSession Bytes}

/-- A secret without the one-time pre-key is another one: the initiator reads nothing. -/
theorem not_goesOn_of_ne (hl : s.session p = some mine) (hmine : Initiates p asked i mine)
    (hl' : s.session p.other = some theirs) (htheirs : AnswerTo p.other answered d m k theirs)
    (hbound : ∀ i ∈ s.positions, i < s.sent.length) (hne : answered ≠ asked) :
    ¬ GoesOn (symbolic Name) (entropy ivs) s := by
  refine not_goesOn hl' htheirs.sendChainKey htheirs.pending (by rw [Party.other_other]; exact hl)
    hbound fun kp mk new hr => ?_
  have hrk : (nextHeader theirs).rk = .pub (.generated p.other m) := htheirs.ourPublic
  obtain ⟨-, k, rfl⟩ := receive_unseen hmine.ourPrivate hmine.skipped hrk rfl (hmine.unseen hrk) hr
  rw [hmine.rootKey]
  exact messageAt_ne fun heq => hne (keys1_newRootKey_inj heq).symm

/-- The next message of the initiator is too far ahead. -/
theorem not_goesOn_of_initiator (hl : s.session p = some mine) (hmine : Initiates p asked i mine)
    (hi : 0 < i) (hl' : s.session p.other = some theirs)
    (htheirs : AnswerTo p.other asked d m k theirs)
    (hbound : ∀ i ∈ s.positions, i < s.sent.length) (hfar : ¬ mine.sendCount ≤ MAX_SKIP + 1) :
    ¬ GoesOn (symbolic Name) (entropy ivs) s := by
  refine not_goesOn hl hmine.sendChainKey (hmine.plain hi) hl' hbound fun kp mk new hr => ?_
  have hle := receive_seen htheirs.skipped htheirs.recvCount rfl
    (by rw [htheirs.their]; exact congrArg some hmine.ourPublic.symm) hr
  rw [nextHeader_number] at hle
  omega

/-- The next message of the party that answered is too far ahead. -/
theorem not_goesOn_of_responder (hl : s.session p = some mine) (hmine : Initiates p asked i mine)
    (hl' : s.session p.other = some theirs) (htheirs : AnswerTo p.other answered d m k theirs)
    (hbound : ∀ i ∈ s.positions, i < s.sent.length) (hfar : ¬ theirs.sendCount ≤ MAX_SKIP) :
    ¬ GoesOn (symbolic Name) (entropy ivs) s := by
  refine not_goesOn hl' htheirs.sendChainKey htheirs.pending (by rw [Party.other_other]; exact hl)
    hbound fun kp mk new hr => ?_
  have hrk : (nextHeader theirs).rk = .pub (.generated p.other m) := htheirs.ourPublic
  obtain ⟨hle, -⟩ := receive_unseen hmine.ourPrivate hmine.skipped hrk rfl (hmine.unseen hrk) hr
  exact absurd hle hfar

/-- What a party has generated. -/
theorem drawn_generated {p : Party} {m drawn : ℕ} (hm : m < drawn) {k : Bytes}
    (hk : k = .pub (.generated p m)) : Drawn (symbolic Name) (entropy ivs p) drawn k :=
  ⟨m, hm, hk⟩

/-- **The party that answers is one ratchet ahead of the initiator.** -/
theorem linked_of_answered (hl : s.session p = some mine) (hmine : Initiates p asked i mine)
    (hi : 0 < i) (hdrawn : ∀ m, asked.ratchet = .generated p m → m < (s.world p).keysDrawn)
    (hl' : s.session p.other = some theirs) (htheirs : AnswerTo p.other asked d m k theirs)
    (hm : m < (s.world p.other).keysDrawn) :
    ∃ sa sb, Linked (symbolic Name) (entropy ivs) Named (start s.world : Net Bytes Payload) p.other
      theirs mine sa sb := by
  obtain ⟨j, hj⟩ := hmine.ratchet
  have hours : mine.ourRatchetPublic = .pub (.generated p j) := hj ▸ hmine.ourPublic
  have hcount := htheirs.count
  have hnone : ∀ key t, theirs.skipped.lookup (key, t) = none := by
    intro key t
    rw [htheirs.skipped]
    rfl
  have hnone' : ∀ key t, mine.skipped.lookup (key, t) = none := by
    intro key t
    rw [hmine.skipped]
    rfl
  have hempty : ∀ (l : ℕ) (e : Sent Bytes Payload), (start s.world).sent[l]? ≠ some e :=
    fun l e h => by cases h
  have hout : Flow (symbolic Name) (entropy ivs p.other) (s.world p.other).keysDrawn
      ([] : List (Sent Bytes Payload)) [] p.other theirs mine
      ((symbolic Name).kdfRootKey (asked.keys1 p.other).newRootKey
        (Term.agree (.generated p.other m) asked.ratchet)).chainKey := by
    refine Flow.ofEmpty ?_ ?_ (drawn_generated hm htheirs.ourPublic) hnone'
      fun heq => absurd heq (hmine.unseen htheirs.ourPublic)
    · rw [htheirs.sendChainKey, htheirs.sendCount]
      rfl
    · rw [htheirs.sendCount]
      exact Int.natCast_nonneg k
  have hback : Flow (symbolic Name) (entropy ivs p) (s.world p).keysDrawn
      ([] : List (Sent Bytes Payload)) [] p mine theirs (asked.keys1 p.other).chainKey := by
    refine Flow.ofEmpty ?_ ?_ (drawn_generated (hdrawn j hj) hours) hnone fun _ => ?_
    · rw [hmine.sendChainKey, hmine.sendCount]
      rfl
    · rw [hmine.sendCount]
      exact Int.natCast_nonneg i
    · rw [hmine.sendCount, hcount]
      omega
  refine ⟨_, (asked.keys1 p.other).chainKey, hl', ?_, ?_, ?_, fun j => hnone' _ j, ?_,
    ⟨.generated p.other m, ?_⟩, ⟨asked.ratchet, ?_⟩, hout, ?_, ?_, ?_, htheirs.pending,
    hmine.plain hi, fun l e h => absurd h (hempty l e)⟩
  · rw [Party.other_other]
    exact hl
  · rw [htheirs.their, hmine.ourPublic]
  · exact hmine.unseen htheirs.ourPublic
  · -- the root step that the initiator has still to make
    refine ⟨Term.agree (.generated p.other m) asked.ratchet, ?_, ?_⟩
    · rw [hmine.ourPrivate, htheirs.ourPublic, Term.agree_comm]
      exact symbolic_dh _ (Term.publicName_pub _)
    · rw [hmine.rootKey, htheirs.rootKey]
  · exact congrArg₂ DHKeyPair.mk htheirs.ourPublic htheirs.ourPrivate
  · exact congrArg₂ DHKeyPair.mk hmine.ourPublic hmine.ourPrivate
  · rw [Party.other_other]
    exact hback
  · refine ⟨?_, ?_, ?_, ?_⟩
    · rw [hcount, htheirs.recvCount]
    · rw [hcount]
      decide
    · rw [htheirs.recvChainKey, hcount]
      rfl
    · intro their t v _ hv
      rw [hnone] at hv
      cases hv
  · exact .inl ⟨hmine.recvChainKey, hmine.skipped, fun e he => absurd he List.not_mem_nil⟩

end OneAnswered

/-! ## Convergence -/

/-- The receiver of a first message has the signed pre-key it names. -/
def Answerable (w : Party → World Bytes) (e : Sent Bytes Payload) : Prop :=
  ∃ info ∈ preKeyInfo e.session,
    ((w e.sender.other).store.signedPreKeys info.spkId).isSome

/-- It has the one-time pre-key too, if the message names one. -/
def OneTimeHeld (w : Party → World Bytes) (e : Sent Bytes Payload) : Prop :=
  ∃ info ∈ preKeyInfo e.session, ∀ id ∈ info.opkId,
    ((w e.sender.other).store.preKeys id).isSome

/-- What `p` has sent behind its first message, and the other party since it answered that, can
be skipped. -/
def WithinReach (s : Net Bytes Payload) (p : Party) : Prop :=
  (∀ session ∈ s.session p, session.sendCount ≤ MAX_SKIP + 1) ∧
    ∀ session ∈ s.session p.other, session.sendCount ≤ MAX_SKIP

theorem UnderWay.preKeyInfo (h : UnderWay w first e hs d s) (p : Party) :
    SignalSessionManager.preKeyInfo (e p).session = some (hs p).params :=
  (h.asks p).preKeyInfo

theorem UnderWay.answerable_iff (h : UnderWay w first e hs d s) (p : Party) :
    Answerable w (e p) ↔ Holds w p.other (hs p) := by
  rw [Answerable, h.preKeyInfo p, h.sender p]
  simp only [Option.mem_some, exists_eq_left']
  rfl

theorem UnderWay.oneTimeHeld_iff (h : UnderWay w first e hs d s) (p : Party) :
    OneTimeHeld w (e p) ↔ (hs p).answered (w p.other).store = hs p := by
  rw [OneTimeHeld, h.preKeyInfo p, h.sender p]
  simp only [Option.mem_some, exists_eq_left', Handshake.params, Handshake.answered]
  cases hopk : (hs p).opkId with
  | none =>
    refine iff_of_true (fun id hid => by cases hid) ?_
    rw [Option.filter_none, ← hopk]
  | some id =>
    simp only [Option.mem_some, forall_eq', Option.filter_some]
    constructor
    · intro hheld
      rw [if_pos hheld, ← hopk]
    · intro heq
      by_contra hgone
      rw [if_neg hgone] at heq
      have hnone := congrArg Handshake.opkId heq
      rw [hopk] at hnone
      cases hnone

/-- **Just one is answered**: the conversation goes on when the one-time pre-key it names is held
and nothing is out of reach. -/
theorem UnderWay.one_answered (h : UnderWay w first e hs d s) (hboth : ∀ p, first p ∈ s.positions)
    {p : Party} (hheld : Holds w p.other (hs p)) (hgone : ¬ Holds w p (hs p.other)) :
    GoesOn (symbolic Name) (entropy ivs) s ↔ OneTimeHeld w (e p) ∧ WithinReach s p := by
  obtain ⟨mine, i, hl, hi, hmine⟩ := h.keeps p fun hmem => hgone hmem.2
  have hanswer := h.answers p.other (by rw [Party.other_other]; exact hboth p)
    (by rw [Party.other_other]; exact hheld)
  rw [Party.other_other] at hanswer
  obtain ⟨theirs, m, k, hl', hm, htheirs⟩ := hanswer
  rw [h.oneTimeHeld_iff]
  by_cases hsame : (hs p).answered (w p.other).store = hs p
  · rw [hsame] at htheirs
    simp only [WithinReach, hl, hl', Option.mem_some, forall_eq']
    refine ⟨fun hgoes => ⟨hsame, ?_, ?_⟩, fun ⟨_, hfar, hfar'⟩ => ?_⟩
    · by_contra hfar
      exact not_goesOn_of_initiator hl hmine hi hl' htheirs h.bound hfar hgoes
    · by_contra hfar
      exact not_goesOn_of_responder hl hmine hl' htheirs h.bound hfar hgoes
    · obtain ⟨sa, sb, hlinked⟩ : ∃ sa sb, Linked (symbolic Name) (entropy ivs) Named
          (start s.world : Net Bytes Payload) p.other theirs mine sa sb :=
        linked_of_answered hl hmine hi
          (fun m hr => Nat.lt_of_lt_of_le (h.ratchet p m hr) (h.drawn p)) hl' htheirs hm
      have hcount := htheirs.count
      refine goesOn_of_linked symbolic_ideal (fun p i => ⟨.generated p i, rfl⟩)
        (fun p => publicKeyAt_injective p) h.bound hlinked ⟨?_, fun _ => ?_⟩ ⟨?_, fun heq => ?_⟩
      · rw [WithinSkip, if_pos (by rw [htheirs.their]; exact congrArg some hmine.ourPublic.symm),
          hcount, nextHeader_number]
        omega
      · rw [hcount, nextHeader_number, hmine.sendCount]
        omega
      · have hunseen : mine.theirRatchetPublic ≠ some (nextHeader theirs).rk :=
          hmine.unseen htheirs.ourPublic
        rw [WithinSkip, if_neg hunseen, nextHeader_number]
        exact ⟨hfar', .inl hmine.recvChainKey⟩
      · exact absurd heq (hmine.unseen htheirs.ourPublic)
  · exact iff_of_false (not_goesOn_of_ne hl hmine hl' htheirs h.bound hsame) fun hok => hsame hok.1

/-- Each party starts a session and writes once; Alice has the signed pre-key that Bob starts his
with, or not. -/
def bothWrite (held : Bool) : List (Event Bytes) :=
  [.initSessionFromBundle .alice (Party.bob.bundle 1 none),
    .initSessionFromBundle .bob (Party.alice.bundle (if held then 1 else 2) none),
    .encrypt .alice [104], .encrypt .bob [105]]

/-- Then both messages arrive, Alice's first. -/
def bothArrive (held : Bool) : Net Bytes Payload :=
  [Event.deliver 0, .deliver 1].foldl (next (symbolic Name) freshEntropy)
    (conversation [] (bothWrite held))

theorem bothWrite_opening (held : Bool) : Reaches (next (symbolic Name) freshEntropy)
    (fun _ ev => Opening ev) (start (newParties [])) (conversation [] (bothWrite held)) := by
  have hadmits : Admits (next (symbolic Name) freshEntropy) (fun _ ev => Opening ev)
      (start (newParties [])) (bothWrite held) :=
    ⟨⟨1, none, rfl⟩, ⟨_, none, rfl⟩, trivial, trivial, trivial⟩
  exact hadmits.reaches

theorem bothWrite_sent (held : Bool) (p : Party) :
    p.toNat < (conversation [] (bothWrite held)).sent.length := by
  cases held <;> cases p <;> decide

/-- The message a party writes. -/
def written (held : Bool) (p : Party) : Sent Bytes Payload :=
  (conversation [] (bothWrite held)).sent.get ⟨p.toNat, bothWrite_sent held p⟩

theorem bothWrite_crossed (held : Bool) :
    Crossed (conversation [] (bothWrite held)) Party.toNat (written held) where
  sent p := List.getElem?_eq_getElem _
  sender p := by cases held <;> cases p <;> rfl
  type p := by cases held <;> cases p <;> rfl
  current p := by cases held <;> cases p <;> exact ⟨_, rfl, rfl⟩

theorem bothArrive_crossing (held : Bool) : Reaches (next (symbolic Name) freshEntropy)
    (Crossing Party.toNat) (conversation [] (bothWrite held)) (bothArrive held) := by
  have hadmits : Admits (next (symbolic Name) freshEntropy) (Crossing Party.toNat)
      (conversation [] (bothWrite held)) [.deliver 0, .deliver 1] := by
    cases held <;> exact ⟨⟨⟨.alice, rfl⟩, by decide⟩, ⟨⟨.bob, rfl⟩, by decide⟩, trivial⟩
  exact hadmits.reaches

theorem bothArrive_positions (held : Bool) (p : Party) : p.toNat ∈ (bothArrive held).positions := by
  cases held <;> cases p <;> decide

end Net
end Winkd
