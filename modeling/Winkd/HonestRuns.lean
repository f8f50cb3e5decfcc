import Winkd.KeyRuns

/-!
# Honest conversations

Two honest managers: each starts sessions with the other's bundles only, and the
network delivers what they sent.  Seen from one of them, such a conversation is a
run of its manager, with a book of the keys it takes (`KeyLog`); `Conducted` is
the invariant that connects the two, and says what is public: the ratchet keys,
identity keys and ephemeral keys on the wire are public keys of the sender, and
the rest is ciphertexts under message keys.

Every first message has an ephemeral key of its own, so when no envelope is
delivered twice, no handshake is answered twice.
-/

namespace Winkd
open Symbolic SignalSessionManager KeyPool Transitions UnicodeText

namespace Net
variable (ivs : Party → ℕ → List UInt8)

/-- The random values of both parties. -/
def entropy (p : Party) : Entropy Bytes := p.entropy (ivs p)

/-- A step of an honest conversation: a session is started with a bundle of the
other party's. -/
def Honest : Event Bytes → Prop
  | .initSessionFromBundle p bundle => ∃ spkId opkId, bundle = p.other.bundle spkId opkId
  | _ => True

/-- The envelope was not delivered before. -/
def Once (s : Net Bytes Payload) : Event Bytes → Prop
  | .deliver i => i ∉ s.positions
  | _ => True

instance : (ev : Event Bytes) → Decidable (Honest ev)
  | .initSessionFromBundle p bundle =>
    decidable_of_iff (bundle = p.other.bundle bundle.signedPreKey.id
        (bundle.oneTimePreKey.map PublicPreKey.id))
      ⟨fun h => ⟨_, _, h⟩, by
        rintro ⟨spkId, opkId, rfl⟩
        cases opkId <;> rfl⟩
  | .encrypt _ _ => isTrue trivial
  | .deliver _ => isTrue trivial

instance (s : Net Bytes Payload) : (ev : Event Bytes) → Decidable (Once s ev)
  | .deliver i => inferInstanceAs (Decidable (i ∉ s.positions))
  | .initSessionFromBundle _ _ => isTrue trivial
  | .encrypt _ _ => isTrue trivial

/-! ## A conversation as two runs -/

/-- Whose call an event is, and which. -/
def callOf (s : Net Bytes Payload) : Event Bytes → Option (Party × ManagerCall Bytes Payload)
  | .initSessionFromBundle p bundle => some (p, .initSessionFromBundle bundle)
  | .encrypt p plaintext => some (p, .encrypt plaintext)
  | .deliver i => s.sent[i]?.map fun e => (e.sender.other, .decrypt e.envelope)

/-- **An event is a call of one of the managers.** -/
theorem next_of_call {s : Net Bytes Payload} {ev : Event Bytes} {q : Party}
    {call : ManagerCall Bytes Payload} (h : s.callOf ev = some (q, call)) :
    (s.next (symbolic Name) (entropy ivs) ev).world = Function.update s.world q
        (perform (symbolic Name) (entropy ivs q) q.other.userId (s.world q) call) ∧
      (s.next (symbolic Name) (entropy ivs) ev).used = Function.update s.used q
        (s.used q ++ KeyLog.keysTaken q (ivs q) q.other.userId (some .both) (s.world q) call) := by
  cases ev with
  | initSessionFromBundle p bundle =>
    obtain ⟨rfl, rfl⟩ := Prod.mk.inj (Option.some.inj h)
    refine ⟨rfl, ?_⟩
    simp only [next, KeyLog.keysTaken, List.append_nil, Function.update_eq_self]
  | encrypt p plaintext =>
    obtain ⟨rfl, rfl⟩ := Prod.mk.inj (Option.some.inj h)
    refine ⟨rfl, ?_⟩
    simp only [next, List.map_map]
    rfl
  | deliver i =>
    obtain ⟨e, he, hcall⟩ := Option.map_eq_some_iff.mp h
    obtain ⟨rfl, rfl⟩ := Prod.mk.inj hcall
    rw [next_deliver _ _ he]
    constructor
    · rw [perform_decrypt, Party.other_other]
    · rw [KeyLog.keysTaken, Party.other_other]
      rfl

/-- A delivery of nothing. -/
theorem next_of_no_call {s : Net Bytes Payload} {ev : Event Bytes} (h : s.callOf ev = none) :
    s.next (symbolic Name) (entropy ivs) ev = s := by
  cases ev with
  | initSessionFromBundle p bundle => cases h
  | encrypt p plaintext => cases h
  | deliver i => exact next_deliver_none _ _ (Option.map_eq_none_iff.mp h)

end Net

/-! ## What is public -/

/-- The ephemeral key an envelope carries, if it is a first message. -/
def Sent.ephemeral (e : Sent Bytes Payload) : Option Bytes :=
  (preKeyInfo e.session).map PendingPreKeyMsg.ephemeralKey

/-- What an envelope carries: public keys of the sender, and a ciphertext under its
message key, which is the one with its number on a chain of its ratchet key's. -/
structure Sent.OnWire (drawn : ℕ) (e : Sent Bytes Payload) : Prop where
  envelope : ∃ iv regId, e.envelope =
    envelopeOf (symbolic Name) e.session e.chainKey (.lit iv) e.plaintext regId
  ratchet : ∃ m < drawn, ∃ root their, ∃ i : ℕ,
    e.session.ourRatchetPublic = .pub (.generated e.sender m) ∧ e.session.sendCount = i ∧
      e.chainKey = (symbolic Name).chain.chainAt
        ((symbolic Name).kdfRootKey root (Term.agree (.generated e.sender m) their)).chainKey i
  params : ∀ info, preKeyInfo e.session = some info → OwnParams e.sender drawn info

/-- A session of `p`'s receives under a key of the other party's. -/
def Talks (p : Party) (session : RatchetSession Bytes) : Prop :=
  ∀ k ∈ session.theirRatchetPublic.bind Term.publicName, k.owner = some p.other

/-- The parameters of a first message are those the session was keeping. -/
theorem pending_of_preKeyInfo {session : RatchetSession Bytes} {info : PendingPreKeyMsg Bytes}
    (h : preKeyInfo session = some info) : session.pendingPreKeyMsg = some info := by
  unfold preKeyInfo at h
  split at h
  · exact h
  · cases h

/-- What is sent from a record that is accounted for. -/
theorem Accounted.onWire {p : Party} {m drawn : ℕ} {watch : Option Watch}
    {answered : List Handshake} {used : List Bytes} {session : RatchetSession Bytes}
    (h : Accounted p m watch answered used session) (hm : m < drawn) {ck : Bytes}
    (hck : session.sendChainKey = some ck) {iv : List UInt8} {plaintext : CodeUnits}
    {regId : Option Int} {envelope : EncryptedEnvelope Payload}
    (he : envelope = envelopeOf (symbolic Name) session ck (.lit iv) plaintext regId) :
    Sent.OnWire drawn ⟨⟨session, ck, plaintext, envelope⟩, p⟩ where
  envelope := ⟨iv, regId, he⟩
  ratchet := by
    obtain ⟨root, their, i, hr, -⟩ := h.rooted
    exact ⟨m, hm, root, their, i, h.ourPublic, hr.sendCount,
      Option.some.inj (hck.symm.trans hr.sendChainKey)⟩
  params info hi := (h.pending info (pending_of_preKeyInfo hi)).mono (Nat.le_of_lt hm)

theorem Sent.OnWire.mono {drawn drawn' : ℕ} {e : Sent Bytes Payload} (h : e.OnWire drawn)
    (hd : drawn ≤ drawn') : e.OnWire drawn' where
  envelope := h.envelope
  ratchet := by
    obtain ⟨m, hm, hrest⟩ := h.ratchet
    exact ⟨m, Nat.lt_of_lt_of_le hm hd, hrest⟩
  params info hi := (h.params info hi).mono hd

/-- The header and the parameters an envelope is read with. -/
theorem Sent.OnWire.parsed {drawn : ℕ} {e : Sent Bytes Payload} (h : e.OnWire drawn)
    {msg : WireMessage Bytes} (hmsg : e.envelope.ciphertext = some msg) :
    msg.h = some e.header ∧ e.envelope.type = nextType e.session ∧
      msg.preKey = (preKeyInfo e.session).map fun i =>
        ⟨i.identityKey, i.ephemeralKey, i.spkId, i.opkId⟩ := by
  obtain ⟨iv, regId, he⟩ := h.envelope
  rw [he] at hmsg ⊢
  obtain rfl := Option.some.inj hmsg
  exact ⟨rfl, rfl, rfl⟩

namespace Net
variable (ivs : Party → ℕ → List UInt8)

/-! ## What an event does -/

/-- What an event does to the session of the party whose call it is. -/
inductive Acted (s s' : Net Bytes Payload) (q : Party) : Prop where
  | idle (session : s'.session q = s.session q) (sent : s'.sent = s.sent)
  | initiated (spkId : Int) (opkId : Option Int) (keys : Platform.RootStep Bytes)
      (session : s'.session q = some (initiatorSession q.identityKeyPair
        (dhPairOf (.generated q (s.world q).keysDrawn))
        (dhPairOf (.generated q ((s.world q).keysDrawn + 1))) (q.other.bundle spkId opkId) keys))
      (drawn : (s'.world q).keysDrawn = (s.world q).keysDrawn + 2) (sent : s'.sent = s.sent)
  | sent (old : RatchetSession Bytes) (ck : Bytes) (plaintext : CodeUnits)
      (loaded : s.session q = some old) (chainKey : old.sendChainKey = some ck)
      (session : s'.session q = some (afterSend old ((symbolic Name).kdfChainKey ck).nextChainKey))
      (sent : s'.sent = s.sent ++ [nextSent (symbolic Name) (entropy ivs) s q plaintext old ck])
  | received (e : Sent Bytes Payload) (new : RatchetSession Bytes) (mem : e ∈ s.sent)
      (sender : e.sender = q.other) (session : s'.session q = some new)
      (their : new.theirRatchetPublic = some e.header.rk)
      (pending : new.pendingPreKeyMsg = none ∨
        ∃ old, s.session q = some old ∧ new.pendingPreKeyMsg = old.pendingPreKeyMsg)
      (ours : (∃ old, s.session q = some old ∧ old.theirRatchetPublic = some e.header.rk ∧
          new.ourRatchetPublic = old.ourRatchetPublic) ∨
        new.ourRatchetPublic = .pub (.generated q (s.world q).keysDrawn))
      (sent : s'.sent = s.sent)

variable {ivs} {s : Net Bytes Payload}

/-- The other party's session stays as it is. -/
theorem session_of_ne {ev : Event Bytes} {p q : Party} {call : ManagerCall Bytes Payload}
    (hc : s.callOf ev = some (q, call)) (hne : p ≠ q) :
    (s.next (symbolic Name) (entropy ivs) ev).world p = s.world p ∧
      (s.next (symbolic Name) (entropy ivs) ev).session p = s.session p := by
  have hw : (s.next (symbolic Name) (entropy ivs) ev).world p = s.world p := by
    rw [(next_of_call ivs hc).1, Function.update_of_ne hne]
  exact ⟨hw, by rw [session, hw]; rfl⟩

/-- The session of the party whose call an event is. -/
theorem session_of_call {ev : Event Bytes} {q : Party} {call : ManagerCall Bytes Payload}
    (hc : s.callOf ev = some (q, call)) :
    (s.next (symbolic Name) (entropy ivs) ev).session q =
      (perform (symbolic Name) (entropy ivs q) q.other.userId (s.world q) call).store.sessions
        q.other.userId := by
  rw [session, (next_of_call ivs hc).1, Function.update_self]

/-- **Every event does one of these things.** -/
theorem acted {ev : Event Bytes} {q : Party} {call : ManagerCall Bytes Payload}
    (hev : Honest ev) (hc : s.callOf ev = some (q, call))
    (howned : (s.world q).store.Owned q)
    (hwire : ∀ e ∈ s.sent, e.OnWire (s.world e.sender).keysDrawn) :
    Acted ivs s (s.next (symbolic Name) (entropy ivs) ev) q := by
  have hs : (s.next (symbolic Name) (entropy ivs) ev).session q = _ := session_of_call hc
  cases ev with
  | initSessionFromBundle p bundle =>
    obtain ⟨rfl, rfl⟩ := Prod.mk.inj (Option.some.inj hc)
    obtain ⟨spkId, opkId, rfl⟩ := hev
    rw [perform] at hs
    rcases run_initSessionFromBundle_cases (symbolic Name) (entropy ivs p) p.other.userId
        (p.other.bundle spkId opkId) (s.world p) with ⟨e, draws, -, hrun⟩ | ⟨idKP, SK, d, -, hid, -, -, hrun⟩
    · rw [hrun] at hs
      exact .idle hs rfl
    · rw [hrun, KeyStore.storeSession_sessions_self] at hs
      obtain rfl : p.identityKeyPair = idKP := Option.some.inj (howned.identity.symm.trans hid)
      refine .initiated spkId opkId _ hs ?_ rfl
      rw [(next_of_call ivs hc).1, Function.update_self, perform, hrun]
  | encrypt p plaintext =>
    obtain ⟨rfl, rfl⟩ := Prod.mk.inj (Option.some.inj hc)
    -- without a session that can send nothing is sent
    rcases next_encrypt_cases (symbolic Name) (entropy ivs) s p plaintext with h | ⟨old, ck, hl, hck⟩
    · rw [h]
      exact .idle rfl rfl
    · refine .sent old ck plaintext hl hck ?_ (by rw [next_encrypt _ _ plaintext hl hck])
      rw [hs, perform, run_encrypt _ _ plaintext hl hck]
      exact KeyStore.storeSession_sessions_self ..
  | deliver i =>
    obtain ⟨e, he, hcall⟩ := Option.map_eq_some_iff.mp hc
    obtain ⟨rfl, rfl⟩ := Prod.mk.inj hcall
    have hsent : (s.next (symbolic Name) (entropy ivs) (.deliver i)).sent = s.sent := by
      rw [next_deliver _ _ he]
    have hmem : e ∈ s.sent := List.mem_of_getElem? he
    -- the header on the wire is the one that was sealed
    have hheader : ∀ {msg : WireMessage Bytes} {h : RatchetHeader Bytes},
        e.envelope.ciphertext = some msg → msg.h = some h → h = e.header := fun hp hh =>
      Option.some.inj (hh.symm.trans ((hwire e hmem).parsed hp).1)
    obtain ⟨r, store, draws, -, hrun, heff⟩ := run_decryptKey (symbolic Name)
      (entropy ivs e.sender.other) e.sender.other.other.userId e.envelope (s.world e.sender.other)
    rw [perform_decrypt, hrun] at hs
    cases heff with
    | refused _ => exact .idle hs hsent
    | received _ hp hh hl hr =>
      rw [KeyStore.storeSession_sessions_self] at hs
      obtain ⟨ht, hpend, hour⟩ := receiveWith_public _ hr
      rw [hheader hp hh] at ht hour
      exact .received e _ hmem (Party.other_other _).symm hs ht (.inr ⟨_, hl, hpend⟩)
        (hour.imp_left fun ho => ⟨_, hl, ho⟩) hsent
    | consumed _ _ hp =>
      rw [respondStore_sessions] at hs
      exact .idle hs hsent
    | created _ _ hp hh hok =>
      rw [KeyStore.storeSession_sessions_self] at hs
      have ht := respondWith_their _ hh hok
      rw [hheader hp hh] at ht
      obtain ⟨_, _, -, -, rfl⟩ := respondWith_handshake howned hok
      exact .received e _ hmem (Party.other_other _).symm hs ht (.inl rfl) (.inr rfl) hsent
    | established _ hp hh hok hr =>
      rw [KeyStore.storeSession_sessions_self] at hs
      obtain ⟨ht, hpend, hour⟩ := receiveWith_public _ hr
      rw [hheader hp hh] at ht
      obtain ⟨_, _, -, -, rfl⟩ := respondWith_handshake howned hok
      exact .received e _ hmem (Party.other_other _).symm hs ht (.inl hpend)
        (.inr (hour.elim And.right id)) hsent

/-! ## The invariant -/

/-- The first message with the ephemeral key `a` was delivered to `p`. -/
def Answered (s : Net Bytes Payload) (p : Party) (a : Name) : Prop :=
  ∃ i ∈ s.positions, ∃ e, s.sent[i]? = some e ∧ e.sender = p.other ∧ e.ephemeral = some (.pub a)

/-- `p`'s part of the conversation is a run with a book. -/
def Booked (watch : Option Watch) (s : Net Bytes Payload) (p : Party) : Prop :=
  ∃ log : KeyLog, log.world = s.world p ∧ (watch = some .both → log.used = s.used p) ∧
    KeyLog.Inv p p.other.userId watch log ∧ ∀ hs ∈ log.answered, Answered s p hs.ephemeral

/-- The invariant of an honest conversation. -/
structure Conducted (watch : Option Watch) (s : Net Bytes Payload) : Prop where
  booked : ∀ p, Booked watch s p
  onWire : ∀ e ∈ s.sent, e.OnWire (s.world e.sender).keysDrawn
  talks : ∀ p session, s.session p = some session → Talks p session
  /-- The parameters a session keeps were not sent yet. -/
  unsent : ∀ p session info, s.session p = some session → session.pendingPreKeyMsg = some info →
    ∀ e ∈ s.sent, e.sender = p → e.ephemeral ≠ some info.ephemeralKey
  /-- No two first messages of a party carry the same ephemeral key. -/
  ephemerals : ∀ (i j : ℕ) e e' x, s.sent[i]? = some e → s.sent[j]? = some e' →
    e.sender = e'.sender → e.ephemeral = some x → e'.ephemeral = some x → i = j

variable {watch : Option Watch}

theorem Conducted.owned (h : Conducted watch s) (p : Party) : (s.world p).store.Owned p := by
  obtain ⟨log, hw, -, hinv, -⟩ := h.booked p
  exact hw ▸ hinv.owned

/-- The record a party has stored is accounted for. -/
theorem Conducted.accounted (h : Conducted watch s) {p : Party} {session : RatchetSession Bytes}
    (hs : s.session p = some session) : ∃ m < (s.world p).keysDrawn, ∃ answered used,
      (watch = some .both → used = s.used p) ∧ Accounted p m watch answered used session := by
  obtain ⟨log, hw, hused, hinv, -⟩ := h.booked p
  obtain ⟨m, hm, hacc⟩ := hinv.record session (hw ▸ hs)
  exact ⟨m, hw ▸ hm, log.answered, log.used, hused, hacc⟩

/-- An event draws key pairs, if any. -/
theorem drawn_le {ev : Event Bytes} {q : Party} {call : ManagerCall Bytes Payload}
    (hc : s.callOf ev = some (q, call)) (p : Party) :
    (s.world p).keysDrawn ≤ ((s.next (symbolic Name) (entropy ivs) ev).world p).keysDrawn := by
  by_cases hp : p = q
  · subst hp
    rw [(next_of_call ivs hc).1, Function.update_self]
    exact (perform_frame p (entropy ivs p) p.other.userId (s.world p) call).drawn
  · rw [(session_of_ne hc hp).1]

/-- What an event adds to the envelopes sent: nothing, or the next one of the party
whose call it is. -/
theorem Acted.sent_cases {s' : Net Bytes Payload} {q : Party} (h : Acted ivs s s' q) :
    s'.sent = s.sent ∨ ∃ old ck plaintext, s.session q = some old ∧ old.sendChainKey = some ck ∧
      s'.sent = s.sent ++ [nextSent (symbolic Name) (entropy ivs) s q plaintext old ck] := by
  cases h with
  | idle _ hsent => exact .inl hsent
  | initiated _ _ _ _ _ hsent => exact .inl hsent
  | sent old ck plaintext hl hck _ hsent => exact .inr ⟨old, ck, plaintext, hl, hck, hsent⟩
  | received _ _ _ _ _ _ _ _ hsent => exact .inl hsent

theorem onWire_next (h : Conducted watch s) {ev : Event Bytes} {q : Party}
    {call : ManagerCall Bytes Payload} (hc : s.callOf ev = some (q, call))
    (ha : Acted ivs s (s.next (symbolic Name) (entropy ivs) ev) q) :
    ∀ e ∈ (s.next (symbolic Name) (entropy ivs) ev).sent,
      e.OnWire ((s.next (symbolic Name) (entropy ivs) ev).world e.sender).keysDrawn := by
  intro e he
  rcases ha.sent_cases with hsent | ⟨old, ck, plaintext, hl, hck, hsent⟩
  · exact (h.onWire e (hsent ▸ he)).mono (drawn_le hc _)
  · rw [hsent] at he
    rcases List.mem_append.mp he with he | he
    · exact (h.onWire e he).mono (drawn_le hc _)
    · rw [List.mem_singleton.mp he]
      obtain ⟨m, hm, _, _, -, hacc⟩ := h.accounted hl
      have hwire : (nextSent (symbolic Name) (entropy ivs) s q plaintext old ck).OnWire
          (s.world q).keysDrawn := hacc.onWire hm hck rfl
      exact hwire.mono (drawn_le hc q)

theorem talks_next (h : Conducted watch s) {ev : Event Bytes} {q : Party}
    {call : ManagerCall Bytes Payload} (hc : s.callOf ev = some (q, call))
    (ha : Acted ivs s (s.next (symbolic Name) (entropy ivs) ev) q) (p : Party)
    (new : RatchetSession Bytes)
    (hs : (s.next (symbolic Name) (entropy ivs) ev).session p = some new) : Talks p new := by
  by_cases hp : p = q
  · subst hp
    cases ha with
    | idle hsession _ => exact h.talks p new (hsession ▸ hs)
    | initiated spkId opkId keys hsession hdrawn _ =>
      obtain rfl := Option.some.inj (hsession.symm.trans hs)
      intro k hk
      obtain rfl := Option.some.inj hk
      rfl
    | sent old ck _ hl _ hsession _ =>
      obtain rfl := Option.some.inj (hsession.symm.trans hs)
      exact h.talks p old hl
    | received e _ hmem hto hsession htheir _ _ _ =>
      obtain rfl := Option.some.inj (hsession.symm.trans hs)
      intro k hk
      obtain ⟨j, -, _, _, _, hj, -⟩ := (h.onWire e hmem).ratchet
      rw [htheir, Option.bind_some, show e.header.rk = .pub (.generated e.sender j) from hj] at hk
      obtain rfl := Option.some.inj hk
      exact congrArg some hto
  · exact h.talks p new ((session_of_ne hc hp).2 ▸ hs)

theorem unsent_next (h : Conducted watch s) {ev : Event Bytes} {q : Party}
    {call : ManagerCall Bytes Payload} (hc : s.callOf ev = some (q, call))
    (ha : Acted ivs s (s.next (symbolic Name) (entropy ivs) ev) q) (p : Party)
    (new : RatchetSession Bytes) (info : PendingPreKeyMsg Bytes)
    (hs : (s.next (symbolic Name) (entropy ivs) ev).session p = some new)
    (hi : new.pendingPreKeyMsg = some info) :
    ∀ e ∈ (s.next (symbolic Name) (entropy ivs) ev).sent, e.sender = p →
      e.ephemeral ≠ some info.ephemeralKey := by
  intro e he hsender
  by_cases hp : p = q
  · subst hp
    cases ha with
    | idle hsession hsent => exact h.unsent p new info (hsession ▸ hs) hi e (hsent ▸ he) hsender
    | initiated _ _ _ hsession _ hsent =>
      obtain rfl := Option.some.inj (hsession.symm.trans hs)
      obtain rfl := Option.some.inj hi
      -- an envelope that was sent before has an older ephemeral key
      intro heph
      obtain ⟨info', hi', hkey⟩ := Option.map_eq_some_iff.mp heph
      obtain ⟨-, j, hj, hkey'⟩ := (h.onWire e (hsent ▸ he)).params info' hi'
      obtain ⟨hsame, hidx⟩ := Name.generated.inj (Term.pub.inj (hkey'.symm.trans hkey))
      rw [hsame] at hj
      omega
    | sent old ck _ hl _ hsession hsent =>
      obtain rfl := Option.some.inj (hsession.symm.trans hs)
      simp only [afterSend] at hi
      split at hi
      · cases hi
      · rename_i hnone
        -- with no handshake to repeat the new envelope has no ephemeral key
        rw [hsent] at he
        rcases List.mem_append.mp he with he | he
        · exact h.unsent p old info hl hi e he hsender
        · rw [List.mem_singleton.mp he]
          intro heph
          obtain ⟨info', hi', -⟩ := Option.map_eq_some_iff.mp heph
          exact hnone (by rw [show preKeyInfo old = some info' from hi']; rfl)
    | received _ _ _ _ hsession _ hpend _ hsent =>
      obtain rfl := Option.some.inj (hsession.symm.trans hs)
      rcases hpend with hpend | ⟨old, hl, hpend⟩
      · rw [hpend] at hi
        cases hi
      · exact h.unsent p old info hl (hpend ▸ hi) e (hsent ▸ he) hsender
  · rw [(session_of_ne hc hp).2] at hs
    rcases ha.sent_cases with hsent | ⟨old, ck, plaintext, -, -, hsent⟩
    · exact h.unsent p new info hs hi e (hsent ▸ he) hsender
    · rw [hsent] at he
      rcases List.mem_append.mp he with he | he
      · exact h.unsent p new info hs hi e he hsender
      · rw [List.mem_singleton.mp he] at hsender
        exact absurd hsender.symm hp

theorem ephemerals_next (h : Conducted watch s) {ev : Event Bytes} {q : Party}
    (ha : Acted ivs s (s.next (symbolic Name) (entropy ivs) ev) q) (i j : ℕ)
    (e e' : Sent Bytes Payload) (x : Bytes)
    (hi : (s.next (symbolic Name) (entropy ivs) ev).sent[i]? = some e)
    (hj : (s.next (symbolic Name) (entropy ivs) ev).sent[j]? = some e')
    (hsender : e.sender = e'.sender) (hx : e.ephemeral = some x) (hx' : e'.ephemeral = some x) :
    i = j := by
  rcases ha.sent_cases with hsent | ⟨old, ck, plaintext, hl, -, hsent⟩
  · rw [hsent] at hi hj
    exact h.ephemerals i j e e' x hi hj hsender hx hx'
  · -- The new envelope carries what the session kept, which was not sent before.
    have hnew : ∀ e₀ ∈ s.sent, e₀.sender = q →
        (nextSent (symbolic Name) (entropy ivs) s q plaintext old ck).ephemeral = some x →
        e₀.ephemeral ≠ some x := by
      intro e₀ he₀ hq hx₀
      obtain ⟨info, hinfo, rfl⟩ := Option.map_eq_some_iff.mp hx₀
      exact h.unsent q old info hl (pending_of_preKeyInfo hinfo) e₀ he₀ hq
    rw [hsent] at hi hj
    rcases getElem?_concat_cases hi with hi | ⟨rfl, rfl⟩ <;>
      rcases getElem?_concat_cases hj with hj | ⟨rfl, rfl⟩
    · exact h.ephemerals i j e e' x hi hj hsender hx hx'
    · exact absurd hx (hnew e (List.mem_of_getElem? hi) hsender hx')
    · exact absurd hx' (hnew e' (List.mem_of_getElem? hj) hsender.symm hx)
    · rfl

/-- A handshake has the ephemeral key of the envelope that asks for it. -/
theorem ephemeral_of_handshake {drawn : ℕ} {e : Sent Bytes Payload} (h : e.OnWire drawn)
    {store : KeyStore Bytes} {msg : WireMessage Bytes} {hs : Handshake}
    (hmsg : e.envelope.ciphertext = some msg) (hhs : handshakeOf store msg = some hs) :
    e.ephemeral = some (.pub hs.ephemeral) := by
  obtain ⟨hh, -, hpre⟩ := h.parsed hmsg
  obtain ⟨params, hparams, -⟩ := Option.bind_eq_some_iff.mp hhs
  obtain ⟨-, heph, -⟩ := handshakeOf_names hparams hh hhs
  rw [hpre] at hparams
  obtain ⟨info, hinfo, rfl⟩ := Option.map_eq_some_iff.mp hparams
  obtain ⟨-, j, -, hj⟩ := h.params info hinfo
  rw [hj] at heph
  rw [Sent.ephemeral, hinfo, Option.map_some, hj, Option.some.inj heph]

/-- **What honest parties do is allowed** in the run of each of them. -/
theorem allowed_of_honest (h : Conducted watch s) {ev : Event Bytes} {q : Party}
    {call : ManagerCall Bytes Payload} (hev : Honest ev) (honce : watch ≠ none → Once s ev)
    (hc : s.callOf ev = some (q, call)) {log : KeyLog} (hw : log.world = s.world q)
    (hans : ∀ hs ∈ log.answered, Answered s q hs.ephemeral) :
    KeyLog.Allowed q q.other.userId watch log (q.other.userId, call) := by
  intro _
  cases ev with
  | initSessionFromBundle p bundle =>
    obtain ⟨rfl, rfl⟩ := Prod.mk.inj (Option.some.inj hc)
    obtain ⟨spkId, opkId, rfl⟩ := hev
    constructor
    · intro a ha
      obtain rfl := Option.some.inj ha
      exact Name.past_of_not_generated nofun
    · intro _ he
      exact Party.other_ne p (Name.identity.inj (Option.some.inj he))
  | encrypt p plaintext =>
    obtain ⟨rfl, rfl⟩ := Prod.mk.inj (Option.some.inj hc)
    trivial
  | deliver i =>
    obtain ⟨e, he, hcall⟩ := Option.map_eq_some_iff.mp hc
    obtain ⟨rfl, rfl⟩ := Prod.mk.inj hcall
    have hwire := h.onWire e (List.mem_of_getElem? he)
    have hsender : e.sender = e.sender.other.other := (Party.other_other _).symm
    intro msg hmsg
    obtain ⟨hh, -, hpre⟩ := hwire.parsed hmsg
    refine ⟨?_, ?_, ?_⟩
    · intro header hheader a ha
      obtain rfl := Option.some.inj (hh.symm.trans hheader)
      obtain ⟨m, -, _, _, _, hm, -⟩ := hwire.ratchet
      rw [show e.header.rk = .pub (.generated e.sender m) from hm] at ha
      obtain rfl := Option.some.inj ha
      exact Name.past_of_owner fun ho => Party.ne_other _ (Option.some.inj ho)
    · intro params hparams a ha
      rw [hpre] at hparams
      obtain ⟨info, hinfo, rfl⟩ := Option.map_eq_some_iff.mp hparams
      rw [(hwire.params info hinfo).1] at ha
      obtain rfl := Option.some.inj ha
      exact Name.past_of_not_generated nofun
    · intro hsome _ hs hhs hmem
      obtain ⟨j, hj, e', he', hto, heph⟩ := hans hs hmem
      have hij := h.ephemerals i j e e' _ he he' (hsender.trans hto.symm)
        (ephemeral_of_handshake hwire hmsg hhs) heph
      exact honce hsome (hij ▸ hj)

/-- What was delivered stays delivered. -/
theorem Answered.next {p : Party} {a : Name} (h : Answered s p a) (ev : Event Bytes) :
    Answered (s.next (symbolic Name) (entropy ivs) ev) p a := by
  obtain ⟨i, hi, e, he, hrest⟩ := h
  cases ev with
  | initSessionFromBundle q bundle => exact ⟨i, hi, e, he, hrest⟩
  | encrypt q plaintext => exact ⟨i, hi, e, getElem?_append_of_some he, hrest⟩
  | deliver j =>
    cases hj : s.sent[j]? with
    | none =>
      rw [next_deliver_none _ _ hj]
      exact ⟨i, hi, e, he, hrest⟩
    | some e' =>
      rw [next_deliver _ _ hj]
      refine ⟨i, ?_, e, he, hrest⟩
      rw [positions, List.map_append]
      exact List.mem_append_left _ hi

/-- A handshake that is answered is one of an envelope delivered. -/
theorem answered_of_handshakes (h : Conducted watch s) {ev : Event Bytes} {q : Party}
    {call : ManagerCall Bytes Payload} (hc : s.callOf ev = some (q, call)) {hs : Handshake}
    (hmem : hs ∈ KeyLog.handshakes q (ivs q) (s.world q) call) :
    Answered (s.next (symbolic Name) (entropy ivs) ev) q hs.ephemeral := by
  cases ev with
  | initSessionFromBundle p bundle =>
    obtain ⟨rfl, rfl⟩ := Prod.mk.inj (Option.some.inj hc)
    cases hmem
  | encrypt p plaintext =>
    obtain ⟨rfl, rfl⟩ := Prod.mk.inj (Option.some.inj hc)
    cases hmem
  | deliver i =>
    obtain ⟨e, he, hcall⟩ := Option.map_eq_some_iff.mp hc
    obtain ⟨rfl, rfl⟩ := Prod.mk.inj hcall
    obtain ⟨msg, hmsg, hhs⟩ := KeyLog.handshakeOf_of_mem hmem
    rw [next_deliver _ _ he]
    refine ⟨i, ?_, e, he, (Party.other_other _).symm,
      ephemeral_of_handshake (h.onWire e (List.mem_of_getElem? he)) hmsg hhs⟩
    rw [positions, List.map_append]
    exact List.mem_append_right _ (List.mem_singleton_self i)

theorem booked_next (h : Conducted watch s) {ev : Event Bytes} {q : Party}
    {call : ManagerCall Bytes Payload} (hev : Honest ev) (honce : watch ≠ none → Once s ev)
    (hc : s.callOf ev = some (q, call)) (p : Party) :
    Booked watch (s.next (symbolic Name) (entropy ivs) ev) p := by
  obtain ⟨hworld, hused⟩ := next_of_call ivs hc
  obtain ⟨log, hw, hu, hinv, hans⟩ := h.booked p
  by_cases hp : p = q
  · subst hp
    refine ⟨log.next p (ivs p) p.other.userId watch (p.other.userId, call), ?_, ?_,
      hinv.next _ (allowed_of_honest h hev honce hc hw hans), ?_⟩
    · rw [hworld, Function.update_self, KeyLog.next, hw]
      rfl
    · intro hboth
      rw [hused, Function.update_self, KeyLog.next, hw, hu hboth, hboth]
      simp only [if_true]
    · intro hs hmem
      rcases List.mem_append.mp hmem with hmem | hmem
      · exact (hans hs hmem).next ev
      · rw [if_pos rfl, hw] at hmem
        exact answered_of_handshakes h hc hmem
  · refine ⟨log, ?_, ?_, hinv, fun hs hmem => (hans hs hmem).next ev⟩
    · rw [hworld, Function.update_of_ne hp, hw]
    · intro hboth
      rw [hused, Function.update_of_ne hp, hu hboth]

/-- **One event keeps the invariant.** -/
theorem Conducted.next (h : Conducted watch s) {ev : Event Bytes} (hev : Honest ev)
    (honce : watch ≠ none → Once s ev) :
    Conducted watch (s.next (symbolic Name) (entropy ivs) ev) := by
  cases hc : s.callOf ev with
  | none =>
    rw [next_of_no_call ivs hc]
    exact h
  | some r =>
    obtain ⟨q, call⟩ := r
    have ha : Acted ivs s (s.next (symbolic Name) (entropy ivs) ev) q :=
      acted hev hc (h.owned q) h.onWire
    exact ⟨booked_next h hev honce hc, onWire_next h hc ha, talks_next h hc ha,
      unsent_next h hc ha, ephemerals_next h ha⟩

/-- Two parties with their own keys that have not spoken yet. -/
structure Fresh (w : Party → World Bytes) : Prop where
  owned : ∀ p, (w p).store.Owned p
  noSession : ∀ p, (w p).store.sessions p.other.userId = none

theorem newParties_fresh (opkIds : List Int) : Fresh (newParties opkIds) where
  owned p := p.newStore_owned [1] opkIds
  noSession _ := rfl

theorem conducted_start {w : Party → World Bytes} (hw : Fresh w) :
    Conducted watch (start w : Net Bytes Payload) where
  booked p := ⟨KeyLog.start (w p), rfl, fun _ => rfl,
    KeyLog.inv_start (hw.owned p) (hw.noSession p), fun _ h => absurd h List.not_mem_nil⟩
  onWire _ h := absurd h List.not_mem_nil
  talks p _ hs := by rw [session, start, hw.noSession p] at hs; cases hs
  unsent p _ _ hs := by rw [session, start, hw.noSession p] at hs; cases hs
  ephemerals i j e e' x hi := by cases hi

/-- **The invariant holds in every state of an honest conversation.** -/
theorem conducted_reaches {w : Party → World Bytes} (hw : Fresh w)
    (hrun : Reaches (next (symbolic Name) (entropy ivs))
      (fun s ev => Honest ev ∧ (watch ≠ none → Once s ev)) (start w) s) : Conducted watch s :=
  hrun.invariant (conducted_start hw) fun _ _ h hev => h.next hev.1 hev.2

end Net
end Winkd
