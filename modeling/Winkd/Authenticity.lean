import Winkd.ChainSides
import Winkd.KeyRuns
import Winkd.Secrecy

/-!
# What an accepted envelope vouches for

An attacker carries the envelopes of two managers, alters them and makes its own;
it has key pairs of its own, and neither manager's private or derived keys.  The
managers serve other peers too, about whom nothing is assumed.

AES-GCM is given no associated data, so what an accepted envelope proves is what
its message key proves: who sealed the ciphertext, and, as far as the receiver's
key depends on them, the header's ratchet key and number (`accepted_is_sent`).
Nothing vouches for `pn`, for a number that is not an integer or lies below the
receiving counter, for the identity key of a type-1 envelope, or for which base64 text
of its bytes anything comes in (`header_not_vouched`).
-/

namespace Winkd
open Js Symbolic SignalSessionManager Transitions UnicodeText

/-- Two managers, and the envelopes they have returned to whoever carries them. -/
structure Intercepted where
  world : Party → World Bytes
  sent : List (Sent Bytes Payload)

/-- A call of one of the managers, for any of its peers. -/
structure Move where
  party : Party
  peerId : String
  call : ManagerCall Bytes Payload

namespace Intercepted
variable (ivs : Party → ℕ → List UInt8)

/-- What a call returns to the network. -/
def returns (s : Intercepted) (m : Move) : List (Sent Bytes Payload) :=
  match m.call with
  | .encrypt plaintext =>
    (returnedBy plaintext ((s.world m.party).store.sessions m.peerId)
      ((encrypt (symbolic Name) m.peerId plaintext).run (serve (Net.entropy ivs m.party))
        (s.world m.party)).1).map fun e => ⟨e, m.party⟩
  | _ => []

/-- One call. -/
def next (s : Intercepted) (m : Move) : Intercepted where
  world := Function.update s.world m.party
    (perform (symbolic Name) (Net.entropy ivs m.party) m.peerId (s.world m.party) m.call)
  sent := s.sent ++ s.returns ivs m

/-- Two managers that have not spoken to anybody. -/
def start (w : Party → World Bytes) : Intercepted := ⟨w, []⟩

/-! ## The attacker -/

/-- What the attacker holds: its own private keys, the signatures of both parties'
published pre-keys, and everything in the envelopes returned so far. -/
def known (s : Intercepted) : Set Bytes := fun t =>
  (∃ i, t = .priv (.outsider i)) ∨
    (∃ p id, t = .sig (.identity p) (.pub (.signedPreKey p id))) ∨
    ∃ e ∈ s.sent, ∃ msg, e.envelope.ciphertext = some msg ∧ InPayload msg t

/-- A call the attacker can bring about. -/
def Feasible (s : Intercepted) : ManagerCall Bytes Payload → Prop
  | .initSessionFromBundle bundle => Derives s.known bundle.signedPreKey.signature
  | .encrypt _ => True
  | .decrypt envelope => ∀ msg ∈ envelope.ciphertext, ∀ t, InPayload msg t → Derives s.known t

/-- `p` makes a call for the other party, as `q` does. -/
def ForOther (q p : Party) (peerId : String) : Prop := p = q ∧ peerId = q.other.userId

end Intercepted

/-- The identity key a call is made with is the other party's; and if `ordered`, the
numbers it comes with are integers and not stale. -/
def Identified (p : Party) (peerId : String) (ordered : Prop) (w : World Bytes) :
    ManagerCall Bytes Payload → Prop
  | .initSessionFromBundle bundle => bundle.identityKey.publicName = some (.identity p.other)
  | .encrypt _ => True
  | .decrypt envelope => ∀ msg ∈ envelope.ciphertext,
    match envelope.type with
    | .preKeySignalMessage =>
        (∀ params ∈ msg.preKey, params.ik.publicName = some (.identity p.other)) ∧
          (ordered → ∀ h ∈ msg.h, h.n = .int h.number ∧ 0 ≤ h.number)
    | .signalMessage => ordered → ∀ session ∈ w.store.sessions peerId, ∀ h ∈ msg.h,
        NotStale session h

instance (p : Party) (peerId : String) (ordered : Prop) [Decidable ordered] (w : World Bytes) :
    (call : ManagerCall Bytes Payload) → Decidable (Identified p peerId ordered w call)
  | .initSessionFromBundle bundle => inferInstanceAs (Decidable (bundle.identityKey.publicName = _))
  | .encrypt _ => isTrue trivial
  | .decrypt ⟨.preKeySignalMessage, ciphertext, _⟩ =>
    inferInstanceAs (Decidable (∀ msg ∈ ciphertext, (∀ params ∈ msg.preKey, _) ∧
      (ordered → ∀ h ∈ msg.h, h.n = .int h.number ∧ 0 ≤ h.number)))
  | .decrypt ⟨.signalMessage, ciphertext, _⟩ =>
    inferInstanceAs (Decidable (∀ msg ∈ ciphertext, ordered →
      ∀ session ∈ w.store.sessions peerId, ∀ h ∈ msg.h, NotStale session h))

/-- The calls of a run: those of `q` for the other party are feasible, and made with
the other party's identity key. -/
def Intercepted.Allowed (q : Party) (ordered : Prop) (s : Intercepted) (m : Move) : Prop :=
  ForOther q m.party m.peerId →
    s.Feasible m.call ∧ Identified m.party m.peerId ordered (s.world m.party) m.call

/-! ## One call -/

variable {p : Party} {trusted ordered : Prop}

/-- The key a call of `decrypt` opens the message with, and what the header says
about it. -/
def Opens (p : Party) (trusted ordered : Prop) (mk : Bytes) (msg : WireMessage Bytes) : Prop :=
  ∃ header k base, ∃ i : ℕ, msg.h = some header ∧ header.rk.publicName = some k ∧
    ReceivesOn p trusted k base ∧ mk = (symbolic Name).chain.messageAt base i ∧
    (ordered → header.n = .int i)

/-- What `decrypt` leaves stored is numbered, and so is the key it takes. -/
theorem numbered_decryptKey {m : ℕ} {peerId : String} {envelope : EncryptedEnvelope Payload}
    {w : World Bytes} {store : KeyStore Bytes} {r : Except Failure (Bytes × WireMessage Bytes)}
    (howned : w.store.Owned p)
    (h : ∀ session, w.store.sessions peerId = some session → Numbered p trusted ordered session)
    (hid : trusted → Identified p peerId ordered w (.decrypt envelope)) (ho : ordered → trusted)
    (heff : DecryptEffect (symbolic Name) peerId envelope (dhPairOf (.generated p m)) w.store r
      store) :
    (∀ new, store.sessions peerId = some new → Numbered p trusted ordered new) ∧
      ∀ mk msg, r = .ok (mk, msg) →
        envelope.ciphertext = some msg ∧ Opens p trusted ordered mk msg := by
  -- a handshake that is answered: the session is numbered from its first key on
  have hresp : ∀ msg session, envelope.type = .preKeySignalMessage →
      envelope.ciphertext = some msg →
      respondWith (symbolic Name) (dhPairOf (.generated p m)) w.store msg = .ok session →
      Numbered p trusted ordered session ∧ session.recvCount = .int 0 ∧
        (ordered → ∀ header ∈ msg.h, header.n = .int header.number ∧ 0 ≤ header.number) := by
    intro msg session htype hp hok
    have hidm : trusted →
        (∀ params ∈ msg.preKey, params.ik.publicName = some (.identity p.other)) ∧
          (ordered → ∀ header ∈ msg.h, header.n = .int header.number ∧ 0 ≤ header.number) := by
      intro ht
      have hmsg := hid ht msg hp
      rw [htype] at hmsg
      exact hmsg
    obtain ⟨idKP, params, _, _, header, _, _, -, hparams, -, -, hh, -⟩ := respondWith_ok _ hok
    obtain ⟨hs, header', hhs, hh', rfl⟩ := respondWith_handshake howned hok
    obtain rfl := Option.some.inj (hh.symm.trans hh')
    obtain ⟨hidentity, -, hratchet⟩ := handshakeOf_names hparams hh hhs
    refine ⟨numbered_responder hratchet fun ht => ?_, rfl, fun ho' => (hidm (ho ho')).2 ho'⟩
    exact Option.some.inj (hidentity.symm.trans ((hidm ht).1 params hparams))
  cases heff with
  | refused e => exact ⟨h, fun mk msg he => by cases he⟩
  | @received msg header session session' mk htype hp hh hl hr =>
    -- the session was there before, and takes a key of one of its chains
    have hnotStale : ordered → NotStale session header := by
      intro ho'
      have hmsg := hid (ho ho') msg hp
      rw [htype] at hmsg
      exact hmsg ho' session hl header hh
    obtain ⟨hnew, hkey⟩ := (h session hl).receive hnotStale hr
    constructor
    · intro new hs
      rw [KeyStore.storeSession_sessions_self] at hs
      exact Option.some.inj hs ▸ hnew
    · intro mk' msg' he
      obtain ⟨rfl, rfl⟩ := Prod.mk.inj (Except.ok.inj he)
      obtain ⟨k, base, i, hkey⟩ := hkey
      exact ⟨hp, header, k, base, i, hh, hkey⟩
  | consumed =>
    rw [respondStore_sessions]
    exact ⟨h, fun mk msg he => by cases he⟩
  | created e htype hp hh hok hr =>
    refine ⟨?_, fun mk msg he => by cases he⟩
    intro new hs
    rw [KeyStore.storeSession_sessions_self] at hs
    exact Option.some.inj hs ▸ (hresp _ _ htype hp hok).1
  | @established msg header session session' mk htype hp hh hok hr =>
    obtain ⟨hnum, hzero, hn⟩ := hresp _ _ htype hp hok
    have ht := respondWith_their _ hh hok
    rw [receiveWith_of_eq _ ht] at hr
    have hstep : ordered → InStep session header.rk header.n := by
      intro ho'
      obtain ⟨hint, hle⟩ := hn ho' header hh
      refine ⟨hint, .inr ?_⟩
      rw [RatchetSession.count, hzero]
      exact hle
    obtain ⟨hnew, hkey⟩ := hnum.retrieve ht hstep hr
    constructor
    · intro new hs
      rw [KeyStore.storeSession_sessions_self] at hs
      exact Option.some.inj hs ▸ hnew
    · intro mk' msg' he
      obtain ⟨rfl, rfl⟩ := Prod.mk.inj (Except.ok.inj he)
      obtain ⟨k, base, i, hkey⟩ := hkey
      exact ⟨hp, header, k, base, i, hh, hkey⟩

/-- **One call keeps a session numbered.** -/
theorem numbered_perform {ivs : ℕ → List UInt8} {peerId : String} {w : World Bytes}
    {call : ManagerCall Bytes Payload} (howned : w.store.Owned p)
    (h : ∀ session, w.store.sessions peerId = some session → Numbered p trusted ordered session)
    (hid : trusted → Identified p peerId ordered w call) (ho : ordered → trusted)
    (hsigned : trusted → ∀ bundle, call = .initSessionFromBundle bundle →
      (symbolic Name).verifyPreKey bundle.identityKey bundle.signedPreKey.publicKey
        bundle.signedPreKey.signature = true →
      ∃ id, bundle.signedPreKey.publicKey.publicName = some (.signedPreKey p.other id))
    {new : RatchetSession Bytes}
    (hs : (perform (symbolic Name) (p.entropy ivs) peerId w call).store.sessions peerId =
      some new) : Numbered p trusted ordered new := by
  cases call with
  | initSessionFromBundle bundle =>
    rw [perform] at hs
    rcases run_initSessionFromBundle_cases (symbolic Name) (p.entropy ivs) peerId bundle w with
      ⟨e, draws, -, hrun⟩ | ⟨idKP, SK, dhOut, hv, hidk, hx, hd, hrun⟩
    · rw [hrun] at hs
      exact h new hs
    · rw [hrun, KeyStore.storeSession_sessions_self] at hs
      obtain rfl : p.identityKeyPair = idKP := Option.some.inj (howned.identity.symm.trans hidk)
      exact Option.some.inj hs ▸
        numbered_initiator (fun ht => hsigned ht bundle rfl hv) hx hd
  | encrypt plaintext =>
    rw [perform] at hs
    rcases run_encrypt_cases (symbolic Name) (p.entropy ivs) peerId plaintext w with
      ⟨e, he⟩ | ⟨session, ck, hl, hck⟩
    · rw [he] at hs
      exact h new hs
    · rw [run_encrypt _ _ plaintext hl hck, KeyStore.storeSession_sessions_self] at hs
      exact Option.some.inj hs ▸ (h session hl).send hck
  | decrypt envelope =>
    obtain ⟨r, store, draws, -, hrun, heff⟩ :=
      run_decryptKey (symbolic Name) (p.entropy ivs) peerId envelope w
    rw [perform_decrypt, hrun] at hs
    exact (numbered_decryptKey howned h hid ho heff).1 new hs

/-! ## Envelopes -/

/-- What a returned envelope carries: public keys, and a ciphertext under the message
key that its ratchet key and its number stand for. -/
structure Sent.Carries (e : Sent Bytes Payload) : Prop where
  envelope : ∃ iv regId, e.envelope =
    envelopeOf (symbolic Name) e.session e.chainKey (.lit iv) e.plaintext regId
  numbered : ∃ m base, ∃ i : ℕ, e.session.ourRatchetPublic = .pub (.generated e.sender m) ∧
    SendsOn e.sender False m base ∧ e.chainKey = (symbolic Name).chain.chainAt base i ∧
    e.session.sendCount = i
  params : ∀ info, preKeyInfo e.session = some info →
    ∃ a b, info.identityKey = .pub a ∧ info.ephemeralKey = .pub b

theorem Numbered.carries {session : RatchetSession Bytes} (h : Numbered p trusted ordered session)
    {ck : Bytes} (hck : session.sendChainKey = some ck) {iv : List UInt8} {plaintext : CodeUnits}
    {regId : Option Int} {envelope : EncryptedEnvelope Payload}
    (he : envelope = envelopeOf (symbolic Name) session ck (.lit iv) plaintext regId) :
    Sent.Carries ⟨⟨session, ck, plaintext, envelope⟩, p⟩ where
  envelope := ⟨iv, regId, he⟩
  numbered := by
    obtain ⟨m, base, i, hpub, -, ⟨root, their, hr, hb⟩, hi, hc⟩ := h.sending
    exact ⟨m, base, i, hpub, ⟨root, their, hr.weaken, hb⟩, Option.some.inj (hck.symm.trans hi), hc⟩
  params info hi := h.pending info (pending_of_preKeyInfo hi)

namespace Intercepted
variable {ivs : Party → ℕ → List UInt8} {q : Party} {s : Intercepted}

/-! ## The invariant -/

/-- Every session of both managers is numbered; the one `q` has with the other party
is trusted. -/
structure Kept (q : Party) (ordered : Prop) (s : Intercepted) : Prop where
  owned : ∀ p, (s.world p).store.Owned p
  numbered : ∀ p peerId session, (s.world p).store.sessions peerId = some session →
    Numbered p (ForOther q p peerId) (ForOther q p peerId ∧ ordered) session
  carries : ∀ e ∈ s.sent, e.Carries

/-- What the attacker holds. -/
inductive Heard (s : Intercepted) : Bytes → Prop where
  | outsider (i) : Heard s (.priv (.outsider i))
  | signature (p id) : Heard s (.sig (.identity p) (.pub (.signedPreKey p id)))
  | pub (n) : Heard s (.pub n)
  | lit (bytes) : Heard s (.lit bytes)
  | ciphertext {e msg iv} (mem : e ∈ s.sent) (payload : e.envelope.ciphertext = some msg)
      (ct : msg.ct = .aes (e.messageKey (symbolic Name)) (.lit iv) (textEncode e.plaintext))
      (ivSent : msg.iv = .lit iv) :
      Heard s (.aes (e.messageKey (symbolic Name)) (.lit iv) (textEncode e.plaintext))

theorem heard_of_known (h : ∀ e ∈ s.sent, e.Carries) {t : Bytes} (ht : t ∈ s.known) :
    Heard s t := by
  rcases ht with ⟨i, rfl⟩ | ⟨p, id, rfl⟩ | ⟨e, he, msg, hmsg, hpay⟩
  · exact .outsider i
  · exact .signature p id
  · obtain ⟨iv, regId, henv⟩ := (h e he).envelope
    have hmsg' := hmsg
    rw [henv] at hmsg'
    have hparams : ∀ params, msg.preKey = some params →
        ∃ a b, params.ik = .pub a ∧ params.ek = .pub b := by
      intro params hp
      rw [← Option.some.inj hmsg'] at hp
      obtain ⟨info, hinfo, rfl⟩ := Option.map_eq_some_iff.mp hp
      exact (h e he).params info hinfo
    -- what can be read off an envelope, part by part
    cases hpay with
    | @rk header hrk =>
      rw [← Option.some.inj hmsg'] at hrk
      obtain ⟨m, -, -, hm, -⟩ := (h e he).numbered
      rw [← Option.some.inj hrk, show (nextHeader e.session).rk = .pub (.generated e.sender m)
        from hm]
      exact .pub _
    | ct =>
      have hct : msg.ct = .aes (e.messageKey (symbolic Name)) (.lit iv)
          (textEncode e.plaintext) := by
        rw [← Option.some.inj hmsg']
        rfl
      have hiv : msg.iv = .lit iv := by
        rw [← Option.some.inj hmsg']
        rfl
      rw [hct]
      exact .ciphertext he hmsg hct hiv
    | iv =>
      rw [← Option.some.inj hmsg']
      exact .lit iv
    | ik hp =>
      obtain ⟨a, b, ha, -⟩ := hparams _ hp
      rw [ha]
      exact .pub a
    | ek hp =>
      obtain ⟨a, b, -, hb⟩ := hparams _ hp
      rw [hb]
      exact .pub b

/-- The attacker holds no key material before it is cut. -/
theorem cut_known (h : ∀ e ∈ s.sent, e.Carries) : Cut s.known where
  cat _ _ ht := nomatch heard_of_known h ht
  hkdf _ _ _ _ ht := nomatch heard_of_known h ht
  shared _ _ ht := nomatch heard_of_known h ht
  respelt _ _ ht := nomatch heard_of_known h ht

/-- No DH output of two keys the parties own is known. -/
theorem agree_not_known (h : ∀ e ∈ s.sent, e.Carries) {a b : Name} {p p' : Party}
    (hk : Knows s.known (Term.agree a b)) (ha : a.owner = some p) (hb : b.owner = some p') :
    False := by
  rcases (cut_known h).knows_agree hk with hk | hk
  · cases heard_of_known h hk
    cases ha
  · cases heard_of_known h hk
    cases hb

/-- **No root key of a trusted session is known.** -/
theorem root_not_known (h : ∀ e ∈ s.sent, e.Carries) {side : Side} {root : Bytes}
    (hr : RootOf q True side root) : ¬ Knows s.known root := by
  induction hr with
  | initiated z2 z3 z4 genuine =>
    obtain ⟨id, rfl⟩ := genuine trivial
    intro hk
    rcases (cut_known h).knows_lastSecret (.x3dh z2 z3 z4) hk with hk | hk
    · cases heard_of_known h hk
    · exact agree_not_known h hk rfl rfl
  | answered hs genuine =>
    intro hk
    rcases (cut_known h).knows_lastSecret (.x3dh _ _ _) hk with hk | hk
    · cases heard_of_known h hk
    · rw [genuine trivial] at hk
      exact agree_not_known h hk rfl rfl
  | step z _ ih =>
    intro hk
    rcases hk with hk | hk | ⟨-, hroot⟩
    · cases heard_of_known h hk
    · exact absurd hk ((cut_known h).hkdf _ _ _ _)
    · exact ih hroot

/-- **Nor is any message key of its receiving chains.** -/
theorem messageAt_not_known (h : ∀ e ∈ s.sent, e.Carries) {k : Name} {base : Bytes} {i : ℕ}
    (hb : ReceivesOn q True k base) : ¬ Knows s.known ((symbolic Name).chain.messageAt base i) := by
  obtain ⟨root, c, hr, -, rfl⟩ := hb
  intro hk
  rcases (cut_known h).knows_messageAt hk with hk | ⟨j, -, hk⟩ | ⟨hk, -⟩
  · cases heard_of_known h hk
  · rcases chainAt_shape root (Term.agree c k) j with ⟨t, ht⟩ | ⟨t, ht⟩
    · rw [ht] at hk
      cases heard_of_known h hk
    · rw [ht] at hk
      cases heard_of_known h hk
  · exact root_not_known h hr hk

/-- A bundle that verifies under a party's identity key carries a signed pre-key of
that party. -/
theorem signed_of_feasible (h : ∀ e ∈ s.sent, e.Carries) {bundle : PreKeyBundle Bytes} {p : Party}
    (hf : s.Feasible (.initSessionFromBundle bundle))
    (hid : bundle.identityKey.publicName = some (.identity p))
    (hv : (symbolic Name).verifyPreKey bundle.identityKey bundle.signedPreKey.publicKey
      bundle.signedPreKey.signature = true) :
    ∃ id, bundle.signedPreKey.publicKey.publicName = some (.signedPreKey p id) := by
  have hk := knows_ofBase64.mpr (Derives.knows (cut_known h).cat (cut_known h).respelt hf)
  have hv' : ((symbolic Name).ecdsaVerify bundle.identityKey.ofBase64
      bundle.signedPreKey.signature.ofBase64 bundle.signedPreKey.publicKey.ofBase64).getD false =
      true := hv
  rw [Term.publicName_eq_some_iff.mp hid] at hv'
  cases hsig : bundle.signedPreKey.signature.ofBase64 with
  | sig n d =>
    rw [hsig] at hv' hk
    have hnd : Name.identity p = n ∧ d = bundle.signedPreKey.publicKey.ofBase64 := by
      simpa [symbolic, Term.verify] using hv'
    obtain ⟨rfl, hdata⟩ := hnd
    rcases hk with hk | ⟨hk, -⟩
    · cases heard_of_known h hk with
      | signature _ id => exact ⟨id, Term.publicName_eq_some_iff.mpr hdata.symm⟩
    · cases heard_of_known h hk
  | _ =>
    rw [hsig] at hv'
    simp [symbolic, Term.verify] at hv'

/-- **One call keeps the invariant.** -/
theorem Kept.next {ordered : Prop} (h : Kept q ordered s) {m : Move} (ha : Allowed q ordered s m) :
    Kept q ordered (s.next ivs m) := by
  obtain ⟨p, peerId, call⟩ := m
  have hf := perform_frame p (Net.entropy ivs p) peerId (s.world p) call
  refine ⟨?_, ?_, ?_⟩
  · intro p'
    by_cases hp : p' = p
    · subst hp
      simp only [Intercepted.next, Function.update_self]
      exact hf.owned (h.owned p')
    · simp only [Intercepted.next, Function.update_of_ne hp]
      exact h.owned p'
  · intro p' peerId' session hs
    by_cases hp : p' = p
    · subst hp
      simp only [Intercepted.next, Function.update_self] at hs
      -- only the session with the peer of the call moves
      by_cases hpeer : peerId' = peerId
      · subst hpeer
        refine numbered_perform (h.owned p') (h.numbered p' peerId') (fun ht => ?_) And.left
          (fun ht bundle hc hv => ?_) hs
        · have hid := (ha ht).2
          cases call with
          | initSessionFromBundle bundle => exact hid
          | encrypt plaintext => trivial
          | decrypt envelope =>
            intro msg hmsg
            have hidm := hid msg hmsg
            cases htype : envelope.type with
            | preKeySignalMessage =>
              simp only [htype] at hidm ⊢
              exact ⟨hidm.1, fun ho => hidm.2 ho.2⟩
            | signalMessage =>
              simp only [htype] at hidm ⊢
              exact fun ho => hidm ho.2
        · obtain ⟨hfeasible, hid⟩ := ha ht
          simp only [hc] at hfeasible hid
          exact signed_of_feasible h.carries hfeasible hid hv
      · rw [hf.sessions peerId' hpeer] at hs
        exact h.numbered p' peerId' session hs
    · simp only [Intercepted.next, Function.update_of_ne hp] at hs
      exact h.numbered p' peerId' session hs
  · intro e he
    rcases List.mem_append.mp he with he | he
    · exact h.carries e he
    · cases call with
      | initSessionFromBundle bundle => cases he
      | decrypt envelope => cases he
      | encrypt plaintext =>
        obtain ⟨r, hr, rfl⟩ := List.mem_map.mp he
        -- what is sent is sealed with a key of the session
        rcases run_encrypt_cases (symbolic Name) (Net.entropy ivs p) peerId plaintext (s.world p)
          with ⟨e, hthrown⟩ | ⟨session, ck, hl, hck⟩
        · rw [hthrown] at hr
          cases hr
        · rw [run_encrypt _ _ plaintext hl hck] at hr
          simp only [returnedBy, hl, hck, List.mem_singleton] at hr
          subst hr
          exact (h.numbered p peerId session hl).carries hck rfl

/-- Two parties with their own keys, and no session. -/
structure New (w : Party → World Bytes) : Prop where
  owned : ∀ p, (w p).store.Owned p
  noSession : ∀ p peerId, (w p).store.sessions peerId = none

theorem kept_start {ordered : Prop} {w : Party → World Bytes} (hw : New w) :
    Kept q ordered (start w) where
  owned := hw.owned
  numbered p peerId session hs := by
    rw [start, hw.noSession p peerId] at hs
    cases hs
  carries _ he := absurd he List.not_mem_nil

/-- **The invariant holds along runs.** -/
theorem kept_reaches {ordered : Prop} {w : Party → World Bytes} (hw : New w)
    (hrun : Reaches (next ivs) (Allowed q ordered) (start w) s) : Kept q ordered s :=
  hrun.invariant (kept_start hw) fun _ _ h ha => h.next ha

/-! ## The main result -/

/-- Two texts of the same bytes. -/
def SameBytes (t u : Bytes) : Prop := (symbolic Name).base64ToBuf t = (symbolic Name).base64ToBuf u

/-- What an accepted envelope has in common with one that was returned: the bytes of the
ciphertext, of its iv and of the ratchet key, and, if `ordered`, the number. -/
structure Vouched (ordered : Prop) (envelope : EncryptedEnvelope Payload)
    (e : Sent Bytes Payload) : Prop where
  payload : ∃ msg sealedMsg, envelope.ciphertext = some msg ∧
    e.envelope.ciphertext = some sealedMsg ∧ SameBytes msg.ct sealedMsg.ct ∧
    SameBytes msg.iv sealedMsg.iv
  header : ∃ h, headerOf (symbolic Name) envelope = some h ∧ SameBytes h.rk e.header.rk ∧
    (ordered → h.n = e.header.n)

/-- **An accepted envelope was sealed by the other party**, as long as `q` only uses
the other party's identity key for it: its ciphertext is one the other party's
`encrypt` returned, for a plaintext that reads as the one accepted, under the
same ratchet key; and under the same number, if only integers came in, and none of them
stale. -/
theorem accepted_is_sent (ordered : Prop) {w : Party → World Bytes} (hw : New w)
    (hrun : Reaches (next ivs) (Allowed q ordered) (start w) s)
    {envelope : EncryptedEnvelope Payload} {plaintext : CodeUnits}
    (ha : Allowed q ordered s ⟨q, q.other.userId, .decrypt envelope⟩)
    (hok : ((decrypt (symbolic Name) q.other.userId envelope).run (serve (Net.entropy ivs q))
      (s.world q)).1 = .ok plaintext) :
    ∃ e ∈ s.sent, e.sender = q.other ∧ plaintext = textDecode (textEncode e.plaintext) ∧
      Vouched ordered envelope e := by
  have h := kept_reaches hw hrun
  obtain ⟨hfeasible, hid⟩ := ha ⟨rfl, rfl⟩
  obtain ⟨mk, msg, bytes, hkey, hopen, rfl⟩ := run_decrypt_ok _ _ hok
  obtain ⟨r, store, draws, -, hrun', heff⟩ := run_decryptKey (symbolic Name) (Net.entropy ivs q)
    q.other.userId envelope (s.world q)
  rw [hrun'] at hkey
  have hnum : ∀ session, (s.world q).store.sessions q.other.userId = some session →
      Numbered q True ordered session := by
    intro session hl
    simpa only [ForOther, and_self, true_and] using h.numbered q q.other.userId session hl
  obtain ⟨hct, header, k, base, i, hh, hrk, hb, rfl, hn⟩ :=
    (numbered_decryptKey (h.owned q) hnum (fun _ => hid) (fun _ => trivial) heff).2 mk msg hkey
  -- The message key is not known, so the ciphertext was heard.
  have hsealed := symbolic_aesGcmDecrypt hopen
  have hknows := knows_ofBase64.mpr (Derives.knows (cut_known h.carries).cat
    (cut_known h.carries).respelt (hfeasible msg hct msg.ct .ct))
  rw [hsealed] at hknows
  rcases hknows with hknown | ⟨hknown, -⟩
  · have hheard := heard_of_known h.carries hknown
    generalize ht : Term.aes _ msg.iv.ofBase64 bytes = t at hheard
    cases hheard with
    | @ciphertext e sealedMsg iv hmem hpayload hseal hsealIv =>
      obtain ⟨hmk, hiv, rfl⟩ := Term.aes.inj ht
      obtain ⟨m, base', j, hpub, hsends, hck, hcount⟩ := (h.carries e hmem).numbered
      -- One message key, one chain and one number.
      have hmk' : (symbolic Name).chain.messageAt base i =
          (symbolic Name).chain.messageAt base' j := by
        rw [Returned.messageKey, hck] at hmk
        exact hmk
      obtain ⟨rfl, rfl⟩ := symbolic_freeKdf.chain.messageAt_inj hb.base hsends.base hmk'
      rcases Party.eq_or_eq_other q e.sender with hsender | hsender
      · rw [hsender] at hsends
        exact absurd hsends hb.ne_own
      · rw [hsender] at hsends hpub
        obtain rfl := hb.ratchet_key hsends
        refine ⟨e, hmem, hsender, rfl, ⟨msg, sealedMsg, hct, hpayload, ?_, ?_⟩,
          header, headerOf_eq _ hct hh, ?_, ?_⟩
        · rw [hseal]
          exact congrArg some (hsealed.trans ht)
        · rw [hsealIv]
          exact congrArg some hiv
        · rw [show e.header.rk = .pub (.generated q.other m) from hpub]
          exact congrArg some (Term.publicName_eq_some_iff.mp hrk)
        · exact fun ho => (hn ho).trans (congrArg Value.int hcount.symm)
    | _ => cases ht
  · exact absurd hknown (messageAt_not_known h.carries hb)

/-! ## Envelopes that are let through -/

/-- The parties' own initialisation vectors. -/
def ownIvs (_ : Party) (i : ℕ) : List UInt8 := [i.toUInt8]

/-- Alice writes to Bob four times; her last message is half a surrogate pair. -/
def written : Intercepted :=
  [⟨.alice, "bob", .initSessionFromBundle (Party.bob.bundle 1 none)⟩,
    ⟨.alice, "bob", .encrypt [104]⟩, ⟨.alice, "bob", .encrypt [105]⟩,
    ⟨.alice, "bob", .encrypt [106]⟩, ⟨.alice, "bob", .encrypt [0xD800]⟩].foldl
      (next ownIvs) (start (newParties []))

/-- One of the envelopes she returned. -/
def envelopeAt (k : Fin written.sent.length) : EncryptedEnvelope Payload := (written.sent.get k).envelope

/-- Bob is given an envelope as Alice's. -/
def givenToBob (envelope : EncryptedEnvelope Payload) : Move := ⟨.bob, "alice", .decrypt envelope⟩

/-- Bob has a session with Alice, and has received her first two messages. -/
def established : Intercepted :=
  [givenToBob (envelopeAt ⟨0, by decide⟩), givenToBob (envelopeAt ⟨1, by decide⟩)].foldl
    (next ownIvs) written

/-- An envelope with a changed header. -/
def withHeader (f : RatchetHeader Bytes → RatchetHeader Bytes)
    (envelope : EncryptedEnvelope Payload) : EncryptedEnvelope Payload :=
  { envelope with ciphertext := envelope.ciphertext.map fun msg => { msg with h := msg.h.map f } }

/-- An envelope with another text of its ciphertext and of its iv. -/
def respelled (envelope : EncryptedEnvelope Payload) : EncryptedEnvelope Payload :=
  { envelope with
    ciphertext := envelope.ciphertext.map fun msg =>
      { msg with ct := .respelt msg.ct 0, iv := .respelt msg.iv 0 } }

/-- Neither 1 nor 2. -/
def oneAndAHalf : Value := .primitive (.number (.ofText (js "1.5")))

/-- The attacker's own first message to Bob. -/
def outsidersEnvelope : EncryptedEnvelope Payload :=
  let secret := (symbolic Name).x3dhSecret (Term.agree (.outsider 0) (.signedPreKey .bob 1))
    (Term.agree (.outsider 1) (.identity .bob)) (Term.agree (.outsider 1) (.signedPreKey .bob 1)) none
  let keys := (symbolic Name).kdfRootKey secret
    (Term.agree (.outsider 2) (.signedPreKey .bob 1))
  envelopeOf (symbolic Name) (initiatorSession ⟨.pub (.outsider 0), .priv (.outsider 0)⟩
    (dhPairOf (.outsider 1)) (dhPairOf (.outsider 2)) (Party.bob.bundle 1 none) keys)
    keys.chainKey (.lit [0]) [109] (some 1)

/-- Whether an accepted envelope is one Alice's `encrypt` returned for the plaintext,
with exactly its header and ciphertext. -/
def Authentic (s : Intercepted) (envelope : EncryptedEnvelope Payload) (plaintext : CodeUnits) :
    Prop :=
  ∃ e ∈ s.sent, e.sender = .alice ∧ e.plaintext = plaintext ∧
    headerOf (symbolic Name) envelope = some e.header ∧
    envelope.ciphertext.map WireMessage.ct = e.envelope.ciphertext.map WireMessage.ct

instance (s : Intercepted) (envelope : EncryptedEnvelope Payload) (plaintext : CodeUnits) :
    Decidable (Authentic s envelope plaintext) :=
  inferInstanceAs (Decidable (∃ e ∈ s.sent, _ ∧ _ ∧ _ ∧ _))

/-- A payload whose keys are public keys is known when its ciphertext and its iv are. -/
theorem feasible_payload {K : Set Bytes} {msg : WireMessage Bytes}
    (hh : ∀ h ∈ msg.h, h.rk.publicName.isSome)
    (hpre : ∀ params ∈ msg.preKey, params.ik.publicName.isSome ∧ params.ek.publicName.isSome)
    (hct : Derives K msg.ct) (hiv : Derives K msg.iv) (t : Bytes) (ht : InPayload msg t) :
    Derives K t := by
  have hpub : ∀ u : Bytes, u.publicName.isSome → Derives K u := by
    intro u hu
    obtain ⟨n, hn⟩ := Option.isSome_iff_exists.mp hu
    have hbytes : Derives K u.ofBase64 := by
      rw [Term.publicName_eq_some_iff.mp hn]
      exact .pub n
    exact hbytes.of_ofBase64
  cases ht with
  | rk h => exact hpub _ (hh _ h)
  | ct => exact hct
  | iv => exact hiv
  | ik h => exact hpub _ (hpre _ h).1
  | ek h => exact hpub _ (hpre _ h).2

/-- A returned envelope can be carried on, with any public key and numbers in its
header. -/
theorem feasible_withHeader {s : Intercepted} {e : Sent Bytes Payload} (he : e ∈ s.sent)
    (f : RatchetHeader Bytes → RatchetHeader Bytes) {msg : WireMessage Bytes}
    (hmsg : e.envelope.ciphertext = some msg) (hh : ∀ h ∈ msg.h, (f h).rk.publicName.isSome)
    (hpre : ∀ params ∈ msg.preKey, params.ik.publicName.isSome ∧ params.ek.publicName.isSome) :
    s.Feasible (.decrypt (withHeader f e.envelope)) := by
  intro msg' hmsg'
  simp only [withHeader, hmsg, Option.map_some, Option.mem_some_iff] at hmsg'
  subst hmsg'
  refine feasible_payload ?_ hpre (.given (.inr (.inr ⟨e, he, msg, hmsg, .ct⟩)))
    (.given (.inr (.inr ⟨e, he, msg, hmsg, .iv⟩)))
  intro h hmem
  obtain ⟨h₀, hh₀, rfl⟩ := Option.map_eq_some_iff.mp hmem
  exact hh h₀ hh₀

/-- Its ciphertext and its iv can be respelled. -/
theorem feasible_respelled {s : Intercepted} {e : Sent Bytes Payload} (he : e ∈ s.sent)
    {msg : WireMessage Bytes} (hmsg : e.envelope.ciphertext = some msg)
    (hh : ∀ h ∈ msg.h, h.rk.publicName.isSome)
    (hpre : ∀ params ∈ msg.preKey, params.ik.publicName.isSome ∧ params.ek.publicName.isSome) :
    s.Feasible (.decrypt (respelled e.envelope)) := by
  intro msg' hmsg'
  simp only [respelled, hmsg, Option.map_some, Option.mem_some_iff] at hmsg'
  subst hmsg'
  exact feasible_payload hh hpre (.respell 0 (.given (.inr (.inr ⟨e, he, msg, hmsg, .ct⟩))))
    (.respell 0 (.given (.inr (.inr ⟨e, he, msg, hmsg, .iv⟩))))

theorem feasible_sent {s : Intercepted} {e : Sent Bytes Payload} (he : e ∈ s.sent) :
    s.Feasible (.decrypt e.envelope) :=
  fun msg hmsg _ ht => .given (.inr (.inr ⟨e, he, msg, hmsg, ht⟩))

/-- A bundle of a party's can be handed out. -/
theorem feasible_bundle (s : Intercepted) (p : Party) (spkId : Int) (opkId : Option Int) :
    s.Feasible (.initSessionFromBundle (p.bundle spkId opkId)) :=
  .given (.inr (.inl ⟨p, spkId, rfl⟩))

theorem feasible_outsidersEnvelope (s : Intercepted) : s.Feasible (.decrypt outsidersEnvelope) := by
  intro msg hmsg
  obtain rfl := Option.some.inj hmsg
  have hshared : ∀ i b, Derives s.known (Term.agree (.outsider i) b) :=
    fun i b => .shared b (.given (.inl ⟨i, rfl⟩))
  have hlit : ∀ bytes, Derives s.known (.lit bytes) := .lit
  have hsecret : Derives s.known ((symbolic Name).x3dhSecret
      (Term.agree (.outsider 0) (.signedPreKey .bob 1)) (Term.agree (.outsider 1) (.identity .bob))
      (Term.agree (.outsider 1) (.signedPreKey .bob 1)) none) :=
    .hkdf _ _ (.cat (hlit _) (.cat (.cat (hshared _ _) (.cat (hshared _ _)
      (.cat (hshared _ _) (hlit _)))) (hlit _))) (hlit _)
  have hkey : Derives s.known (.hmac ((symbolic Name).kdfRootKey ((symbolic Name).x3dhSecret
      (Term.agree (.outsider 0) (.signedPreKey .bob 1)) (Term.agree (.outsider 1) (.identity .bob))
      (Term.agree (.outsider 1) (.signedPreKey .bob 1)) none)
      (Term.agree (.outsider 2) (.signedPreKey .bob 1))).chainKey (.lit [1])) :=
    .hmac (.slice _ _ (.hkdf _ _ (hshared _ _) hsecret)) (hlit _)
  exact feasible_payload (by decide) (by decide) (.aes _ hkey (hlit _)) (hlit _)

/-- What the attacker brings about. -/
abbrev Attack : Intercepted → Intercepted → Prop :=
  Reaches (next ownIvs) fun s m => s.Feasible m.call

theorem established_reached : Attack (start (newParties [])) established := by
  have hwritten : Admits (next ownIvs) (fun s m => s.Feasible m.call) (start (newParties []))
      [⟨.alice, "bob", .initSessionFromBundle (Party.bob.bundle 1 none)⟩,
        ⟨.alice, "bob", .encrypt [104]⟩, ⟨.alice, "bob", .encrypt [105]⟩,
        ⟨.alice, "bob", .encrypt [106]⟩, ⟨.alice, "bob", .encrypt [0xD800]⟩] :=
    ⟨feasible_bundle _ _ _ _, trivial, trivial, trivial, trivial, trivial⟩
  have hgiven : Admits (next ownIvs) (fun s m => s.Feasible m.call) written
      [givenToBob (envelopeAt ⟨0, by decide⟩), givenToBob (envelopeAt ⟨1, by decide⟩)] :=
    ⟨feasible_sent (List.get_mem _ _),
      feasible_sent (List.mem_append_left _ (List.get_mem written.sent _)), trivial⟩
  exact hwritten.reaches.trans hgiven.reaches

/-- Her third message with its number changed to 0 or to 1.5, with `pn` changed to 7, or with
its ciphertext and iv respelled; her first, with its ratchet key respelled; her fourth, which
reads as U+FFFD; and a first message with the attacker's identity key. -/
def altered : List (EncryptedEnvelope Payload × CodeUnits) :=
  [(withHeader (fun h => { h with n := .int 0 }) (envelopeAt ⟨2, by decide⟩), [106]),
    (withHeader (fun h => { h with n := oneAndAHalf }) (envelopeAt ⟨2, by decide⟩), [106]),
    (withHeader (fun h => { h with pn := .int 7 }) (envelopeAt ⟨2, by decide⟩), [106]),
    (respelled (envelopeAt ⟨2, by decide⟩), [106]),
    (withHeader (fun h => { h with rk := .respelt h.rk 0 }) (envelopeAt ⟨0, by decide⟩), [104]),
    (envelopeAt ⟨3, by decide⟩, [0xFFFD]), (outsidersEnvelope, [109])]

/-- **Bob accepts envelopes that are not as Alice's `encrypt` returned them.** -/
theorem header_not_vouched :
    Attack (start (newParties [])) established ∧
    ((established.world .bob).store.sessions "alice").isSome ∧
    ∀ r ∈ altered, established.Feasible (.decrypt r.1) ∧
      ((decrypt (symbolic Name) "alice" r.1).run (serve (Net.entropy ownIvs .bob))
        (established.world .bob)).1 = .ok r.2 ∧
      ¬ Authentic established r.1 r.2 := by
  have hsent : ∀ k : Fin written.sent.length, written.sent.get k ∈ established.sent := fun k =>
    List.mem_append_left _ (List.mem_append_left _ (List.get_mem _ _))
  have haccepted : ∀ r ∈ altered,
      ((decrypt (symbolic Name) "alice" r.1).run (serve (Net.entropy ownIvs .bob))
        (established.world .bob)).1 = .ok r.2 ∧ ¬ Authentic established r.1 r.2 := by
    decide +kernel
  refine ⟨established_reached, by decide, fun r hr => ⟨?_, haccepted r hr⟩⟩
  revert r
  simp only [altered, List.forall_mem_cons]
  refine ⟨?_, ?_, ?_, ?_, ?_, feasible_sent (hsent ⟨3, by decide⟩), feasible_outsidersEnvelope _,
    fun r hr => absurd hr List.not_mem_nil⟩
  · exact feasible_withHeader (hsent ⟨2, by decide⟩) _ (Option.some_get (by decide)).symm (by decide)
      (by decide)
  · exact feasible_withHeader (hsent ⟨2, by decide⟩) _ (Option.some_get (by decide)).symm (by decide)
      (by decide)
  · exact feasible_withHeader (hsent ⟨2, by decide⟩) _ (Option.some_get (by decide)).symm (by decide)
      (by decide)
  · exact feasible_respelled (hsent ⟨2, by decide⟩) (Option.some_get (by decide)).symm (by decide)
      (by decide)
  · exact feasible_withHeader (hsent ⟨0, by decide⟩) _ (Option.some_get (by decide)).symm (by decide)
      (by decide)

/-- Bob's second message from Alice is vouched for. -/
theorem accepted_is_sent_second :
    ∃ e ∈ (written.next ownIvs (givenToBob (envelopeAt ⟨0, by decide⟩))).sent,
      e.sender = .alice ∧ [105] = textDecode (textEncode e.plaintext) ∧
        Vouched True (envelopeAt ⟨1, by decide⟩) e := by
  have hnew : New (newParties []) := ⟨fun p => p.newStore_owned [1] [], fun _ _ => rfl⟩
  have hrun : Admits (next ownIvs) (Allowed .bob True) (start (newParties []))
      [⟨.alice, "bob", .initSessionFromBundle (Party.bob.bundle 1 none)⟩,
        ⟨.alice, "bob", .encrypt [104]⟩, ⟨.alice, "bob", .encrypt [105]⟩,
        ⟨.alice, "bob", .encrypt [106]⟩, ⟨.alice, "bob", .encrypt [0xD800]⟩,
        givenToBob (envelopeAt ⟨0, by decide⟩)] := by
    exact ⟨nofun, nofun, nofun, nofun, nofun,
      fun _ => ⟨feasible_sent (List.get_mem _ _), by decide⟩, trivial⟩
  exact accepted_is_sent True hnew hrun.reaches
    (fun _ => ⟨feasible_sent (List.mem_append_left _ (List.get_mem written.sent _)), by decide⟩)
    (by rfl)

end Intercepted
end Winkd
