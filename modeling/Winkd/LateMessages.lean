import Winkd.EndToEnd

/-!
# Late messages

A message key that was skipped is saved, so a message that comes late can still
be opened.  `decrypt` looks for the saved key only after it has compared ratchet
keys: a late message of the chain the session is receiving on is opened and costs
its saved key, nothing else; one of an earlier chain makes the session ratchet
back to that chain's key first, away from the current chain (later messages of
which no longer decrypt).
-/

namespace Winkd
open UnicodeText Js SignalSessionManager Transitions

namespace Net
variable {β ω : Type} [DecidableEq β] {P : Platform β ω} {E : Party → Entropy β}

/-! ## Ratchet keys of stored sessions -/

omit [DecidableEq β] in
theorem drawn_of_sendingStep {E : Entropy β} {peerId : String} {w w' : World β} {secrets : List β}
    (hstep : SendingStep P E peerId w w' secrets)
    (hw : ∀ session, w.store.sessions peerId = some session →
      Drawn P E w.keysDrawn session.ourRatchetPublic) {session : RatchetSession β}
    (hs : w'.store.sessions peerId = some session) :
    Drawn P E w'.keysDrawn session.ourRatchetPublic := by
  rcases hstep.sending with hsame | ⟨session', i, _, _, hs', -, hi, hstart, -⟩
  · rw [hs, Option.map_some] at hsame
    obtain ⟨old, hold, heq⟩ := Option.map_eq_some_iff.mp hsame.symm
    have hour : old.ourRatchetPublic = session.ourRatchetPublic :=
      congrArg SendState.ourRatchetPublic heq
    exact hour ▸ (hw old hold).mono hstep.drawn
  · obtain rfl := Option.some.inj (hs.symm.trans hs')
    exact ⟨i, hi, hstart.ourPublic⟩

/-- The ratchet key of a stored session is one its party has generated. -/
def OursDrawn (P : Platform β ω) (E : Party → Entropy β) (s : Net β ω) : Prop :=
  ∀ p session, s.session p = some session →
    Drawn P (E p) (s.world p).keysDrawn session.ourRatchetPublic

omit [DecidableEq β] in
/-- A change of one party's world that keeps its ratchet key drawn. -/
theorem OursDrawn.update {s s' : Net β ω} (h : OursDrawn P E s) {p : Party} {w' : World β}
    (hworld : s'.world = Function.update s.world p w')
    (hp : ∀ session, w'.store.sessions p.other.userId = some session →
      Drawn P (E p) w'.keysDrawn session.ourRatchetPublic) : OursDrawn P E s' := by
  intro q session hs
  rw [Net.session, hworld] at hs
  rw [hworld]
  by_cases hq : q = p
  · subst hq
    rw [Function.update_self] at hs ⊢
    exact hp session hs
  · rw [Function.update_of_ne hq] at hs ⊢
    exact h q session hs

theorem oursDrawn_next {s : Net β ω} (h : OursDrawn P E s) (ev : Event β) :
    OursDrawn P E (s.next P E ev) := by
  cases ev with
  | initSessionFromBundle p bundle =>
    exact h.update rfl fun session hs =>
      drawn_of_sendingStep (initSessionFromBundle_sending (s.world p) bundle) (h p) hs
  | encrypt p plaintext =>
    rcases next_encrypt_cases P E s p plaintext with he | ⟨session, ck, hl, hck⟩
    · rw [he]; exact h
    · rw [next_encrypt P E plaintext hl hck]
      refine h.update rfl fun session' hs => ?_
      rw [worldAfterSend, KeyStore.storeSession_sessions_self] at hs
      exact Option.some.inj hs ▸ h p session hl
  | deliver i =>
    cases hi : s.sent[i]? with
    | none => rw [next_deliver_none P E hi]; exact h
    | some e =>
      rw [next_deliver P E hi]
      refine h.update rfl fun session hs => ?_
      rw [Party.other_other] at hs
      have hold := h e.sender.other
      rw [Net.session, Party.other_other] at hold
      have hstep : SendingStep P (E e.sender.other) e.sender.userId _ _ _ :=
        decrypt_sending (s.world e.sender.other) e.envelope
      rw [perform_decrypt] at hstep
      exact drawn_of_sendingStep hstep hold hs

theorem oursDrawn_reaches {w : Party → World β} {s : Net β ω}
    (hnone : ∀ p : Party, (w p).store.sessions p.other.userId = none)
    (hrun : Reaches (Net.next P E) (fun _ _ => True) (start w) s) : OursDrawn P E s := by
  refine hrun.invariant (fun p session hs => ?_) fun _ ev h _ => oursDrawn_next h ev
  rw [Net.session, start, hnone p] at hs
  cases hs

/-! ## One late delivery -/

/-- The delivery opens the envelope and costs its saved key, nothing else. -/
def OpensSaved (P : Platform β ω) (E : Party → Entropy β) (s : Net β ω) (i : ℕ) (e : Sent β ω)
    (session : RatchetSession β) : Prop :=
  (s.next P E (.deliver i)).delivered = s.delivered ++ [(i, .ok e.plaintext)] ∧
    (s.next P E (.deliver i)).session e.sender.other =
      some { session with skipped := session.skipped.erase (e.header.rk, intText e.header.number) }

/-- The session `decrypt` leaves after a type-2 envelope that was opened is
receiving from the envelope's ratchet key. -/
theorem their_after_signal {s : Net β ω} {i : ℕ} {e : Sent β ω} (hP : P.RoundTrips)
    {session session' : RatchetSession β} {pt : CodeUnits} (hi : s.sent[i]? = some e)
    (he : e.Genuine P) (htype : e.envelope.type = .signalMessage)
    (hs : s.session e.sender.other = some session)
    (hok : (s.next P E (.deliver i)).delivered = s.delivered ++ [(i, .ok pt)])
    (hs' : (s.next P E (.deliver i)).session e.sender.other = some session') :
    session'.theirRatchetPublic = some e.header.rk := by
  obtain ⟨msg, hparse, hh, -, -, -⟩ := he.parse hP
  have hload : (s.world e.sender.other).store.sessions e.sender.userId = some session := by
    rw [← hs, Net.session, Party.other_other]
  have hkey := run_decryptKey_signal P (E e.sender.other) htype hparse hh hload
  have hdec := run_decrypt P (E e.sender.other) e.sender.userId e.envelope (s.world e.sender.other)
  rw [next_deliver P E hi] at hok hs'
  cases hr : receiveWith P (nextPair P (E e.sender.other) (s.world e.sender.other)) session
      e.header with
  | error err =>
    rw [hr] at hkey
    rw [hkey] at hdec
    rw [hdec] at hok
    cases (Prod.mk.inj (List.singleton_inj.mp (List.append_cancel_left hok))).2
  | ok r =>
    obtain ⟨mk, session₁⟩ := r
    rw [hr] at hkey
    rw [hkey, session_update_self, Party.other_other, KeyStore.storeSession_sessions_self] at hs'
    obtain rfl := Option.some.inj hs'
    obtain ⟨session₂, ht, hret, -⟩ := receiveWith_cases P hr
    exact retrieve_their P ht hret

/-- A type-1 envelope that was opened leaves a session with a new ratchet key. -/
theorem ours_after_preKey {s : Net β ω} {i : ℕ} {e : Sent β ω} {session' : RatchetSession β}
    {pt : CodeUnits} (hi : s.sent[i]? = some e)
    (htype : e.envelope.type = .preKeySignalMessage)
    (hok : (s.next P E (.deliver i)).delivered = s.delivered ++ [(i, .ok pt)])
    (hs' : (s.next P E (.deliver i)).session e.sender.other = some session') :
    session'.ourRatchetPublic =
      publicKeyAt P (E e.sender.other) (s.world e.sender.other).keysDrawn := by
  obtain ⟨r, store, draws, -, hrun, heff⟩ :=
    run_decryptKey P (E e.sender.other) e.sender.userId e.envelope (s.world e.sender.other)
  have hdec := run_decrypt P (E e.sender.other) e.sender.userId e.envelope (s.world e.sender.other)
  rw [hrun] at hdec
  rw [next_deliver P E hi, hrun] at hs'
  rw [next_deliver P E hi] at hok
  rw [session_update_self, Party.other_other] at hs'
  have herr : ∀ err, r ≠ .error err := by
    rintro err rfl
    rw [hdec] at hok
    cases (Prod.mk.inj (List.singleton_inj.mp (List.append_cancel_left hok))).2
  cases heff with
  | refused err => exact absurd rfl (herr err)
  | received hsig => rw [htype] at hsig; cases hsig
  | consumed err => exact absurd rfl (herr err)
  | created err => exact absurd rfl (herr err)
  | established _ _ hh hresp hr =>
    rw [KeyStore.storeSession_sessions_self] at hs'
    obtain rfl := Option.some.inj hs'
    have hsend := responder_sendState hh hresp hr
    obtain ⟨z, hz⟩ := respondWith_startsChain hh hresp
    exact (congrArg SendState.ourRatchetPublic hsend).trans hz.ourPublic

/-- A saved key of the current chain opens its envelope. -/
theorem delivers_saved {s : Net β ω} {i : ℕ} {e : Sent β ω} (hP : P.RoundTrips)
    {session : RatchetSession β} (hi : s.sent[i]? = some e) (he : e.Genuine P)
    (htype : e.envelope.type = .signalMessage) (hs : s.session e.sender.other = some session)
    (hsaved : session.skipped.lookup (e.header.rk, intText e.header.number) =
      some (P.bufToHex (e.messageKey P)))
    (htheir : session.theirRatchetPublic = some e.header.rk) :
    (s.next P E (.deliver i)).delivered =
        s.delivered ++ [(i, .ok (textDecode (textEncode e.plaintext)))] ∧
      (s.next P E (.deliver i)).session e.sender.other =
        some (useSaved session e.header.rk (intText e.header.number)) := by
  have hr : receiveWith P (nextPair P (E e.sender.other) (s.world e.sender.other)) session e.header =
      .ok (e.messageKey P, useSaved session e.header.rk (intText e.header.number)) := by
    have hret := retrieve_saved P (Value.toPrimitive_int e.header.number) hsaved
    rw [hP.hex] at hret
    exact (receiveWith_of_eq P htheir).trans hret
  rw [next_deliver_signal P E hP hi he htype hs hr]
  refine ⟨rfl, ?_⟩
  rw [session_update_self, Party.other_other]
  exact KeyStore.storeSession_sessions_self ..

/-- **When a late message is opened without a trace**: exactly when it is a
type-2 envelope of the chain the session is receiving on, with a plaintext the
encodings carry. -/
theorem opensSaved_iff (hP : P.RoundTrips) (hpub : ∀ p, Function.Injective (publicKeyAt P (E p)))
    {s : Net β ω} (hours : OursDrawn P E s) {i : ℕ} {e : Sent β ω} {session : RatchetSession β}
    (hi : s.sent[i]? = some e) (he : e.Genuine P) (hs : s.session e.sender.other = some session)
    (hsaved : session.skipped.lookup (e.header.rk, intText e.header.number) =
      some (P.bufToHex (e.messageKey P))) :
    OpensSaved P E s i e session ↔
      e.envelope.type = .signalMessage ∧ session.theirRatchetPublic = some e.header.rk ∧
        Transportable e.plaintext := by
  constructor
  · rintro ⟨hok, hs'⟩
    cases htype : e.envelope.type with
    | preKeySignalMessage =>
      have hour := ours_after_preKey hi htype hok hs'
      obtain ⟨k, hk, heq⟩ := hours e.sender.other session hs
      have : k = (s.world e.sender.other).keysDrawn := hpub _ (heq.symm.trans hour)
      omega
    | signalMessage =>
      have htheir : (useSaved session e.header.rk (intText e.header.number)).theirRatchetPublic =
          some e.header.rk := their_after_signal hP hi he htype hs hok hs'
      refine ⟨rfl, htheir, ?_⟩
      obtain ⟨hdel, -⟩ := delivers_saved (E := E) hP hi he htype hs hsaved htheir
      rw [hok] at hdel
      have hpt := Except.ok.inj
        (Prod.mk.inj (List.singleton_inj.mp (List.append_cancel_left hdel))).2
      exact (textDecode_textEncode_iff e.plaintext).mp hpt.symm
  · rintro ⟨htype, htheir, hpt⟩
    obtain ⟨hdel, hs'⟩ := delivers_saved (E := E) hP hi he htype hs hsaved htheir
    rw [(textDecode_textEncode_iff e.plaintext).mpr hpt] at hdel
    exact ⟨hdel, hs'⟩

/-! ## Later traffic -/

/-- Opening a saved key of the current chain keeps the invariant of runs in
order, whatever has arrived before it. -/
theorem InOrder.deliverSaved {pair : DHKeyPair β → Prop} {w : Party → World β}
    {bundle : PreKeyBundle β} {idA idB : IdentityKeyPair β} {spk : SignedPreKey β} {s : Net β ω}
    (hP : P.Ideal pair) (hinv : InOrder P E pair w bundle idA idB spk s) {i : ℕ} {e : Sent β ω}
    {session : RatchetSession β} (hi : s.sent[i]? = some e) (honce : i ∉ s.positions)
    (hs : s.session e.sender.other = some session)
    (hsaved : (session.skipped.lookup (e.header.rk, intText e.header.number)).isSome)
    (htheir : session.theirRatchetPublic = some e.header.rk) :
    InOrder P E pair w bundle idA idB spk (s.next P E (.deliver i)) := by
  have he := hinv.genuine e (List.mem_of_getElem? hi)
  have hskip : ∀ base, InStepFrom P base session → WithinSkip (some session) e.header := by
    intro base hin
    obtain ⟨v, hv⟩ := Option.isSome_iff_exists.mp hsaved
    have := (hin.saved_int htheir hv).2.1
    rw [WithinSkip, if_pos htheir, MAX_SKIP]
    omega
  rcases hinv.stage with ⟨_, _, _, _, -, hv⟩ | ⟨x, a, b, sa, sb, hl⟩
  · rw [(hv.fromAlice e (List.mem_of_getElem? hi)).1] at hs
    exact absurd (hv.noSession.symm.trans hs) (by simp)
  have hboth : (∃ x' a' b' sa' sb', Linked P E pair (s.next P E (.deliver i)) x' a' b' sa' sb') ∧
      Delivers P E s i e := by
    rcases x.eq_or_eq_other e.sender with hsender | hsender
    · rw [hsender, hl.behind, Option.some.injEq] at hs
      subst hs
      rcases hl.receivesBefore with ⟨-, hempty, -⟩ | ⟨base, hin, -⟩
      · rw [hempty] at hsaved
        cases hsaved
      · obtain ⟨⟨b', h, -⟩, hdel⟩ := hl.deliverBehind hP.roundTrips hi he hsender htheir honce
          (hskip base hin)
        exact ⟨⟨x, a, b', sa, sb, h⟩, hdel⟩
    · rw [hsender, Party.other_other, hl.ahead, Option.some.injEq] at hs
      subst hs
      have hrk : e.header.rk = b.ourRatchetPublic :=
        Option.some.inj (htheir.symm.trans hl.their)
      obtain ⟨⟨a', h, -⟩, hdel⟩ := hl.deliverAhead hP.roundTrips hi he hsender hrk honce
        (hskip sb hl.receives)
      exact ⟨⟨x, a', b, sa, sb, h⟩, hdel⟩
  exact ⟨genuine_next P E hinv.genuine _, hinv.decoded.deliver hi hboth.2, .inr hboth.1⟩

theorem InOrder.plaintext_iff {pair : DHKeyPair β → Prop} {w : Party → World β}
    {bundle : PreKeyBundle β} {idA idB : IdentityKeyPair β} {spk : SignedPreKey β} {s : Net β ω}
    (hinv : InOrder P E pair w bundle idA idB spk s) {i : ℕ} {r : Except Failure CodeUnits}
    (hr : (i, r) ∈ s.delivered) :
    ∃ e, s.sent[i]? = some e ∧ (r = .ok e.plaintext ↔ Transportable e.plaintext) := by
  obtain ⟨e, he, rfl⟩ := hinv.decoded i r hr
  exact ⟨e, he, by rw [Except.ok.injEq]; exact textDecode_textEncode_iff e.plaintext⟩

theorem genuine_reaches {w : Party → World β} {s : Net β ω}
    (hrun : Reaches (Net.next P E) (fun _ _ => True) (start w) s) : ∀ e ∈ s.sent, e.Genuine P :=
  hrun.invariant (I := fun s => ∀ e ∈ s.sent, e.Genuine P)
    (fun _ he => absurd he List.not_mem_nil) fun _ ev h _ => genuine_next P E h ev

/-- **Late messages.**  In every run of two honest parties, an envelope that was
not delivered and whose message key is saved is opened without a trace exactly
when it is a type-2 envelope of the chain the session is receiving on, with a
plaintext the encodings carry.  When the run was in order and it is of that
chain, all that is delivered in order afterwards, in both directions, still
decrypts. -/
theorem late_message_iff (hP : P.RoundTrips)
    (hpub : ∀ p, Function.Injective (publicKeyAt P (E p))) {w : Party → World β} {s : Net β ω}
    (hnone : ∀ p : Party, (w p).store.sessions p.other.userId = none)
    (hrun : Reaches (Net.next P E) (fun _ _ => True) (start w) s) {i : ℕ} {e : Sent β ω}
    {session : RatchetSession β} (hi : s.sent[i]? = some e) (honce : i ∉ s.positions)
    (hs : s.session e.sender.other = some session)
    (hsaved : session.skipped.lookup (e.header.rk, intText e.header.number) =
      some (P.bufToHex (e.messageKey P))) :
    (OpensSaved P E s i e session ↔
      e.envelope.type = .signalMessage ∧ session.theirRatchetPublic = some e.header.rk ∧
        Transportable e.plaintext) ∧
    (session.theirRatchetPublic = some e.header.rk →
      ∀ (pair : DHKeyPair β → Prop) (bundle : PreKeyBundle β) (idA idB : IdentityKeyPair β)
        (spk : SignedPreKey β), P.Ideal pair → Setup P E pair w bundle idA idB spk →
      Reaches (Net.next P E) Orderly (started P E w bundle) s →
      ∀ s', Reaches (Net.next P E) Orderly (s.next P E (.deliver i)) s' →
      ∀ j r, (j, r) ∈ s'.delivered →
        ∃ e', s'.sent[j]? = some e' ∧ (r = .ok e'.plaintext ↔ Transportable e'.plaintext)) := by
  have he := genuine_reaches hrun e (List.mem_of_getElem? hi)
  refine ⟨opensSaved_iff hP hpub (oursDrawn_reaches hnone hrun) hi he hs hsaved, ?_⟩
  intro htheir pair bundle idA idB spk hideal hsetup horder s' hlater j r hr
  have hinv := (inOrder_reaches hideal hsetup horder).deliverSaved hideal hi honce hs
    (by rw [hsaved]; rfl) htheir
  exact (hlater.invariant hinv fun _ _ h hev => h.next hideal hsetup hev).plaintext_iff hr

/-! ## One late message of an earlier chain -/

/-- Bob misses Alice's second message, and answers; Alice answers in turn. -/
def secondMissing : List (Event Bytes) :=
  [.initSessionFromBundle .alice (Party.bob.bundle 1 none), .encrypt .alice [104],
    .encrypt .alice [105], .encrypt .alice [106], .deliver 0, .deliver 2]

/-- The same, after an answer from each of them. -/
def chainMoved : List (Event Bytes) :=
  secondMissing ++ [.encrypt .bob [107], .deliver 3, .encrypt .alice [108], .deliver 4]

theorem newParties_noSession (p : Party) :
    ((newParties [] p).store.sessions p.other.userId : Option (RatchetSession Bytes)) = none := rfl

theorem reaches_conversation (events : List (Event Bytes)) :
    Reaches (Net.next (symbolic Name) freshEntropy) (fun _ _ => True)
      (Net.start (newParties [])) (conversation [] events) := by
  suffices h : ∀ s : Net Bytes Payload, Admits (Net.next (symbolic Name) freshEntropy)
      (fun _ _ => True) s events from (h _).reaches
  induction events with
  | nil => exact fun _ => trivial
  | cons ev events ih => exact fun s => ⟨trivial, ih _⟩

/-- The message that is missing, and the session it comes to. -/
def missing (events : List (Event Bytes))
    (h : 1 < (conversation [] events).sent.length) : Sent Bytes Payload :=
  (conversation [] events).sent.get ⟨1, h⟩

def bobSession (events : List (Event Bytes)) (h : ((conversation [] events).session .bob).isSome) :
    RatchetSession Bytes :=
  ((conversation [] events).session .bob).get h

theorem late_message_iff_secondMissing :
    OpensSaved (symbolic Name) freshEntropy (conversation [] secondMissing) 1
      (missing secondMissing (by decide)) (bobSession secondMissing (by decide)) := by
  have hs : (conversation [] secondMissing).session .bob =
    some (bobSession secondMissing (by decide)) := (Option.some_get _).symm
  exact (late_message_iff symbolic_roundTrips publicKeyAt_injective newParties_noSession
    (reaches_conversation secondMissing) (i := 1) (e := missing secondMissing (by decide)) rfl
    (by decide) hs (by decide)).1.mpr (by decide)

/-- **A late message of an earlier chain derails the session**: its saved key opens
it, but only after the session has ratcheted back to the earlier chain. -/
theorem late_message_of_earlier_chain_ratchets_back :
    ¬ ∀ (s : Net Bytes Payload) (i : ℕ) (e : Sent Bytes Payload) (session : RatchetSession Bytes),
      Reaches (Net.next (symbolic Name) freshEntropy) (fun _ _ => True)
        (Net.start (newParties [])) s →
      s.sent[i]? = some e → i ∉ s.positions → s.session e.sender.other = some session →
      session.skipped.lookup (e.header.rk, intText e.header.number) = some (e.messageKey (symbolic Name)) →
      OpensSaved (symbolic Name) freshEntropy s i e session := by
  intro hclaim
  have hs : (conversation [] chainMoved).session .bob =
    some (bobSession chainMoved (by decide)) := (Option.some_get _).symm
  obtain ⟨-, hkept⟩ := hclaim (conversation [] chainMoved) 1 (missing chainMoved (by decide)) _
    (reaches_conversation chainMoved) rfl (by decide) hs (by decide)
  have hback : (((conversation [] chainMoved).next (symbolic Name) freshEntropy
      (.deliver 1)).session .bob).map RatchetSession.theirRatchetPublic ≠
        some (bobSession chainMoved (by decide)).theirRatchetPublic := by decide
  exact hback (congrArg (Option.map RatchetSession.theirRatchetPublic) hkept)

end Net
end Winkd
