import Winkd.Conversation

/-!
# Decryptions that throw

`encrypt` and `initSessionFromBundle` write the store last, after everything that
can throw.  `decrypt` does not: it stores the session it has moved on and only
then opens the ciphertext, and for a type-1 envelope it consumes the one-time
pre-key, and stores a new session, before anything is authenticated.

`Harmless` is the condition under which a call of `decrypt` that throws leaves
the store as it was.  It is read off the store and the envelope: the envelope is
refused before the first write, or its ciphertext opens under the key the
session has for its header.
-/

namespace Winkd
open UnicodeText Js
namespace SignalSessionManager
variable {β ω : Type} [DecidableEq β] (P : Platform β ω) (E : Entropy β)

/-! ## Envelopes refused before a write -/

/-- `skipMessageKeys` does not come to the target: the target has no primitive value, lies
beyond the bound, or stays ahead however often the counter goes up. -/
def Blocked (recvCount : Primitive) (target : Value) : Prop :=
  match target.toPrimitive with
  | none => True
  | some target =>
    (recvCount.plus MAX_SKIP).lt target = true ∨ ∀ j, (recvCount.after j).lt target = true

instance (recvCount : Primitive) (target : Value) : Decidable (Blocked recvCount target) := by
  unfold Blocked
  split
  · infer_instance
  · exact decidable_of_iff _ (or_congr_right (Primitive.passes_eq_none_iff recvCount _))

/-- No message key is saved for the number, and the receiving chain gives none. -/
def Keyless (session : RatchetSession β) (h : RatchetHeader β) (recvChainKey : Option β)
    (recvCount : Primitive) : Prop :=
  match h.n.toPrimitive with
  | none => True
  | some number => session.skipped.lookup (h.rk, number.toText) = none ∧
      (recvChainKey = none ∨ Blocked recvCount h.n)

instance (session : RatchetSession β) (h : RatchetHeader β) (recvChainKey : Option β)
    (recvCount : Primitive) : Decidable (Keyless session h recvChainKey recvCount) := by
  unfold Keyless
  split <;> infer_instance

/-- No message key is to be had for the header: a skip is blocked, there is no receiving
chain, the number has no text, or the ratchet key cannot be imported. -/
def Refused (kp : DHKeyPair β) (session : RatchetSession β) (h : RatchetHeader β) : Prop :=
  if session.theirRatchetPublic = some h.rk then
    Keyless session h session.recvChainKey session.recvCount
  else
    (session.recvChainKey ≠ none ∧ session.theirRatchetPublic ≠ none ∧
        Blocked session.recvCount h.pn) ∨
      P.dh session.ourRatchetPrivate h.rk = none ∨ P.dh kp.privateKeyJwk h.rk = none ∨
      -- the chain that the ratchet starts begins at zero
      Keyless session h (some h.rk) (.int 0)

instance (kp : DHKeyPair β) (session : RatchetSession β) (h : RatchetHeader β) :
    Decidable (Refused P kp session h) :=
  inferInstanceAs (Decidable (ite _ _ _))

/-- The message key a session has for a header: a saved one, one of its
receiving chain, or one of the chain a DH ratchet would start. -/
def keyFor (session : RatchetSession β) (h : RatchetHeader β) : Option β :=
  h.n.toPrimitive.bind fun number =>
    match session.skipped.lookup (h.rk, number.toText) with
    | some saved => some (P.hexToBuf saved)
    | none =>
      if session.theirRatchetPublic = some h.rk then
        session.recvChainKey.bind fun ck =>
          (session.recvCount.passes number).map (P.chain.messageAt ck)
      else
        (P.dh session.ourRatchetPrivate h.rk).bind fun dhOut =>
          ((Primitive.int 0).passes number).map
            (P.chain.messageAt (P.kdfRootKey session.rootKey dhOut).chainKey)

/-- The ciphertext opens under that key. -/
def Opens (session : RatchetSession β) (h : RatchetHeader β) (msg : WireMessage β) : Prop :=
  ∃ key, keyFor P session h = some key ∧ (P.aesGcmDecrypt key msg.ct msg.iv).isSome

theorem skipPasses_blocked {recvCount : Primitive} {target : Value} (h : Blocked recvCount target) :
    ∃ e, skipPasses recvCount target = .error e := by
  rw [Blocked] at h
  rw [skipPasses]
  cases ht : target.toPrimitive with
  | none => exact ⟨_, rfl⟩
  | some t =>
    rw [ht] at h
    dsimp only at h ⊢
    split
    · exact ⟨_, rfl⟩
    · rename_i hlt
      rw [(Primitive.passes_eq_none_iff recvCount t).mpr (h.resolve_left hlt)]
      exact ⟨_, rfl⟩

theorem skipPasses_of_not_blocked {recvCount : Primitive} {target : Value}
    (h : ¬ Blocked recvCount target) : ∃ t k, target.toPrimitive = some t ∧
      recvCount.passes t = some k ∧ skipPasses recvCount target = .ok k := by
  rw [Blocked] at h
  rw [skipPasses]
  cases ht : target.toPrimitive with
  | none => exact absurd trivial (by rwa [ht] at h)
  | some t =>
    rw [ht] at h
    obtain ⟨hlt, hends⟩ := not_or.mp h
    rw [← Primitive.passes_eq_none_iff] at hends
    obtain ⟨k, hk⟩ := Option.ne_none_iff_exists'.mp hends
    exact ⟨t, k, rfl, hk, by simp only [if_neg hlt, hk]⟩

variable {P}

theorem skipMessageKeys_blocked {session : RatchetSession β} {target : Value}
    (hck : session.recvChainKey ≠ none) (ht : session.theirRatchetPublic ≠ none)
    (h : Blocked session.recvCount target) : ∃ e, skipMessageKeys P session target = .error e := by
  obtain ⟨ck, hck⟩ := Option.ne_none_iff_exists'.mp hck
  obtain ⟨their, ht⟩ := Option.ne_none_iff_exists'.mp ht
  obtain ⟨e, he⟩ := skipPasses_blocked h
  refine ⟨e, ?_⟩
  rw [skipMessageKeys_some P target hck ht, he]
  rfl

theorem retrieve_keyless {session : RatchetSession β} {h : RatchetHeader β}
    (ht : session.theirRatchetPublic = some h.rk)
    (hk : Keyless session h session.recvChainKey session.recvCount) :
    ∃ e, retrieveMessageKey P session h.rk h.n = .error e := by
  cases hr : retrieveMessageKey P session h.rk h.n with
  | error e => exact ⟨e, rfl⟩
  | ok r =>
    obtain ⟨mk, session'⟩ := r
    obtain ⟨number, hn, hcases⟩ := retrieve_cases P ht hr
    rw [Keyless, hn] at hk
    obtain ⟨hnone, hk⟩ := hk
    rcases hcases with ⟨saved, hl, -⟩ | ⟨ck, k, -, hck, hpasses, -⟩
    · rw [hnone] at hl; cases hl
    · rcases hk with hk | hk
      · rw [hck] at hk; cases hk
      · obtain ⟨e, he⟩ := skipPasses_blocked hk
        rw [he] at hpasses; cases hpasses

/-- Skipping the chain it leaves does not give the session keys of the header's. -/
theorem keyless_ratcheted {session session₀ : RatchetSession β} {h : RatchetHeader β}
    (hskip : skipMessageKeys P session h.pn = .ok session₀)
    (hne : session.theirRatchetPublic ≠ some h.rk) (step1 step2 : Platform.RootStep β)
    (kp : DHKeyPair β) (ck : β) :
    Keyless (ratchetedSession session₀ h.rk step1 step2 kp) h (some ck) (.int 0) ↔
      Keyless session h (some ck) (.int 0) := by
  unfold Keyless
  cases h.n.toPrimitive with
  | none => exact Iff.rfl
  | some number =>
    show session₀.skipped.lookup _ = none ∧ _ ↔ _
    rw [lookup_skipMessageKeys P hskip hne]

/-- Whatever chain there is. -/
theorem keyless_some (session : RatchetSession β) (h : RatchetHeader β) (ck ck' : β)
    (recvCount : Primitive) :
    Keyless session h (some ck) recvCount ↔ Keyless session h (some ck') recvCount := by
  unfold Keyless
  simp only [reduceCtorEq, false_or]

/-- A refused header makes `receive` throw. -/
theorem receiveWith_refused {kp : DHKeyPair β} {session : RatchetSession β} {h : RatchetHeader β}
    (href : Refused P kp session h) : ∃ e, receiveWith P kp session h = .error e := by
  rw [Refused] at href
  split at href
  · rename_i ht
    rw [receiveWith_of_eq P ht]
    exact retrieve_keyless ht href
  · rename_i hne
    cases hr : receiveWith P kp session h with
    | error e => exact ⟨e, rfl⟩
    | ok r =>
      obtain ⟨mk, session'⟩ := r
      obtain ⟨session₁, ht₁, hret, ⟨ht, -⟩ | ⟨-, hd⟩⟩ := receiveWith_cases P hr
      · exact absurd ht hne
      · obtain ⟨session₀, d1, d2, hskip, hd1, hd2, rfl⟩ := dhRatchetWith_cases P hd
        rcases href with ⟨hck, hth, hfar⟩ | h1 | h2 | hk
        · obtain ⟨e, he⟩ := skipMessageKeys_blocked (P := P) hck hth hfar
          rw [he] at hskip; cases hskip
        · rw [h1] at hd1; cases hd1
        · rw [h2] at hd2; cases hd2
        · have hkeyless := (keyless_ratcheted hskip hne (P.kdfRootKey session.rootKey d1)
            (P.kdfRootKey (P.kdfRootKey session.rootKey d1).newRootKey d2) kp h.rk).mpr hk
          obtain ⟨e, he⟩ := retrieve_keyless (P := P) ht₁ ((keyless_some _ _ _ _ _).mp hkeyless)
          rw [he] at hret; cases hret

/-- The key `retrieveMessageKey` returns, when it does. -/
theorem retrieve_of_not_keyless {session : RatchetSession β} {h : RatchetHeader β}
    (ht : session.theirRatchetPublic = some h.rk)
    (hk : ¬ Keyless session h session.recvChainKey session.recvCount) :
    ∃ number, h.n.toPrimitive = some number ∧
      ((∃ saved session', session.skipped.lookup (h.rk, number.toText) = some saved ∧
          retrieveMessageKey P session h.rk h.n = .ok (P.hexToBuf saved, session')) ∨
        ∃ ck k session', session.skipped.lookup (h.rk, number.toText) = none ∧
          session.recvChainKey = some ck ∧ session.recvCount.passes number = some k ∧
          retrieveMessageKey P session h.rk h.n = .ok (P.chain.messageAt ck k, session')) := by
  cases hn : h.n.toPrimitive with
  | none => exact absurd trivial (by rwa [Keyless, hn] at hk)
  | some number =>
    refine ⟨number, rfl, ?_⟩
    rw [Keyless, hn] at hk
    cases hs : session.skipped.lookup (h.rk, number.toText) with
    | some saved => exact .inl ⟨saved, _, rfl, retrieve_saved P hn hs⟩
    | none =>
      obtain ⟨hck, hblocked⟩ := not_or.mp fun h => hk ⟨hs, h⟩
      obtain ⟨ck, hck⟩ := Option.ne_none_iff_exists'.mp hck
      obtain ⟨t, k, ht', hpasses, hskip⟩ := skipPasses_of_not_blocked hblocked
      obtain rfl := Option.some.inj (hn.symm.trans ht')
      exact .inr ⟨ck, k, _, rfl, hck, hpasses, retrieve_advance P hn hs ht hck hskip⟩

/-- A header that is not refused gets the key the session has for it. -/
theorem receiveWith_of_not_refused {kp : DHKeyPair β} {session : RatchetSession β}
    {h : RatchetHeader β} (href : ¬ Refused P kp session h) :
    ∃ key session', keyFor P session h = some key ∧
      receiveWith P kp session h = .ok (key, session') := by
  rw [Refused] at href
  split at href
  · rename_i ht
    rw [receiveWith_of_eq P ht]
    obtain ⟨number, hn, ⟨saved, session', hs, hr⟩ | ⟨ck, k, session', hs, hck, hk, hr⟩⟩ :=
      retrieve_of_not_keyless (P := P) ht href
    · exact ⟨_, _, by simp only [keyFor, hn, Option.bind_some, hs], hr⟩
    · exact ⟨_, _, by simp only [keyFor, hn, Option.bind_some, hs, if_pos ht, hck, hk,
        Option.map_some], hr⟩
  · rename_i hne
    simp only [not_or] at href
    obtain ⟨hskip, h1, h2, h3⟩ := href
    obtain ⟨d1, hd1⟩ := Option.ne_none_iff_exists'.mp h1
    obtain ⟨d2, hd2⟩ := Option.ne_none_iff_exists'.mp h2
    cases hsk : skipMessageKeys P session h.pn with
    | error e =>
      -- The only thing that stops the skip is that it is blocked.
      cases hck : session.recvChainKey with
      | none => rw [skipMessageKeys_none P _ (.inl hck)] at hsk; cases hsk
      | some ck =>
        cases ht : session.theirRatchetPublic with
        | none => rw [skipMessageKeys_none P _ (.inr ht)] at hsk; cases hsk
        | some their =>
          have hfree : ¬ Blocked session.recvCount h.pn := fun hb =>
            hskip ⟨by rw [hck]; simp, by rw [ht]; simp, hb⟩
          obtain ⟨_, k, -, -, hk⟩ := skipPasses_of_not_blocked hfree
          rw [skipMessageKeys_some P _ hck ht, hk] at hsk
          cases hsk
    | ok session₀ =>
      have hd := dhRatchetWith_ok P hsk hd1 hd2
      have hlook := lookup_skipMessageKeys P hsk hne
      rw [receiveWith, if_pos hne, hd]
      dsimp only
      have hnot := mt (keyless_ratcheted hsk hne (P.kdfRootKey session.rootKey d1)
        (P.kdfRootKey (P.kdfRootKey session.rootKey d1).newRootKey d2) kp h.rk).mp h3
      obtain ⟨number, hn, ⟨saved, session', hs, hr⟩ | ⟨ck, k, session', hs, hck, hk, hr⟩⟩ :=
        retrieve_of_not_keyless (P := P) (h := h) rfl fun hk => hnot ((keyless_some _ _ _ _ _).mp hk)
      · have hsaved : session₀.skipped.lookup (h.rk, number.toText) = some saved := hs
        exact ⟨_, _, by simp only [keyFor, hn, Option.bind_some, ← hlook, hsaved], hr⟩
      · have hsaved : session₀.skipped.lookup (h.rk, number.toText) = none := hs
        refine ⟨_, _, ?_, hr⟩
        obtain rfl := Option.some.inj hck
        have hk : (Primitive.int 0).passes number = some k := hk
        simp only [keyFor, hn, Option.bind_some, ← hlook, hsaved, if_neg hne, hd1, hk, Option.map_some]

/-! ## What a call leaves in the store -/

/-- From one more than the number there is nothing to skip. -/
theorem passes_plus_one (p : Primitive) : (p.plus 1).passes p = some 0 := by
  rw [Primitive.passes, Primitive.lt_plus_one]
  rfl

/-- Taking a message key always changes the session, if no chain key is its own
successor. -/
theorem retrieve_ne {session session' : RatchetSession β} {rk mk : β} {n : Value}
    (hnext : ∀ ck, P.chain.next ck ≠ ck) (ht : session.theirRatchetPublic = some rk)
    (hr : retrieveMessageKey P session rk n = .ok (mk, session')) : session' ≠ session := by
  obtain ⟨number, hn, ⟨saved, hs, -, rfl⟩ | ⟨ck, k, hs, hck, hk, -, rfl⟩⟩ := retrieve_cases P ht hr
  · intro heq
    have hgone : (useSaved session rk number.toText).skipped.lookup (rk, number.toText) = none := by
      simp [useSaved]
    rw [heq, hs] at hgone
    cases hgone
  · intro heq
    have hcount : number.plus 1 = session.recvCount := congrArg RatchetSession.recvCount heq
    have hkey : some (P.chain.chainAt ck (k + 1)) = some ck :=
      (congrArg RatchetSession.recvChainKey heq).trans hck
    -- the counter was one more than the number before, so that one key was taken
    have hzero : k = 0 := by
      rw [← hcount, skipPasses, hn] at hk
      dsimp only at hk
      rw [passes_plus_one] at hk
      split at hk
      · cases hk
      · exact (Except.ok.inj hk).symm
    rw [hzero] at hkey
    exact hnext ck (Option.some.inj hkey)

theorem receiveWith_ne {kp : DHKeyPair β} {session session' : RatchetSession β}
    {h : RatchetHeader β} {mk : β} (hnext : ∀ ck, P.chain.next ck ≠ ck)
    (hr : receiveWith P kp session h = .ok (mk, session')) : session' ≠ session := by
  obtain ⟨session₁, ht₁, hret, ⟨ht, rfl⟩ | ⟨hne, -⟩⟩ := receiveWith_cases P hr
  · exact retrieve_ne hnext ht hret
  · intro heq
    exact hne (heq ▸ retrieve_their P ht₁ hret)

variable (P)

/-- A type-1 message names a one-time pre-key that is still in the store, and the
handshake gets as far as loading it. -/
def ConsumesPreKey (store : KeyStore β) (msg : WireMessage β) : Prop :=
  ∃ idKP params spk id, handshakeKeys store msg = .ok (idKP, params, spk) ∧
    params.opkId = some id ∧ (store.preKeys id).isSome

/-- **When a throwing `decrypt` leaves the store alone.**  A type-2 envelope is
refused before the session is stored, or opens; a type-1 envelope fails without
having consumed a pre-key, or its session is made and it opens. -/
def Harmless (kp : DHKeyPair β) (peerId : String) (store : KeyStore β)
    (envelope : EncryptedEnvelope ω) : Prop :=
  ∀ msg, P.parse envelope.ciphertext = some msg →
    match envelope.type with
    | .signalMessage => ∀ session h, store.sessions peerId = some session → msg.h = some h →
        Refused P kp session h ∨ Opens P session h msg
    | .preKeySignalMessage =>
      match respondWith P kp store msg with
      | .error _ => ¬ ConsumesPreKey store msg
      | .ok session => ∀ h, msg.h = some h → ¬ Blocked (.int 0) h.n ∧ Opens P session h msg

variable {P}

omit [DecidableEq β] in
theorem dropPreKey_eq_iff (store : KeyStore β) (opkId : Option Int) :
    dropPreKey store opkId = store ↔ ¬ ∃ id, opkId = some id ∧ (store.preKeys id).isSome := by
  cases opkId with
  | none => exact iff_of_true rfl (by rintro ⟨_, h, -⟩; cases h)
  | some id =>
    rw [dropPreKey]
    by_cases hsome : (store.preKeys id).isSome
    · refine iff_of_false (fun heq => ?_) (not_not.mpr ⟨id, rfl, hsome⟩)
      have hgone : (store.removePreKey id).preKeys id = none := Function.update_self ..
      rw [if_pos hsome] at heq
      rw [heq] at hgone
      rw [hgone] at hsome
      cases hsome
    · rw [if_neg hsome]
      refine iff_of_true rfl ?_
      rintro ⟨_, h, h'⟩
      cases h
      exact hsome h'

omit [DecidableEq β] in
theorem respondStore_eq_iff (store : KeyStore β) (msg : WireMessage β) :
    respondStore store msg = store ↔ ¬ ConsumesPreKey store msg := by
  unfold respondStore ConsumesPreKey
  cases handshakeKeys store msg with
  | error e => exact iff_of_true rfl (by rintro ⟨_, _, _, _, h, -⟩; cases h)
  | ok r =>
    obtain ⟨idKP, params, spk⟩ := r
    refine (dropPreKey_eq_iff store params.opkId).trans (not_congr ⟨?_, ?_⟩)
    · rintro ⟨id, h⟩
      exact ⟨idKP, params, spk, id, rfl, h⟩
    · rintro ⟨_, _, _, id, heq, h⟩
      cases heq
      exact ⟨id, h⟩

omit [DecidableEq β] in
theorem storeSession_ne {store store₀ : KeyStore β} {peerId : String} {session : RatchetSession β}
    (hne : ∀ stored, store.sessions peerId = some stored → session ≠ stored) :
    store₀.storeSession peerId session ≠ store := by
  intro heq
  exact hne session (heq ▸ KeyStore.storeSession_sessions_self store₀ peerId session) rfl

/-- On a responder's first session only the skip can refuse a header. -/
theorem responder_refused_iff {kp kp' : DHKeyPair β} {store : KeyStore β} {msg : WireMessage β}
    {session : RatchetSession β} {h : RatchetHeader β}
    (hok : respondWith P kp store msg = .ok session) (hh : msg.h = some h) :
    Refused P kp' session h ↔ Blocked (.int 0) h.n := by
  have ht := respondWith_their P hh hok
  obtain ⟨_, _, _, _, _, _, _, _, _, _, _, _, _, _, rfl⟩ := respondWith_ok P hok
  rw [Refused, if_pos ht, Keyless]
  cases hn : h.n.toPrimitive with
  | none => exact iff_of_true trivial (by rw [Blocked, hn]; trivial)
  | some number => simp [responderSession]

variable {E}

/-- A call that does not throw, or leaves the store alone. -/
def Atomic (P : Platform β ω) (E : Entropy β) (peerId : String) (envelope : EncryptedEnvelope ω)
    (w : World β) : Prop :=
  ∀ e w', (decrypt P peerId envelope).run (serve E) w = (.error e, w') → w'.store = w.store

/-- A call whose key is found is atomic when the ciphertext opens, or when the
store it leaves is the one it began with. -/
theorem atomic_of_key {peerId : String} {envelope : EncryptedEnvelope ω} {w w' : World β}
    {msg : WireMessage β} {mk : β}
    (hrun : (decryptKey P peerId envelope).run (serve E) w = (.ok (mk, msg), w')) :
    Atomic P E peerId envelope w ↔
      (P.aesGcmDecrypt mk msg.ct msg.iv).isSome ∨ w'.store = w.store := by
  have hdec := run_decrypt P E peerId envelope w
  rw [hrun] at hdec
  dsimp only at hdec
  cases hopen : P.aesGcmDecrypt mk msg.ct msg.iv with
  | none =>
    rw [hopen] at hdec
    rw [Atomic, hdec]
    constructor
    · intro h
      exact .inr (h _ _ rfl)
    · rintro (h | h) e w'' heq
      · cases h
      · cases heq
        exact h
  | some pt =>
    rw [hopen] at hdec
    rw [Atomic, hdec]
    exact iff_of_true (fun _ _ heq => by cases heq) (.inl rfl)

/-- A call that finds no key is atomic when the store it leaves is the one it
began with. -/
theorem atomic_of_error {peerId : String} {envelope : EncryptedEnvelope ω} {w w' : World β}
    {e : Failure} (hrun : (decryptKey P peerId envelope).run (serve E) w = (.error e, w')) :
    Atomic P E peerId envelope w ↔ w'.store = w.store := by
  have hdec := run_decrypt P E peerId envelope w
  rw [hrun] at hdec
  dsimp only at hdec
  rw [Atomic, hdec]
  constructor
  · intro h
    exact h _ _ rfl
  · rintro h _ _ heq
    cases heq
    exact h

/-- `Atomic` for a type-2 envelope. -/
theorem atomic_signal_iff {peerId : String} {envelope : EncryptedEnvelope ω} {w : World β}
    {msg : WireMessage β} {h : RatchetHeader β} {session : RatchetSession β}
    (hnext : ∀ ck, P.chain.next ck ≠ ck) (htype : envelope.type = .signalMessage)
    (hparse : P.parse envelope.ciphertext = some msg) (hh : msg.h = some h)
    (hs : w.store.sessions peerId = some session) :
    Atomic P E peerId envelope w ↔
      Refused P (nextPair P E w) session h ∨ Opens P session h msg := by
  have hrun := run_decryptKey_signal P E htype hparse hh hs
  by_cases href : Refused P (nextPair P E w) session h
  · obtain ⟨e, he⟩ := receiveWith_refused href
    rw [he] at hrun
    exact (atomic_of_error hrun).trans (iff_of_true rfl (.inl href))
  · obtain ⟨key, session', hkey, hr⟩ := receiveWith_of_not_refused href
    rw [hr] at hrun
    have hchanged : w.store.storeSession peerId session' ≠ w.store :=
      storeSession_ne fun stored hst => by
        rw [hs] at hst
        cases hst
        exact receiveWith_ne hnext hr
    rw [atomic_of_key hrun]
    constructor
    · rintro (hopen | heq)
      · exact .inr ⟨key, hkey, hopen⟩
      · exact absurd heq hchanged
    · rintro (h | ⟨key', hkey', hopen⟩)
      · exact absurd h href
      · rw [hkey] at hkey'
        cases hkey'
        exact .inl hopen

/-- `Atomic` for a type-1 envelope whose handshake succeeds. -/
theorem atomic_preKey_iff {peerId : String} {envelope : EncryptedEnvelope ω} {w : World β}
    {msg : WireMessage β} {h : RatchetHeader β} {session : RatchetSession β}
    (hfresh : ∀ stored, w.store.sessions peerId = some stored →
      stored.ourRatchetPublic ≠ (nextPair P E w).publicKeyRaw)
    (htype : envelope.type = .preKeySignalMessage)
    (hparse : P.parse envelope.ciphertext = some msg) (hh : msg.h = some h)
    (hs : respondWith P (nextPair P E w) w.store msg = .ok session) :
    Atomic P E peerId envelope w ↔ ¬ Blocked (.int 0) h.n ∧ Opens P session h msg := by
  have hrun := @run_decryptKey_preKey _ _ _ P E peerId _ _ _ _ _ htype hparse hh hs
  have hour : session.ourRatchetPublic = (nextPair P E w).publicKeyRaw := by
    obtain ⟨_, _, _, _, _, _, _, _, _, _, _, _, _, _, rfl⟩ := respondWith_ok P hs
    rfl
  -- Whatever session is stored, its ratchet key is the one just generated.
  have hchanged : ∀ stored : RatchetSession β,
      stored.ourRatchetPublic = session.ourRatchetPublic →
      (respondStore w.store msg).storeSession peerId stored ≠ w.store :=
    fun stored hst => storeSession_ne fun old hold heq =>
      hfresh old hold (by rw [← heq, hst, hour])
  have hiff : Refused P (nextPair P E w) session h ↔ Blocked (.int 0) h.n :=
    responder_refused_iff hs hh
  by_cases href : Refused P (nextPair P E w) session h
  · obtain ⟨e, he⟩ := receiveWith_refused href
    rw [he] at hrun
    refine (atomic_of_error hrun).trans (iff_of_false (hchanged session rfl) ?_)
    exact fun h => h.1 (hiff.mp href)
  · obtain ⟨key, session', hkey, hr⟩ := receiveWith_of_not_refused href
    have hn := mt hiff.mpr href
    have hour' : session'.ourRatchetPublic = session.ourRatchetPublic := by
      have ht := respondWith_their P hh hs
      rw [receiveWith_of_eq P ht] at hr
      exact congrArg SendState.ourRatchetPublic (retrieve_sendState P ht hr)
    rw [hr] at hrun
    rw [atomic_of_key hrun]
    constructor
    · rintro (hopen | heq)
      · exact ⟨hn, key, hkey, hopen⟩
      · exact absurd heq (hchanged session' hour')
    · rintro ⟨-, key', hkey', hopen⟩
      rw [hkey] at hkey'
      cases hkey'
      exact .inl hopen

/-- `Atomic` for a type-1 envelope whose handshake fails. -/
theorem atomic_failed_preKey_iff {peerId : String} {envelope : EncryptedEnvelope ω} {w : World β}
    {msg : WireMessage β} {e : Failure} (htype : envelope.type = .preKeySignalMessage)
    (hparse : P.parse envelope.ciphertext = some msg)
    (hs : respondWith P (nextPair P E w) w.store msg = .error e) :
    Atomic P E peerId envelope w ↔ ¬ ConsumesPreKey w.store msg := by
  have hrun : (decryptKey P peerId envelope).run (serve E) w =
      (.error e, { store := respondStore w.store msg
                   keysDrawn := w.keysDrawn + respondDraws P w.store msg
                   ivsDrawn := w.ivsDrawn }) := by
    rw [decryptKey, hparse, htype]
    simp only [Prog.run_bind, Prog.run_ofOption_some, run_initSessionFromPreKey, hs]
  exact (atomic_of_error hrun).trans (respondStore_eq_iff w.store msg)

/-- A call that throws before it looks at a session or a handshake is atomic. -/
theorem atomic_of_no_effect {peerId : String} {envelope : EncryptedEnvelope ω} {w : World β}
    (h : ∀ r store, DecryptEffect P peerId envelope (nextPair P E w) w.store r store →
      (∃ e, r = .error e) ∧ store = w.store) : Atomic P E peerId envelope w := by
  obtain ⟨r, store, draws, -, hrun, heff⟩ := run_decryptKey P E peerId envelope w
  obtain ⟨⟨e, rfl⟩, rfl⟩ := h r store heff
  exact (atomic_of_error hrun).mpr rfl

/-- Alice sends two messages, and the first one reaches Bob. -/
def firstReceived : Net Bytes Payload :=
  conversation []
    [.initSessionFromBundle .alice (Party.bob.bundle 1 none), .encrypt .alice [104],
      .encrypt .alice [105], .deliver 0]

/-- The second message, with another ciphertext in it. -/
def tampered : EncryptedEnvelope Payload :=
  let e := (firstReceived.sent.get ⟨1, by decide⟩).envelope
  { e with ciphertext := e.ciphertext.map fun msg => { msg with ct := .lit [] } }

/-- Bob's call when it arrives. -/
def tamperedRun : Except Failure CodeUnits × World Bytes :=
  (decrypt (symbolic Name) "alice" tampered).run (serve (freshEntropy .bob)) (firstReceived.world .bob)

/-- It throws, and the stored counter is one further than before. -/
theorem tamperedRun_throws : tamperedRun = (.error .operationError, tamperedRun.2) :=
  Prod.ext (by decide) rfl

theorem tamperedRun_store_ne : tamperedRun.2.store ≠ (firstReceived.world .bob).store := by
  intro heq
  have hcount := congrArg (fun s => (s.sessions "alice").map RatchetSession.recvCount) heq
  exact absurd hcount (by decide)

theorem symbolic_next_ne {N : Type} [LinearOrder N] (ck : Symbolic.Term N) :
    (symbolic N).chain.next ck ≠ ck := by
  intro h
  have hsize := congrArg sizeOf h
  simp [Platform.chain, Platform.kdfChainKey, symbolic] at hsize
  omega

end SignalSessionManager
end Winkd
