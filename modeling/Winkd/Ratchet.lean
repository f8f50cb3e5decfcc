import Winkd.SessionRuns

/-!
# The receiving chain of a session

What `skipMessageKeys`, `retrieveMessageKey` and the DH ratchet do to a session,
in terms of the key chain the session is receiving on.  Skipping `k` keys moves
the chain `k` steps on and saves the keys it passes; retrieving a key takes a
saved one or moves on to it; ratcheting starts two new chains.  The sending side
of the session (`SendState`) only changes in a DH ratchet.
-/

namespace Winkd
open Js UnicodeText

/-- The chain `kdfChainKey` derives. -/
def Platform.chain {β ω : Type} (P : Platform β ω) : KeyChain β β where
  next ck := (P.kdfChainKey ck).nextChainKey
  message ck := (P.kdfChainKey ck).messageKey

/-- The fields of a session that decide what is sent next, and under which
keys. -/
structure SendState (β : Type) where
  rootKey : β
  sendChainKey : Option β
  sendCount : Int
  prevSendCount : Int
  ourRatchetPublic : β
  ourRatchetPrivate : β
  isInitiator : Bool
  pendingPreKeyMsg : Option (PendingPreKeyMsg β)

/-- The sending side of a session. -/
def RatchetSession.sendState {β : Type} (s : RatchetSession β) : SendState β where
  rootKey := s.rootKey
  sendChainKey := s.sendChainKey
  sendCount := s.sendCount
  prevSendCount := s.prevSendCount
  ourRatchetPublic := s.ourRatchetPublic
  ourRatchetPrivate := s.ourRatchetPrivate
  isInitiator := s.isInitiator
  pendingPreKeyMsg := s.pendingPreKeyMsg

/-- `recvCount`, where it is an integer. -/
def RatchetSession.count {β : Type} (s : RatchetSession β) : ℤ := s.recvCount.floor

/-- The number of a message, where it is an integer. -/
def RatchetHeader.number {β : Type} (h : RatchetHeader β) : ℤ := h.n.floor

/-- The length of the previous chain, where it is an integer. -/
def RatchetHeader.previous {β : Type} (h : RatchetHeader β) : ℤ := h.pn.floor

namespace SignalSessionManager
variable {β ω : Type} [DecidableEq β] (P : Platform β ω)

omit [DecidableEq β] in
@[simp] theorem nextHeader_number (session : RatchetSession β) :
    (nextHeader session).number = session.sendCount := rfl

omit [DecidableEq β] in
@[simp] theorem nextHeader_previous (session : RatchetSession β) :
    (nextHeader session).previous = session.prevSendCount := rfl

/-! ## Skipping -/

/-- The first `k` message keys of the chain from `ck`, saved for `their` under the numbers
that a counter has from `start` on. -/
def saveKeys (their ck : β) (start : Primitive) :
    ℕ → Finmap (fun _ : β × CodeUnits => β) → Finmap (fun _ : β × CodeUnits => β)
  | 0, m => m
  | k + 1, m =>
      (saveKeys their ck start k m).insert (their, (start.after k).toText)
        (P.bufToHex (P.chain.messageAt ck k))

/-- The last of `k` passes at which the counter has the text. -/
def savedAt (start : Primitive) : ℕ → CodeUnits → Option ℕ
  | 0, _ => none
  | k + 1, t => if t = (start.after k).toText then some k else savedAt start k t

theorem savedAt_spec {start : Primitive} {k j : ℕ} {t : CodeUnits} (h : savedAt start k t = some j) :
    j < k ∧ t = (start.after j).toText := by
  induction k with
  | zero => cases h
  | succ k ih =>
    rw [savedAt] at h
    split at h
    · rename_i htext
      obtain rfl := Option.some.inj h
      exact ⟨Nat.lt_succ_self k, htext⟩
    · exact ⟨Nat.lt_succ_of_lt (ih h).1, (ih h).2⟩

/-- What is saved: the keys of the passes, and what was there. -/
theorem lookup_saveKeys_eq (their ck a : β) (start : Primitive) (k : ℕ)
    (m : Finmap (fun _ : β × CodeUnits => β)) (t : CodeUnits) :
    (saveKeys P their ck start k m).lookup (a, t) =
      if a = their then
        match savedAt start k t with
        | some j => some (P.bufToHex (P.chain.messageAt ck j))
        | none => m.lookup (a, t)
      else m.lookup (a, t) := by
  induction k with
  | zero => split <;> rfl
  | succ k ih =>
    rw [saveKeys, savedAt]
    by_cases ha : a = their
    · by_cases ht : t = (start.after k).toText
      · rw [ha, ht, Finmap.lookup_insert, if_pos rfl, if_pos rfl]
      · have hne : (a, t) ≠ (their, (start.after k).toText) := fun h => ht (Prod.mk.inj h).2
        rw [Finmap.lookup_insert_of_ne _ hne, ih, if_pos ha, if_pos ha, if_neg ht]
    · have hne : (a, t) ≠ (their, (start.after k).toText) := fun h => ha (Prod.mk.inj h).1
      rw [Finmap.lookup_insert_of_ne _ hne, ih, if_neg ha, if_neg ha]

variable {P} in
/-- A key that is found was there, or has been saved now. -/
theorem lookup_saveKeys_cases {their ck a v : β} {start : Primitive} {k : ℕ}
    {m : Finmap (fun _ : β × CodeUnits => β)} {t : CodeUnits}
    (h : (saveKeys P their ck start k m).lookup (a, t) = some v) :
    m.lookup (a, t) = some v ∨ a = their ∧ ∃ j < k, t = (start.after j).toText ∧
      v = P.bufToHex (P.chain.messageAt ck j) := by
  rw [lookup_saveKeys_eq] at h
  split at h
  · rename_i ha
    cases hj : savedAt start k t with
    | none =>
      rw [hj] at h
      exact .inl h
    | some j =>
      rw [hj] at h
      obtain ⟨hlt, ht⟩ := savedAt_spec hj
      exact .inr ⟨ha, j, hlt, ht, (Option.some.inj h).symm⟩
  · exact .inl h

/-- The keys of other chains stay as they are. -/
theorem lookup_saveKeys_of_ne {their a : β} (ck : β) (start : Primitive) (k : ℕ)
    (m : Finmap (fun _ : β × CodeUnits => β)) (ha : a ≠ their) (t : CodeUnits) :
    (saveKeys P their ck start k m).lookup (a, t) = m.lookup (a, t) := by
  rw [lookup_saveKeys_eq, if_neg ha]

/-- From an integer on the keys are saved under the integers that follow. -/
theorem lookup_saveKeys (their ck : β) (start : ℤ) (m : Finmap (fun _ : β × CodeUnits => β))
    (a : β) (n : ℤ) (k : ℕ) :
    (saveKeys P their ck (.int start) k m).lookup (a, intText n) =
      if a = their ∧ start ≤ n ∧ n < start + k then
        some (P.bufToHex (P.chain.messageAt ck (n - start).toNat))
      else m.lookup (a, intText n) := by
  induction k with
  | zero => rw [if_neg (fun h => absurd h.2.2 (by have := h.2.1; omega))]; rfl
  | succ k ih =>
    rw [saveKeys, Primitive.after_int, Primitive.toText_int]
    by_cases hkey : (a, intText n) = (their, intText (start + k))
    · obtain ⟨rfl, htext⟩ := Prod.mk.inj hkey
      obtain rfl := intText_injective htext
      rw [Finmap.lookup_insert, if_pos ⟨rfl, by omega, by omega⟩,
        show (start + (k : ℤ) - start).toNat = k from by omega]
    · have hn : a = their → n ≠ start + k := fun ha hn => hkey (by rw [ha, hn])
      rw [Finmap.lookup_insert_of_ne _ hkey, ih]
      congr 1
      rw [eq_iff_iff]
      constructor
      · rintro ⟨ha, h1, h2⟩; exact ⟨ha, h1, by push_cast; omega⟩
      · rintro ⟨ha, h1, h2⟩
        have := hn ha
        exact ⟨ha, h1, by push_cast at h2; omega⟩

/-- A session whose receiving chain, at `ck`, has been moved `k` keys on. -/
def skipped (session : RatchetSession β) (their ck : β) (k : ℕ) : RatchetSession β :=
  { session with
    recvChainKey := some (P.chain.chainAt ck k)
    recvCount := session.recvCount.after k
    skipped := saveKeys P their ck session.recvCount k session.skipped }

theorem skipped_zero {session : RatchetSession β} {ck : β} (their : β)
    (hck : session.recvChainKey = some ck) : skipped P session their ck 0 = session := by
  cases session
  simp only [skipped, KeyChain.chainAt_zero, saveKeys, Primitive.after] at hck ⊢
  rw [hck]

/-- The loop of `skipMessageKeys`, in one step. -/
theorem skipOne_iterate {session : RatchetSession β} {ck : β} (their : β)
    (hck : session.recvChainKey = some ck) (k : ℕ) :
    (skipOne P their)^[k] session = skipped P session their ck k := by
  induction k with
  | zero => exact (skipped_zero P their hck).symm
  | succ k ih =>
    rw [Function.iterate_succ_apply', ih]
    simp only [skipOne, skipped, saveKeys, KeyChain.chainAt_succ, Primitive.after]
    rfl

/-- How many passes there are between integers. -/
@[simp] theorem skipPasses_int (count target : ℤ) :
    skipPasses (.int count) (.int target) = if target > count + MAX_SKIP then
        .error (.error s!"[SignalSession] Too many skipped messages (max {MAX_SKIP})")
      else .ok (target - count).toNat := by
  simp only [skipPasses, Value.toPrimitive_int, Primitive.plus_int, Primitive.lt_int,
    Primitive.passes_int, decide_eq_true_eq, gt_iff_lt]

theorem skipPasses_int_ok {count target : ℤ} (h : target ≤ count + MAX_SKIP) :
    skipPasses (.int count) (.int target) = .ok (target - count).toNat := by
  rw [skipPasses_int, if_neg (by omega)]

theorem skipPasses_int_cases {count target : ℤ} {k : ℕ}
    (h : skipPasses (.int count) (.int target) = .ok k) :
    target ≤ count + MAX_SKIP ∧ k = (target - count).toNat := by
  rw [skipPasses_int] at h
  split at h
  · cases h
  · exact ⟨by omega, (Except.ok.inj h).symm⟩

/-- `skipMessageKeys` when there is a chain to skip on. -/
theorem skipMessageKeys_some {session : RatchetSession β} {their ck : β} (target : Value)
    (hck : session.recvChainKey = some ck) (ht : session.theirRatchetPublic = some their) :
    skipMessageKeys P session target =
      (skipPasses session.recvCount target).map (skipped P session their ck) := by
  rw [skipMessageKeys, hck, ht]
  simp only [skipOne_iterate P their hck]
  cases skipPasses session.recvCount target <;> rfl

theorem skipMessageKeys_none {session : RatchetSession β} (target : Value)
    (h : session.recvChainKey = none ∨ session.theirRatchetPublic = none) :
    skipMessageKeys P session target = .ok session := by
  rw [skipMessageKeys]
  rcases h with h | h
  · rw [h]
  · rw [h]; cases session.recvChainKey <;> rfl

/-- What a call of `skipMessageKeys` that does not throw did. -/
theorem skipMessageKeys_cases {session session' : RatchetSession β} {target : Value}
    (h : skipMessageKeys P session target = .ok session') :
    ((session.recvChainKey = none ∨ session.theirRatchetPublic = none) ∧ session' = session) ∨
      ∃ their ck k, session.theirRatchetPublic = some their ∧ session.recvChainKey = some ck ∧
        skipPasses session.recvCount target = .ok k ∧ session' = skipped P session their ck k := by
  cases hck : session.recvChainKey with
  | none =>
    rw [skipMessageKeys_none P target (.inl hck), Except.ok.injEq] at h
    exact .inl ⟨.inl rfl, h.symm⟩
  | some ck =>
    cases ht : session.theirRatchetPublic with
    | none =>
      rw [skipMessageKeys_none P target (.inr ht), Except.ok.injEq] at h
      exact .inl ⟨.inr rfl, h.symm⟩
    | some their =>
      rw [skipMessageKeys_some P target hck ht] at h
      cases hk : skipPasses session.recvCount target with
      | error e => rw [hk] at h; cases h
      | ok k =>
        rw [hk] at h
        exact .inr ⟨their, ck, k, rfl, rfl, rfl, (Except.ok.inj h).symm⟩

/-- Skipping leaves the sending side alone. -/
theorem skipMessageKeys_sendState {session session' : RatchetSession β} {target : Value}
    (h : skipMessageKeys P session target = .ok session') :
    session'.sendState = session.sendState ∧
      session'.theirRatchetPublic = session.theirRatchetPublic := by
  rcases skipMessageKeys_cases P h with ⟨-, rfl⟩ | ⟨_, _, _, -, -, -, rfl⟩
  · exact ⟨rfl, rfl⟩
  · exact ⟨rfl, rfl⟩

/-- The lookup of a key of another chain does not see what is skipped now. -/
theorem lookup_skipMessageKeys {session session' : RatchetSession β} {pn : Value}
    (h : skipMessageKeys P session pn = .ok session') {rk : β}
    (hne : session.theirRatchetPublic ≠ some rk) (t : CodeUnits) :
    session'.skipped.lookup (rk, t) = session.skipped.lookup (rk, t) := by
  rcases skipMessageKeys_cases P h with ⟨-, rfl⟩ | ⟨their, ck, k, ht, -, -, rfl⟩
  · rfl
  · exact lookup_saveKeys_of_ne P ck _ k _ (fun ha : rk = their => hne (ha ▸ ht)) t

/-! ## Retrieving a message key -/

/-- The session once a saved key has been used. -/
def useSaved (session : RatchetSession β) (rk : β) (t : CodeUnits) : RatchetSession β :=
  { session with skipped := session.skipped.erase (rk, t) }

/-- The session once the key behind the next `k` has been taken from the receiving chain,
which was at `ck`, and the counter set. -/
def advanced (session : RatchetSession β) (rk ck : β) (k : ℕ) (recvCount : Primitive) :
    RatchetSession β :=
  { session with
    recvChainKey := some (P.chain.chainAt ck (k + 1))
    recvCount := recvCount
    skipped := saveKeys P rk ck session.recvCount k session.skipped }

theorem retrieve_saved {session : RatchetSession β} {rk saved : β} {n : Value} {number : Primitive}
    (hn : n.toPrimitive = some number)
    (h : session.skipped.lookup (rk, number.toText) = some saved) :
    retrieveMessageKey P session rk n =
      .ok (P.hexToBuf saved, useSaved session rk number.toText) := by
  rw [retrieveMessageKey, hn]
  simp only [h]
  rfl

theorem retrieve_advance {session : RatchetSession β} {rk ck : β} {n : Value} {number : Primitive}
    {k : ℕ} (hn : n.toPrimitive = some number)
    (h : session.skipped.lookup (rk, number.toText) = none)
    (ht : session.theirRatchetPublic = some rk) (hck : session.recvChainKey = some ck)
    (hk : skipPasses session.recvCount n = .ok k) :
    retrieveMessageKey P session rk n =
      .ok (P.chain.messageAt ck k, advanced P session rk ck k (number.plus 1)) := by
  rw [retrieveMessageKey, hn]
  simp only [h, skipMessageKeys_some P n hck ht, hk, Except.map, skipped]
  simp only [advanced, KeyChain.chainAt_succ]
  rfl

/-- What a call of `retrieveMessageKey` that does not throw did, on a session
that is receiving from `rk`. -/
theorem retrieve_cases {session session' : RatchetSession β} {rk mk : β} {n : Value}
    (ht : session.theirRatchetPublic = some rk)
    (h : retrieveMessageKey P session rk n = .ok (mk, session')) :
    ∃ number, n.toPrimitive = some number ∧
      ((∃ saved, session.skipped.lookup (rk, number.toText) = some saved ∧ mk = P.hexToBuf saved ∧
          session' = useSaved session rk number.toText) ∨
        ∃ ck k, session.skipped.lookup (rk, number.toText) = none ∧
          session.recvChainKey = some ck ∧ skipPasses session.recvCount n = .ok k ∧
          mk = P.chain.messageAt ck k ∧
          session' = advanced P session rk ck k (number.plus 1)) := by
  cases hn : n.toPrimitive with
  | none =>
    rw [retrieveMessageKey, hn] at h
    cases h
  | some number =>
    refine ⟨number, rfl, ?_⟩
    cases hs : session.skipped.lookup (rk, number.toText) with
    | some saved =>
      rw [retrieve_saved P hn hs, Except.ok.injEq, Prod.mk.injEq] at h
      exact .inl ⟨saved, rfl, h.1.symm, h.2.symm⟩
    | none =>
      cases hck : session.recvChainKey with
      | none =>
        rw [retrieveMessageKey, hn] at h
        simp [hs, skipMessageKeys_none P n (.inl hck), hck] at h
      | some ck =>
        cases hk : skipPasses session.recvCount n with
        | error e =>
          rw [retrieveMessageKey, hn] at h
          simp [hs, skipMessageKeys_some P n hck ht, hk, Except.map] at h
        | ok k =>
          rw [retrieve_advance P hn hs ht hck hk, Except.ok.injEq, Prod.mk.injEq] at h
          exact .inr ⟨ck, k, rfl, rfl, rfl, h.1.symm, h.2.symm⟩

/-- The same, when the counter and the number are integers. -/
theorem retrieve_int_cases {session session' : RatchetSession β} {rk mk : β} {count n : ℤ}
    (ht : session.theirRatchetPublic = some rk) (hcount : session.recvCount = .int count)
    (h : retrieveMessageKey P session rk (.int n) = .ok (mk, session')) :
    (∃ saved, session.skipped.lookup (rk, intText n) = some saved ∧ mk = P.hexToBuf saved ∧
        session' = useSaved session rk (intText n)) ∨
      ∃ ck, session.skipped.lookup (rk, intText n) = none ∧ session.recvChainKey = some ck ∧
        n ≤ count + MAX_SKIP ∧ mk = P.chain.messageAt ck (n - count).toNat ∧
        session' = advanced P session rk ck (n - count).toNat (.int (n + 1)) := by
  obtain ⟨number, hn, hcases⟩ := retrieve_cases P ht h
  obtain rfl := Option.some.inj ((Value.toPrimitive_int n).symm.trans hn)
  rcases hcases with hsaved | ⟨ck, k, hnone, hck, hk, hmk, hsession⟩
  · exact .inl hsaved
  · rw [hcount] at hk
    obtain ⟨hle, rfl⟩ := skipPasses_int_cases hk
    exact .inr ⟨ck, hnone, hck, hle, hmk, hsession⟩

/-- Taking a key leaves the peer's ratchet key. -/
theorem retrieve_their {session session' : RatchetSession β} {rk mk : β} {n : Value}
    (ht : session.theirRatchetPublic = some rk)
    (hr : retrieveMessageKey P session rk n = .ok (mk, session')) :
    session'.theirRatchetPublic = some rk := by
  obtain ⟨_, -, ⟨_, _, _, rfl⟩ | ⟨_, _, _, _, _, _, rfl⟩⟩ := retrieve_cases P ht hr <;> exact ht

/-- It leaves the sending side alone. -/
theorem retrieve_sendState {session session' : RatchetSession β} {rk mk : β} {n : Value}
    (ht : session.theirRatchetPublic = some rk)
    (hr : retrieveMessageKey P session rk n = .ok (mk, session')) :
    session'.sendState = session.sendState := by
  obtain ⟨_, -, ⟨_, _, _, rfl⟩ | ⟨_, _, _, _, _, _, rfl⟩⟩ := retrieve_cases P ht hr <;> rfl

/-! ## The DH ratchet -/

/-- What a DH ratchet that does not throw did. -/
theorem dhRatchetWith_cases {newKP : DHKeyPair β} {session session' : RatchetSession β} {rk : β}
    {pn : Value} (h : dhRatchetWith P newKP session rk pn = .ok session') :
    ∃ session₀ dhOut1 dhOut2, skipMessageKeys P session pn = .ok session₀ ∧
      P.dh session.ourRatchetPrivate rk = some dhOut1 ∧
      P.dh newKP.privateKeyJwk rk = some dhOut2 ∧
      session' = ratchetedSession session₀ rk (P.kdfRootKey session.rootKey dhOut1)
        (P.kdfRootKey (P.kdfRootKey session.rootKey dhOut1).newRootKey dhOut2) newKP := by
  rw [dhRatchetWith] at h
  cases hs : skipMessageKeys P session pn with
  | error e => rw [hs] at h; cases h
  | ok session₀ =>
    have hroot : session₀.rootKey = session.rootKey :=
      congrArg SendState.rootKey (skipMessageKeys_sendState P hs).1
    have hpriv : session₀.ourRatchetPrivate = session.ourRatchetPrivate :=
      congrArg SendState.ourRatchetPrivate (skipMessageKeys_sendState P hs).1
    simp only [hs, hroot, hpriv] at h
    cases hd1 : P.dh session.ourRatchetPrivate rk with
    | none => simp [hd1] at h
    | some d1 =>
      cases hd2 : P.dh newKP.privateKeyJwk rk with
      | none => simp [hd1, hd2] at h
      | some d2 =>
        simp only [hd1, hd2, Except.ok.injEq] at h
        exact ⟨session₀, d1, d2, rfl, rfl, rfl, h.symm⟩

/-- The DH ratchet succeeds when the skip does and both secrets exist. -/
theorem dhRatchetWith_ok {newKP : DHKeyPair β} {session session₀ : RatchetSession β}
    {rk dhOut1 dhOut2 : β} {pn : Value} (hs : skipMessageKeys P session pn = .ok session₀)
    (hd1 : P.dh session.ourRatchetPrivate rk = some dhOut1)
    (hd2 : P.dh newKP.privateKeyJwk rk = some dhOut2) :
    dhRatchetWith P newKP session rk pn =
      .ok (ratchetedSession session₀ rk (P.kdfRootKey session.rootKey dhOut1)
        (P.kdfRootKey (P.kdfRootKey session.rootKey dhOut1).newRootKey dhOut2) newKP) := by
  have hroot : session₀.rootKey = session.rootKey :=
    congrArg SendState.rootKey (skipMessageKeys_sendState P hs).1
  have hpriv : session₀.ourRatchetPrivate = session.ourRatchetPrivate :=
    congrArg SendState.ourRatchetPrivate (skipMessageKeys_sendState P hs).1
  simp only [dhRatchetWith, hs, hroot, hpriv, hd1, hd2]

/-- **What `receive` does**: it works on a session that is receiving from the
header's ratchet key — the one it was given, or that session ratcheted — and
takes a message key from it. -/
theorem receiveWith_cases {newKP : DHKeyPair β} {session session' : RatchetSession β}
    {h : RatchetHeader β} {mk : β} (hr : receiveWith P newKP session h = .ok (mk, session')) :
    ∃ session₁, session₁.theirRatchetPublic = some h.rk ∧
      retrieveMessageKey P session₁ h.rk h.n = .ok (mk, session') ∧
      ((session.theirRatchetPublic = some h.rk ∧ session₁ = session) ∨
        (session.theirRatchetPublic ≠ some h.rk ∧
          dhRatchetWith P newKP session h.rk h.pn = .ok session₁)) := by
  rw [receiveWith] at hr
  split at hr
  · rename_i hne
    cases hd : dhRatchetWith P newKP session h.rk h.pn with
    | error e => rw [hd] at hr; cases hr
    | ok session₁ =>
      rw [hd] at hr
      obtain ⟨_, _, _, _, _, _, rfl⟩ := dhRatchetWith_cases P hd
      exact ⟨_, rfl, hr, .inr ⟨hne, rfl⟩⟩
  · rename_i heq
    have ht := not_not.mp heq
    exact ⟨session, ht, hr, .inl ⟨ht, rfl⟩⟩

/-- What receiving does to the public parts of a session. -/
theorem receiveWith_public {kp : DHKeyPair β} {old new : RatchetSession β} {h : RatchetHeader β}
    {mk : β} (hr : receiveWith P kp old h = .ok (mk, new)) :
    new.theirRatchetPublic = some h.rk ∧ new.pendingPreKeyMsg = old.pendingPreKeyMsg ∧
      (old.theirRatchetPublic = some h.rk ∧ new.ourRatchetPublic = old.ourRatchetPublic ∨
        new.ourRatchetPublic = kp.publicKeyRaw) := by
  obtain ⟨session₁, ht₁, hret, hcase⟩ := receiveWith_cases _ hr
  refine ⟨retrieve_their _ ht₁ hret, ?_⟩
  have hsend : new.sendState = session₁.sendState := retrieve_sendState _ ht₁ hret
  have hpend : new.pendingPreKeyMsg = session₁.pendingPreKeyMsg :=
    congrArg SendState.pendingPreKeyMsg hsend
  have hour : new.ourRatchetPublic = session₁.ourRatchetPublic :=
    congrArg SendState.ourRatchetPublic hsend
  rcases hcase with ⟨ht, rfl⟩ | ⟨-, hd⟩
  · exact ⟨hpend, .inl ⟨ht, hour⟩⟩
  · obtain ⟨session₀, _, _, hskip, -, -, rfl⟩ := dhRatchetWith_cases _ hd
    have hskipped := (skipMessageKeys_sendState _ hskip).1
    exact ⟨hpend.trans (congrArg SendState.pendingPreKeyMsg hskipped), .inr hour⟩

end SignalSessionManager
end Winkd
