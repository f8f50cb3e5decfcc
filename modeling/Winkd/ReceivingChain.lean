import Winkd.Conversation

/-!
# The receiving chain and its counter

`recvCount` is meant to be the position of `recvChainKey` in the current
receiving chain, and a saved key `${rk}:${i}` the `i`-th message key of that
chain.  `decrypt` moves the chain key by the skip loop and one more step, but
sets the counter from the header: `recvCount = n + 1`.  The two agree as long as
every header number is an integer, and none lies behind the counter without its key
having been saved (`InOrder`); then they agree in every run (`receiving_chain_in_step`).  One stale
number is enough to separate them (`stale_number_moves_counter_back`).
-/

namespace Winkd
open UnicodeText Transitions Js
namespace SignalSessionManager
variable {β ω : Type} [DecidableEq β] (P : Platform β ω) (E : Entropy β) (peerId : String)

/-- The receiving side of a session is at its own counter in the chain from
`base`, and so are the keys it has saved of that chain. -/
structure InStepFrom (base : β) (session : RatchetSession β) : Prop where
  count_int : session.recvCount = .int session.count
  count_nonneg : 0 ≤ session.count
  key : session.recvChainKey = some (P.chain.chainAt base session.count.toNat)
  saved : ∀ their t v, session.theirRatchetPublic = some their →
    session.skipped.lookup (their, t) = some v →
    ∃ i : ℕ, t = intText i ∧ i < session.count ∧ v = P.bufToHex (P.chain.messageAt base i)

variable {P} in
/-- A key that is saved under an integer. -/
theorem InStepFrom.saved_int {base : β} {session : RatchetSession β} (hin : InStepFrom P base session)
    {their v : β} {n : ℤ} (ht : session.theirRatchetPublic = some their)
    (hv : session.skipped.lookup (their, intText n) = some v) :
    0 ≤ n ∧ n < session.count ∧ v = P.bufToHex (P.chain.messageAt base n.toNat) := by
  obtain ⟨i, hi, hlt, hvalue⟩ := hin.saved their _ v ht hv
  obtain rfl := intText_injective hi
  exact ⟨Int.natCast_nonneg i, hlt, hvalue⟩

/-- A session that has not received anything yet has saved nothing; otherwise it
is in step with its chain. -/
def InStep (session : RatchetSession β) : Prop :=
  (session.recvCount = .int session.count ∧ session.recvChainKey = none ∧ session.skipped = ∅) ∨
    ∃ base, InStepFrom P base session

/-- The header has an integer number, which continues the current receiving chain or names
one of its saved keys, or starts a chain of which nothing is saved. -/
def InOrder (session : RatchetSession β) (h : RatchetHeader β) : Prop :=
  h.n = .int h.number ∧
    if session.theirRatchetPublic = some h.rk then
      session.recvChainKey = none ∨ (session.skipped.lookup (h.rk, intText h.number)).isSome ∨
        session.count ≤ h.number
    else 0 ≤ h.number ∧ ∀ key ∈ session.skipped.keys, key.1 ≠ h.rk

instance (session : RatchetSession β) (h : RatchetHeader β) : Decidable (InOrder session h) :=
  inferInstanceAs (Decidable (_ ∧ ite _ _ _))

/-- A chain of which nothing is saved. -/
theorem lookup_of_keys_ne {session : RatchetSession β} {rk : β}
    (h : ∀ key ∈ session.skipped.keys, key.1 ≠ rk) (t : CodeUnits) :
    session.skipped.lookup (rk, t) = none := by
  rw [Finmap.lookup_eq_none]
  exact fun hmem => h _ (Finmap.mem_keys.mpr hmem) rfl

/-- The calls of a run in which every header is in order. -/
def InOrderCall (w : World β) : ManagerCall β ω → Prop
  | .decrypt envelope => ∀ h ∈ headerOf P envelope,
      match envelope.type with
      | .preKeySignalMessage => h.n = .int h.number ∧ 0 ≤ h.number
      | .signalMessage => ∀ session ∈ w.store.sessions peerId, InOrder session h
  | _ => True

instance (w : World β) : (call : ManagerCall β ω) → Decidable (InOrderCall P peerId w call)
  | .decrypt ⟨.preKeySignalMessage, c, r⟩ =>
    inferInstanceAs (Decidable (∀ h ∈ headerOf P ⟨.preKeySignalMessage, c, r⟩,
      h.n = .int h.number ∧ 0 ≤ h.number))
  | .decrypt ⟨.signalMessage, c, r⟩ =>
    inferInstanceAs (Decidable (∀ h ∈ headerOf P ⟨.signalMessage, c, r⟩,
      ∀ session ∈ w.store.sessions peerId, InOrder session h))
  | .initSessionFromBundle _ => isTrue trivial
  | .encrypt _ => isTrue trivial

variable {P}

/-- Taking a key in order keeps the chain in step, and does not move the counter
back. -/
theorem retrieve_inStepFrom {base : β} {session session' : RatchetSession β} {rk mk : β} {n : ℤ}
    (hin : InStepFrom P base session) (ht : session.theirRatchetPublic = some rk)
    (hn : (session.skipped.lookup (rk, intText n)).isSome ∨ session.count ≤ n)
    (hr : retrieveMessageKey P session rk (.int n) = .ok (mk, session')) :
    InStepFrom P base session' ∧ session.count ≤ session'.count := by
  rcases retrieve_int_cases P ht hin.count_int hr with ⟨_, _, _, rfl⟩ | ⟨ck, hnone, hck, -, -, rfl⟩
  · refine ⟨⟨hin.count_int, hin.count_nonneg, hin.key, ?_⟩, Int.le_refl _⟩
    intro their t v hthei hv
    by_cases hkey : (their, t) = (rk, intText n)
    · rw [hkey] at hv
      exact absurd hv (by simp [useSaved])
    · exact hin.saved their t v hthei (by rwa [useSaved, Finmap.lookup_erase_ne hkey] at hv)
  · have hle : session.count ≤ n := by
      rcases hn with h | h
      · rw [hnone] at h; cases h
      · exact h
    have hpos := hin.count_nonneg
    have hbase : ck = P.chain.chainAt base session.count.toNat :=
      Option.some.inj (hck.symm.trans hin.key)
    have hcount : (advanced P session rk ck (n - session.count).toNat (.int (n + 1))).count = n + 1 :=
      rfl
    refine ⟨⟨rfl, ?_, ?_, ?_⟩, ?_⟩
    · rw [hcount]; omega
    · show some (P.chain.chainAt ck _) = some (P.chain.chainAt base (n + 1).toNat)
      rw [hbase, KeyChain.chainAt_chainAt]
      congr 2
      omega
    · intro their t v hthei hv
      rw [hcount]
      obtain rfl := Option.some.inj (ht.symm.trans hthei)
      rcases lookup_saveKeys_cases hv with hold | ⟨-, j, hj, hnumber, hvalue⟩
      · obtain ⟨i, hi, hlt, hvalue⟩ := hin.saved _ t v ht hold
        exact ⟨i, hi, by omega, hvalue⟩
      · -- saved on the way to `n`
        rw [hin.count_int, Primitive.after_int, Primitive.toText_int] at hnumber
        refine ⟨session.count.toNat + j, ?_, by omega, ?_⟩
        · rw [hnumber]
          congr 1
          omega
        · rw [hvalue, hbase, KeyChain.messageAt_chainAt]
    · rw [hcount]; omega

/-- A DH ratchet to a key nothing is saved of starts a chain in step, at 0. -/
theorem dhRatchet_inStepFrom {newKP : DHKeyPair β} {session session' : RatchetSession β} {rk : β}
    {pn : Value} (hne : session.theirRatchetPublic ≠ some rk)
    (hfresh : ∀ t, session.skipped.lookup (rk, t) = none)
    (hd : dhRatchetWith P newKP session rk pn = .ok session') :
    ∃ base, InStepFrom P base session' ∧ session'.count = 0 := by
  obtain ⟨session₀, d1, d2, hskip, -, -, rfl⟩ := dhRatchetWith_cases P hd
  refine ⟨_, ⟨rfl, Int.le_refl 0, rfl, ?_⟩, rfl⟩
  rintro their t v hthei hv
  obtain rfl := Option.some.inj hthei
  have hold : session₀.skipped.lookup (rk, t) = none :=
    (lookup_skipMessageKeys P hskip hne t).trans (hfresh t)
  exact absurd (hold.symm.trans hv) (by simp)

/-- Receiving a header in order keeps the session in step; when the ratchet key
did not change, it stays in step with the same chain and the counter does not
move back. -/
theorem receive_inStep {newKP : DHKeyPair β} {session session' : RatchetSession β}
    {h : RatchetHeader β} {mk : β} (hin : InStep P session) (hord : InOrder session h)
    (hr : receiveWith P newKP session h = .ok (mk, session')) :
    InStep P session' ∧ (session'.theirRatchetPublic = session.theirRatchetPublic →
      session.count ≤ session'.count ∧
        ∃ base, InStepFrom P base session ∧ InStepFrom P base session') := by
  obtain ⟨hint, hord⟩ := hord
  obtain ⟨session₁, ht₁, hret, ⟨ht, rfl⟩ | ⟨hne, hd⟩⟩ := receiveWith_cases P hr
  · rw [if_pos ht] at hord
    rw [hint] at hret
    rcases hin with ⟨hcount, hnone, hempty⟩ | ⟨base, hbase⟩
    · -- Nothing was received yet, so there is no key to take.
      rcases retrieve_int_cases P ht hcount hret with ⟨_, hl, -, -⟩ | ⟨_, -, hck, -⟩
      · rw [hempty, Finmap.lookup_empty] at hl; cases hl
      · rw [hnone] at hck; cases hck
    · have hn := hord.resolve_left (fun hnone => by rw [hbase.key] at hnone; cases hnone)
      obtain ⟨h1, h2⟩ := retrieve_inStepFrom hbase ht hn hret
      exact ⟨.inr ⟨base, h1⟩, fun _ => ⟨h2, base, hbase, h1⟩⟩
  · rw [if_neg hne] at hord
    rw [hint] at hret
    obtain ⟨base, hbase, hzero⟩ := dhRatchet_inStepFrom hne (lookup_of_keys_ne hord.2) hd
    obtain ⟨h1, -⟩ := retrieve_inStepFrom hbase ht₁ (.inr (hzero ▸ hord.1)) hret
    have hchanged := retrieve_their P ht₁ hret
    exact ⟨.inr ⟨base, h1⟩, fun heq => absurd (heq ▸ hchanged) hne⟩

/-- A responder's first session is in step. -/
theorem respondWith_inStep {kp : DHKeyPair β} {store : KeyStore β} {msg : WireMessage β}
    {session : RatchetSession β} (hok : respondWith P kp store msg = .ok session) :
    ∃ base, InStepFrom P base session ∧ session.count = 0 := by
  obtain ⟨_, _, _, _, h, _, _, -, -, -, -, -, -, -, rfl⟩ := respondWith_ok P hok
  refine ⟨_, ⟨rfl, Int.le_refl 0, rfl, fun their t v _ hv => ?_⟩, rfl⟩
  exact absurd hv (by simp [responderSession])

/-- The invariant of a run: the stored session, if any, is in step. -/
def StoredInStep (P : Platform β ω) (w : World β) : Prop :=
  ∀ session, w.store.sessions peerId = some session → InStep P session

variable {peerId}

/-- **One call in order keeps the stored session in step.** -/
theorem storedInStep_perform {w : World β} {call : ManagerCall β ω}
    (hin : StoredInStep peerId P w) (hcall : InOrderCall P peerId w call) :
    StoredInStep peerId P (perform P E peerId w call) := by
  intro session hs
  cases call with
  | initSessionFromBundle bundle =>
    rw [perform] at hs
    rcases run_initSessionFromBundle_cases P E peerId bundle w with
      ⟨_, _, -, he⟩ | ⟨_, _, _, -, -, -, -, he⟩
    · rw [he] at hs; exact hin session hs
    · rw [he, KeyStore.storeSession_sessions_self] at hs
      cases hs
      exact .inl ⟨rfl, rfl, rfl⟩
  | encrypt plaintext =>
    rw [perform] at hs
    rcases run_encrypt_cases P E peerId plaintext w with ⟨_, he⟩ | ⟨s, ck, hw, hck⟩
    · rw [he] at hs; exact hin session hs
    · rw [run_encrypt P E plaintext hw hck, KeyStore.storeSession_sessions_self] at hs
      cases hs
      -- to send touches nothing of the receiving side
      rcases hin s hw with hunused | ⟨base, hb⟩
      · exact .inl hunused
      · exact .inr ⟨base, hb.count_int, hb.count_nonneg, hb.key, hb.saved⟩
  | decrypt envelope =>
    rw [perform_decrypt] at hs
    obtain ⟨r, store, draws, -, he, heff⟩ := run_decryptKey P E peerId envelope w
    rw [he] at hs
    cases heff with
    | refused e => exact hin session hs
    | received htype hparse hh hl hr =>
      rw [KeyStore.storeSession_sessions_self] at hs
      cases hs
      have hord := hcall _ (headerOf_eq P hparse hh)
      rw [htype] at hord
      exact (receive_inStep (hin _ hl) (hord _ hl) hr).1
    | consumed e htype hparse hfail =>
      exact hin session (respondStore_sessions w.store _ ▸ hs)
    | created e htype hparse hh hresp hfail =>
      rw [KeyStore.storeSession_sessions_self] at hs
      cases hs
      obtain ⟨base, hb, -⟩ := respondWith_inStep hresp
      exact .inr ⟨base, hb⟩
    | established htype hparse hh hresp hr =>
      rw [KeyStore.storeSession_sessions_self] at hs
      cases hs
      have hord := hcall _ (headerOf_eq P hparse hh)
      rw [htype] at hord
      -- a session that was just made, and then takes the key of the message
      obtain ⟨base, hb, hzero⟩ := respondWith_inStep hresp
      have ht := respondWith_their P hh hresp
      rw [receiveWith_of_eq P ht, hord.1] at hr
      exact .inr ⟨base, (retrieve_inStepFrom hb ht (.inr (hzero ▸ hord.2)) hr).1⟩

/-- In every run in order that starts without a session, the stored session is
in step. -/
theorem storedInStep_reaches {w₀ w : World β} (hnone : w₀.store.sessions peerId = none)
    (hrun : Reaches (perform P E peerId) (InOrderCall P peerId) w₀ w) :
    StoredInStep peerId P w :=
  hrun.invariant (fun _ hs => by rw [hnone] at hs; cases hs)
    (fun _ _ hin hcall => storedInStep_perform E hin hcall)

/-- **The receiving chain and its counter stay in step.**  In every run whose
headers are all in order, the counter is an integer, and a type-2 envelope that leaves
the ratchet key as it was does not move `recvCount` back, advances `recvChainKey` by exactly as many steps
as it advances `recvCount`, and leaves each saved key of the chain at its own
number. -/
theorem receiving_chain_in_step {w₀ w : World β} {envelope : EncryptedEnvelope ω}
    {session session' : RatchetSession β} (hnone : w₀.store.sessions peerId = none)
    (hrun : Reaches (perform P E peerId) (InOrderCall P peerId) w₀ w)
    (htype : envelope.type = .signalMessage)
    (hcall : InOrderCall P peerId w (.decrypt envelope))
    (hs : w.store.sessions peerId = some session)
    (hs' : (perform P E peerId w (.decrypt envelope)).store.sessions peerId = some session')
    (hsame : session'.theirRatchetPublic = session.theirRatchetPublic) :
    (session.recvCount = .int session.count ∧ session'.recvCount = .int session'.count) ∧
      session.count ≤ session'.count ∧
      session'.recvChainKey = session.recvChainKey.map
        (fun ck => P.chain.chainAt ck (session'.count - session.count).toNat) ∧
      ∀ ck, session.recvChainKey = some ck → ∃ base,
        ck = P.chain.chainAt base session.count.toNat ∧
        ∀ their t v, session'.theirRatchetPublic = some their →
          session'.skipped.lookup (their, t) = some v →
          ∃ i : ℕ, t = intText i ∧ v = P.bufToHex (P.chain.messageAt base i) := by
  have hin := storedInStep_reaches E hnone hrun _ hs
  -- Either the call wrote nothing, or it received on the stored session.
  have hcases : session' = session ∨ session.count ≤ session'.count ∧
      ∃ base, InStepFrom P base session ∧ InStepFrom P base session' := by
    rw [perform_decrypt] at hs'
    obtain ⟨r, store, draws, -, he, heff⟩ := run_decryptKey P E peerId envelope w
    rw [he] at hs'
    cases heff with
    | refused e => exact .inl (Option.some.inj (hs'.symm.trans hs))
    | received _ hparse hh hl hr =>
      rw [KeyStore.storeSession_sessions_self] at hs'
      obtain rfl := Option.some.inj hs'
      obtain rfl := Option.some.inj (hl.symm.trans hs)
      have hord := hcall _ (headerOf_eq P hparse hh)
      rw [htype] at hord
      exact .inr ((receive_inStep hin (hord _ hl) hr).2 hsame)
    | consumed e hpre => rw [htype] at hpre; cases hpre
    | created e hpre => rw [htype] at hpre; cases hpre
    | established hpre => rw [htype] at hpre; cases hpre
  rcases hcases with rfl | ⟨hle, base, hb, hb'⟩
  · have hint : session'.recvCount = .int session'.count :=
      hin.elim (fun h => h.1) fun ⟨_, hb⟩ => hb.count_int
    refine ⟨⟨hint, hint⟩, Int.le_refl _, by simp, fun ck hck => ?_⟩
    rcases hin with ⟨-, hnone, -⟩ | ⟨base, hb⟩
    · rw [hnone] at hck; cases hck
    · refine ⟨base, Option.some.inj (hck.symm.trans hb.key), fun their t v ht hv => ?_⟩
      obtain ⟨i, hi, -, hv⟩ := hb.saved their t v ht hv
      exact ⟨i, hi, hv⟩
  · have hpos := hb.count_nonneg
    refine ⟨⟨hb.count_int, hb'.count_int⟩, hle, ?_, fun ck hck => ⟨base, Option.some.inj (hck.symm.trans hb.key), ?_⟩⟩
    · rw [hb'.key, hb.key, Option.map_some, KeyChain.chainAt_chainAt]
      congr 2
      omega
    · intro their t v ht hv
      obtain ⟨i, hi, -, hv⟩ := hb'.saved their t v ht hv
      exact ⟨i, hi, hv⟩

/-! ## One stale number -/

/-- Alice starts a session with Bob and sends three messages. -/
def threeMessages : Net Bytes Payload :=
  conversation []
    [.initSessionFromBundle .alice (Party.bob.bundle 1 none), .encrypt .alice [104],
      .encrypt .alice [105], .encrypt .alice [106]]

/-- Bob's calls when all three arrive in order. -/
def threeReceived : List (ManagerCall Bytes Payload) :=
  threeMessages.sent.map fun e => .decrypt e.envelope

/-- Bob's world after `k` of them. -/
def bobAfter (k : ℕ) : World Bytes :=
  (threeReceived.take k).foldl (perform (symbolic Name) (freshEntropy .bob) "alice")
    (newParties [] .bob)

/-- The envelope of the `k`-th message. -/
def messageEnvelope (k : Fin threeMessages.sent.length) : EncryptedEnvelope Payload :=
  (threeMessages.sent.get k).envelope

theorem receiving_chain_in_step_third :
    (((bobAfter 2).store.sessions "alice").get (by decide)).count ≤
      (((bobAfter 3).store.sessions "alice").get (by decide)).count := by
  have hrun : Admits (perform (symbolic Name) (freshEntropy .bob) "alice")
      (InOrderCall (symbolic Name) "alice") (newParties [] .bob) (threeReceived.take 2) := by
    decide
  have htype : (messageEnvelope ⟨2, by decide⟩).type = .signalMessage := by decide
  have hs : (bobAfter 2).store.sessions "alice" = some _ := (Option.some_get (by decide)).symm
  have hs' : (bobAfter 3).store.sessions "alice" = some _ := (Option.some_get (by decide)).symm
  exact (receiving_chain_in_step (freshEntropy .bob) (by decide) hrun.reaches htype (by decide) hs
    hs' (by decide)).2.1

/-- **A number that lies behind the counter moves it back.**  Bob receives three
messages in order and then the second one again: `recvCount` falls from 3 to 2. -/
theorem stale_number_moves_counter_back :
    ¬ ∀ (w : World Bytes) (envelope : EncryptedEnvelope Payload)
        (session session' : RatchetSession Bytes),
      Reaches (perform (symbolic Name) (freshEntropy .bob) "alice") (fun _ _ => True)
        (newParties [] .bob) w →
      envelope.type = .signalMessage →
      w.store.sessions "alice" = some session →
      (perform (symbolic Name) (freshEntropy .bob) "alice" w (.decrypt envelope)).store.sessions
        "alice" = some session' →
      session'.theirRatchetPublic = session.theirRatchetPublic →
      session.count ≤ session'.count := by
  intro hclaim
  have hrun : Admits (perform (symbolic Name) (freshEntropy .bob) "alice") (fun _ _ => True)
      (newParties [] .bob) (threeReceived.take 3) := by decide
  have hle := hclaim (bobAfter 3) (messageEnvelope ⟨1, by decide⟩)
    (((bobAfter 3).store.sessions "alice").get (by decide))
    (((perform (symbolic Name) (freshEntropy .bob) "alice" (bobAfter 3)
      (.decrypt (messageEnvelope ⟨1, by decide⟩))).store.sessions "alice").get (by decide))
    hrun.reaches (by decide) (Option.some_get _).symm (Option.some_get _).symm (by decide)
  exact absurd hle (by decide)

end SignalSessionManager
end Winkd
