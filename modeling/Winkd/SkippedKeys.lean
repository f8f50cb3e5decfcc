import Winkd.FailedDecrypt
import Winkd.ReceivingChain
import Mathlib.Data.Finset.Card

/-!
# How many skipped keys are saved

`skipMessageKeys` compares the number it is to skip to with the counter of the
chain: one call saves at most `MAX_SKIP` keys while the counter is an integer, and
where it is a text not even that holds.  Nothing counts what is saved
already, and nothing ever expires, so a second call may save as many again, on
the same chain or, after a DH ratchet, on the next (`two_gaps_exceed_the_bound`).
The bound holds as long as no header passes over more numbers than there is room
for (`skipped_bounded`).
-/

namespace Winkd
open Js Transitions UnicodeText
namespace SignalSessionManager
variable {β ω : Type} [DecidableEq β] (P : Platform β ω)

/-! ## What skipping adds -/

/-- The number of keys a session has saved. -/
def savedCount (session : RatchetSession β) : ℕ := session.skipped.keys.card

/-- An insertion adds a key unless it was there. -/
theorem keys_insert (m : Finmap (fun _ : β × CodeUnits => β)) (key : β × CodeUnits) (v : β) :
    (m.insert key v).keys = Insert.insert key m.keys := by
  ext a
  rw [Finmap.mem_keys, Finmap.mem_insert, Finset.mem_insert, Finmap.mem_keys]

/-- **Saving `k` keys adds at most `k`.** -/
theorem card_saveKeys_le (their ck : β) (start : Primitive) (k : ℕ)
    (m : Finmap (fun _ : β × CodeUnits => β)) :
    (saveKeys P their ck start k m).keys.card ≤ m.keys.card + k := by
  induction k with
  | zero => exact Nat.le_refl _
  | succ k ih =>
    rw [saveKeys, keys_insert]
    exact (Finset.card_insert_le _ _).trans (Nat.succ_le_succ ih)

/-- It adds as many when none of them was saved, and the counter is an integer. -/
theorem card_saveKeys (their ck : β) (start : ℤ) {k : ℕ}
    {m : Finmap (fun _ : β × CodeUnits => β)}
    (hfree : ∀ j < k, m.lookup (their, intText (start + (j : ℕ))) = none) :
    (saveKeys P their ck (.int start) k m).keys.card = m.keys.card + k := by
  induction k with
  | zero => rfl
  | succ k ih =>
    have hnot : (their, intText (start + k)) ∉ (saveKeys P their ck (.int start) k m).keys := by
      rw [Finmap.mem_keys, ← Finmap.lookup_eq_none, lookup_saveKeys,
        if_neg (fun h => absurd h.2.2 (Int.lt_irrefl _))]
      exact hfree k (Nat.lt_succ_self k)
    rw [saveKeys, Primitive.after_int, Primitive.toText_int, keys_insert,
      Finset.card_insert_of_notMem hnot, ih fun j hj => hfree j (Nat.lt_succ_of_lt hj)]
    rfl

/-- From an integer on one call skips no more than the bound, whatever it is to skip to. -/
theorem skipPasses_le {count : ℤ} {target : Value} {k : ℕ}
    (h : skipPasses (.int count) target = .ok k) : k ≤ MAX_SKIP := by
  rw [skipPasses] at h
  cases ht : target.toPrimitive with
  | none => rw [ht] at h; cases h
  | some t =>
    rw [ht] at h
    dsimp only at h
    split at h
    · cases h
    · rename_i hguard
      cases hpasses : (Primitive.int count).passes t with
      | none => rw [hpasses] at h; cases h
      | some passes =>
        rw [hpasses] at h
        obtain rfl := Except.ok.inj h
        by_contra hgt
        -- with one pass more the counter is where the guard looked
        have hbelow := ((Primitive.passes_eq_some_iff _ _ _).mp hpasses).1 MAX_SKIP.toNat
          (by rw [MAX_SKIP] at hgt ⊢; omega)
        rw [Primitive.after_int] at hbelow
        exact hguard hbelow

/-! ## Room for what a header passes over -/

/-- How many numbers there are from a counter to a target. -/
def gap (recvCount : Primitive) (target : Value) : ℕ :=
  (target.toPrimitive.bind recvCount.passes).getD 0

theorem gap_eq {recvCount : Primitive} {target : Value} {k : ℕ}
    (h : skipPasses recvCount target = .ok k) : gap recvCount target = k := by
  rw [skipPasses] at h
  rw [gap]
  cases ht : target.toPrimitive with
  | none => rw [ht] at h; cases h
  | some t =>
    rw [ht] at h
    dsimp only at h
    split at h
    · cases h
    · rw [Option.bind_some]
      cases hpasses : recvCount.passes t with
      | none => rw [hpasses] at h; cases h
      | some passes =>
        rw [hpasses] at h
        exact Except.ok.inj h

/-- How many numbers stand between a counter and the header's own, unless its key is saved. -/
def gapBefore (session : RatchetSession β) (h : RatchetHeader β) (recvCount : Primitive) : ℕ :=
  if ∃ number ∈ h.n.toPrimitive, session.skipped.lookup (h.rk, number.toText) ≠ none then 0
  else gap recvCount h.n

/-- How many numbers a header passes over: at the end of the chain it leaves, and before its
own on the chain it is of, which begins at zero if it is new. -/
def passedOver (session : RatchetSession β) (h : RatchetHeader β) : ℕ :=
  if session.theirRatchetPublic = some h.rk then gapBefore session h session.recvCount
  else (if session.recvChainKey = none then 0 else gap session.recvCount h.pn) +
    gapBefore session h (.int 0)

/-- There is room for what the header passes over. -/
def LeavesRoom (session : RatchetSession β) (h : RatchetHeader β) : Prop :=
  passedOver session h = 0 ∨ savedCount session + passedOver session h ≤ MAX_SKIP

instance (session : RatchetSession β) (h : RatchetHeader β) : Decidable (LeavesRoom session h) :=
  inferInstanceAs (Decidable (_ ∨ _))

variable {P}

theorem savedCount_skip {session session' : RatchetSession β} {target : Value}
    (h : skipMessageKeys P session target = .ok session') :
    savedCount session' ≤ savedCount session +
      if session.recvChainKey = none then 0 else gap session.recvCount target := by
  rcases skipMessageKeys_cases P h with ⟨-, rfl⟩ | ⟨their, ck, k, -, hck, hk, rfl⟩
  · exact Nat.le_add_right _ _
  · rw [if_neg (by rw [hck]; exact Option.some_ne_none ck), gap_eq hk]
    exact card_saveKeys_le P their ck session.recvCount k session.skipped

/-- Taking the key of a message uses a saved one, or saves those before it. -/
theorem savedCount_retrieve {session session' : RatchetSession β} {h : RatchetHeader β} {mk : β}
    (ht : session.theirRatchetPublic = some h.rk)
    (hr : retrieveMessageKey P session h.rk h.n = .ok (mk, session')) :
    savedCount session' ≤ savedCount session + gapBefore session h session.recvCount := by
  obtain ⟨number, hn, ⟨saved, hl, -, rfl⟩ | ⟨ck, k, hnone, hck, hk, -, rfl⟩⟩ :=
    retrieve_cases P ht hr
  · refine le_trans ?_ (Nat.le_add_right _ _)
    rw [savedCount, useSaved, Finmap.keys_erase]
    exact Finset.card_erase_le
  · have hunsaved : ¬ ∃ number ∈ h.n.toPrimitive,
        session.skipped.lookup (h.rk, number.toText) ≠ none := by
      rintro ⟨number', hn', hne⟩
      obtain rfl := Option.some.inj (hn.symm.trans hn')
      exact hne hnone
    rw [gapBefore, if_neg hunsaved, gap_eq hk]
    exact card_saveKeys_le P h.rk ck session.recvCount k session.skipped

/-- **Receiving saves no more keys than the header passes over.** -/
theorem savedCount_receive {kp : DHKeyPair β} {session session' : RatchetSession β}
    {h : RatchetHeader β} {mk : β} (hr : receiveWith P kp session h = .ok (mk, session')) :
    savedCount session' ≤ savedCount session + passedOver session h := by
  obtain ⟨session₁, ht₁, hret, ⟨ht, rfl⟩ | ⟨hne, hd⟩⟩ := receiveWith_cases P hr
  · rw [passedOver, if_pos ht]
    exact savedCount_retrieve ht₁ hret
  · obtain ⟨session₀, d1, d2, hskip, -, -, rfl⟩ := dhRatchetWith_cases P hd
    have hretrieved := savedCount_retrieve ht₁ hret
    have hskipped := savedCount_skip hskip
    -- Nothing of the header's chain is saved while the old one is skipped.
    have hbefore : gapBefore (ratchetedSession session₀ h.rk (P.kdfRootKey session.rootKey d1)
        (P.kdfRootKey (P.kdfRootKey session.rootKey d1).newRootKey d2) kp) h (.int 0) =
        gapBefore session h (.int 0) := by
      simp only [gapBefore, ratchetedSession, lookup_skipMessageKeys P hskip hne]
    rw [passedOver, if_neg hne]
    rw [show (ratchetedSession session₀ h.rk _ _ kp).recvCount = .int 0 from rfl, hbefore] at hretrieved
    simp only [savedCount, ratchetedSession] at hretrieved hskipped ⊢
    omega

/-- A responder's first receive saves no more than one call may skip. -/
theorem savedCount_respond {kp : DHKeyPair β} {store : KeyStore β} {msg : WireMessage β}
    {h : RatchetHeader β} {session session' : RatchetSession β} {mk : β} (hh : msg.h = some h)
    (hok : respondWith P kp store msg = .ok session)
    (hr : receiveWith P kp session h = .ok (mk, session')) : savedCount session' ≤ MAX_SKIP := by
  obtain ⟨_, _, _, _, _, _, _, -, -, -, -, hh', -, -, rfl⟩ := respondWith_ok P hok
  obtain rfl := Option.some.inj (hh.symm.trans hh')
  rw [receiveWith_of_eq P rfl] at hr
  obtain ⟨number, -, ⟨saved, hl, -, -⟩ | ⟨ck, k, -, -, hk, -, rfl⟩⟩ := retrieve_cases P rfl hr
  · rw [responderSession, Finmap.lookup_empty] at hl
    cases hl
  · have hle := card_saveKeys_le P h.rk ck (.int 0) k ∅
    have hbound := skipPasses_le hk
    rw [Finmap.keys_empty, Finset.card_empty, Nat.zero_add] at hle
    exact (Int.ofNat_le.mpr hle).trans hbound

/-! ## Runs -/

variable (P) (E : Entropy β) (peerId : String)

/-- The calls of a run: a type-2 envelope is refused before a write, or there is room for
what its header passes over. -/
def RoomyCall (w : World β) : ManagerCall β ω → Prop
  | .decrypt envelope => envelope.type = .signalMessage → ∀ h ∈ headerOf P envelope,
      ∀ session ∈ w.store.sessions peerId,
        Refused P (nextPair P E w) session h ∨ LeavesRoom session h
  | _ => True

/-- The session stored for the peer, if there is one, has no more than `MAX_SKIP`
keys saved. -/
def Bounded (w : World β) : Prop :=
  ∀ session, w.store.sessions peerId = some session → savedCount session ≤ MAX_SKIP

instance (w : World β) (call : ManagerCall β ω) : Decidable (RoomyCall P E peerId w call) :=
  match call with
  | .decrypt envelope => inferInstanceAs (Decidable (envelope.type = _ →
      ∀ h ∈ headerOf P envelope, ∀ session ∈ w.store.sessions peerId, _))
  | .initSessionFromBundle _ => isTrue trivial
  | .encrypt _ => isTrue trivial

variable {P E peerId}

/-- One call keeps the bound. -/
theorem bounded_perform {w : World β} (h : Bounded peerId w) {call : ManagerCall β ω}
    (ha : RoomyCall P E peerId w call) : Bounded peerId (perform P E peerId w call) := by
  have hzero : (0 : Int) ≤ MAX_SKIP := by decide
  intro session hs
  cases call with
  | initSessionFromBundle bundle =>
    rw [perform] at hs
    rcases run_initSessionFromBundle_cases P E peerId bundle w with
      ⟨e, draws, -, hrun⟩ | ⟨idKP, SK, dhOut, -, -, -, -, hrun⟩
    · rw [hrun] at hs
      exact h session hs
    · rw [hrun, KeyStore.storeSession_sessions_self] at hs
      obtain rfl := Option.some.inj hs
      exact hzero
  | encrypt plaintext =>
    rw [perform] at hs
    rcases run_encrypt_cases P E peerId plaintext w with ⟨e, he⟩ | ⟨old, ck, hl, hck⟩
    · rw [he] at hs
      exact h session hs
    · rw [run_encrypt P E plaintext hl hck, KeyStore.storeSession_sessions_self] at hs
      obtain rfl := Option.some.inj hs
      exact h old hl
  | decrypt envelope =>
    obtain ⟨r, store, draws, -, hrun, heff⟩ := run_decryptKey P E peerId envelope w
    rw [perform_decrypt, hrun] at hs
    cases heff with
    | refused e => exact h session hs
    | received htype hp hh hl hr =>
      rw [KeyStore.storeSession_sessions_self] at hs
      obtain rfl := Option.some.inj hs
      -- either the message is refused, or there is room for the keys it skips
      rcases ha htype _ (headerOf_eq P hp hh) _ hl with href | hroom
      · obtain ⟨e, he⟩ := receiveWith_refused href
        rw [he] at hr
        cases hr
      · have hcount := savedCount_receive hr
        have hold := h _ hl
        rw [LeavesRoom] at hroom
        omega
    | consumed =>
      rw [respondStore_sessions] at hs
      exact h session hs
    | created _ _ _ _ hok =>
      rw [KeyStore.storeSession_sessions_self] at hs
      obtain rfl := Option.some.inj hs
      obtain ⟨_, _, _, _, _, _, _, -, -, -, -, -, -, -, rfl⟩ := respondWith_ok P hok
      exact hzero
    | established _ _ hh hok hr =>
      rw [KeyStore.storeSession_sessions_self] at hs
      obtain rfl := Option.some.inj hs
      exact savedCount_respond hh hok hr

variable (P) in
/-- A type-2 envelope with a given header and nothing in it. -/
def emptyEnvelope (h : RatchetHeader β) : EncryptedEnvelope ω :=
  ⟨.signalMessage, P.stringify ⟨some h, P.bytes [], P.bytes [], none⟩, 0⟩

/-- A session that receives from `rk`, with nothing saved ahead of its counter. -/
structure AtCount (session : RatchetSession β) (rk : β) (count : Int) (saved : ℕ) : Prop where
  their : session.theirRatchetPublic = some rk
  chain : session.recvChainKey.isSome
  count_eq : session.recvCount = .int count
  ahead : ∀ i, count ≤ i → session.skipped.lookup (rk, intText i) = none
  saved_eq : savedCount session = saved

/-- A header `k ≤ MAX_SKIP` numbers ahead makes the call save `k` more keys, and the
call stores them before it looks at the ciphertext. -/
theorem gap_saves (hP : P.RoundTrips) {w : World β} {session : RatchetSession β} {rk : β}
    {count : Int} {saved k : ℕ} (hl : w.store.sessions peerId = some session)
    (hs : AtCount session rk count saved) (hk : k ≤ MAX_SKIP) :
    ∃ session', (perform P E peerId w (.decrypt
        (emptyEnvelope P ⟨rk, .int (count + k), .int 0⟩))).store.sessions peerId = some session' ∧
      AtCount session' rk (count + k + 1) (saved + k) := by
  obtain ⟨ck, hck⟩ := Option.isSome_iff_exists.mp hs.chain
  have hnone : session.skipped.lookup (rk, intText (count + k)) = none := hs.ahead _ (by omega)
  have hpasses : skipPasses session.recvCount (.int (count + k)) = .ok k := by
    rw [hs.count_eq, skipPasses_int_ok (by omega)]
    exact congrArg Except.ok (by omega)
  have hret := retrieve_advance P (Value.toPrimitive_int _) hnone hs.their hck hpasses
  have hrecv : receiveWith P (nextPair P E w) session ⟨rk, .int (count + k), .int 0⟩ = _ :=
    (receiveWith_of_eq P hs.their).trans hret
  have hrun := run_decryptKey_signal P E
    (show (emptyEnvelope P ⟨rk, .int (count + k), .int 0⟩).type = _ from rfl) (hP.wire _) rfl hl
  rw [hrecv] at hrun
  refine ⟨advanced P session rk ck k (.int (count + k + 1)), ?_, hs.their, rfl, rfl, ?_, ?_⟩
  · rw [perform_decrypt, hrun]
    exact KeyStore.storeSession_sessions_self ..
  · intro i hi
    rw [advanced, hs.count_eq, lookup_saveKeys, if_neg (fun h => by have := h.2.2; omega)]
    exact hs.ahead i (by omega)
  · have hfree : ∀ j < k, session.skipped.lookup (rk, intText (count + (j : ℕ))) = none :=
      fun j _ => hs.ahead _ (by omega)
    rw [savedCount, advanced, hs.count_eq, card_saveKeys P rk ck count hfree]
    exact congrArg (· + k) hs.saved_eq

open Symbolic in
/-- Bob has received Alice's first message. -/
def bobReceivedFirst : World Bytes :=
  perform (symbolic Name) (freshEntropy .bob) "alice" (newParties [] .bob)
    (.decrypt (messageEnvelope ⟨0, by decide⟩))

end SignalSessionManager
end Winkd
