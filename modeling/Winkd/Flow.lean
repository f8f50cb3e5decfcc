import Winkd.ReceivingChain
import Winkd.SendKeys

/-!
# One direction of a conversation

A `Flow` is the invariant between one party's sending session, the other's
receiving session, and the envelopes that go from the one to the other: what is
under way of the current chain lies in the chain at its own number, what the
receiver has skipped it has saved, and what belongs to a chain before the one it
is receiving on was overtaken.  A delivery that is in order takes the message
key the envelope was sealed with (`retrieve_in_order`) and keeps the flow; so do
a DH ratchet of the receiver and one of the sender.
-/

namespace Winkd
open UnicodeText Js SignalSessionManager

/-! ## Taking a key in order -/

namespace SignalSessionManager
variable {β ω : Type} [DecidableEq β] {P : Platform β ω}

/-- What taking the key of message `n` of the current chain changes: the counter
stays behind, or moves just past, `n`; keys skipped on the way are saved, and no saved key but
that of `n` is lost. -/
structure Taken (rk : β) (n : ℤ) (session session' : RatchetSession β) : Prop where
  sendState : session'.sendState = session.sendState
  their : session'.theirRatchetPublic = session.theirRatchetPublic
  counted : n < session.count ∧ session'.count = session.count ∨ session'.count = n + 1
  saved : ∀ i, i ≠ n → i < session'.count →
    (session.skipped.lookup (rk, intText i)).isSome ∨ session.count ≤ i →
    (session'.skipped.lookup (rk, intText i)).isSome
  labels : ∀ k t, (session'.skipped.lookup (k, t)).isSome →
    (session.skipped.lookup (k, t)).isSome ∨ k = rk

/-- **A key taken in order is the key of its number.** -/
theorem retrieve_in_order (hP : P.RoundTrips) {base rk : β} {session : RatchetSession β} {n : ℤ}
    (hin : InStepFrom P base session) (ht : session.theirRatchetPublic = some rk)
    (hn : (session.skipped.lookup (rk, intText n)).isSome ∨ session.count ≤ n)
    (hmax : n ≤ session.count + MAX_SKIP) :
    ∃ session', retrieveMessageKey P session rk (.int n) =
        .ok (P.chain.messageAt base n.toNat, session') ∧
      InStepFrom P base session' ∧ Taken rk n session session' := by
  cases hs : session.skipped.lookup (rk, intText n) with
  | some saved =>
    obtain ⟨-, hlt, hv⟩ := hin.saved_int ht hs
    have hr := retrieve_saved P (Value.toPrimitive_int n) hs
    refine ⟨_, by rw [hr, hv, hP.hex], (retrieve_inStepFrom hin ht hn hr).1,
      rfl, rfl, .inl ⟨hlt, rfl⟩, ?_, ?_⟩
    · intro i hi hlt h
      have hne : (rk, intText i) ≠ (rk, intText n) := fun heq =>
        hi (intText_injective (Prod.mk.inj heq).2)
      show ((session.skipped.erase (rk, intText n)).lookup (rk, intText i)).isSome
      rw [Finmap.lookup_erase_ne hne]
      exact h.resolve_right (Int.not_le.mpr hlt)
    · intro k t h
      by_cases hkt : (k, t) = (rk, intText n)
      · exact .inr (Prod.mk.inj hkt).1
      · change ((session.skipped.erase (rk, intText n)).lookup (k, t)).isSome at h
        rw [Finmap.lookup_erase_ne hkt] at h
        exact .inl h
  | none =>
    have hle : session.count ≤ n := hn.resolve_left (by rw [hs]; simp)
    have hpasses : skipPasses session.recvCount (.int n) = .ok (n - session.count).toNat := by
      rw [hin.count_int]
      exact skipPasses_int_ok hmax
    have hr := retrieve_advance P (Value.toPrimitive_int n) hs ht hin.key hpasses
    refine ⟨_, ?_, (retrieve_inStepFrom hin ht hn hr).1, rfl, rfl, .inr rfl, ?_, ?_⟩
    · rw [hr, KeyChain.messageAt_chainAt]
      have := hin.count_nonneg
      rw [show session.count.toNat + (n - session.count).toNat = n.toNat from by omega]
    · intro i hi hlt h
      change i < n + 1 at hlt
      show ((saveKeys P rk _ session.recvCount _ session.skipped).lookup (rk, intText i)).isSome
      rw [hin.count_int, lookup_saveKeys]
      split
      · rfl
      · rename_i hout
        exact h.resolve_right fun hge => hout ⟨rfl, hge, by omega⟩
    · intro k t h
      obtain ⟨v, hv⟩ := Option.isSome_iff_exists.mp h
      rcases lookup_saveKeys_cases hv with hold | ⟨hk, -⟩
      · exact .inl (hold ▸ rfl)
      · exact .inr hk

end SignalSessionManager

/-! ## Flows -/

variable {β ω : Type} [DecidableEq β] (P : Platform β ω)

/-- A public key `p` has generated among its first `drawn` pairs. -/
def Drawn (E : Entropy β) (drawn : ℕ) (k : β) : Prop := ∃ i < drawn, k = publicKeyAt P E i

omit [DecidableEq β] in
theorem Drawn.mono {P : Platform β ω} {E : Entropy β} {drawn drawn' : ℕ} {k : β}
    (h : Drawn P E drawn k) (hle : drawn ≤ drawn') : Drawn P E drawn' k :=
  h.imp fun _ hi => ⟨Nat.lt_of_lt_of_le hi.1 hle, hi.2⟩

/-- The envelopes `p` has sent from `snd`, over `rcv`: `base` is the base of the
sending chain, `delivered` the positions delivered so far. -/
structure Flow (E : Entropy β) (drawn : ℕ) (sent : List (Sent β ω)) (delivered : List ℕ)
    (p : Party) (snd rcv : RatchetSession β) (base : β) : Prop where
  /-- The sender is at its counter in its chain. -/
  key : snd.sendChainKey = some (P.chain.chainAt base snd.sendCount.toNat)
  count_nonneg : 0 ≤ snd.sendCount
  ourDrawn : Drawn P E drawn snd.ourRatchetPublic
  sentDrawn : ∀ e ∈ sent, e.sender = p → Drawn P E drawn e.header.rk
  savedDrawn : ∀ k i, (rcv.skipped.lookup (k, i)).isSome → Drawn P E drawn k
  /-- What was sent on the current chain lies in it, at its number. -/
  chain : ∀ e ∈ sent, e.sender = p → e.header.rk = snd.ourRatchetPublic →
    0 ≤ e.header.number ∧ e.header.number < snd.sendCount ∧ e.header.previous = snd.prevSendCount ∧
      e.messageKey P = P.chain.messageAt base e.header.number.toNat
  /-- No two envelopes have the same header. -/
  distinct : ∀ (i j : ℕ) (e e' : Sent β ω), sent[i]? = some e → sent[j]? = some e' → e.sender = p → e'.sender = p →
    e.header.rk = e'.header.rk → e.header.number = e'.header.number → i = j
  /-- The current chain was sent last. -/
  order : ∀ (i j : ℕ) (e e' : Sent β ω), sent[i]? = some e → sent[j]? = some e' → e.sender = p → e'.sender = p →
    e.header.rk ≠ snd.ourRatchetPublic → e'.header.rk = snd.ourRatchetPublic → i < j
  /-- What the receiver skipped in its current chain, it has saved. -/
  saved : ∀ (i : ℕ) (e : Sent β ω), sent[i]? = some e → e.sender = p → rcv.theirRatchetPublic = some e.header.rk →
    i ∉ delivered → e.header.number < rcv.count →
      (rcv.skipped.lookup (e.header.rk, intText e.header.number)).isSome
  /-- What is neither of the current sending nor of the current receiving chain
  was overtaken by an envelope of a later chain. -/
  overtaken : ∀ (i : ℕ) (e : Sent β ω), sent[i]? = some e → e.sender = p → e.header.rk ≠ snd.ourRatchetPublic →
    rcv.theirRatchetPublic ≠ some e.header.rk →
      ∃ j : ℕ, ∃ e' : Sent β ω, j ∈ delivered ∧ sent[j]? = some e' ∧ e'.sender = p ∧ e'.header.rk ≠ e.header.rk ∧
        i < j
  /-- The receiver is not ahead of what was sent. -/
  behind : rcv.theirRatchetPublic = some snd.ourRatchetPublic → rcv.count ≤ snd.sendCount

namespace Flow
variable {P} {E : Entropy β} {drawn drawn' : ℕ} {sent : List (Sent β ω)} {delivered : List ℕ}
  {p : Party} {snd snd' rcv rcv' : RatchetSession β} {base : β}

/-- A sender that has sent nothing yet, to a receiver that has received nothing of it. -/
theorem ofUnsent (hkey : snd.sendChainKey = some base) (hcount : snd.sendCount = 0)
    (hours : Drawn P E drawn snd.ourRatchetPublic) (hsent : ∀ e ∈ sent, e.sender ≠ p)
    (hsaved : ∀ k i, rcv.skipped.lookup (k, i) = none)
    (htheir : rcv.theirRatchetPublic ≠ some snd.ourRatchetPublic) :
    Flow P E drawn sent delivered p snd rcv base := by
  have hnone : ∀ {i : ℕ} {e : Sent β ω}, sent[i]? = some e → e.sender ≠ p :=
    fun h => hsent _ (List.mem_of_getElem? h)
  constructor
  · rw [hkey, hcount]
    rfl
  · exact hcount ▸ Int.le_refl 0
  · exact hours
  · exact fun e he h => absurd h (hsent e he)
  · intro k i h
    rw [hsaved] at h
    cases h
  · exact fun e he h => absurd h (hsent e he)
  · exact fun _ _ _ _ h _ hp => absurd hp (hnone h)
  · exact fun _ _ _ _ h _ hp => absurd hp (hnone h)
  · exact fun _ _ h hp => absurd hp (hnone h)
  · exact fun _ _ h hp => absurd hp (hnone h)
  · exact fun h => absurd h htheir

/-- A flow of which nothing is remembered. -/
theorem ofEmpty (hkey : snd.sendChainKey = some (P.chain.chainAt base snd.sendCount.toNat))
    (hcount : 0 ≤ snd.sendCount) (hours : Drawn P E drawn snd.ourRatchetPublic)
    (hsaved : ∀ k i, rcv.skipped.lookup (k, i) = none)
    (hbehind : rcv.theirRatchetPublic = some snd.ourRatchetPublic → rcv.count ≤ snd.sendCount) :
    Flow P E drawn ([] : List (Sent β ω)) [] p snd rcv base where
  key := hkey
  count_nonneg := hcount
  ourDrawn := hours
  sentDrawn e he := absurd he List.not_mem_nil
  savedDrawn k i h := by
    rw [hsaved] at h
    cases h
  chain e he := absurd he List.not_mem_nil
  distinct i j e e' h := by cases h
  order i j e e' h := by cases h
  saved i e h := by cases h
  overtaken i e h := by cases h
  behind := hbehind

/-- The flow only looks at the sending side of the sender, and at what the
receiver receives; more key pairs and more deliveries of other envelopes do it no
harm. -/
theorem congr (hf : Flow P E drawn sent delivered p snd rcv base)
    (hdrawn : drawn ≤ drawn') (hsnd : snd'.sendState = snd.sendState)
    (hskip : rcv'.skipped = rcv.skipped) (hcount : rcv'.count = rcv.count)
    (htheir : rcv'.theirRatchetPublic = rcv.theirRatchetPublic) {delivered' : List ℕ}
    (hdel : delivered ⊆ delivered') :
    Flow P E drawn' sent delivered' p snd' rcv' base := by
  have hkey : snd'.sendChainKey = snd.sendChainKey := congrArg SendState.sendChainKey hsnd
  have hn : snd'.sendCount = snd.sendCount := congrArg SendState.sendCount hsnd
  have hpn : snd'.prevSendCount = snd.prevSendCount := congrArg SendState.prevSendCount hsnd
  have hour : snd'.ourRatchetPublic = snd.ourRatchetPublic :=
    congrArg SendState.ourRatchetPublic hsnd
  constructor
  · rw [hkey, hn]; exact hf.key
  · rw [hn]; exact hf.count_nonneg
  · rw [hour]; exact hf.ourDrawn.mono hdrawn
  · exact fun e he hs => (hf.sentDrawn e he hs).mono hdrawn
  · intro k i h
    rw [hskip] at h
    exact (hf.savedDrawn k i h).mono hdrawn
  · rw [hour, hn, hpn]; exact hf.chain
  · exact hf.distinct
  · rw [hour]; exact hf.order
  · intro i e hi hs ht hnot
    rw [hskip, hcount]
    exact hf.saved i e hi hs (htheir ▸ ht) fun hmem => hnot (hdel hmem)
  · rw [hour, htheir]
    intro i e hi hs h1 h2
    obtain ⟨j, e', hj, h⟩ := hf.overtaken i e hi hs h1 h2
    exact ⟨j, e', hdel hj, h⟩
  · rw [hour, htheir, hcount, hn]; exact hf.behind

/-- An envelope of the other direction is none of this flow. -/
theorem other (hf : Flow P E drawn sent delivered p snd rcv base) {e : Sent β ω}
    (he : e.sender ≠ p) : Flow P E drawn (sent ++ [e]) delivered p snd rcv base := by
  have hmem : ∀ e' ∈ sent ++ [e], e'.sender = p → e' ∈ sent := by
    intro e' he' hs
    rcases List.mem_append.mp he' with h | h
    · exact h
    · exact absurd (List.mem_singleton.mp h ▸ hs) he
  have hget : ∀ {i : ℕ} {e' : Sent β ω}, (sent ++ [e])[i]? = some e' → e'.sender = p → sent[i]? = some e' := by
    intro i e' hi hs
    rcases getElem?_concat_cases hi with h | ⟨-, rfl⟩
    · exact h
    · exact absurd hs he
  exact
    { key := hf.key
      count_nonneg := hf.count_nonneg
      ourDrawn := hf.ourDrawn
      sentDrawn := fun e' he' hs => hf.sentDrawn e' (hmem e' he' hs) hs
      savedDrawn := hf.savedDrawn
      chain := fun e' he' hs => hf.chain e' (hmem e' he' hs) hs
      distinct := fun i j e₁ e₂ h₁ h₂ hs₁ hs₂ =>
        hf.distinct i j e₁ e₂ (hget h₁ hs₁) (hget h₂ hs₂) hs₁ hs₂
      order := fun i j e₁ e₂ h₁ h₂ hs₁ hs₂ =>
        hf.order i j e₁ e₂ (hget h₁ hs₁) (hget h₂ hs₂) hs₁ hs₂
      saved := fun i e' h hs => hf.saved i e' (hget h hs) hs
      overtaken := by
        intro i e' h hs h1 h2
        obtain ⟨j, e₂, hj, hget₂, hrest⟩ := hf.overtaken i e' (hget h hs) hs h1 h2
        exact ⟨j, e₂, hj, getElem?_append_of_some hget₂, hrest⟩
      behind := hf.behind }

/-- The sender sends one more. -/
theorem send (hf : Flow P E drawn sent delivered p snd rcv base) {e : Sent β ω}
    (hsender : e.sender = p) (hsession : e.session = snd)
    (hkey : snd.sendChainKey = some e.chainKey) :
    Flow P E drawn (sent ++ [e]) delivered p
      (afterSend snd (P.kdfChainKey e.chainKey).nextChainKey) rcv base := by
  have hck : e.chainKey = P.chain.chainAt base snd.sendCount.toNat :=
    Option.some.inj (hkey.symm.trans hf.key)
  have hhead : e.header = nextHeader snd := by rw [← hsession]; rfl
  have hpos := hf.count_nonneg
  have hsucc : (snd.sendCount + 1).toNat = snd.sendCount.toNat + 1 := by omega
  constructor
  · simp only [afterSend]
    rw [hsucc, KeyChain.chainAt_succ, ← hck]
    rfl
  · simp only [afterSend]; omega
  · exact hf.ourDrawn
  · intro e' he' hs
    rcases List.mem_append.mp he' with h | h
    · exact hf.sentDrawn e' h hs
    · rw [List.mem_singleton.mp h, hhead]
      exact hf.ourDrawn
  · exact hf.savedDrawn
  · intro e' he' hs hrk
    simp only [afterSend] at hrk ⊢
    rcases List.mem_append.mp he' with h | h
    · obtain ⟨h1, h2, h3⟩ := hf.chain e' h hs hrk
      exact ⟨h1, by omega, h3⟩
    · rw [List.mem_singleton.mp h, hhead]
      refine ⟨hpos, by simp only [nextHeader_number]; omega, rfl, ?_⟩
      rw [Returned.messageKey, hck]
      rfl
  · intro i j e₁ e₂ h₁ h₂ hs₁ hs₂ hrk hn
    -- the new envelope has a number above all of its chain
    rcases getElem?_concat_cases h₁ with g₁ | ⟨hi, he₁⟩ <;>
      rcases getElem?_concat_cases h₂ with g₂ | ⟨hj, he₂⟩
    · exact hf.distinct i j e₁ e₂ g₁ g₂ hs₁ hs₂ hrk hn
    · rw [he₂, hhead] at hrk hn
      have := (hf.chain e₁ (List.mem_of_getElem? g₁) hs₁ hrk).2.1
      simp only [nextHeader_number] at hn
      omega
    · rw [he₁, hhead] at hrk hn
      have := (hf.chain e₂ (List.mem_of_getElem? g₂) hs₂ hrk.symm).2.1
      simp only [nextHeader_number] at hn
      omega
    · rw [hi, hj]
  · intro i j e₁ e₂ h₁ h₂ hs₁ hs₂ hne heq
    rcases getElem?_concat_cases h₁ with h₁ | ⟨-, rfl⟩
    · rcases getElem?_concat_cases h₂ with h₂ | ⟨rfl, -⟩
      · exact hf.order i j e₁ e₂ h₁ h₂ hs₁ hs₂ hne heq
      · exact (List.getElem?_eq_some_iff.mp h₁).1
    · rw [hhead] at hne
      exact absurd rfl hne
  · intro i e' h hs ht hnot hlt
    rcases getElem?_concat_cases h with h | ⟨-, rfl⟩
    · exact hf.saved i e' h hs ht hnot hlt
    · -- the receiver is not ahead of the sender's counter
      rw [hhead] at ht hlt
      have := hf.behind ht
      simp only [nextHeader_number] at hlt
      omega
  · intro i e' h hs h1 h2
    rcases getElem?_concat_cases h with h | ⟨-, rfl⟩
    · obtain ⟨j, e₂, hj, hget, hrest⟩ := hf.overtaken i e' h hs h1 h2
      exact ⟨j, e₂, hj, getElem?_append_of_some hget, hrest⟩
    · -- it is of the current chain
      rw [hhead] at h1
      exact absurd rfl h1
  · intro ht
    have := hf.behind ht
    simp only [afterSend]
    omega

/-- The receiver takes the key of an envelope of its current chain. -/
theorem take (hf : Flow P E drawn sent delivered p snd rcv base) {i : ℕ} {e : Sent β ω}
    (hi : sent[i]? = some e) (hsender : e.sender = p)
    (htheir : rcv.theirRatchetPublic = some e.header.rk)
    (htaken : Taken e.header.rk e.header.number rcv rcv')
    (hcount : rcv.theirRatchetPublic = some snd.ourRatchetPublic → e.header.number < snd.sendCount) :
    Flow P E drawn sent (delivered ++ [i]) p snd rcv' base where
  key := hf.key
  count_nonneg := hf.count_nonneg
  ourDrawn := hf.ourDrawn
  sentDrawn := hf.sentDrawn
  savedDrawn k j h := by
    rcases htaken.labels k j h with h | rfl
    · exact hf.savedDrawn k j h
    · exact hf.sentDrawn e (List.mem_of_getElem? hi) hsender
  chain := hf.chain
  distinct := hf.distinct
  order := hf.order
  saved j e' hj hs ht hnot hlt := by
    rw [htaken.their, htheir] at ht
    obtain hrk : e.header.rk = e'.header.rk := Option.some.inj ht
    have hne : e'.header.number ≠ e.header.number := by
      intro hn
      have hji := hf.distinct j i e' e hj hi hs hsender hrk.symm hn
      exact hnot (by rw [hji]; simp)
    rw [← hrk]
    refine htaken.saved _ hne hlt ?_
    by_cases hold : e'.header.number < rcv.count
    · left
      rw [hrk]
      exact hf.saved j e' hj hs (by rw [htheir, hrk]) (fun h => hnot (by simp [h])) hold
    · exact .inr (by omega)
  overtaken j e' hj hs h1 h2 := by
    rw [htaken.their] at h2
    obtain ⟨k, e₂, hk, h⟩ := hf.overtaken j e' hj hs h1 h2
    exact ⟨k, e₂, by simp [hk], h⟩
  behind ht := by
    rw [htaken.their] at ht
    rcases htaken.counted with ⟨-, h⟩ | h
    · rw [h]; exact hf.behind ht
    · rw [h]
      have := hcount ht
      omega

/-- The receiver turns to the sender's current chain, of which it has received
nothing yet: whatever is not of that chain is overtaken by the envelope `i` that
made it turn. -/
theorem turn (hf : Flow P E drawn sent delivered p snd rcv base) {i : ℕ} {e : Sent β ω}
    (hi : sent[i]? = some e) (hsender : e.sender = p)
    (hrk : e.header.rk = snd.ourRatchetPublic)
    (htheir : rcv'.theirRatchetPublic = some snd.ourRatchetPublic) (hcount : rcv'.count = 0)
    (hsaved : ∀ k j, (rcv'.skipped.lookup (k, j)).isSome → Drawn P E drawn k) :
    Flow P E drawn sent (delivered ++ [i]) p snd rcv' base where
  key := hf.key
  count_nonneg := hf.count_nonneg
  ourDrawn := hf.ourDrawn
  sentDrawn := hf.sentDrawn
  savedDrawn := hsaved
  chain := hf.chain
  distinct := hf.distinct
  order := hf.order
  saved j e' hj hs ht _ hlt := by
    rw [htheir] at ht
    have := (hf.chain e' (List.mem_of_getElem? hj) hs (Option.some.inj ht).symm).1
    omega
  overtaken j e' hj hs h1 _ :=
    ⟨i, e, by simp, hi, hsender, fun heq => h1 (heq.symm.trans hrk), hf.order j i e' e hj hi hs
      hsender h1 hrk⟩
  behind _ := by rw [hcount]; exact hf.count_nonneg

/-- The sender turns to a new chain, under a key it has just generated; the
receiver was receiving on the chain before. -/
theorem senderTurn (hf : Flow P E drawn sent delivered p snd rcv base) {base' : β}
    (htheir : rcv.theirRatchetPublic = some snd.ourRatchetPublic)
    (hkey : snd'.sendChainKey = some base') (hcount : snd'.sendCount = 0)
    (hnew : ¬ Drawn P E drawn snd'.ourRatchetPublic)
    (hdrawn : Drawn P E drawn' snd'.ourRatchetPublic) (hle : drawn ≤ drawn') :
    Flow P E drawn' sent delivered p snd' rcv base' where
  key := by rw [hcount]; exact hkey
  count_nonneg := by rw [hcount]
  ourDrawn := hdrawn
  sentDrawn e he hs := (hf.sentDrawn e he hs).mono hle
  savedDrawn k j h := (hf.savedDrawn k j h).mono hle
  chain e he hs hrk := absurd (hrk ▸ hf.sentDrawn e he hs) hnew
  distinct := hf.distinct
  order i j e e' _ hj _ hs' _ hrk :=
    absurd (hrk ▸ hf.sentDrawn e' (List.mem_of_getElem? hj) hs') hnew
  saved := hf.saved
  overtaken i e hi hs _ h2 :=
    hf.overtaken i e hi hs (fun heq => h2 (by rw [htheir, heq])) h2
  behind ht := by
    rw [htheir] at ht
    exact absurd (Option.some.inj ht ▸ hf.ourDrawn) hnew

end Flow
end Winkd
