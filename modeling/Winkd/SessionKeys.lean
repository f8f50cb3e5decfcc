import Winkd.KeyPool
import Winkd.Ratchet

/-!
# The message keys a session holds

A session holds the message keys of its two chains, all that are still to come,
and the keys it has saved.  Seen as a pool, `encrypt` and `retrieveMessageKey`
take one key out of it, skipping moves keys from the receiving chain to the saved
ones, and a new session or a DH ratchet fills the addresses of the chains anew.

`Watch` says whether the sending chain counts: a result about replays has no use
for it, one about every key of the record has.
-/

namespace Winkd
open KeyPool Js UnicodeText

/-- Where a session holds a message key. -/
inductive Source (β : Type) where
  /-- The `i`-th key still to come on the sending chain. -/
  | send (i : ℕ)
  /-- The `i`-th key still to come on the receiving chain. -/
  | recv (i : ℕ)
  | saved (key : β × CodeUnits)

/-- The addresses of the two chains. -/
def Source.OfChain {β : Type} : Source β → Prop
  | .saved _ => False
  | _ => True

/-- Which keys of a session are watched. -/
inductive Watch where
  | receiving
  | both
  deriving DecidableEq

/-- The keys that count as used when `keys` were used for sending. -/
def Watch.sent {β : Type} : Option Watch → List β → List β
  | some .both, keys => keys
  | _, _ => []

theorem Watch.sent_nil {β : Type} (watch : Option Watch) : Watch.sent watch ([] : List β) = [] := by
  match watch with
  | none => rfl
  | some .receiving => rfl
  | some .both => rfl

theorem Watch.mem_sent {β : Type} {watch : Option Watch} {keys : List β} {k : β}
    (h : k ∈ Watch.sent watch keys) : watch = some .both ∧ k ∈ keys := by
  match watch, h with
  | some .both, h => exact ⟨rfl, h⟩

namespace SignalSessionManager
variable {β ω : Type} [DecidableEq β] (P : Platform β ω) (watch : Watch)

/-- The saved keys, as a pool. -/
def savedKeys (skipped : Finmap (fun _ : β × CodeUnits => β)) : Source β → Option β
  | .saved key => (skipped.lookup key).map P.hexToBuf
  | _ => none

/-- The keys a session holds. -/
def heldKeys (session : RatchetSession β) : Source β → Option β
  | .send i =>
    match watch with
    | .receiving => none
    | .both => session.sendChainKey.map fun ck => P.chain.messageAt ck i
  | .recv i => session.recvChainKey.map fun ck => P.chain.messageAt ck i
  | .saved key => (session.skipped.lookup key).map P.hexToBuf

theorem savedKeys_moved (session : RatchetSession β) :
    Moved (heldKeys P watch session) (savedKeys P session.skipped) id := by
  apply Moved.of_le
  intro a k ha
  match a with
  | .saved _ => exact ha

/-- No key is saved in an empty map. -/
theorem savedKeys_empty (a : Source β) : savedKeys P ∅ a = none := by
  match a with
  | .send _ => rfl
  | .recv _ => rfl
  | .saved _ => simp [savedKeys]

variable {P watch} {used : List β}

theorem heldKeys_send {session : RatchetSession β} {ck : β} (h : session.sendChainKey = some ck)
    (i : ℕ) : heldKeys P .both session (.send i) = some (P.chain.messageAt ck i) := by
  simp only [heldKeys, h, Option.map_some]

theorem heldKeys_recv {session : RatchetSession β} {ck : β} (h : session.recvChainKey = some ck)
    (i : ℕ) : heldKeys P watch session (.recv i) = some (P.chain.messageAt ck i) := by
  simp only [heldKeys, h, Option.map_some]

theorem heldKeys_saved {session : RatchetSession β} {key : β × CodeUnits} {v : β}
    (h : session.skipped.lookup key = some v) :
    heldKeys P watch session (.saved key) = some (P.hexToBuf v) := by
  simp only [heldKeys, h, Option.map_some]

theorem exclusive_savedKeys_empty (h : used.Nodup) : Exclusive (savedKeys P ∅) used where
  distinct ha := by rw [savedKeys_empty] at ha; cases ha
  unspent ha := by rw [savedKeys_empty] at ha; cases ha
  nodup := h

/-! ## Sending -/

/-- Where the keys of a session were before it sent. -/
def sendOrigin : Source β → Source β
  | .send i => .send (i + 1)
  | a => a

/-- **Sending takes the first key of the sending chain.** -/
theorem exclusive_afterSend {session : RatchetSession β} {ck : β}
    (h : Exclusive (heldKeys P watch session) used) (hck : session.sendChainKey = some ck) :
    Exclusive (heldKeys P watch (afterSend session (P.kdfChainKey ck).nextChainKey))
      (used ++ Watch.sent (some watch) [(P.kdfChainKey ck).messageKey]) := by
  cases watch with
  | receiving =>
    simp only [Watch.sent, List.append_nil]
    apply h.moved
    apply Moved.of_le
    intro a k ha
    match a with
    | .recv _ => exact ha
    | .saved _ => exact ha
  | both =>
    have hsend : ∀ i, heldKeys P .both (afterSend session (P.kdfChainKey ck).nextChainKey)
        (.send i) = heldKeys P .both session (.send (i + 1)) := by
      intro i
      simp only [heldKeys, afterSend, hck]
      rfl
    have hmoved : Moved (heldKeys P .both session)
        (heldKeys P .both (afterSend session (P.kdfChainKey ck).nextChainKey)) sendOrigin := by
      constructor
      · intro a k ha
        match a with
        | .send i => exact (hsend i).symm.trans ha
        | .recv _ => exact ha
        | .saved _ => exact ha
      · intro a b k l _ _ he
        match a, b with
        | .send i, .send j => exact congrArg _ (Nat.succ.inj (Source.send.inj he))
        | .recv _, .recv _ => exact he
        | .saved _, .saved _ => exact he
    refine h.take hmoved (t := .send 0) ?_ ?_
    · exact heldKeys_send hck 0
    · intro a l _ he
      match a with
      | .send i => exact absurd (Source.send.inj he) (Nat.succ_ne_zero i)

/-! ## Skipping and retrieving -/

/-- Where the keys were before `k` keys of the chain were saved, under the numbers from
`start` on, and the chain moved `shift` keys on. -/
def skipOrigin (their : β) (start : Primitive) (k shift : ℕ) : Source β → Source β
  | .send i => .send i
  | .recv i => .recv (i + shift)
  | .saved (rk, t) =>
    if rk = their then
      match savedAt start k t with
      | some j => .recv j
      | none => .saved (rk, t)
    else .saved (rk, t)

/-- What is saved was saved before, or is one of the first `k` keys of the chain. -/
theorem skipOrigin_saved (their : β) (start : Primitive) (k shift : ℕ) (rk : β) (t : CodeUnits) :
    skipOrigin their start k shift (.saved (rk, t)) = .saved (rk, t) ∨
      rk = their ∧ ∃ j < k, t = (start.after j).toText ∧
        skipOrigin their start k shift (.saved (rk, t)) = .recv j := by
  rw [skipOrigin]
  split
  · rename_i hrk
    cases hj : savedAt start k t with
    | none => exact .inl rfl
    | some j =>
      obtain ⟨hlt, ht⟩ := savedAt_spec hj
      exact .inr ⟨hrk, j, hlt, ht, rfl⟩
  · exact .inl rfl

/-- Moving `shift` keys on in the receiving chain, and saving the first `k` of
them, moves keys. -/
theorem moved_saveKeys (hP : P.RoundTrips) {session session' : RatchetSession β} {their ck : β}
    {k shift : ℕ} (hk : k ≤ shift) (hck : session.recvChainKey = some ck)
    (hsend : session'.sendChainKey = session.sendChainKey)
    (hrecv : session'.recvChainKey = some (P.chain.chainAt ck shift))
    (hsaved : session'.skipped = saveKeys P their ck session.recvCount k session.skipped) :
    Moved (heldKeys P watch session) (heldKeys P watch session')
      (skipOrigin their session.recvCount k shift) := by
  constructor
  · intro a key ha
    match a with
    | .send i =>
      simp only [heldKeys, hsend] at ha
      exact ha
    | .recv i =>
      simp only [heldKeys, hrecv, Option.map_some, KeyChain.messageAt_chainAt] at ha
      simp only [skipOrigin, heldKeys, hck, Option.map_some, Nat.add_comm i shift]
      exact ha
    | .saved (rk, t) =>
      simp only [heldKeys, hsaved, lookup_saveKeys_eq] at ha
      rw [skipOrigin]
      -- a saved key was saved now, from the receiving chain, or before
      split at ha
      · rename_i hrk
        rw [if_pos hrk]
        cases hj : savedAt session.recvCount k t with
        | none =>
          rw [hj] at ha
          exact ha
        | some j =>
          rw [hj, Option.map_some, hP.hex] at ha
          simp only [heldKeys, hck, Option.map_some]
          exact ha
      · rename_i hrk
        rw [if_neg hrk]
        exact ha
  · intro a b _ _ _ _ he
    -- keys of the receiving chain come from `shift` on, those that were saved from before `k`
    match a, b with
    | .send _, .send _ => exact he
    | .recv i, .recv j => exact congrArg _ (Nat.add_right_cancel (Source.recv.inj he))
    | .send _, .saved (rk, t) =>
      rcases skipOrigin_saved their session.recvCount k shift rk t with h | ⟨-, j, -, -, h⟩ <;>
        rw [h] at he <;> cases he
    | .saved (rk, t), .send _ =>
      rcases skipOrigin_saved their session.recvCount k shift rk t with h | ⟨-, j, -, -, h⟩ <;>
        rw [h] at he <;> cases he
    | .recv i, .saved (rk, t) =>
      rcases skipOrigin_saved their session.recvCount k shift rk t with h | ⟨-, j, hj, -, h⟩
      · rw [h] at he; cases he
      · rw [h] at he
        have := Source.recv.inj he
        omega
    | .saved (rk, t), .recv i =>
      rcases skipOrigin_saved their session.recvCount k shift rk t with h | ⟨-, j, hj, -, h⟩
      · rw [h] at he; cases he
      · rw [h] at he
        have := Source.recv.inj he
        omega
    | .saved (rk, t), .saved (rk', t') =>
      rcases skipOrigin_saved their session.recvCount k shift rk t with h | ⟨hrk, j, -, ht, h⟩ <;>
        rcases skipOrigin_saved their session.recvCount k shift rk' t' with h' | ⟨hrk', j', -, ht', h'⟩ <;>
        rw [h, h'] at he
      · exact he
      · cases he
      · cases he
      · -- a pass saves under one text
        obtain rfl := Source.recv.inj he
        rw [hrk, hrk', ht, ht']

/-- Skipping moves keys. -/
theorem exclusive_skipMessageKeys (hP : P.RoundTrips) {session session' : RatchetSession β}
    {target : Value} (h : Exclusive (heldKeys P watch session) used)
    (hs : skipMessageKeys P session target = .ok session') :
    Exclusive (heldKeys P watch session') used := by
  rcases skipMessageKeys_cases P hs with ⟨-, rfl⟩ | ⟨their, ck, k, -, hck, -, rfl⟩
  · exact h
  · exact h.moved (moved_saveKeys hP (Nat.le_refl _) hck rfl rfl rfl)

/-- **Retrieving a key takes it.** -/
theorem exclusive_retrieve (hP : P.RoundTrips) {session session' : RatchetSession β} {rk mk : β}
    {n : Value} (h : Exclusive (heldKeys P watch session) used)
    (ht : session.theirRatchetPublic = some rk)
    (hr : retrieveMessageKey P session rk n = .ok (mk, session')) :
    Exclusive (heldKeys P watch session') (used ++ [mk]) := by
  obtain ⟨number, -, ⟨saved, hl, rfl, rfl⟩ | ⟨ck, k, -, hck, -, rfl, rfl⟩⟩ := retrieve_cases P ht hr
  · have hgone : ∀ a l, heldKeys P watch (useSaved session rk number.toText) a = some l →
        a ≠ .saved (rk, number.toText) ∧ heldKeys P watch session a = some l := by
      intro a l ha
      match a with
      | .send _ => exact ⟨nofun, ha⟩
      | .recv _ => exact ⟨nofun, ha⟩
      | .saved key =>
        by_cases hkey : key = (rk, number.toText)
        · subst hkey
          simp [heldKeys, useSaved] at ha
        · simp only [heldKeys, useSaved, Finmap.lookup_erase_ne hkey] at ha
          exact ⟨fun he => hkey (Source.saved.inj he), ha⟩
    refine h.take (Moved.of_le fun a l ha => (hgone a l ha).2) (t := .saved (rk, number.toText)) ?_ ?_
    · exact heldKeys_saved hl
    · exact fun a l ha => (hgone a l ha).1
  · have hmoved : Moved (heldKeys P watch session)
        (heldKeys P watch (advanced P session rk ck k (number.plus 1)))
        (skipOrigin rk session.recvCount k (k + 1)) :=
      moved_saveKeys hP (Nat.le_succ _) hck rfl rfl rfl
    refine h.take hmoved (t := .recv k) ?_ ?_
    · exact heldKeys_recv hck _
    · intro a l _ he
      match a with
      | .recv i =>
        have := Source.recv.inj he
        omega
      | .saved (rk', t) =>
        rcases skipOrigin_saved rk session.recvCount k (k + 1) rk' t with h' | ⟨-, j, hj, -, h'⟩
        · rw [h'] at he; cases he
        · rw [h'] at he
          have := Source.recv.inj he
          omega

/-! ## New chains -/

/-- No key of the chain from `base` is saved or was used. -/
def NewBase (P : Platform β ω) (skipped : Finmap (fun _ : β × CodeUnits => β)) (used : List β)
    (base : β) : Prop :=
  ∀ i, P.chain.messageAt base i ∉ used ∧
    ∀ key v, skipped.lookup key = some v → P.hexToBuf v ≠ P.chain.messageAt base i

/-- Two chains with different bases hold no key twice. -/
theorem chains_distinct {bases : β → Prop} (hfree : P.chain.Free bases)
    {session : RatchetSession β} {sendBase : β} (hsend : session.sendChainKey = some sendBase)
    (hsb : bases sendBase)
    (hrecv : ∀ base, session.recvChainKey = some base → bases base ∧ base ≠ sendBase)
    {a b : Source β} {k : β} (hna : a.OfChain) (hnb : b.OfChain)
    (ha : heldKeys P watch session a = some k) (hb : heldKeys P watch session b = some k) :
    a = b := by
  have hsendKey : ∀ i, heldKeys P watch session (.send i) = some k →
      P.chain.messageAt sendBase i = k := by
    intro i hi
    cases watch with
    | receiving => cases hi
    | both => simpa only [heldKeys, hsend, Option.map_some, Option.some.injEq] using hi
  have hcross : ∀ i j, heldKeys P watch session (.send i) = some k →
      heldKeys P watch session (.recv j) ≠ some k := by
    intro i j hi hj
    obtain ⟨base, hbase, he⟩ := Option.map_eq_some_iff.mp hj
    obtain ⟨hb1, hne⟩ := hrecv base hbase
    exact hne (hfree.messageAt_inj hb1 hsb (he.trans (hsendKey i hi).symm)).1
  match a, b with
  | .send i, .send j =>
    rw [(hfree.messageAt_inj hsb hsb ((hsendKey i ha).trans (hsendKey j hb).symm)).2]
  | .send i, .recv j => exact absurd hb (hcross i j ha)
  | .recv i, .send j => exact absurd ha (hcross j i hb)
  | .recv i, .recv j =>
    obtain ⟨base, hbase, rfl⟩ := Option.map_eq_some_iff.mp ha
    simp only [heldKeys, hbase, Option.map_some, Option.some.injEq] at hb
    rw [(hfree.messageAt_inj (hrecv base hbase).1 (hrecv base hbase).1 hb).2]

/-- **Starting new chains keeps the pool exclusive**, when none of their keys is
saved or was used. -/
theorem exclusive_newChains {bases : β → Prop} (hfree : P.chain.Free bases)
    {session : RatchetSession β} {sendBase : β} (h : Exclusive (savedKeys P session.skipped) used)
    (hsend : session.sendChainKey = some sendBase) (hsb : bases sendBase)
    (hsn : watch = .both → NewBase P session.skipped used sendBase)
    (hrecv : ∀ base, session.recvChainKey = some base →
      bases base ∧ NewBase P session.skipped used base ∧ base ≠ sendBase) :
    Exclusive (heldKeys P watch session) used := by
  apply h.stock Source.OfChain
  · intro a k hold ha
    match a with
    | .send _ => exact absurd trivial hold
    | .recv _ => exact absurd trivial hold
    | .saved _ => exact ha
  · intro a k hnew ha
    match a with
    | .send i =>
      cases watch with
      | receiving => cases ha
      | both =>
        simp only [heldKeys, hsend, Option.map_some, Option.some.injEq] at ha
        exact ha ▸ (hsn rfl i).1
    | .recv i =>
      obtain ⟨base, hb, rfl⟩ := Option.map_eq_some_iff.mp ha
      exact ((hrecv base hb).2.1 i).1
  · intro a b k hnew ha hold hb
    -- a key of a new chain against one that was saved
    match b with
    | .send _ => exact hold trivial
    | .recv _ => exact hold trivial
    | .saved key =>
      obtain ⟨v, hv, rfl⟩ := Option.map_eq_some_iff.mp hb
      match a with
      | .send i =>
        cases watch with
        | receiving => cases ha
        | both =>
          simp only [heldKeys, hsend, Option.map_some, Option.some.injEq] at ha
          exact (hsn rfl i).2 key v hv ha.symm
      | .recv i =>
        obtain ⟨base, hbase, he⟩ := Option.map_eq_some_iff.mp ha
        exact ((hrecv base hbase).2.1 i).2 key v hv he.symm
  · intro a b k hna hnb ha hb
    exact chains_distinct hfree hsend hsb (fun base hbase => ⟨(hrecv base hbase).1,
      (hrecv base hbase).2.2⟩) hna hnb ha hb

end SignalSessionManager
end Winkd
