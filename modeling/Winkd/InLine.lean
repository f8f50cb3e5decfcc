import Winkd.EndToEnd

/-!
# In line

Linked sessions whose envelopes neither get lost nor overtake each other: each party's are
delivered in the order they were sent in.  Whatever is under way then, the next envelope a
party gets is the one it expects (`Line`): it carries the number after the last one, or the
number 0 of a new chain, and the length of the chain before, so nothing is ever skipped
(`inLine_decoded`).

A conversation can be looked at from any state on.  What was sent before is neither delivered
nor read again, so the worlds alone decide how it goes on (`Since`).
-/

namespace Winkd
open UnicodeText SignalSessionManager Transitions

namespace Net
variable {β ω : Type} [DecidableEq β]

/-! ## Conversations in line -/

/-- The envelope `e` is the next one of its sender, of those from the `k`-th on. -/
structure NextInLine (k : ℕ) (s : Net β ω) (i : ℕ) (e : Sent β ω) : Prop where
  since : k ≤ i
  once : i ∉ s.positions
  before : ∀ j < i, k ≤ j → ∀ e' ∈ s.sent[j]?, e'.sender = e.sender → j ∈ s.positions

/-- The steps of a conversation that goes on in line from its `k`-th envelope. -/
def InLine (k : ℕ) (s : Net β ω) : Event β → Prop
  | .initSessionFromBundle _ _ => False
  | .encrypt _ _ => True
  | .deliver i => ∀ e ∈ s.sent[i]?, NextInLine k s i e

/-- Every delivery from the `k`-th envelope on gave what `TextDecoder` makes of the plaintext's
encoding. -/
def DecodedFrom (k : ℕ) (s : Net β ω) : Prop :=
  ∀ i r, k ≤ i → (i, r) ∈ s.delivered →
    ∃ e, s.sent[i]? = some e ∧ r = .ok (textDecode (textEncode e.plaintext))

/-- **The conversation goes on**: whatever the parties send from now on, and however that
arrives in line, each of them reads it. -/
def GoesOn (P : Platform β ω) (E : Party → Entropy β) (s : Net β ω) : Prop :=
  ∀ t, Reaches (Net.next P E) (InLine s.sent.length) s t → DecodedFrom s.sent.length t

/-! ## What a receiver expects -/

/-- The header of the envelope after one with the header `h`, from the same sender. -/
def Follows (h h' : RatchetHeader β) : Prop :=
  h'.rk = h.rk ∧ h'.number = h.number + 1 ∨
    h'.rk ≠ h.rk ∧ h'.number = 0 ∧ h'.previous = h.number + 1

/-- The receiver can skip to `h`, and has not received it. -/
structure Expected (rcv : RatchetSession β) (h : RatchetHeader β) : Prop where
  within : WithinSkip (some rcv) h
  ahead : rcv.theirRatchetPublic = some h.rk → rcv.count ≤ h.number

variable {rcv rcv' snd snd' : RatchetSession β} {h h' : RatchetHeader β}

/-- What follows the envelope received last is expected. -/
theorem Follows.expected (hf : Follows h h') (ht : rcv.theirRatchetPublic = some h.rk)
    (hc : rcv.count = h.number + 1) : Expected rcv h' := by
  have hmax : (0 : ℤ) ≤ MAX_SKIP := by decide
  rcases hf with ⟨hrk, hn⟩ | ⟨hrk, hn, hp⟩
  · refine ⟨?_, fun _ => by omega⟩
    rw [WithinSkip, if_pos (ht.trans (congrArg some hrk.symm))]
    omega
  · have hne : rcv.theirRatchetPublic ≠ some h'.rk := by
      rw [ht]
      exact fun heq => hrk (Option.some.inj heq).symm
    refine ⟨?_, fun heq => absurd heq hne⟩
    rw [WithinSkip, if_neg hne]
    exact ⟨by omega, .inr (by omega)⟩

theorem Expected.congr (he : Expected rcv h)
    (ht : rcv'.theirRatchetPublic = rcv.theirRatchetPublic) (hc : rcv'.count = rcv.count)
    (hk : rcv'.recvChainKey = rcv.recvChainKey) : Expected rcv' h where
  within := by
    have hw := he.within
    simp only [WithinSkip] at hw ⊢
    rwa [ht, hc, hk]
  ahead hrk := hc ▸ he.ahead (ht ▸ hrk)

/-! ## One party's line -/

/-- The envelopes of `y`, from `snd` to `rcv`: a part of them, from the first on, is delivered,
the next one is expected, and each follows the one before. -/
structure Line (s : Net β ω) (y : Party) (snd rcv : RatchetSession β) : Prop where
  closed : ∀ (i j : ℕ) e e', s.sent[i]? = some e → s.sent[j]? = some e' → e.sender = y →
    e'.sender = y → j < i → i ∈ s.positions → j ∈ s.positions
  first : ∀ (i : ℕ) e, s.sent[i]? = some e → e.sender = y → NextInLine 0 s i e →
    Expected rcv e.header
  next : (∀ (i : ℕ) e, s.sent[i]? = some e → e.sender = y → i ∈ s.positions) →
    Expected rcv (nextHeader snd)
  follows : ∀ (i j : ℕ) e e', s.sent[i]? = some e → s.sent[j]? = some e' → e.sender = y →
    e'.sender = y → i < j →
    (∀ (l : ℕ) e'', i < l → l < j → s.sent[l]? = some e'' → e''.sender ≠ y) →
    Follows e.header e'.header
  /-- The receiver has seen no chain of which nothing was sent. -/
  last : ∀ (i : ℕ) e, s.sent[i]? = some e → e.sender = y →
    (∀ (l : ℕ) e'', i < l → s.sent[l]? = some e'' → e''.sender ≠ y) →
    Follows e.header (nextHeader snd) ∧
      (rcv.theirRatchetPublic = some snd.ourRatchetPublic → e.header.rk = snd.ourRatchetPublic)

variable {s s' : Net β ω} {y : Party}

/-- `y` sends. -/
theorem Line.send (hl : Line s y snd rcv) {e : Sent β ω} {ck : β} (hsender : e.sender = y)
    (hsession : e.session = snd) (hpos : ∀ i ∈ s.positions, i < s.sent.length)
    (hsent : s'.sent = s.sent ++ [e]) (hdel : s'.positions = s.positions) :
    Line s' y (afterSend snd ck) rcv := by
  have hhead : e.header = nextHeader snd := by rw [← hsession]; rfl
  have hlast : s'.sent[s.sent.length]? = some e := by rw [hsent]; exact List.getElem?_concat_length
  have hold : ∀ {i : ℕ} {e' : Sent β ω}, s.sent[i]? = some e' → s'.sent[i]? = some e' := by
    intro i e' hi
    rw [hsent]
    exact getElem?_append_of_some hi
  have hcases : ∀ {i : ℕ} {e' : Sent β ω}, s'.sent[i]? = some e' →
      s.sent[i]? = some e' ∨ i = s.sent.length ∧ e' = e := by
    intro i e' hi
    rw [hsent] at hi
    exact getElem?_concat_cases hi
  have hlt : ∀ {i : ℕ} {e' : Sent β ω}, s.sent[i]? = some e' → i < s.sent.length :=
    fun hi => (List.getElem?_eq_some_iff.mp hi).1
  constructor
  · intro i j e₁ e₂ h₁ h₂ hs₁ hs₂ hji hi
    rw [hdel] at hi ⊢
    rcases hcases h₁ with h₁ | ⟨rfl, -⟩
    · rcases hcases h₂ with h₂ | ⟨rfl, -⟩
      · exact hl.closed i j e₁ e₂ h₁ h₂ hs₁ hs₂ hji hi
      · have := hlt h₁
        omega
    · exact absurd (hpos _ hi) (Nat.lt_irrefl _)
  · intro i e₁ h₁ hs₁ hnext
    have honce := hnext.once
    have hbefore := hnext.before
    rw [hdel] at honce hbefore
    rcases hcases h₁ with h₁ | ⟨rfl, rfl⟩
    · exact hl.first i e₁ h₁ hs₁ ⟨hnext.since, honce,
        fun j hj hk e' he' hs' => hbefore j hj hk e' (hold he') hs'⟩
    · -- all that was sent before was delivered
      rw [hhead]
      refine hl.next fun j e' he' hs' => ?_
      exact hbefore j (hlt he') (Nat.zero_le j) e' (hold he') (hs'.trans hsender.symm)
  · intro hall
    have hmem := hall _ e hlast hsender
    rw [hdel] at hmem
    exact absurd (hpos _ hmem) (Nat.lt_irrefl _)
  · intro i j e₁ e₂ h₁ h₂ hs₁ hs₂ hij hnone
    rcases hcases h₂ with h₂ | ⟨rfl, rfl⟩
    · rcases hcases h₁ with h₁ | ⟨rfl, -⟩
      · exact hl.follows i j e₁ e₂ h₁ h₂ hs₁ hs₂ hij
          fun l e'' hil hlj hl'' => hnone l e'' hil hlj (hold hl'')
      · have := hlt h₂
        omega
    · rcases hcases h₁ with h₁ | ⟨rfl, -⟩
      · rw [hhead]
        exact (hl.last i e₁ h₁ hs₁ fun l e'' hil hl'' =>
          hnone l e'' hil (hlt hl'') (hold hl'')).1
      · exact absurd hij (Nat.lt_irrefl _)
  · intro i e₁ h₁ hs₁ hnone
    rcases hcases h₁ with h₁ | ⟨rfl, rfl⟩
    · exact absurd hsender (hnone _ e (hlt h₁) hlast)
    · rw [hhead]
      exact ⟨.inl ⟨rfl, rfl⟩, fun _ => rfl⟩

/-- The other party sends: its session receives as before. -/
theorem Line.other (hl : Line s y snd rcv) {e : Sent β ω} (hsender : e.sender ≠ y)
    (hsent : s'.sent = s.sent ++ [e]) (hdel : s'.positions = s.positions)
    (ht : rcv'.theirRatchetPublic = rcv.theirRatchetPublic) (hc : rcv'.count = rcv.count)
    (hk : rcv'.recvChainKey = rcv.recvChainKey) : Line s' y snd rcv' := by
  have hold : ∀ {i : ℕ} {e' : Sent β ω}, s.sent[i]? = some e' → s'.sent[i]? = some e' := by
    intro i e' hi
    rw [hsent]
    exact getElem?_append_of_some hi
  have hof : ∀ {i : ℕ} {e' : Sent β ω}, s'.sent[i]? = some e' → e'.sender = y →
      s.sent[i]? = some e' := by
    intro i e' hi hs
    rw [hsent] at hi
    rcases getElem?_concat_cases hi with hi | ⟨-, rfl⟩
    · exact hi
    · exact absurd hs hsender
  constructor
  · intro i j e₁ e₂ h₁ h₂ hs₁ hs₂
    rw [hdel]
    exact hl.closed i j e₁ e₂ (hof h₁ hs₁) (hof h₂ hs₂) hs₁ hs₂
  · intro i e₁ h₁ hs₁ hnext
    have honce := hnext.once
    have hbefore := hnext.before
    rw [hdel] at honce hbefore
    refine (hl.first i e₁ (hof h₁ hs₁) hs₁ ⟨hnext.since, honce, ?_⟩).congr ht hc hk
    exact fun j hj hk e' he' hs' => hbefore j hj hk e' (hold he') hs'
  · intro hall
    refine (hl.next fun i e₁ h₁ hs₁ => ?_).congr ht hc hk
    exact hdel ▸ hall i e₁ (hold h₁) hs₁
  · exact fun i j e₁ e₂ h₁ h₂ hs₁ hs₂ hij hnone => hl.follows i j e₁ e₂ (hof h₁ hs₁) (hof h₂ hs₂)
      hs₁ hs₂ hij fun l e'' hil hlj hl'' => hnone l e'' hil hlj (hold hl'')
  · intro i e₁ h₁ hs₁ hnone
    rw [ht]
    exact hl.last i e₁ (hof h₁ hs₁) hs₁ fun l e'' hil hl'' => hnone l e'' hil (hold hl'')

/-- **The next envelope of `y` arrives.** -/
theorem Line.take (hl : Line s y snd rcv) {i : ℕ} {e : Sent β ω} (hi : s.sent[i]? = some e)
    (hsender : e.sender = y) (hnext : NextInLine 0 s i e) (hsent : s'.sent = s.sent)
    (hdel : s'.positions = s.positions ++ [i]) (ht : rcv'.theirRatchetPublic = some e.header.rk)
    (hc : rcv'.count = e.header.number + 1)
    (horder : ∀ (i j : ℕ) (e e' : Sent β ω), s.sent[i]? = some e → s.sent[j]? = some e' →
      e.sender = y → e'.sender = y → e.header.rk ≠ snd.ourRatchetPublic →
      e'.header.rk = snd.ourRatchetPublic → i < j) : Line s' y snd rcv' := by
  -- nothing of `y` behind `i` was delivered
  have hbehind : ∀ {l : ℕ} {e' : Sent β ω}, s.sent[l]? = some e' → e'.sender = y → i < l →
      l ∉ s.positions := by
    intro l e' hl' hs' hil hmem
    exact hnext.once (hl.closed l i e' e hl' hi hs' hsender hil hmem)
  have hmem : ∀ {l : ℕ}, l ∈ s'.positions → l ∈ s.positions ∨ l = i := by
    intro l hl'
    rw [hdel] at hl'
    exact (List.mem_append.mp hl').imp_right List.mem_singleton.mp
  have hkept : ∀ {l : ℕ}, l ∈ s.positions → l ∈ s'.positions := by
    intro l hl'
    rw [hdel]
    exact List.mem_append_left _ hl'
  constructor
  · intro l j e₁ e₂ h₁ h₂ hs₁ hs₂ hjl hmem₁
    rw [hsent] at h₁ h₂
    rcases hmem hmem₁ with hold | rfl
    · exact hkept (hl.closed l j e₁ e₂ h₁ h₂ hs₁ hs₂ hjl hold)
    · exact hkept (hnext.before j hjl (Nat.zero_le j) e₂ h₂ (hs₂.trans hsender.symm))
  · intro l e₁ h₁ hs₁ hnext₁
    rw [hsent] at h₁
    have hne : l ≠ i := by
      rintro rfl
      refine hnext₁.once ?_
      rw [hdel]
      exact List.mem_append_right _ (List.mem_singleton_self l)
    have hil : i < l := by
      by_contra hli
      have hold := hnext.before l (by omega) (Nat.zero_le l) e₁ h₁ (hs₁.trans hsender.symm)
      exact hnext₁.once (hkept hold)
    refine (hl.follows i l e e₁ hi h₁ hsender hs₁ hil fun j e'' hij hjl hj hs'' => ?_).expected ht hc
    -- what is between them is delivered, but it is behind `i`
    have hbefore := hnext₁.before j hjl (Nat.zero_le j) e'' (hsent ▸ hj) (hs''.trans hs₁.symm)
    rcases hmem hbefore with hold | rfl
    · exact hbehind hj hs'' hij hold
    · exact Nat.lt_irrefl _ hij
  · intro hall
    refine ((hl.last i e hi hsender fun l e'' hil hl'' hs'' => ?_).1).expected ht hc
    rcases hmem (hall l e'' (hsent ▸ hl'') hs'') with hold | rfl
    · exact hbehind hl'' hs'' hil hold
    · exact Nat.lt_irrefl _ hil
  · rw [hsent]
    exact hl.follows
  · rw [hsent]
    intro l e₁ h₁ hs₁ hnone
    refine ⟨(hl.last l e₁ h₁ hs₁ hnone).1, fun heq => ?_⟩
    -- the current chain was sent last
    by_contra hne
    rw [ht] at heq
    have hli := horder l i e₁ e h₁ hi hs₁ hsender hne (Option.some.inj heq)
    exact hnone i e hli hi hsender

/-- `y` gets an envelope of the other party's, and perhaps moves to a new chain. -/
theorem Line.hear (hl : Line s y snd rcv) {i : ℕ} {e : Sent β ω} {P : Platform β ω} {E : Entropy β}
    {drawn : ℕ} (hi : s.sent[i]? = some e) (hsender : e.sender ≠ y) (hsent : s'.sent = s.sent)
    (hdel : s'.positions = s.positions ++ [i]) (hheard : Heard P E drawn e rcv snd snd')
    (hours : Drawn P E drawn snd.ourRatchetPublic) : Line s' y snd' rcv := by
  have hmem : ∀ {l : ℕ} {e' : Sent β ω}, s.sent[l]? = some e' → e'.sender = y →
      l ∈ s'.positions → l ∈ s.positions := by
    intro l e' hl' hs' hmem'
    rw [hdel] at hmem'
    rcases List.mem_append.mp hmem' with hold | hnew
    · exact hold
    · rw [List.mem_singleton.mp hnew, hi] at hl'
      exact absurd hs' (Option.some.inj hl' ▸ hsender)
  have hkept : ∀ {l : ℕ}, l ∈ s.positions → l ∈ s'.positions := by
    intro l hl'
    rw [hdel]
    exact List.mem_append_left _ hl'
  have hclosed : ∀ (l j : ℕ) e₁ e₂, s'.sent[l]? = some e₁ → s'.sent[j]? = some e₂ → e₁.sender = y →
      e₂.sender = y → j < l → l ∈ s'.positions → j ∈ s'.positions := by
    intro l j e₁ e₂ h₁ h₂ hs₁ hs₂ hjl hmem₁
    rw [hsent] at h₁ h₂
    exact hkept (hl.closed l j e₁ e₂ h₁ h₂ hs₁ hs₂ hjl (hmem h₁ hs₁ hmem₁))
  have hfirst : ∀ (l : ℕ) e₁, s'.sent[l]? = some e₁ → e₁.sender = y → NextInLine 0 s' l e₁ →
      Expected rcv e₁.header := by
    intro l e₁ h₁ hs₁ hnext
    have hbefore := hnext.before
    rw [hsent] at h₁ hbefore
    exact hl.first l e₁ h₁ hs₁ ⟨hnext.since, fun hold => hnext.once (hkept hold),
      fun j hj hk e' he' hs' => hmem he' (hs'.trans hs₁) (hbefore j hj hk e' he' hs')⟩
  have hnext : (∀ (l : ℕ) e₁, s'.sent[l]? = some e₁ → e₁.sender = y → l ∈ s'.positions) →
      Expected rcv (nextHeader snd) := by
    intro hall
    rw [hsent] at hall
    exact hl.next fun l e₁ h₁ hs₁ => hmem h₁ hs₁ (hall l e₁ h₁ hs₁)
  rcases hheard.sending with hsame | ⟨hseen, hcount, hprevious, hnew⟩
  · have hour : snd'.ourRatchetPublic = snd.ourRatchetPublic :=
      congrArg SendState.ourRatchetPublic hsame
    have hcount : snd'.sendCount = snd.sendCount := congrArg SendState.sendCount hsame
    have hprevious : snd'.prevSendCount = snd.prevSendCount :=
      congrArg SendState.prevSendCount hsame
    have hhead : nextHeader snd' = nextHeader snd := by
      simp only [nextHeader, hour, hcount, hprevious]
    refine ⟨hclosed, hfirst, by rw [hhead]; exact hnext, ?_, ?_⟩
    · rw [hsent]
      exact hl.follows
    · rw [hsent, hhead, hour]
      exact hl.last
  · -- the receiver is on the chain that `y` leaves, and has not seen the new one
    have hunseen : rcv.theirRatchetPublic ≠ some snd'.ourRatchetPublic := by
      rw [hseen]
      intro heq
      exact hnew (Option.some.inj heq ▸ hours)
    refine ⟨hclosed, hfirst, fun hall => ⟨?_, fun heq => absurd heq hunseen⟩, ?_, ?_⟩
    · have hwithin := (hnext hall).within
      rw [WithinSkip, if_pos (show _ = some (nextHeader snd).rk from hseen)] at hwithin
      rw [WithinSkip, if_neg (show _ ≠ some (nextHeader snd').rk from hunseen)]
      simp only [nextHeader_number, nextHeader_previous, hcount, hprevious] at hwithin ⊢
      exact ⟨by decide, .inr hwithin⟩
    · rw [hsent]
      exact hl.follows
    · rw [hsent]
      intro l e₁ h₁ hs₁ hnone
      obtain ⟨hfollows, hrk⟩ := hl.last l e₁ h₁ hs₁ hnone
      refine ⟨.inr ⟨?_, ?_, ?_⟩, fun heq => absurd heq hunseen⟩
      · rw [hrk hseen]
        intro heq
        exact hnew ((show snd'.ourRatchetPublic = snd.ourRatchetPublic from heq) ▸ hours)
      · exact hcount
      · rcases hfollows with ⟨-, hn⟩ | ⟨hne, -⟩
        · exact hprevious.trans hn
        · exact absurd (hrk hseen).symm hne

/-! ## Both lines -/

variable {P : Platform β ω} {E : Party → Entropy β} {pair : DHKeyPair β → Prop}

/-- Nothing is delivered before it is sent. -/
theorem positions_lt_next (hs : ∀ i ∈ s.positions, i < s.sent.length) (ev : Event β) :
    ∀ i ∈ (s.next P E ev).positions, i < (s.next P E ev).sent.length := by
  cases ev with
  | initSessionFromBundle p bundle => exact hs
  | encrypt p plaintext =>
    rcases next_encrypt_cases P E s p plaintext with h | ⟨session, ck, hl, hck⟩
    · rw [h]
      exact hs
    · rw [next_encrypt P E plaintext hl hck]
      intro i hi
      exact Nat.lt_of_lt_of_le (hs i hi) (List.length_append ▸ Nat.le_add_right _ _)
  | deliver j =>
    cases hj : s.sent[j]? with
    | none =>
      rw [next_deliver_none P E hj]
      exact hs
    | some e =>
      rw [next_deliver P E hj, positions]
      intro i hi
      rw [List.map_append] at hi
      rcases List.mem_append.mp hi with hi | hi
      · exact hs i hi
      · rw [List.mem_singleton.mp hi]
        exact (List.getElem?_eq_some_iff.mp hj).1

variable (P E pair)

/-- The invariant of two linked sessions whose envelopes arrive in line. -/
structure Conversing (s : Net β ω) : Prop where
  genuine : ∀ e ∈ s.sent, e.Genuine P
  decoded : Decoded s
  sent : ∀ i ∈ s.positions, i < s.sent.length
  linked : ∃ x a b sa sb, Linked P E pair s x a b sa sb
  lines : ∀ y snd rcv, s.session y = some snd → s.session y.other = some rcv → Line s y snd rcv

variable {P E pair}

/-- What a linked session has sent on its current chain it has sent last. -/
theorem Linked.order {x : Party} {a b : RatchetSession β} {sa sb : β}
    (hl : Linked P E pair s x a b sa sb) (hs : s.session y = some snd) {i j : ℕ} {e e' : Sent β ω}
    (hi : s.sent[i]? = some e) (hj : s.sent[j]? = some e') (hi' : e.sender = y)
    (hj' : e'.sender = y) (hne : e.header.rk ≠ snd.ourRatchetPublic)
    (heq : e'.header.rk = snd.ourRatchetPublic) : i < j := by
  rcases x.eq_or_eq_other y with rfl | rfl
  · obtain rfl := Option.some.inj (hl.ahead.symm.trans hs)
    exact hl.out.order i j e e' hi hj hi' hj' hne heq
  · obtain rfl := Option.some.inj (hl.behind.symm.trans hs)
    exact hl.back.order i j e e' hi hj hi' hj' hne heq

/-- A linked session's ratchet key is one its party has drawn. -/
theorem Linked.drawn {x : Party} {a b : RatchetSession β} {sa sb : β}
    (hl : Linked P E pair s x a b sa sb) (hs : s.session y = some snd) :
    Drawn P (E y) (s.world y).keysDrawn snd.ourRatchetPublic := by
  rcases x.eq_or_eq_other y with rfl | rfl
  · obtain rfl := Option.some.inj (hl.ahead.symm.trans hs)
    exact hl.out.ourDrawn
  · obtain rfl := Option.some.inj (hl.behind.symm.trans hs)
    exact hl.back.ourDrawn

/-- Linked sessions can send. -/
theorem Linked.sendChainKey {x : Party} {a b : RatchetSession β} {sa sb : β}
    (hl : Linked P E pair s x a b sa sb) (y : Party) :
    ∃ snd ck, s.session y = some snd ∧ snd.sendChainKey = some ck := by
  rcases x.eq_or_eq_other y with rfl | rfl
  · exact ⟨a, _, hl.ahead, hl.out.key⟩
  · exact ⟨b, _, hl.behind, hl.back.key⟩

/-- A party sends. -/
theorem Conversing.encrypt (hc : Conversing P E pair s) (p : Party) (plaintext : CodeUnits) :
    Conversing P E pair (s.next P E (.encrypt p plaintext)) := by
  obtain ⟨x, a, b, sa, sb, hl⟩ := hc.linked
  obtain ⟨session, ck, hs, hck⟩ := hl.sendChainKey p
  refine ⟨genuine_next P E hc.genuine _, hc.decoded.encrypt p plaintext,
    positions_lt_next hc.sent _, hl.encrypt p plaintext, ?_⟩
  rw [next_encrypt P E plaintext hs hck]
  intro y snd rcv hsnd hrcv
  rcases y.eq_or_eq_other p with rfl | rfl
  · -- `y` sends
    rw [session_update_self] at hsnd
    rw [session_update_ne _ (Party.other_ne _)] at hrcv
    obtain rfl := Option.some.inj ((KeyStore.storeSession_sessions_self ..).symm.trans hsnd)
    exact (hc.lines _ _ _ hs hrcv).send rfl rfl hc.sent rfl rfl
  · -- the other party sends
    rw [session_update_ne _ (Party.ne_other _)] at hsnd
    rw [session_update_self] at hrcv
    obtain rfl := Option.some.inj ((KeyStore.storeSession_sessions_self ..).symm.trans hrcv)
    exact (hc.lines _ _ _ hsnd hs).other (Party.other_ne y) rfl rfl rfl rfl rfl

/-- The next envelope of a party arrives. -/
theorem Conversing.deliver (hc : Conversing P E pair s) (hP : P.Ideal pair)
    (hgen : ∀ p i, pair (P.toDHKeyPair ((E p).key i)))
    (hpub : ∀ p, Function.Injective (publicKeyAt P (E p))) {i : ℕ} {e : Sent β ω}
    (hi : s.sent[i]? = some e) (hnext : NextInLine 0 s i e) :
    Conversing P E pair (s.next P E (.deliver i)) := by
  obtain ⟨x, a, b, sa, sb, hl⟩ := hc.linked
  obtain ⟨snd₀, _, hsnd₀, -⟩ := hl.sendChainKey e.sender
  obtain ⟨rcv₀, _, hrcv₀, -⟩ := hl.sendChainKey e.sender.other
  have hline := hc.lines _ _ _ hsnd₀ hrcv₀
  have hexpected := hline.first i e hi rfl hnext
  obtain ⟨hlinked, hdel, snd, rcv, rcv', hsnd, hrcv, hsnd', hrcv', hheard⟩ :=
    hl.deliver hP.roundTrips hP.agrees hgen hpub hi (hc.genuine e (List.mem_of_getElem? hi))
      hnext.once (fun j hj e' he' hs' => by
        -- what is delivered is not behind what comes next
        rcases Nat.lt_trichotomy j i with hlt | rfl | hlt
        · exact .inr hlt
        · exact absurd hj hnext.once
        · exact absurd (hline.closed j i e' e he' hi hs' rfl hlt hj) hnext.once)
      (by rw [hrcv₀]; exact hexpected.within)
  obtain rfl := Option.some.inj (hsnd₀.symm.trans hsnd)
  obtain rfl := Option.some.inj (hrcv₀.symm.trans hrcv)
  refine ⟨genuine_next P E hc.genuine _, hc.decoded.deliver hi hdel, positions_lt_next hc.sent _,
    hlinked, ?_⟩
  intro y snd₁ rcv₁ hsnd₁ hrcv₁
  rcases Party.eq_or_eq_other e.sender y with hy | hy
  · rw [hy] at hsnd₁ hrcv₁ ⊢
    obtain rfl := Option.some.inj (hsnd'.symm.trans hsnd₁)
    obtain rfl := Option.some.inj (hrcv'.symm.trans hrcv₁)
    refine hline.take hi rfl hnext hdel.1 hdel.positions hheard.their ?_
      (fun _ _ _ _ hi hj => hl.order hsnd hi hj)
    rcases hheard.counted with ⟨ht, hlt⟩ | hcount
    · have := hexpected.ahead ht
      omega
    · exact hcount
  · rw [hy, Party.other_other] at hrcv₁
    rw [hy] at hsnd₁ ⊢
    obtain rfl := Option.some.inj (hrcv'.symm.trans hsnd₁)
    obtain rfl := Option.some.inj (hsnd'.symm.trans hrcv₁)
    have hback := hc.lines e.sender.other _ _ hrcv (by rw [Party.other_other]; exact hsnd)
    exact hback.hear hi (Party.ne_other _) hdel.1 hdel.positions hheard (hl.drawn hrcv)

/-- **One step in line keeps the invariant.** -/
theorem Conversing.next (hc : Conversing P E pair s) (hP : P.Ideal pair)
    (hgen : ∀ p i, pair (P.toDHKeyPair ((E p).key i)))
    (hpub : ∀ p, Function.Injective (publicKeyAt P (E p))) {ev : Event β} (hev : InLine 0 s ev) :
    Conversing P E pair (s.next P E ev) := by
  cases ev with
  | initSessionFromBundle p bundle => exact absurd hev id
  | encrypt p plaintext => exact hc.encrypt p plaintext
  | deliver i =>
    cases hi : s.sent[i]? with
    | none =>
      rw [next_deliver_none P E hi]
      exact hc
    | some e => exact hc.deliver hP hgen hpub hi (hev e hi)

/-- Two linked sessions between which nothing is under way, each of which expects what the other
sends next. -/
theorem conversing_start {w : Party → World β} {x : Party} {a b : RatchetSession β} {sa sb : β}
    (hl : Linked P E pair (start w : Net β ω) x a b sa sb) (ha : Expected a (nextHeader b))
    (hb : Expected b (nextHeader a)) : Conversing P E pair (start w : Net β ω) where
  genuine e he := absurd he List.not_mem_nil
  decoded i r hr := absurd hr List.not_mem_nil
  sent i hi := absurd hi List.not_mem_nil
  linked := ⟨x, a, b, sa, sb, hl⟩
  lines y snd rcv hsnd hrcv := by
    have hexpected : Expected rcv (nextHeader snd) := by
      rcases x.eq_or_eq_other y with rfl | rfl
      · obtain rfl := Option.some.inj (hl.ahead.symm.trans hsnd)
        obtain rfl := Option.some.inj (hl.behind.symm.trans hrcv)
        exact hb
      · rw [Party.other_other] at hrcv
        obtain rfl := Option.some.inj (hl.behind.symm.trans hsnd)
        obtain rfl := Option.some.inj (hl.ahead.symm.trans hrcv)
        exact ha
    have hnone : ∀ (i : ℕ) (e : Sent β ω), (start w).sent[i]? ≠ some e := fun i e h => by cases h
    exact ⟨fun i _ e _ h => absurd h (hnone i e), fun i e h => absurd h (hnone i e),
      fun _ => hexpected, fun i _ e _ h => absurd h (hnone i e), fun i e h => absurd h (hnone i e)⟩

/-! ## From any state on -/

/-- `t` is what happened in `s` from the `k`-th envelope on. -/
structure Since (k : ℕ) (s t : Net β ω) : Prop where
  long : k ≤ s.sent.length
  world : t.world = s.world
  sent : t.sent = s.sent.drop k
  delivered : ∀ i r, (i, r) ∈ t.delivered ↔ (k + i, r) ∈ s.delivered

omit [DecidableEq β] in
theorem Since.positions {k : ℕ} {t : Net β ω} (h : Since k s t) (i : ℕ) :
    i ∈ t.positions ↔ k + i ∈ s.positions := by
  simp only [Net.positions, List.mem_map]
  constructor
  · rintro ⟨⟨j, r⟩, hmem, rfl⟩
    exact ⟨(k + j, r), (h.delivered j r).mp hmem, rfl⟩
  · rintro ⟨⟨j, r⟩, hmem, rfl⟩
    exact ⟨(i, r), (h.delivered i r).mpr hmem, rfl⟩

omit [DecidableEq β] in
theorem Since.getElem? {k : ℕ} {t : Net β ω} (h : Since k s t) (i : ℕ) :
    t.sent[i]? = s.sent[k + i]? := by
  rw [h.sent, List.getElem?_drop]

/-- **What happens is decided by the worlds.** -/
theorem Since.next {k : ℕ} {t : Net β ω} (h : Since k s t) {ev : Event β} (hev : InLine k s ev) :
    ∃ ev', InLine 0 t ev' ∧ Since k (s.next P E ev) (t.next P E ev') := by
  cases ev with
  | initSessionFromBundle p bundle => exact absurd hev id
  | encrypt p plaintext =>
    refine ⟨.encrypt p plaintext, trivial, ?_, ?_, ?_, h.delivered⟩
    · simp only [Net.next, List.length_append]
      exact Nat.le_trans h.long (Nat.le_add_right _ _)
    · simp only [Net.next, h.world]
    · simp only [Net.next, session, h.world, h.sent]
      rw [List.drop_append_of_le_length h.long]
  | deliver i =>
    cases hi : s.sent[i]? with
    | none =>
      have hki : k ≤ i := Nat.le_trans h.long (List.getElem?_eq_none_iff.mp hi)
      have hnone : t.sent[i - k]? = none := by
        rw [h.getElem?, Nat.add_sub_cancel' hki]
        exact hi
      refine ⟨.deliver (i - k), fun e he => ?_, ?_⟩
      · rw [hnone] at he
        cases he
      · rw [next_deliver_none P E hi, next_deliver_none P E hnone]
        exact h
    | some e =>
      have hnext := hev e hi
      obtain ⟨j, rfl⟩ := Nat.exists_eq_add_of_le hnext.since
      have hj : t.sent[j]? = some e := (h.getElem? j).trans hi
      refine ⟨.deliver j, fun e' he' => ?_, ?_⟩
      · obtain rfl := Option.some.inj (hj.symm.trans he')
        refine ⟨Nat.zero_le j, fun hmem => hnext.once ((h.positions j).mp hmem), ?_⟩
        intro l hl _ e'' he'' hs''
        rw [h.getElem?] at he''
        exact (h.positions l).mpr
          (hnext.before (k + l) (by omega) (Nat.le_add_right k l) e'' he'' hs'')
      · rw [next_deliver P E hi, next_deliver P E hj]
        refine ⟨h.long, ?_, h.sent, ?_⟩
        · simp only [h.world]
        · intro l r
          simp only [h.world, List.mem_append, List.mem_singleton, Prod.mk.injEq, h.delivered,
            Nat.add_left_cancel_iff]

/-- A run from `s` on is one from its worlds. -/
theorem since_reaches {t : Net β ω} (hpos : ∀ i ∈ s.positions, i < s.sent.length)
    (hrun : Reaches (Net.next P E) (InLine s.sent.length) s t) :
    ∃ t', Reaches (Net.next P E) (InLine 0) (start s.world) t' ∧ Since s.sent.length t t' := by
  refine hrun.invariant (I := fun t => ∃ t', Reaches (Net.next P E) (InLine 0) (start s.world) t' ∧
    Since s.sent.length t t') ⟨start s.world, .refl _, Nat.le_refl _, rfl, ?_, ?_⟩ ?_
  · rw [List.drop_length]
    rfl
  · intro i r
    refine iff_of_false List.not_mem_nil fun hmem => ?_
    have := hpos _ (List.mem_map_of_mem (f := Prod.fst) hmem)
    omega
  · rintro t ev ⟨t', hrun', hsince⟩ hev
    obtain ⟨ev', hev', hsince'⟩ := hsince.next hev
    exact ⟨_, hrun'.tail hev', hsince'⟩

/-- **In line, linked sessions go on.** -/
theorem goesOn_of_linked (hP : P.Ideal pair) (hgen : ∀ p i, pair (P.toDHKeyPair ((E p).key i)))
    (hpub : ∀ p, Function.Injective (publicKeyAt P (E p)))
    (hpos : ∀ i ∈ s.positions, i < s.sent.length) {x : Party} {a b : RatchetSession β} {sa sb : β}
    (hl : Linked P E pair (start s.world : Net β ω) x a b sa sb) (ha : Expected a (nextHeader b))
    (hb : Expected b (nextHeader a)) : GoesOn P E s := by
  intro t hrun i r hki hr
  obtain ⟨t', hrun', hsince⟩ := since_reaches hpos hrun
  have hc : Conversing P E pair t' := hrun'.invariant (conversing_start hl ha hb)
    fun _ _ h hev => h.next hP hgen hpub hev
  obtain ⟨j, rfl⟩ := Nat.exists_eq_add_of_le hki
  obtain ⟨e, he, hok⟩ := hc.decoded j r ((hsince.delivered j r).mpr hr)
  exact ⟨e, (hsince.getElem? j).symm.trans he, hok⟩

end Net
end Winkd
