import Winkd.Manager
import Winkd.Parties

/-!
# Two managers and the envelopes between them

A `Net` is the state of a conversation: both parties' worlds, every envelope
either of them has sent, and what came of each delivery.  Calls do not overlap.
Envelopes are named by their position in `sent`, so a run decides freely which
of them arrive, in which order and how often; claims that restrict this say so
in the runs they are about.

`session`, `chainKey` and `used` are ghosts: the managers never read them.
-/

namespace Winkd
open UnicodeText SignalSessionManager

/-- An envelope one of the parties sent. -/
structure Sent (β ω : Type) extends Returned β ω where
  sender : Party

/-- An entry of a list with one more entry is an old one or the new one. -/
theorem getElem?_concat_cases {α : Type} {l : List α} {a b : α} {i : ℕ}
    (h : (l ++ [a])[i]? = some b) : l[i]? = some b ∨ i = l.length ∧ b = a := by
  rw [List.getElem?_append] at h
  split at h
  · exact .inl h
  · right
    cases hi : i - l.length with
    | zero =>
      rw [hi] at h
      exact ⟨by omega, (Option.some.inj h).symm⟩
    | succ k => rw [hi] at h; cases h

theorem getElem?_append_of_some {α : Type} {l l' : List α} {a : α} {i : ℕ} (h : l[i]? = some a) :
    (l ++ l')[i]? = some a := by
  obtain ⟨hi, -⟩ := List.getElem?_eq_some_iff.mp h
  rw [List.getElem?_append_left hi, h]

/-- The state of a conversation. -/
structure Net (β ω : Type) where
  world : Party → World β
  sent : List (Sent β ω)
  /-- Which envelope was delivered, and what `decrypt` gave, in order. -/
  delivered : List (ℕ × Except Failure CodeUnits)
  /-- The message keys each party's calls have taken. -/
  used : Party → List β

/-- A step of a conversation. -/
inductive Event (β : Type) where
  | initSessionFromBundle (p : Party) (bundle : PreKeyBundle β)
  | encrypt (p : Party) (plaintext : CodeUnits)
  | deliver (i : ℕ)

namespace Net
variable {β ω : Type} [DecidableEq β] (P : Platform β ω) (E : Party → Entropy β)

/-- The session `p` has stored for the other party. -/
def session (s : Net β ω) (p : Party) : Option (RatchetSession β) :=
  (s.world p).store.sessions p.other.userId

/-- The positions delivered so far. -/
def positions (s : Net β ω) : List ℕ := s.delivered.map Prod.fst

/-- The message key a call of `decrypt` takes, if it comes to that. -/
def keyTaken (r : Except Failure (β × WireMessage β)) : List β :=
  match r with
  | .error _ => []
  | .ok (key, _) => [key]

/-- One call, or one delivery. -/
def next (s : Net β ω) : Event β → Net β ω
  | .initSessionFromBundle p bundle =>
    { s with
      world := Function.update s.world p
        ((initSessionFromBundle P p.other.userId bundle).run (serve (E p)) (s.world p)).2 }
  | .encrypt p plaintext =>
    let r := (encrypt P p.other.userId plaintext).run (serve (E p)) (s.world p)
    let new := (returnedBy plaintext (s.session p) r.1).map fun e => Sent.mk e p
    { world := Function.update s.world p r.2
      sent := s.sent ++ new
      delivered := s.delivered
      used := Function.update s.used p (s.used p ++ new.map fun e => e.messageKey P) }
  | .deliver i =>
    match s.sent[i]? with
    | none => s
    | some e =>
      let q := e.sender.other
      let r := (decrypt P e.sender.userId e.envelope).run (serve (E q)) (s.world q)
      let key := (decryptKey P e.sender.userId e.envelope).run (serve (E q)) (s.world q)
      { world := Function.update s.world q r.2
        sent := s.sent
        delivered := s.delivered ++ [(i, r.1)]
        used := Function.update s.used q (s.used q ++ keyTaken key.1) }

/-- A conversation between two parties that have not spoken yet. -/
def start (w : Party → World β) : Net β ω :=
  { world := w, sent := [], delivered := [], used := fun _ => [] }

/-! ## What each event does -/

theorem next_init (s : Net β ω) (p : Party) (bundle : PreKeyBundle β) :
    s.next P E (.initSessionFromBundle p bundle) =
      { s with
        world := Function.update s.world p
          ((initSessionFromBundle P p.other.userId bundle).run (serve (E p)) (s.world p)).2 } :=
  rfl

/-- The world of a party that has sent one envelope. -/
def worldAfterSend (w : World β) (peerId : String) (session : RatchetSession β) (ck : β) : World β :=
  { store := w.store.storeSession peerId (afterSend session (P.kdfChainKey ck).nextChainKey)
    keysDrawn := w.keysDrawn
    ivsDrawn := w.ivsDrawn + 1 }

/-- The envelope `p` sends next, from its session. -/
def nextSent (s : Net β ω) (p : Party) (plaintext : CodeUnits) (session : RatchetSession β)
    (ck : β) : Sent β ω :=
  { session := session
    chainKey := ck
    plaintext := plaintext
    envelope := envelopeOf P session ck ((E p).iv (s.world p).ivsDrawn) plaintext
      (s.world p).store.registrationId
    sender := p }

/-- `encrypt` by a party that can send. -/
theorem next_encrypt {s : Net β ω} {p : Party} {session : RatchetSession β} {ck : β}
    (plaintext : CodeUnits) (hs : s.session p = some session)
    (hck : session.sendChainKey = some ck) :
    s.next P E (.encrypt p plaintext) =
      { world := Function.update s.world p (worldAfterSend P (s.world p) p.other.userId session ck)
        sent := s.sent ++ [nextSent P E s p plaintext session ck]
        delivered := s.delivered
        used := Function.update s.used p (s.used p ++ [(P.kdfChainKey ck).messageKey]) } := by
  have hrun := run_encrypt P (E p) plaintext hs hck
  simp only [next, hrun, hs, returnedBy, hck]
  rfl

/-- `encrypt` by a party that cannot send changes nothing. -/
theorem next_encrypt_refused {s : Net β ω} {p : Party} {plaintext : CodeUnits} {e : Failure}
    (h : (encrypt P p.other.userId plaintext).run (serve (E p)) (s.world p) =
      (.error e, s.world p)) : s.next P E (.encrypt p plaintext) = s := by
  simp only [next, h, returnedBy, List.map_nil, List.append_nil, Function.update_eq_self]

/-- An encryption either changes nothing or sends. -/
theorem next_encrypt_cases (s : Net β ω) (p : Party) (plaintext : CodeUnits) :
    s.next P E (.encrypt p plaintext) = s ∨
      ∃ session ck, s.session p = some session ∧ session.sendChainKey = some ck := by
  rcases run_encrypt_cases P (E p) p.other.userId plaintext (s.world p) with ⟨e, he⟩ | h
  · exact .inl (next_encrypt_refused P E he)
  · exact .inr h

theorem next_deliver_none {s : Net β ω} {i : ℕ} (h : s.sent[i]? = none) :
    s.next P E (.deliver i) = s := by
  rw [next, h]

theorem next_deliver {s : Net β ω} {i : ℕ} {e : Sent β ω} (h : s.sent[i]? = some e) :
    s.next P E (.deliver i) =
      { world := Function.update s.world e.sender.other
          ((decryptKey P e.sender.userId e.envelope).run (serve (E e.sender.other))
            (s.world e.sender.other)).2
        sent := s.sent
        delivered := s.delivered ++ [(i, ((decrypt P e.sender.userId e.envelope).run
          (serve (E e.sender.other)) (s.world e.sender.other)).1)]
        used := Function.update s.used e.sender.other (s.used e.sender.other ++
          keyTaken ((decryptKey P e.sender.userId e.envelope).run (serve (E e.sender.other))
            (s.world e.sender.other)).1) } := by
  have hw := perform_decrypt P (E e.sender.other) e.sender.userId (s.world e.sender.other)
    e.envelope
  rw [perform] at hw
  rw [next, h]
  simp only [hw]

/-! ## Every envelope is genuine -/

omit [DecidableEq β] in
theorem nextSent_genuine {s : Net β ω} {p : Party} {session : RatchetSession β} {ck : β}
    (plaintext : CodeUnits) (hck : session.sendChainKey = some ck) :
    (nextSent P E s p plaintext session ck).Genuine P :=
  ⟨hck, _, _, rfl⟩

/-- One event keeps every envelope genuine. -/
theorem genuine_next {s : Net β ω} (hs : ∀ e ∈ s.sent, e.Genuine P) (ev : Event β) :
    ∀ e ∈ (s.next P E ev).sent, e.Genuine P := by
  cases ev with
  | initSessionFromBundle p bundle => exact hs
  | encrypt p plaintext =>
    rcases next_encrypt_cases P E s p plaintext with h | ⟨session, ck, hl, hck⟩
    · rw [h]; exact hs
    · rw [next_encrypt P E plaintext hl hck]
      intro e he
      rcases List.mem_append.mp he with he | he
      · exact hs e he
      · rw [List.mem_singleton.mp he]
        exact nextSent_genuine P E plaintext hck
  | deliver i =>
    cases h : s.sent[i]? with
    | none => rw [next_deliver_none P E h]; exact hs
    | some e => rw [next_deliver P E h]; exact hs

end Net

/-! ## Conversations between new parties -/

/-- Both parties' random values, on the symbolic platform. -/
def freshEntropy (p : Party) : Entropy Bytes := p.entropy (fun i => [i.toUInt8])

/-- Two new parties, each with a signed pre-key 1 and the one-time pre-keys
`opkIds`. -/
def newParties (opkIds : List Int) (p : Party) : World Bytes :=
  p.newWorld [1] opkIds

/-- The conversation of two new parties, symbolically, after `events`. -/
def conversation (opkIds : List Int) (events : List (Event Bytes)) :
    Net Bytes Payload :=
  events.foldl (Net.next (symbolic Name) freshEntropy) (Net.start (newParties opkIds))

end Winkd
