import Winkd.Overlap
import Winkd.ReceivingChain

/-!
# Two calls of the manager that overlap

A call loads the session of its peer, and stores it again later; nothing keeps another call
for the peer from doing the same in between.  Two calls are as good as one after the other
if their accesses to one record, of which one is a write, all come in one order
(`overlapping_calls_serialisable`).  Two calls of `encrypt` that both load the session
before either stores it send two envelopes with one number.

Each call draws its own random values, whatever the other does.
-/

namespace Winkd
open UnicodeText

/-! ## Records -/

/-- A record of the store that calls write. -/
inductive Record where
  | session (peerId : String)
  | preKey (id : Int)
  deriving DecidableEq

namespace Request
variable {β : Type}

/-- The record that is read or written. -/
def record : Request β → Option Record
  | .loadPreKey id => some (.preKey id)
  | .removePreKey id => some (.preKey id)
  | .loadSession peerId => some (.session peerId)
  | .storeSession peerId _ => some (.session peerId)
  | _ => none

def writes : Request β → Bool
  | .removePreKey _ => true
  | .storeSession _ _ => true
  | _ => false

/-- The two access one record, and one of them writes it. -/
def Conflicts (r r' : Request β) : Prop :=
  (r.writes = true ∨ r'.writes = true) ∧ ∃ a ∈ r.record, a ∈ r'.record

instance (r r' : Request β) : Decidable (r.Conflicts r') :=
  inferInstanceAs (Decidable ((r.writes = true ∨ r'.writes = true) ∧ ∃ a ∈ r.record, a ∈ r'.record))

theorem conflicts_symm {r r' : Request β} (h : r.Conflicts r') : r'.Conflicts r := by
  obtain ⟨hw, a, ha, ha'⟩ := h
  exact ⟨hw.symm, a, ha', ha⟩

end Request

/-! ## Two calls on one store -/

/-- The store that two calls share, and how many random values each has drawn. -/
structure SharedStore (β : Type) where
  store : KeyStore β
  first : ℕ × ℕ
  second : ℕ × ℕ

namespace SignalSessionManager
variable {β ω : Type}

/-- How the first call is answered. -/
def serveFirst (E : Entropy β) : Prog.Handler (Request β) (Reply β) (SharedStore β) := fun r s =>
  let reply := serve E r ⟨s.store, s.first.1, s.first.2⟩
  (reply.1, { s with store := reply.2.store, first := (reply.2.keysDrawn, reply.2.ivsDrawn) })

def serveSecond (E : Entropy β) : Prog.Handler (Request β) (Reply β) (SharedStore β) := fun r s =>
  let reply := serve E r ⟨s.store, s.second.1, s.second.2⟩
  (reply.1, { s with store := reply.2.store, second := (reply.2.keysDrawn, reply.2.ivsDrawn) })

theorem removePreKey_preKeys_ne (s : KeyStore β) {id id' : Int} (h : id' ≠ id) :
    (s.removePreKey id).preKeys id' = s.preKeys id' := by
  rw [KeyStore.removePreKey_preKeys, Function.update_of_ne h]

/-- **Requests that do not conflict may change places.** -/
theorem commute_of_not_conflicts (E₁ E₂ : Entropy β) (r₁ r₂ : Request β) (h : ¬ r₁.Conflicts r₂) :
    Prog.Commute (serveFirst E₁) (serveSecond E₂) r₁ r₂ := by
  cases r₁ with
  | loadPreKey id =>
    cases r₂ with
    | removePreKey id' =>
      -- the two are about different keys, or they would conflict
      have hne : id ≠ id' := by
        rintro rfl
        exact h ⟨.inr rfl, .preKey id, rfl, rfl⟩
      exact ⟨fun s => removePreKey_preKeys_ne s.store hne, fun _ => rfl, fun _ => rfl⟩
    | _ => exact ⟨fun _ => rfl, fun _ => rfl, fun _ => rfl⟩
  | removePreKey id =>
    cases r₂ with
    | loadPreKey id' =>
      have hne : id' ≠ id := by
        rintro rfl
        exact h ⟨.inl rfl, .preKey id', rfl, rfl⟩
      exact ⟨fun _ => rfl, fun s => removePreKey_preKeys_ne s.store hne, fun _ => rfl⟩
    | removePreKey id' =>
      have hne : id ≠ id' := by
        rintro rfl
        exact h ⟨.inl rfl, .preKey id, rfl, rfl⟩
      refine ⟨fun _ => rfl, fun _ => rfl, fun s => ?_⟩
      simp only [serveFirst, serveSecond, serve, KeyStore.removePreKey]
      rw [Function.update_comm hne]
    | _ => exact ⟨fun _ => rfl, fun _ => rfl, fun _ => rfl⟩
  | loadSession p =>
    cases r₂ with
    | storeSession p' session =>
      have hne : p ≠ p' := by
        rintro rfl
        exact h ⟨.inr rfl, .session p, rfl, rfl⟩
      exact ⟨fun s => KeyStore.storeSession_sessions_ne s.store session hne, fun _ => rfl,
        fun _ => rfl⟩
    | _ => exact ⟨fun _ => rfl, fun _ => rfl, fun _ => rfl⟩
  | storeSession p session =>
    cases r₂ with
    | loadSession p' =>
      have hne : p' ≠ p := by
        rintro rfl
        exact h ⟨.inl rfl, .session p', rfl, rfl⟩
      exact ⟨fun _ => rfl, fun s => KeyStore.storeSession_sessions_ne s.store session hne,
        fun _ => rfl⟩
    | storeSession p' session' =>
      have hne : p ≠ p' := by
        rintro rfl
        exact h ⟨.inl rfl, .session p, rfl, rfl⟩
      refine ⟨fun _ => rfl, fun _ => rfl, fun s => ?_⟩
      simp only [serveFirst, serveSecond, serve, KeyStore.storeSession]
      rw [Function.update_comm hne]
    | _ => exact ⟨fun _ => rfl, fun _ => rfl, fun _ => rfl⟩
  | _ => cases r₂ <;> exact ⟨fun _ => rfl, fun _ => rfl, fun _ => rfl⟩

/-! ## Two calls for one peer -/

/-- What a call returns. -/
inductive CallResult (ω : Type) where
  | initialised
  | envelope (e : EncryptedEnvelope ω)
  | plaintext (t : CodeUnits)
  deriving DecidableEq

section Calls
variable [DecidableEq β] (P : Platform β ω) (E₁ E₂ : Entropy β) (peerId : String)

/-- A call of the manager. -/
def callOf : ManagerCall β ω → Call β (CallResult ω)
  | .initSessionFromBundle bundle => do
    initSessionFromBundle P peerId bundle
    pure .initialised
  | .encrypt plaintext => do
    let e ← encrypt P peerId plaintext
    pure (.envelope e)
  | .decrypt envelope => do
    let t ← decrypt P peerId envelope
    pure (.plaintext t)

/-- Two calls of the manager, when their requests are answered in the order of a
schedule. -/
def overlapped (l : List Prog.Turn) (c₁ c₂ : ManagerCall β ω) (s : SharedStore β) :
    Prog.Overlapped (Request β) (Reply β) Failure (CallResult ω) (CallResult ω) (SharedStore β) :=
  Prog.overlap (serveFirst E₁) (serveSecond E₂) l (callOf P peerId c₁) (callOf P peerId c₂) s

/-- The two results and the stored session are those of one call after the other. -/
def Serialised (c₁ c₂ : ManagerCall β ω) (s : SharedStore β) (x y : Except Failure (CallResult ω))
    (session : Option (RatchetSession β)) : Prop :=
  (let first := (callOf P peerId c₁).run (serveFirst E₁) s
    let second := (callOf P peerId c₂).run (serveSecond E₂) first.2
    first.1 = x ∧ second.1 = y ∧ second.2.store.sessions peerId = session) ∨
  (let second := (callOf P peerId c₂).run (serveSecond E₂) s
    let first := (callOf P peerId c₁).run (serveFirst E₁) second.2
    first.1 = x ∧ second.1 = y ∧ first.2.store.sessions peerId = session)

/-- The accesses that conflict come in one order. -/
def ConflictsInOrder (l : List (Prog.Turn × Request β)) : Prop :=
  Prog.FirstFirst Request.Conflicts l ∨
    Prog.FirstFirst Request.Conflicts (l.map fun e => (e.1.swap, e.2))

variable {P E₁ E₂ peerId}

/-- **Two calls that overlap are as good as one after the other** when their accesses that
conflict come in one order. -/
theorem overlapping_calls_serialisable {l : List Prog.Turn} {c₁ c₂ : ManagerCall β ω}
    {s : SharedStore β} {x y : Except Failure (CallResult ω)}
    (hx : (overlapped P E₁ E₂ peerId l c₁ c₂ s).first.result = some x)
    (hy : (overlapped P E₁ E₂ peerId l c₁ c₂ s).second.result = some y)
    (horder : ConflictsInOrder (overlapped P E₁ E₂ peerId l c₁ c₂ s).trace) :
    Serialised P E₁ E₂ peerId c₁ c₂ s x y
      ((overlapped P E₁ E₂ peerId l c₁ c₂ s).state.store.sessions peerId) := by
  rcases horder with horder | horder
  · obtain ⟨hfirst, hsecond, -⟩ :=
      Prog.overlap_serial (commute_of_not_conflicts E₁ E₂) l _ _ s hx hy horder
    refine .inl ⟨hfirst, ?_⟩
    rw [hsecond]
    exact ⟨rfl, rfl⟩
  · obtain ⟨hsecond, hfirst⟩ :=
      Prog.overlap_serial_second (commute_of_not_conflicts E₁ E₂) Request.conflicts_symm l _ _ s
        hx hy horder
    refine .inr ⟨?_, hsecond, ?_⟩
    · rw [hfirst]
    · rw [hfirst]
      rfl

end Calls

/-! ## Two calls at Bob's -/

/-- What two calls of a party share that has drawn its first values. -/
def sharedBy (w : World Bytes) : SharedStore Bytes :=
  ⟨w.store, (w.keysDrawn, w.ivsDrawn), (w.keysDrawn + 1, w.ivsDrawn + 1)⟩

/-- Two calls at Bob's, once he has received Alice's first message. -/
def bobOverlapped (l : List Prog.Turn) (c₁ c₂ : ManagerCall Bytes Payload) :
    Prog.Overlapped (Request Bytes) (Reply Bytes) Failure (CallResult Payload) (CallResult Payload)
      (SharedStore Bytes) :=
  overlapped (symbolic Name) (freshEntropy .bob) (freshEntropy .bob) "alice" l c₁ c₂
    (sharedBy (bobAfter 1))

instance (l : List (Prog.Turn × Request Bytes)) : Decidable (ConflictsInOrder l) :=
  inferInstanceAs (Decidable (List.Pairwise _ _ ∨ List.Pairwise _ _))

/-- Bob answers while the first message arrives again; he stores his session before the
call that receives it first stores one. -/
def answerDuringReplay : List Prog.Turn :=
  [.first, .second, .second, .first, .second, .first, .first, .second, .second]

theorem overlapping_calls_serialisable_replay :
    ∃ x y, Serialised (symbolic Name) (freshEntropy .bob) (freshEntropy .bob) "alice"
      (.encrypt [105]) (.decrypt (messageEnvelope ⟨0, by decide⟩)) (sharedBy (bobAfter 1)) x y
      ((bobOverlapped answerDuringReplay (.encrypt [105])
        (.decrypt (messageEnvelope ⟨0, by decide⟩))).state.store.sessions "alice") := by
  have hfirst : (bobOverlapped answerDuringReplay (.encrypt [105])
      (.decrypt (messageEnvelope ⟨0, by decide⟩))).first.result.isSome = true := by decide
  have hsecond : (bobOverlapped answerDuringReplay (.encrypt [105])
      (.decrypt (messageEnvelope ⟨0, by decide⟩))).second.result.isSome = true := by decide
  exact ⟨_, _, overlapping_calls_serialisable (Option.some_get hfirst).symm
    (Option.some_get hsecond).symm (by decide)⟩

/-- Both calls load the session before either stores it. -/
def bothLoadFirst : List Prog.Turn :=
  [.first, .second, .first, .first, .first, .second, .second, .second]

/-- The number of the message in the envelope that a call returned. -/
def numberOf : Except Failure (CallResult Payload) → Option Js.Value
  | .ok (.envelope e) => (e.ciphertext.bind WireMessage.h).map RatchetHeader.n
  | _ => none

/-- Bob sends two messages at once, and both have number 0. -/
theorem overlapping_encrypts_not_serialised :
    ¬ ∀ (l : List Prog.Turn) (c₁ c₂ : ManagerCall Bytes Payload) x y,
      (bobOverlapped l c₁ c₂).first.result = some x →
      (bobOverlapped l c₁ c₂).second.result = some y →
        Serialised (symbolic Name) (freshEntropy .bob) (freshEntropy .bob) "alice" c₁ c₂
          (sharedBy (bobAfter 1)) x y
          ((bobOverlapped l c₁ c₂).state.store.sessions "alice") := by
  intro h
  let o := bobOverlapped bothLoadFirst (.encrypt [105]) (.encrypt [106])
  have hfirst : o.first.result.map numberOf = some (some (.int 0)) := by decide
  have hsecond : o.second.result.map numberOf = some (some (.int 0)) := by decide
  obtain ⟨x, hx, hx0⟩ := Option.map_eq_some_iff.mp hfirst
  obtain ⟨y, hy, hy0⟩ := Option.map_eq_some_iff.mp hsecond
  -- one after the other, the later of the two has number 1
  rcases h bothLoadFirst (.encrypt [105]) (.encrypt [106]) x y hx hy with ⟨-, hy, -⟩ | ⟨hx, -, -⟩
  · rw [← hy] at hy0
    revert hy0
    decide
  · rw [← hx] at hx0
    revert hx0
    decide

end SignalSessionManager
end Winkd
