import Winkd.Effects
import Winkd.Transitions
import Mathlib.Data.List.Basic

/-!
# Programs that share a state

`Prog.run` answers the requests of one program, one after the other.  When several
programs work on one state their requests interleave.  A `Pool` is that state with
the programs under way; an act starts a program, answers one request of one of
them, or is a change of the state from outside.  A request is answered at once:
this is all that is atomic.

The trace lists the requests that were answered, the latest first, each with the
state it was answered in.  It is a ghost: no program reads it.
-/

namespace Threads
variable {R : Type} {A : R → Type} {ε α σ : Type}

/-- A request that was answered: whose it was, in which state, and the reply. -/
structure Entry (R : Type) (A : R → Type) (σ : Type) where
  task : ℕ
  before : σ
  request : R
  reply : A request

/-- Programs under way on a shared state. -/
structure Pool (R : Type) (A : R → Type) (ε α σ : Type) where
  state : σ
  tasks : List (Prog R A ε α)
  trace : List (Entry R A σ)

/-- A step of a pool. -/
inductive Act (R : Type) (A : R → Type) (ε α σ : Type) where
  | start (p : Prog R A ε α)
  | answer (task : ℕ)
  | outside (s : σ)

namespace Pool
variable (h : Prog.Handler R A σ)

/-- The entry the trace gets when `r` of task `i` is answered. -/
def entry (s : Pool R A ε α σ) (i : ℕ) (r : R) : Entry R A σ :=
  ⟨i, s.state, r, (h r s.state).1⟩

/-- The pool once `r` of task `i` has been answered. -/
def answered (s : Pool R A ε α σ) (i : ℕ) (r : R) (k : A r → Prog R A ε α) : Pool R A ε α σ where
  state := (h r s.state).2
  tasks := s.tasks.set i (k (h r s.state).1)
  trace := s.entry h i r :: s.trace

/-- One act.  Answering a task that has ended, or is none, does nothing. -/
def next (s : Pool R A ε α σ) : Act R A ε α σ → Pool R A ε α σ
  | .start p => { s with tasks := s.tasks ++ [p] }
  | .answer i =>
    match s.tasks[i]? with
    | some (.request r k) => s.answered h i r k
    | _ => s
  | .outside t => { s with state := t }

/-- A pool nothing runs in. -/
def idle (s : σ) : Pool R A ε α σ := ⟨s, [], []⟩

variable {h}

theorem next_answer {s : Pool R A ε α σ} {i : ℕ} {r : R} {k : A r → Prog R A ε α}
    (hp : s.tasks[i]? = some (.request r k)) : s.next h (.answer i) = s.answered h i r k := by
  rw [next, hp]

/-- Answering a task answers the request it has come to, if it has come to one. -/
theorem next_answer_cases (s : Pool R A ε α σ) (i : ℕ) :
    s.next h (.answer i) = s ∨ ∃ r k, s.tasks[i]? = some (.request r k) ∧
      s.next h (.answer i) = s.answered h i r k := by
  cases hp : s.tasks[i]? with
  | none => exact .inl (by rw [next, hp])
  | some p =>
    cases p with
    | pure a => exact .inl (by rw [next, hp])
    | throw e => exact .inl (by rw [next, hp])
    | request r k => exact .inr ⟨r, k, rfl, next_answer hp⟩

/-! ## Invariants -/

/-- An invariant of a pool: one of its state and trace, and an assertion on every
program under way. -/
structure Holds (G : σ → List (Entry R A σ) → Prop)
    (T : ℕ → Prog R A ε α → List (Entry R A σ) → Prop) (s : Pool R A ε α σ) : Prop where
  shared : G s.state s.trace
  own : ∀ i p, s.tasks[i]? = some p → T i p s.trace

variable {G : σ → List (Entry R A σ) → Prop} {T : ℕ → Prog R A ε α → List (Entry R A σ) → Prop}

theorem Holds.start {s : Pool R A ε α σ} (hs : Holds G T s) {p : Prog R A ε α}
    (hp : T s.tasks.length p s.trace) : Holds G T (s.next h (.start p)) where
  shared := hs.shared
  own i q hi := by
    rw [next, List.getElem?_append] at hi
    split at hi
    · exact hs.own i q hi
    · rename_i hlt
      obtain ⟨hz, hq⟩ := List.getElem?_eq_some_iff.mp hi
      have hlen : i = s.tasks.length := by
        rw [List.length_singleton] at hz
        omega
      subst hlen
      have hpq : p = q := by simpa using hq
      exact hpq ▸ hp

theorem Holds.outside {s : Pool R A ε α σ} (hs : Holds G T s) {t : σ} (ht : G t s.trace) :
    Holds G T (s.next h (.outside t)) := ⟨ht, hs.own⟩

/-- **Answering a request keeps an invariant** if the answer keeps its two halves, and
the assertions on the other programs do not see it. -/
theorem Holds.answer {s : Pool R A ε α σ} (hs : Holds G T s) (i : ℕ)
    (hstep : ∀ r k, s.tasks[i]? = some (.request r k) → T i (.request r k) s.trace →
      G (h r s.state).2 (s.entry h i r :: s.trace) ∧
        T i (k (h r s.state).1) (s.entry h i r :: s.trace))
    (hframe : ∀ (e : Entry R A σ) j p, e.task ≠ j → T j p s.trace → T j p (e :: s.trace)) :
    Holds G T (s.next h (.answer i)) := by
  rcases next_answer_cases (h := h) s i with heq | ⟨r, k, hp, heq⟩
  · rw [heq]
    exact hs
  · rw [heq]
    obtain ⟨hG, hT⟩ := hstep r k hp (hs.own i _ hp)
    refine ⟨hG, ?_⟩
    intro j q hq
    rw [answered, List.getElem?_set] at hq
    split at hq
    · rename_i hij
      split at hq
      · subst hij
        exact Option.some.inj hq ▸ hT
      · cases hq
    · rename_i hij
      exact hframe _ j q hij (hs.own j q hq)

/-- The request a task has come to. -/
def waiting (s : Pool R A ε α σ) (i : ℕ) : Option R :=
  match s.tasks[i]? with
  | some (.request r _) => some r
  | _ => none

theorem waiting_eq {s : Pool R A ε α σ} {i : ℕ} {r : R} {k : A r → Prog R A ε α}
    (hp : s.tasks[i]? = some (.request r k)) : s.waiting i = some r := by
  rw [waiting, hp]

theorem of_waiting {s : Pool R A ε α σ} {i : ℕ} {r : R} (hw : s.waiting i = some r) :
    ∃ k, s.tasks[i]? = some (.request r k) := by
  unfold waiting at hw
  split at hw
  · rename_i r' k hp
    cases hw
    exact ⟨k, hp⟩
  · cases hw

/-! ## Programs that keep to what they may do -/

section Along
variable {δ : Type} (may : δ → R → Prop) (seen : δ → (r : R) → A r → δ) (d : δ)

/-- What the replies have told task `i`, which began with `d`. -/
def learned (i : ℕ) : List (Entry R A σ) → δ
  | [] => d
  | e :: l => if e.task = i then seen (learned i l) e.request e.reply else learned i l

/-- Every program under way goes along, from what it has learned. -/
structure Disciplined (s : Pool R A ε α σ) : Prop where
  own : s.Holds (fun _ _ => True)
    fun i p l => p.Along may seen (fun _ _ => True) (learned seen d i l)
  started : ∀ e ∈ s.trace, e.task < s.tasks.length

/-- Every program under way goes along, and ends with a value that `V` allows. -/
structure Yields (V : δ → α → Prop) (s : Pool R A ε α σ) : Prop where
  own : s.Holds (fun _ _ => True)
    fun i p l => p.Along may seen V (learned seen d i l)
  started : ∀ e ∈ s.trace, e.task < s.tasks.length

/-- Every program under way goes along, and ends where `Q` holds. -/
structure Follows (Q : δ → Prop) (s : Pool R A ε α σ) : Prop where
  own : s.Holds (fun _ _ => True)
    fun i p l => p.Along may seen (fun d _ => Q d) (learned seen d i l)
  started : ∀ e ∈ s.trace, e.task < s.tasks.length

variable {may seen d}

theorem learned_other {i : ℕ} {e : Entry R A σ} (he : e.task ≠ i) (l : List (Entry R A σ)) :
    learned seen d i (e :: l) = learned seen d i l := if_neg he

theorem learned_own {i : ℕ} {e : Entry R A σ} (he : e.task = i) (l : List (Entry R A σ)) :
    learned seen d i (e :: l) = seen (learned seen d i l) e.request e.reply := if_pos he

theorem learned_none {i : ℕ} {l : List (Entry R A σ)} (hl : ∀ e ∈ l, e.task ≠ i) :
    learned seen d i l = d := by
  induction l with
  | nil => rfl
  | cons e l ih =>
    rw [learned_other (hl e List.mem_cons_self)]
    exact ih fun e he => hl e (List.mem_cons_of_mem _ he)

/-- **What is said of every program under way**, given what it has learned, is so after an act if an
answer keeps it, and it holds of programs that start. -/
theorem learning_next {T : ℕ → δ → Prog R A ε α → Prop}
    (hT : ∀ i d r k, T i d (.request r k) → ∀ x, T i (seen d r x) (k x)) {s : Pool R A ε α σ}
    (hown : s.Holds (fun _ _ => True) fun i p l => T i (learned seen d i l) p)
    (hstarted : ∀ e ∈ s.trace, e.task < s.tasks.length) {a : Act R A ε α σ}
    (ha : ∀ p, a = .start p → T s.tasks.length d p) :
    (s.next h a).Holds (fun _ _ => True) (fun i p l => T i (learned seen d i l) p) ∧
      ∀ e ∈ (s.next h a).trace, e.task < (s.next h a).tasks.length := by
  cases a with
  | start p =>
    constructor
    · apply hown.start
      -- the new task has had no reply yet
      rw [learned_none fun e he => Nat.ne_of_lt (hstarted e he)]
      exact ha p rfl
    · intro e he
      rw [Pool.next, List.length_append]
      exact Nat.lt_add_right _ (hstarted e he)
  | outside t => exact ⟨hown.outside trivial, hstarted⟩
  | answer i =>
    constructor
    · apply hown.answer
      · intro r k hp hown
        refine ⟨trivial, ?_⟩
        have hl : learned seen d i (s.entry h i r :: s.trace) =
            seen (learned seen d i s.trace) r (h r s.state).1 := learned_own rfl _
        rw [hl]
        exact hT i _ r k hown _
      · intro e j p hne hown
        rw [learned_other hne]
        exact hown
    · rcases next_answer_cases (h := h) s i with heq | ⟨r, k, hp, heq⟩
      · rw [heq]
        exact hstarted
      · rw [heq]
        intro e he
        show e.task < (s.tasks.set i (k (h r s.state).1)).length
        rw [List.length_set]
        rcases List.mem_cons.mp he with rfl | he
        · exact (List.getElem?_eq_some_iff.mp hp).1
        · exact hstarted e he

section Yields
variable {V : δ → α → Prop}

theorem Yields.idle (s : σ) :
    Yields may seen d V (Pool.idle s : Pool R A ε α σ) :=
  ⟨⟨trivial, fun _ _ h => nomatch h⟩, fun _ h => nomatch h⟩

/-- **A pool goes on yielding** when the programs it starts go along from `d`. -/
theorem Yields.next {s : Pool R A ε α σ} (hs : Yields may seen d V s) {a : Act R A ε α σ}
    (ha : ∀ p, a = .start p → p.Along may seen V d) : Yields may seen d V (s.next h a) := by
  obtain ⟨hown, hstarted⟩ := learning_next (h := h) (T := fun _ d p => p.Along may seen V d)
    (fun _ _ _ _ halong => halong.2) hs.own hs.started ha
  exact ⟨hown, hstarted⟩

theorem Yields.may_issue {s : Pool R A ε α σ} (hs : Yields may seen d V s) {i : ℕ} {r : R}
    {k : A r → Prog R A ε α} (hp : s.tasks[i]? = some (.request r k)) :
    may (learned seen d i s.trace) r := (hs.own.own i _ hp).1

/-- A task that has ended has a value that `V` allows. -/
theorem Yields.ended {s : Pool R A ε α σ} (hs : Yields may seen d V s) {i : ℕ} {a : α}
    (hp : s.tasks[i]? = some (.pure a)) : V (learned seen d i s.trace) a := hs.own.own i _ hp

end Yields

section Assigned
variable {own : ℕ → δ → R → Prop} {V : ℕ → δ → α → Prop}

/-- Every program under way goes along what its own task may do. -/
structure Assigned (own : ℕ → δ → R → Prop) (seen : δ → (r : R) → A r → δ) (d : δ)
    (V : ℕ → δ → α → Prop) (s : Pool R A ε α σ) : Prop where
  each : s.Holds (fun _ _ => True) fun i p l => p.Along (own i) seen (V i) (learned seen d i l)
  started : ∀ e ∈ s.trace, e.task < s.tasks.length

theorem Assigned.idle (s : σ) : Assigned own seen d V (Pool.idle s : Pool R A ε α σ) :=
  ⟨⟨trivial, fun _ _ h => nomatch h⟩, fun _ h => nomatch h⟩

/-- **Every program goes on along its own**, when a program that starts goes along that of
the next task. -/
theorem Assigned.next {s : Pool R A ε α σ} (hs : Assigned own seen d V s) {a : Act R A ε α σ}
    (ha : ∀ p, a = .start p → p.Along (own s.tasks.length) seen (V s.tasks.length) d) :
    Assigned own seen d V (s.next h a) := by
  obtain ⟨hown, hstarted⟩ := learning_next (h := h) (T := fun i d p => p.Along (own i) seen (V i) d)
    (fun _ _ _ _ halong => halong.2) hs.each hs.started ha
  exact ⟨hown, hstarted⟩

theorem Assigned.may_issue {s : Pool R A ε α σ} (hs : Assigned own seen d V s) {i : ℕ} {r : R}
    {k : A r → Prog R A ε α} (hp : s.tasks[i]? = some (.request r k)) :
    own i (learned seen d i s.trace) r := (hs.each.own i _ hp).1

end Assigned

variable {Q : δ → Prop}

theorem follows_iff {s : Pool R A ε α σ} :
    Follows may seen d Q s ↔ Yields may seen d (fun d _ => Q d) s :=
  ⟨fun h => ⟨h.own, h.started⟩, fun h => ⟨h.own, h.started⟩⟩

theorem Follows.idle (s : σ) :
    Follows may seen d Q (Pool.idle s : Pool R A ε α σ) := follows_iff.mpr (Yields.idle s)

/-- **A pool goes on following** when the programs it starts go along from `d`. -/
theorem Follows.next {s : Pool R A ε α σ} (hs : Follows may seen d Q s) {a : Act R A ε α σ}
    (ha : ∀ p, a = .start p → p.Along may seen (fun d _ => Q d) d) :
    Follows may seen d Q (s.next h a) := follows_iff.mpr ((follows_iff.mp hs).next ha)

/-- The request a task has come to is one it may issue. -/
theorem Follows.may_issue {s : Pool R A ε α σ} (hs : Follows may seen d Q s) {i : ℕ} {r : R}
    {k : A r → Prog R A ε α} (hp : s.tasks[i]? = some (.request r k)) :
    may (learned seen d i s.trace) r := (hs.own.own i _ hp).1

/-- A program that has learned something has started. -/
theorem Follows.lt_length {s : Pool R A ε α σ} (hs : Follows may seen d Q s) {i : ℕ}
    (hi : learned seen d i s.trace ≠ d) : i < s.tasks.length := by
  by_contra hge
  refine hi (learned_none fun e he heq => ?_)
  have hlt := hs.started e he
  omega

/-- To be disciplined is to follow, wherever the programs end. -/
theorem disciplined_iff {s : Pool R A ε α σ} :
    Disciplined may seen d s ↔ Follows may seen d (fun _ => True) s :=
  ⟨fun h => ⟨h.own, h.started⟩, fun h => ⟨h.own, h.started⟩⟩

theorem Disciplined.idle (s : σ) :
    Disciplined may seen d (Pool.idle s : Pool R A ε α σ) := disciplined_iff.mpr (Follows.idle s)

/-- **A pool stays disciplined** when the programs it starts go along from `d`. -/
theorem Disciplined.next {s : Pool R A ε α σ} (hs : Disciplined may seen d s) {a : Act R A ε α σ}
    (ha : ∀ p, a = .start p → p.Along may seen (fun _ _ => True) d) :
    Disciplined may seen d (s.next h a) :=
  disciplined_iff.mpr ((disciplined_iff.mp hs).next ha)

theorem Disciplined.may_issue {s : Pool R A ε α σ} (hs : Disciplined may seen d s) {i : ℕ} {r : R}
    {k : A r → Prog R A ε α} (hp : s.tasks[i]? = some (.request r k)) :
    may (learned seen d i s.trace) r := (disciplined_iff.mp hs).may_issue hp

end Along

end Pool
end Threads
