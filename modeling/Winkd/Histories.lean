import Winkd.Threads
import Mathlib.Algebra.BigOperators.Fin

/-!
# Histories

What a program under way knows is what it has asked and been answered: its history.
Everything that it may do by its own knowledge is a rule on histories, so that rules for
one program can be stated without choosing first what there is to remember
(`Prog.Abides`).

The programs of a pool share its trace.  A task's history is the part of the trace that is
its own (`mem_history`), what happens in the trace is the sum of what happens in the
histories (`countP_eq_sum`), and each entry of the trace was answered in a state that the
pool has been in (`Pool.moment`): what holds in every state reached held when it was asked.
-/

namespace Threads
variable {R : Type} {A : R → Type} {ε α β σ : Type}

/-- A request with its reply. -/
structure Exchange (R : Type) (A : R → Type) where
  request : R
  reply : A request

/-- What a program has asked and been answered, the latest first. -/
abbrev History (R : Type) (A : R → Type) : Type := List (Exchange R A)

namespace History

def seen (past : History R A) (r : R) (x : A r) : History R A := ⟨r, x⟩ :: past

/-- The request was answered so. -/
def Told (past : History R A) (r : R) (x : A r) : Prop := (⟨r, x⟩ : Exchange R A) ∈ past

variable {past later : History R A} {r : R} {x : A r}

theorem subset_seen (past : History R A) (r : R) (x : A r) : past ⊆ past.seen r x :=
  List.subset_cons_self _ _

theorem told_seen (past : History R A) (r : R) (x : A r) : (past.seen r x).Told r x :=
  List.mem_cons_self

theorem Told.mono (h : past.Told r x) (hsub : past ⊆ later) : later.Told r x := hsub h

end History

/-- What was asked and answered. -/
def Entry.exchange (e : Entry R A σ) : Exchange R A := ⟨e.request, e.reply⟩

end Threads

namespace Prog
open Threads
variable {R : Type} {A : R → Type} {ε α β σ : Type}

/-- From a history on, every request `p` can come to is one that the rule allows, every
value it can return satisfies `Q`, and every error it can throw `E`. -/
def Abides (rule : History R A → R → Prop) (Q : History R A → α → Prop)
    (E : History R A → ε → Prop) : History R A → Prog R A ε α → Prop
  | past, .pure a => Q past a
  | past, .throw e => E past e
  | past, .request r k => rule past r ∧ ∀ x, (k x).Abides rule Q E (past.seen r x)

section Abides
variable {rule : History R A → R → Prop} {Q : History R A → α → Prop}
  {E : History R A → ε → Prop} {past : History R A}

@[simp] theorem abides_pure {a : α} :
    (Pure.pure a : Prog R A ε α).Abides rule Q E past ↔ Q past a := Iff.rfl

@[simp] theorem abides_pure' {a : α} :
    (Prog.pure a : Prog R A ε α).Abides rule Q E past ↔ Q past a := Iff.rfl

@[simp] theorem abides_throw {e : ε} :
    (Prog.throw e : Prog R A ε α).Abides rule Q E past ↔ E past e := Iff.rfl

@[simp] theorem abides_ask {r : R} {Q : History R A → A r → Prop} :
    (ask r : Prog R A ε (A r)).Abides rule Q E past ↔
      rule past r ∧ ∀ x, Q (past.seen r x) x := Iff.rfl

/-- **A sequence abides when its first part does**, up to a point from which the second
does. -/
@[simp] theorem abides_bind {Q : History R A → β → Prop} (p : Prog R A ε α) (f : α → Prog R A ε β) :
    (p >>= f).Abides rule Q E past ↔
      p.Abides rule (fun past a => (f a).Abides rule Q E past) E past := by
  show (p.bind f).Abides rule Q E past ↔ _
  induction p generalizing past with
  | pure a => exact Iff.rfl
  | throw e => exact Iff.rfl
  | request r k ih => exact and_congr Iff.rfl (forall_congr' fun x => ih x)

@[simp] theorem abides_ofOption {e : ε} (o : Option α) :
    (ofOption e o : Prog R A ε α).Abides rule Q E past ↔
      (∀ a, o = some a → Q past a) ∧ (o = none → E past e) := by
  cases o with
  | none => simp [ofOption]
  | some a => simp [ofOption]

@[simp] theorem abides_ofExcept (r : Except ε α) :
    (ofExcept r : Prog R A ε α).Abides rule Q E past ↔
      (∀ a, r = .ok a → Q past a) ∧ ∀ e, r = .error e → E past e := by
  cases r with
  | error e => simp [ofExcept]
  | ok a => simp [ofExcept]

/-- **Consequence.** -/
theorem Abides.mono {rule' : History R A → R → Prop} {Q' : History R A → α → Prop}
    {E' : History R A → ε → Prop} (hrule : ∀ past r, rule past r → rule' past r)
    (hQ : ∀ past a, Q past a → Q' past a) (hE : ∀ past e, E past e → E' past e)
    {p : Prog R A ε α} (h : p.Abides rule Q E past) : p.Abides rule' Q' E' past := by
  induction p generalizing past with
  | pure a => exact hQ past a h
  | throw e => exact hE past e h
  | request r k ih => exact ⟨hrule past r h.1, fun x => ih x (h.2 x)⟩

/-- What has been asked and answered stays so. -/
theorem Abides.grows {p : Prog R A ε α} (h : p.Abides rule Q E past) :
    p.Abides rule (fun later a => past ⊆ later ∧ Q later a) E past := by
  have hgrows : ∀ later, past ⊆ later → p.Abides rule Q E later →
      p.Abides rule (fun later a => past ⊆ later ∧ Q later a) E later := by
    intro later hsub hlater
    clear h
    induction p generalizing later with
    | pure a => exact ⟨hsub, hlater⟩
    | throw e => exact hlater
    | request r k ih =>
      refine ⟨hlater.1, fun x => ih x _ ?_ (hlater.2 x)⟩
      exact List.Subset.trans hsub (later.subset_seen r x)
  exact hgrows past (List.Subset.refl past) h

/-- **Sequencing**: what follows abides on every longer history that its first part can end in. -/
theorem Abides.bind {Q' : History R A → β → Prop} {p : Prog R A ε α} {f : α → Prog R A ε β}
    (hp : p.Abides rule Q E past)
    (hf : ∀ later a, past ⊆ later → Q later a → (f a).Abides rule Q' E later) :
    (p >>= f).Abides rule Q' E past :=
  (abides_bind p f).mpr <| hp.grows.mono (fun _ _ h => h) (fun later a h => hf later a h.1 h.2)
    fun _ _ h => h

/-- **A program abides as long as `I` holds of its history**, if each request that occurs in
it may be issued then and keeps it. -/
theorem Asks.abides {P : R → Prop} {I : History R A → Prop} {p : Prog R A ε α} (hp : p.Asks P)
    (hI : ∀ past r, I past → P r → rule past r ∧ ∀ x, I (past.seen r x)) (hpast : I past) :
    p.Abides rule (fun past _ => I past) (fun past _ => I past) past := by
  induction p generalizing past with
  | pure a => exact hpast
  | throw e => exact hpast
  | request r k ih =>
    obtain ⟨hrule, hnext⟩ := hI past r hpast hp.1
    exact ⟨hrule, fun x => ih x (hp.2 x) (hnext x)⟩

end Abides
end Prog

namespace Threads.Pool
variable {R : Type} {A : R → Type} {ε α σ : Type}

/-! ## The histories of a pool's programs -/

/-- What task `i` has asked and been answered. -/
def history (i : ℕ) (l : List (Entry R A σ)) : History R A := learned History.seen [] i l

section History
variable {i : ℕ} {l : List (Entry R A σ)}

theorem history_own {e : Entry R A σ} (he : e.task = i) :
    history i (e :: l) = e.exchange :: history i l := learned_own he l

theorem history_other {e : Entry R A σ} (he : e.task ≠ i) : history i (e :: l) = history i l :=
  learned_other he l

/-- **A task's history is its part of the trace.** -/
theorem mem_history {x : Exchange R A} :
    x ∈ history i l ↔ ∃ e ∈ l, e.task = i ∧ e.exchange = x := by
  induction l with
  | nil => exact ⟨fun hx => absurd hx List.not_mem_nil, fun ⟨_, he, _⟩ => absurd he List.not_mem_nil⟩
  | cons e l ih =>
    by_cases he : e.task = i
    · rw [history_own he, List.mem_cons, ih, List.exists_mem_cons_iff]
      exact or_congr ⟨fun h => ⟨he, h.symm⟩, fun h => h.2.symm⟩ Iff.rfl
    · rw [history_other he, ih, List.exists_mem_cons_iff]
      exact ⟨.inr, fun h => h.resolve_left fun h => he h.1⟩

/-- **What happens in a trace is what happens in the histories** of its tasks. -/
theorem countP_eq_sum (P : ℕ → Exchange R A → Bool) {n : ℕ} (hl : ∀ e ∈ l, e.task < n) :
    l.countP (fun e => P e.task e.exchange) =
      ∑ i ∈ Finset.range n, (history i l).countP (P i) := by
  induction l with
  | nil => exact (Finset.sum_const_zero).symm
  | cons e l ih =>
    have hhistory : ∀ i ∈ Finset.range n, (history i (e :: l)).countP (P i) =
        (history i l).countP (P i) + if i = e.task then (if P e.task e.exchange then 1 else 0) else 0 := by
      intro i _
      by_cases he : e.task = i
      · subst he
        rw [history_own rfl, List.countP_cons, if_pos rfl]
      · rw [history_other he, if_neg fun h => he h.symm, Nat.add_zero]
    rw [List.countP_cons, ih fun e he => hl e (List.mem_cons_of_mem _ he),
      Finset.sum_congr rfl hhistory, Finset.sum_add_distrib, Finset.sum_ite_eq',
      if_pos (Finset.mem_range.mpr (hl e List.mem_cons_self))]

end History

/-! ## What a task was told, and how the state was -/

/-- At one of the requests of task `i` the state was so. -/
def Seen (l : List (Entry R A σ)) (i : ℕ) (P : σ → Prop) : Prop :=
  ∃ e ∈ l, e.task = i ∧ P e.before

section Seen
variable {i : ℕ} {l l' : List (Entry R A σ)} {P P' : σ → Prop}

theorem Seen.mono (h : Seen l i P) (hl : l ⊆ l') : Seen l' i P := by
  obtain ⟨e, he, htask, hP⟩ := h
  exact ⟨e, hl he, htask, hP⟩

theorem Seen.imp (h : Seen l i P) (hP : ∀ s, P s → P' s) : Seen l i P' := by
  obtain ⟨e, he, htask, hs⟩ := h
  exact ⟨e, he, htask, hP _ hs⟩

/-- The requests of a trace were answered from the states they were asked in. -/
def Answered (h : Prog.Handler R A σ) (l : List (Entry R A σ)) : Prop :=
  ∀ e ∈ l, e.reply = (h e.request e.before).1

/-- **What a task was told, the state said.** -/
theorem seen_of_told {h : Prog.Handler R A σ} (hl : Answered h l) {r : R} {x : A r}
    (hx : (history i l).Told r x) : Seen l i fun s => (h r s).1 = x := by
  obtain ⟨⟨j, b, r', x'⟩, he, rfl, heq⟩ := mem_history.mp hx
  cases heq
  exact ⟨_, he, rfl, (hl _ he).symm⟩

end Seen

/-! ## Rules for the programs of a pool -/

section Abiding
variable {rule : ℕ → History R A → R → Prop} {Q : ℕ → History R A → α → Prop}
  {E : ℕ → History R A → ε → Prop} {h : Prog.Handler R A σ} {s : Pool R A ε α σ}

/-- Every program under way abides by its task's rule. -/
structure Abiding (rule : ℕ → History R A → R → Prop) (Q : ℕ → History R A → α → Prop)
    (E : ℕ → History R A → ε → Prop) (s : Pool R A ε α σ) : Prop where
  each : s.Holds (fun _ _ => True) fun i p l => p.Abides (rule i) (Q i) (E i) (history i l)
  started : ∀ e ∈ s.trace, e.task < s.tasks.length

theorem Abiding.idle (s : σ) : Abiding rule Q E (Pool.idle s : Pool R A ε α σ) :=
  ⟨⟨trivial, fun _ _ h => absurd h (by simp [Pool.idle])⟩, fun _ h => absurd h List.not_mem_nil⟩

/-- **A pool goes on abiding**, when a program that starts abides by the next task's rule. -/
theorem Abiding.next (hs : Abiding rule Q E s) {a : Act R A ε α σ}
    (ha : ∀ p, a = .start p →
      p.Abides (rule s.tasks.length) (Q s.tasks.length) (E s.tasks.length) []) :
    Abiding rule Q E (s.next h a) := by
  obtain ⟨heach, hstarted⟩ := learning_next (h := h)
    (T := fun i past p => p.Abides (rule i) (Q i) (E i) past)
    (fun _ _ _ _ habides => habides.2) hs.each hs.started ha
  exact ⟨heach, hstarted⟩

theorem Abiding.may_issue (hs : Abiding rule Q E s) {i : ℕ} {r : R} {k : A r → Prog R A ε α}
    (hp : s.tasks[i]? = some (.request r k)) : rule i (history i s.trace) r :=
  (hs.each.own i _ hp).1

/-- **What holds of a history at each request, and wherever a program ends, always holds** of every
task's. -/
theorem Abiding.kept {M : ℕ → History R A → Prop} (hs : Abiding (fun i past _ => M i past) Q E s)
    (hQ : ∀ i past a, Q i past a → M i past) (hE : ∀ i past e, E i past e → M i past) {i : ℕ}
    (hi : i < s.tasks.length) : M i (history i s.trace) := by
  obtain ⟨p, hp⟩ : ∃ p, s.tasks[i]? = some p := ⟨_, List.getElem?_eq_getElem hi⟩
  have habides := hs.each.own i p hp
  cases p with
  | pure a => exact hQ i _ a habides
  | throw e => exact hE i _ e habides
  | request r k => exact habides.1

/-- No program is mid-way. -/
def Ended (s : Pool R A ε α σ) : Prop := ∀ i, s.waiting i = none

/-- **Once no program is mid-way, what holds wherever a program ends, holds of every task's
history.** -/
theorem Abiding.ended {M : ℕ → History R A → Prop} (hs : Abiding rule Q E s)
    (hQ : ∀ i past a, Q i past a → M i past) (hE : ∀ i past e, E i past e → M i past)
    (hended : s.Ended) {i : ℕ} (hi : i < s.tasks.length) : M i (history i s.trace) := by
  obtain ⟨p, hp⟩ : ∃ p, s.tasks[i]? = some p := ⟨_, List.getElem?_eq_getElem hi⟩
  have habides := hs.each.own i p hp
  cases p with
  | pure a => exact hQ i _ a habides
  | throw e => exact hE i _ e habides
  | request r k =>
    cases (waiting_eq hp).symm.trans (hended i)

end Abiding

/-! ## When an entry was added -/

section Moments
variable {L : Type} {next : Pool R A ε α σ → L → Pool R A ε α σ}
  {allowed : Pool R A ε α σ → L → Prop} {h : Prog.Handler R A σ} {s₀ s : Pool R A ε α σ}

/-- The pool is about to add the entry to its trace. -/
structure Adding (h : Prog.Handler R A σ) (t : Pool R A ε α σ) (e : Entry R A σ) : Prop where
  state : t.state = e.before
  waiting : ∃ k, t.tasks[e.task]? = some (.request e.request k)
  reply : e.reply = (h e.request e.before).1

/-- **An entry was answered in a state that the pool has been in**, when the trace had the
earlier ones. -/
theorem moment (hnext : ∀ s l, ∃ a, next s l = s.next h a)
    (hs : Transitions.Reaches next allowed s₀ s) (h₀ : s₀.trace = []) {e : Entry R A σ}
    {earlier : List (Entry R A σ)} (he : e :: earlier <:+ s.trace) :
    ∃ t, Transitions.Reaches next allowed s₀ t ∧ t.trace = earlier ∧ t.Adding h e := by
  induction hs with
  | refl =>
    rw [h₀, List.suffix_nil] at he
    cases he
  | tail hprev hstep ih =>
    rename_i s t
    obtain ⟨l, hl, rfl⟩ := hstep
    obtain ⟨a, ha⟩ := hnext s l
    rw [ha] at he
    have hkept : (s.next h a).trace = s.trace → ∃ t, Transitions.Reaches next allowed s₀ t ∧
        t.trace = earlier ∧ t.Adding h e := fun heq => ih (heq ▸ he)
    cases a with
    | start p => exact hkept rfl
    | outside t => exact hkept rfl
    | answer i =>
      rcases next_answer_cases (h := h) s i with heq | ⟨r, k, hp, heq⟩
      · exact hkept (congrArg trace heq)
      · rw [heq] at he
        rcases List.suffix_cons_iff.mp he with hnew | hold
        · obtain ⟨rfl, rfl⟩ := List.cons.inj hnew
          exact ⟨s, hprev, rfl, rfl, ⟨k, hp⟩, rfl⟩
        · exact ih hold

theorem exists_suffix {e : Entry R A σ} {l : List (Entry R A σ)} (he : e ∈ l) :
    ∃ earlier, e :: earlier <:+ l := by
  obtain ⟨later, earlier, rfl⟩ := List.append_of_mem he
  exact ⟨earlier, later, rfl⟩

theorem answered_trace (hnext : ∀ s l, ∃ a, next s l = s.next h a)
    (hs : Transitions.Reaches next allowed s₀ s) (h₀ : s₀.trace = []) : Answered h s.trace := by
  intro e he
  obtain ⟨earlier, hsuffix⟩ := exists_suffix he
  obtain ⟨t, -, -, hadding⟩ := moment hnext hs h₀ hsuffix
  exact hadding.reply

/-- **At its moment each request was allowed** by what its task had been told. -/
theorem allowed_moment {rule : ℕ → History R A → R → Prop} {Q : ℕ → History R A → α → Prop}
    {E : ℕ → History R A → ε → Prop} (hnext : ∀ s l, ∃ a, next s l = s.next h a)
    (habiding : ∀ t, Transitions.Reaches next allowed s₀ t → Abiding rule Q E t)
    (hs : Transitions.Reaches next allowed s₀ s) (h₀ : s₀.trace = []) {e : Entry R A σ}
    {earlier : List (Entry R A σ)} (he : e :: earlier <:+ s.trace) :
    ∃ t, Transitions.Reaches next allowed s₀ t ∧ t.trace = earlier ∧ t.state = e.before ∧
      rule e.task (history e.task earlier) e.request := by
  obtain ⟨t, ht, rfl, hadding⟩ := moment hnext hs h₀ he
  obtain ⟨k, hp⟩ := hadding.waiting
  exact ⟨t, ht, rfl, hadding.state, (habiding t ht).may_issue hp⟩

/-- **What the state holds was put there by a request**, if nothing else puts anything there. -/
theorem recorded {ρ : Type} (held : σ → ρ → Prop) (made : Entry R A σ → ρ → Prop)
    (hanswer : ∀ i r b x, held (h r b).2 x → held b x ∨ made ⟨i, b, r, (h r b).1⟩ x)
    (hother : ∀ s l, allowed s l → (∃ i, next s l = s.next h (.answer i)) ∨
      (next s l).trace = s.trace ∧ ∀ x, held (next s l).state x → held s.state x)
    (hs : Transitions.Reaches next allowed s₀ s) (h₀ : ∀ x, ¬ held s₀.state x) {x : ρ}
    (hx : held s.state x) : ∃ e ∈ s.trace, made e x := by
  induction hs with
  | refl => exact absurd hx (h₀ x)
  | tail hprev hstep ih =>
    rename_i s t
    obtain ⟨l, hl, rfl⟩ := hstep
    rcases hother s l hl with ⟨i, hi⟩ | ⟨htrace, hheld⟩
    · rw [hi] at hx ⊢
      rcases next_answer_cases (h := h) s i with heq | ⟨r, k, hp, heq⟩
      · rw [heq] at hx ⊢
        exact ih hx
      · rw [heq] at hx ⊢
        rcases hanswer i r s.state x hx with hx | hmade
        · obtain ⟨e, he, hmade⟩ := ih hx
          exact ⟨e, List.mem_cons_of_mem _ he, hmade⟩
        · exact ⟨_, List.mem_cons_self, hmade⟩
    · rw [htrace]
      exact ih (hheld x hx)

/-- **What a request has brought about remains**, if nothing undoes it. -/
theorem remains {P : σ → Prop} (hanswer : ∀ r b, P b → P (h r b).2)
    (hother : ∀ s l, allowed s l → (∃ i, next s l = s.next h (.answer i)) ∨
      (next s l).trace = s.trace ∧ (P s.state → P (next s l).state))
    (hs : Transitions.Reaches next allowed s₀ s) (h₀ : s₀.trace = []) {e : Entry R A σ} (he : e ∈ s.trace)
    (hP : P (h e.request e.before).2) : P s.state := by
  induction hs with
  | refl =>
    rw [h₀] at he
    cases he
  | tail hprev hstep ih =>
    rename_i s t
    obtain ⟨l, hl, rfl⟩ := hstep
    rcases hother s l hl with ⟨i, hi⟩ | ⟨htrace, hkept⟩
    · rw [hi] at he ⊢
      rcases next_answer_cases (h := h) s i with heq | ⟨r, k, -, heq⟩
      · rw [heq] at he ⊢
        exact ih he
      · rw [heq] at he ⊢
        rcases List.mem_cons.mp he with rfl | he
        · exact hP
        · exact hanswer r s.state (ih he)
    · rw [htrace] at he
      exact hkept (ih he)

/-- **A measure of the state is one of the trace**, if every request brings both on alike and nothing
else changes either. -/
theorem measured {γ : Type} {f : σ → γ} {g : List (Entry R A σ) → γ}
    (hanswer : ∀ i r b l, f b = g l → f (h r b).2 = g (⟨i, b, r, (h r b).1⟩ :: l))
    (hother : ∀ s l, allowed s l → (∃ i, next s l = s.next h (.answer i)) ∨
      (next s l).trace = s.trace ∧ f (next s l).state = f s.state)
    (hs : Transitions.Reaches next allowed s₀ s) (h₀ : f s₀.state = g s₀.trace) :
    f s.state = g s.trace := by
  refine hs.invariant (I := fun s => f s.state = g s.trace) h₀ fun s l ih hl => ?_
  rcases hother s l hl with ⟨i, hi⟩ | ⟨htrace, hf⟩
  · rw [hi]
    rcases next_answer_cases (h := h) s i with heq | ⟨r, k, -, heq⟩
    · rw [heq]
      exact ih
    · rw [heq]
      exact hanswer i r s.state s.trace ih
  · rw [htrace, hf, ih]

/-- A measure is the number of requests that have raised it by one. -/
theorem counted {f : σ → ℕ} {P : Entry R A σ → Bool}
    (hanswer : ∀ i r b, f (h r b).2 = f b + if P ⟨i, b, r, (h r b).1⟩ then 1 else 0)
    (hother : ∀ s l, allowed s l → (∃ i, next s l = s.next h (.answer i)) ∨
      (next s l).trace = s.trace ∧ f (next s l).state = f s.state)
    (hs : Transitions.Reaches next allowed s₀ s) (h₀ : f s₀.state = s₀.trace.countP P) :
    f s.state = s.trace.countP P := by
  refine measured (g := fun l => l.countP P) (fun i r b l hl => ?_) hother hs h₀
  rw [List.countP_cons, hanswer, hl]

/-- What holds between each request and the earlier ones holds of any two. -/
theorem pairwise_of_suffix {S : Entry R A σ → Entry R A σ → Prop} {l : List (Entry R A σ)}
    (hl : ∀ e earlier, e :: earlier <:+ l → ∀ e' ∈ earlier, S e e') : l.Pairwise S := by
  induction l with
  | nil => exact .nil
  | cons e l ih =>
    refine .cons (hl e l (List.suffix_refl _)) (ih fun e' earlier hsuffix => ?_)
    exact hl e' earlier (hsuffix.trans (List.suffix_cons e l))

end Moments

end Threads.Pool
