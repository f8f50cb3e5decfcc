import Winkd.Threads

/-!
# Programs that rest

Some requests are points of rest: the program has nothing to do until it gets a reply.
Two things can be said of programs by what they do between their rests.

* Debts.  A state of affairs is bad only while some program has still to put it right
  (`Owed`).  Programs that owe nothing where they rest leave nothing bad when all rest.
* Knowledge.  When a program moves only while all others rest, what it has been told since
  its own rest is still true (`Knows`).
-/

namespace Threads.Pool
variable {R : Type} {A : R → Type} {ε α σ δ : Type} {h : Prog.Handler R A σ}
variable {may : δ → R → Prop} {seen : δ → (r : R) → A r → δ} {d : δ} {Q : δ → Prop}

/-! ## Rest -/

/-- The program has ended, or has come to a request where it rests. -/
def resting (rest : R → Bool) : Prog R A ε α → Bool
  | .request r _ => rest r
  | _ => true

/-- Every program rests. -/
def AtRest (rest : R → Bool) (s : Pool R A ε α σ) : Prop := ∀ p ∈ s.tasks, resting rest p = true

instance (rest : R → Bool) (s : Pool R A ε α σ) : Decidable (s.AtRest rest) :=
  inferInstanceAs (Decidable (∀ p ∈ s.tasks, resting rest p = true))

/-- Every program but task `i` rests. -/
def OthersRest (rest : R → Bool) (s : Pool R A ε α σ) (i : ℕ) : Prop :=
  ∀ j < s.tasks.length, j ≠ i → ∀ p ∈ s.tasks[j]?, resting rest p = true

instance (rest : R → Bool) (s : Pool R A ε α σ) (i : ℕ) : Decidable (s.OthersRest rest i) :=
  inferInstanceAs (Decidable (∀ j < s.tasks.length, j ≠ i → ∀ p ∈ s.tasks[j]?, resting rest p = true))

variable {rest : R → Bool}

theorem OthersRest.resting {s : Pool R A ε α σ} {i j : ℕ} (hs : s.OthersRest rest i) (hij : i ≠ j)
    {p : Prog R A ε α} (hp : s.tasks[j]? = some p) : resting rest p = true :=
  hs j (List.getElem?_eq_some_iff.mp hp).1 (Ne.symm hij) p hp

/-- What holds where programs rest and where they end, holds of a program that rests. -/
theorem Follows.of_resting [IsEmpty ε] {s : Pool R A ε α σ} (hs : Follows may seen d Q s)
    {I : δ → Prop} (hd : I d) (hQ : ∀ d, Q d → I d) (hmay : ∀ d r, rest r = true → may d r → I d)
    {i : ℕ} (hi : ∀ p, s.tasks[i]? = some p → resting rest p = true) :
    I (learned seen d i s.trace) := by
  cases hp : s.tasks[i]? with
  | none =>
    have hge : s.tasks.length ≤ i := List.getElem?_eq_none_iff.mp hp
    rw [learned_none fun e he heq => absurd (hs.started e he) (by omega)]
    exact hd
  | some p =>
    have halong := hs.own.own i p hp
    have hrest := hi p hp
    cases p with
    | pure a => exact hQ _ halong
    | throw e => exact isEmptyElim e
    | request r k => exact hmay _ r hrest halong.1

/-! ## Debts -/

section Debts
variable (owes : δ → Prop) (bad : σ → List (Entry R A σ) → Prop)

/-- What is bad, some program has still to put right. -/
def Owed (seen : δ → (r : R) → A r → δ) (d : δ) (s : Pool R A ε α σ) : Prop :=
  bad s.state s.trace → ∃ i, owes (learned seen d i s.trace)

variable {owes bad}

/-- **An answer keeps a debt** if what it makes bad the program that asked, or another,
has to put right, and the program that asked does not drop what it owes. -/
theorem Owed.answered {s : Pool R A ε α σ} (hs : s.Owed owes bad seen d) {i : ℕ} {r : R}
    {k : A r → Prog R A ε α}
    (hstep : bad (h r s.state).2 (s.entry h i r :: s.trace) →
      owes (seen (learned seen d i s.trace) r (h r s.state).1) ∨
        (bad s.state s.trace ∨ ∃ j, owes (learned seen d j s.trace)) ∧
          (owes (learned seen d i s.trace) →
            owes (seen (learned seen d i s.trace) r (h r s.state).1))) :
    (s.answered h i r k).Owed owes bad seen d := by
  intro hbad
  have hown : learned seen d i (s.entry h i r :: s.trace) =
      seen (learned seen d i s.trace) r (h r s.state).1 := learned_own rfl _
  rcases hstep hbad with hi | ⟨hor, hkeep⟩
  · exact ⟨i, hown.symm ▸ hi⟩
  · obtain ⟨j, hj⟩ := hor.elim hs id
    by_cases hij : i = j
    · subst hij
      exact ⟨i, hown.symm ▸ hkeep hj⟩
    · refine ⟨j, ?_⟩
      have hother : learned seen d j (s.entry h i r :: s.trace) = learned seen d j s.trace :=
        learned_other hij _
      exact hother.symm ▸ hj

/-- A debt that another program has to put right is kept, whatever the answer makes bad. -/
theorem owed_other {s : Pool R A ε α σ} {i j : ℕ} {r : R} {k : A r → Prog R A ε α} (hij : i ≠ j)
    (hj : owes (learned seen d j s.trace)) : (s.answered h i r k).Owed owes bad seen d := by
  intro _
  have hother : learned seen d j (s.entry h i r :: s.trace) = learned seen d j s.trace :=
    learned_other hij _
  exact ⟨j, hother.symm ▸ hj⟩

/-- Where nobody owes anything, nothing is bad. -/
theorem Owed.settled {s : Pool R A ε α σ} (hs : s.Owed owes bad seen d)
    (hnone : ∀ i, ¬ owes (learned seen d i s.trace)) : ¬ bad s.state s.trace := by
  intro hbad
  obtain ⟨i, hi⟩ := hs hbad
  exact hnone i hi

end Debts

/-! ## Knowledge -/

section Knowledge
variable (K : δ → σ → Prop)

/-- What the programs that do not rest have been told is true. -/
def Knows (rest : R → Bool) (seen : δ → (r : R) → A r → δ) (d : δ) (s : Pool R A ε α σ) : Prop :=
  ∀ i p, s.tasks[i]? = some p → resting rest p = false → K (learned seen d i s.trace) s.state

variable {K}

theorem Knows.start {s : Pool R A ε α σ} (hs : s.Knows K rest seen d)
    (hf : Follows may seen d Q s) (hd : ∀ t, K d t) (p : Prog R A ε α) :
    Knows K rest seen d { s with tasks := s.tasks ++ [p] } := by
  intro i q hq hrest
  by_cases hi : i < s.tasks.length
  · rw [List.getElem?_append_left hi] at hq
    exact hs i q hq hrest
  · -- the new program has been told nothing
    have hnew : learned seen d i s.trace = d :=
      learned_none fun e he heq => absurd (hf.started e he) (by omega)
    show K (learned seen d i s.trace) s.state
    rw [hnew]
    exact hd s.state

theorem Knows.outside {s : Pool R A ε α σ} (hs : s.Knows K rest seen d) {t : σ}
    (ht : ∀ d, K d s.state → K d t) : Knows K rest seen d { s with state := t } :=
  fun i p hp hrest => ht _ (hs i p hp hrest)

/-- **A program that moves alone goes on knowing** if what it is told is true, and what it
was told stays so. -/
theorem Knows.answered {s : Pool R A ε α σ} (hs : s.Knows K rest seen d) {i : ℕ} {r : R}
    {k : A r → Prog R A ε α} (hp : s.tasks[i]? = some (.request r k)) (hothers : s.OthersRest rest i)
    (hstep : (rest r = false → K (learned seen d i s.trace) s.state) →
      K (seen (learned seen d i s.trace) r (h r s.state).1) (h r s.state).2) :
    (s.answered h i r k).Knows K rest seen d := by
  intro j q hq hrest
  by_cases hij : i = j
  · subst hij
    have hown : learned seen d i (s.entry h i r :: s.trace) =
        seen (learned seen d i s.trace) r (h r s.state).1 := learned_own rfl _
    show K (learned seen d i (s.entry h i r :: s.trace)) (h r s.state).2
    rw [hown]
    exact hstep fun hr => hs i _ hp hr
  · -- the others rest
    have hq : s.tasks[j]? = some q := by
      rw [Pool.answered, List.getElem?_set_ne hij] at hq
      exact hq
    rw [hothers.resting hij hq] at hrest
    cases hrest

end Knowledge

end Threads.Pool
