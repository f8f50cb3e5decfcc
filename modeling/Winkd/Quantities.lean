import Winkd.Threads
import Mathlib.Algebra.BigOperators.Group.Finset.Basic
import Mathlib.Algebra.BigOperators.Group.Finset.Piecewise
import Mathlib.Algebra.BigOperators.Intervals
import Mathlib.Algebra.Order.BigOperators.Group.Finset
import Mathlib.Tactic.Linarith

/-!
# Quantities of a pool

What is passed around between programs and the state they share — a token, a message —
is counted: in the state and the trace by `shared`, and by `own` in what each program has
learned.  The sum is the `quantity` of a pool.  An answer that does not increase what the
state and the program that asked have together does not increase the quantity
(`quantity_answered_le`), however many other programs there are.

Values are integers, so that a bound from below is one on the negated count.
-/

namespace Threads.Pool
variable {R : Type} {A : R → Type} {ε α σ δ : Type} {h : Prog.Handler R A σ}
variable {may : δ → R → Prop} {seen : δ → (r : R) → A r → δ} {d : δ}
variable (own : δ → ℤ) (shared : σ → List (Entry R A σ) → ℤ)

/-- What the programs have, together. -/
def owned (seen : δ → (r : R) → A r → δ) (d : δ) (n : ℕ) (l : List (Entry R A σ)) : ℤ :=
  ∑ i ∈ Finset.range n, own (learned seen d i l)

/-- What the state, the trace and the programs have, together. -/
def quantity (seen : δ → (r : R) → A r → δ) (d : δ) (s : Pool R A ε α σ) : ℤ :=
  shared s.state s.trace + owned own seen d s.tasks.length s.trace

variable {own shared}

theorem quantity_idle (s : σ) :
    quantity own shared seen d (idle s : Pool R A ε α σ) = shared s [] := by
  show shared s [] + owned own seen d 0 [] = shared s []
  rw [owned, Finset.sum_range_zero, add_zero]

/-- An answer changes only what the program that asked has. -/
theorem owned_cons {n : ℕ} {e : Entry R A σ} (he : e.task < n) (l : List (Entry R A σ)) :
    owned own seen d n (e :: l) = owned own seen d n l - own (learned seen d e.task l) +
      own (seen (learned seen d e.task l) e.request e.reply) := by
  have hmem : e.task ∈ Finset.range n := Finset.mem_range.mpr he
  rw [owned, owned, ← Finset.add_sum_erase _ _ hmem, ← Finset.add_sum_erase _ _ hmem,
    learned_own rfl]
  have hrest : ∑ i ∈ (Finset.range n).erase e.task, own (learned seen d i (e :: l)) =
      ∑ i ∈ (Finset.range n).erase e.task, own (learned seen d i l) := by
    refine Finset.sum_congr rfl ?_
    intro i hi
    rw [learned_other (Finset.ne_of_mem_erase hi).symm]
  rw [hrest]
  linarith

theorem owned_nonneg (hown : ∀ d, 0 ≤ own d) (n : ℕ) (l : List (Entry R A σ)) :
    0 ≤ owned own seen d n l := Finset.sum_nonneg fun i _ => hown (learned seen d i l)

/-- A program that has something has a share of the whole. -/
theorem own_le_owned (hown : ∀ d, 0 ≤ own d) {n i : ℕ} (hi : i < n) (l : List (Entry R A σ)) :
    own (learned seen d i l) ≤ owned own seen d n l :=
  Finset.single_le_sum (fun j _ => hown (learned seen d j l)) (Finset.mem_range.mpr hi)

/-- If the programs have something, one of them has. -/
theorem exists_own {n : ℕ} {l : List (Entry R A σ)} (hpos : 0 < owned own seen d n l) :
    ∃ i < n, 0 < own (learned seen d i l) := by
  obtain ⟨i, hi, hlt⟩ := Finset.exists_lt_of_sum_lt
    (f := fun _ => (0 : ℤ)) (by simpa [owned] using hpos)
  exact ⟨i, Finset.mem_range.mp hi, hlt⟩

/-- Two programs that have something have shares of the whole. -/
theorem own_add_own_le_owned (hown : ∀ d, 0 ≤ own d) {n i j : ℕ} (hi : i < n) (hj : j < n)
    (hij : i ≠ j) (l : List (Entry R A σ)) :
    own (learned seen d i l) + own (learned seen d j l) ≤ owned own seen d n l := by
  rw [owned, ← Finset.add_sum_erase _ _ (Finset.mem_range.mpr hi)]
  have hmem : j ∈ (Finset.range n).erase i :=
    Finset.mem_erase.mpr ⟨hij.symm, Finset.mem_range.mpr hj⟩
  exact Int.add_le_add_left (Finset.single_le_sum (fun k _ => hown (learned seen d k l)) hmem) _

/-- A program that starts has nothing of a quantity. -/
theorem quantity_start {s : Pool R A ε α σ} (hs : Disciplined may seen d s) (hd : own d = 0)
    (p : Prog R A ε α) : quantity own shared seen d { s with tasks := s.tasks ++ [p] } =
      quantity own shared seen d s := by
  have hnew : learned seen d s.tasks.length s.trace = d :=
    learned_none fun e he => Nat.ne_of_lt (hs.started e he)
  have hlen : (s.tasks ++ [p]).length = s.tasks.length + 1 := List.length_append
  simp only [quantity, hlen, owned, Finset.sum_range_succ, hnew, hd, add_zero]

/-- **An answer does not increase a quantity** if it does not increase what the state and
the program that asked have. -/
theorem quantity_answered_le {s : Pool R A ε α σ} {i : ℕ} {r : R} {k : A r → Prog R A ε α}
    (hp : s.tasks[i]? = some (.request r k))
    (hmove : shared (h r s.state).2 (s.entry h i r :: s.trace) +
        own (seen (learned seen d i s.trace) r (h r s.state).1) ≤
      shared s.state s.trace + own (learned seen d i s.trace)) :
    quantity own shared seen d (s.answered h i r k) ≤ quantity own shared seen d s := by
  have hi : i < s.tasks.length := (List.getElem?_eq_some_iff.mp hp).1
  have howned : owned own seen d s.tasks.length (s.entry h i r :: s.trace) =
      owned own seen d s.tasks.length s.trace - own (learned seen d i s.trace) +
        own (seen (learned seen d i s.trace) r (h r s.state).1) := owned_cons hi s.trace
  have hlen : (s.tasks.set i (k (h r s.state).1)).length = s.tasks.length := List.length_set
  simp only [quantity, answered, hlen, howned]
  simp only [entry] at hmove ⊢
  linarith

end Threads.Pool
