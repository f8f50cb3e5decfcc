import Winkd.Threads

/-!
# What a program comes to

A request that a program has come to says little about how it goes on; the program itself
says all.  Two things can be said of it.

* Each program that it comes to is as it should be, given the replies (`Prog.Visits`).
* Until it comes to one where this may end, it issues only certain requests, as long as the
  replies are certain ones (`Prog.Until`).
-/

namespace Prog
variable {R : Type} {A : R → Type} {ε α β δ : Type}

/-- Of three programs in a row, the last two may be taken together. -/
theorem bind_assoc {γ : Type} (p : Prog R A ε α) (f : α → Prog R A ε β) (g : β → Prog R A ε γ) :
    (p >>= f) >>= g = p >>= fun a => f a >>= g := by
  show (p.bind f).bind g = p.bind fun a => (f a).bind g
  induction p with
  | pure a => rfl
  | throw e => rfl
  | request r k ih => exact congrArg (Prog.request r) (funext ih)

/-! ## Each that it comes to -/

section Visits
variable (P : δ → Prog R A ε α → Prop) (seen : δ → (r : R) → A r → δ)

/-- From `d`, what the replies so far have told, each program that it comes to satisfies `P`. -/
def Visits : δ → Prog R A ε α → Prop
  | d, .pure a => P d (.pure a)
  | d, .throw e => P d (.throw e)
  | d, .request r k => P d (.request r k) ∧ ∀ x, Visits (seen d r x) (k x)

variable {P seen}

theorem Visits.here {d : δ} {p : Prog R A ε α} (hp : p.Visits P seen d) : P d p := by
  cases p with
  | pure a => exact hp
  | throw e => exact hp
  | request r k => exact hp.1

/-- So it is where a program issues only requests that it may. -/
theorem visits_of_along {may : δ → R → Prop} {M : δ → α → Prop} {d : δ} {p : Prog R A ε α}
    (hp : p.Along may seen M d) (hmay : ∀ d r k, may d r → P d (.request r k))
    (hthrow : ∀ d e, P d (.throw e)) (hpure : ∀ d a, M d a → P d (.pure a)) : p.Visits P seen d := by
  induction p generalizing d with
  | pure a => exact hpure d a hp
  | throw e => exact hthrow d e
  | request r k ih => exact ⟨hmay d r k hp.1, fun x => ih x (hp.2 x)⟩

/-- The first part of a sequence is left behind, if `P` holds where the first part issues a
request or throws. -/
theorem visits_bind {P : δ → Prog R A ε β → Prop} {may : δ → R → Prop} {M : δ → α → Prop} {d : δ}
    {p : Prog R A ε α} {f : α → Prog R A ε β} (hp : p.Along may seen M d)
    (hmay : ∀ d r k, may d r → P d (.request r k)) (hthrow : ∀ d e, P d (.throw e))
    (hf : ∀ d a, M d a → (f a).Visits P seen d) : (p >>= f).Visits P seen d := by
  show (p.bind f).Visits P seen d
  induction p generalizing d with
  | pure a => exact hf d a hp
  | throw e => exact hthrow d e
  | request r k ih => exact ⟨hmay d r _ hp.1, fun x => ih x (hp.2 x)⟩

end Visits

/-! ## Until it may end -/

section Until
variable (stop : Prog R A ε α → Prop) (may : R → Prop) (ok : (r : R) → A r → Prop) (Q : α → Prop)

/-- As long as the replies are `ok`, and until it comes to a program in `stop`, it issues requests
that it may, and returns a value that satisfies `Q`. -/
def Until : Prog R A ε α → Prop
  | .pure a => Q a
  | .throw _ => True
  | .request r k => stop (.request r k) ∨ may r ∧ ∀ x, ok r x → (k x).Until

variable {stop may ok Q}

theorem until_ask {r : R} {Q : A r → Prop} {stop : Prog R A ε (A r) → Prop} (hr : may r)
    (hQ : ∀ x, ok r x → Q x) : (ask r : Prog R A ε (A r)).Until stop may ok Q := .inr ⟨hr, hQ⟩

/-- **A sequence goes on until it may end** if its first part goes on to its own end. -/
theorem until_bind {stop : Prog R A ε β → Prop} {Q : β → Prop} {M : α → Prop} {p : Prog R A ε α}
    {f : α → Prog R A ε β} (hp : p.Until (fun _ => False) may ok M)
    (hf : ∀ a, M a → (f a).Until stop may ok Q) : (p >>= f).Until stop may ok Q := by
  show (p.bind f).Until stop may ok Q
  induction p with
  | pure a => exact hf a hp
  | throw e => trivial
  | request r k ih =>
    obtain ⟨hr, hk⟩ := hp.resolve_left id
    exact .inr ⟨hr, fun x hx => ih x (hk x hx)⟩

end Until
end Prog

namespace Threads.Pool
variable {R : Type} {A : R → Type} {ε α σ δ : Type} {h : Prog.Handler R A σ}
variable (P : δ → Prog R A ε α → Prop) (seen : δ → (r : R) → A r → δ) (d : δ)

/-- Each program that a task comes to satisfies `P`, given what the task has learned. -/
structure Visiting (s : Pool R A ε α σ) : Prop where
  own : s.Holds (fun _ _ => True) fun i p l => p.Visits P seen (learned seen d i l)
  started : ∀ e ∈ s.trace, e.task < s.tasks.length

variable {P seen d}

theorem Visiting.idle (s : σ) : Visiting P seen d (Pool.idle s : Pool R A ε α σ) :=
  ⟨⟨trivial, fun _ _ h => nomatch h⟩, fun _ h => nomatch h⟩

theorem Visiting.next {s : Pool R A ε α σ} (hs : Visiting P seen d s) {a : Act R A ε α σ}
    (ha : ∀ p, a = .start p → p.Visits P seen d) : Visiting P seen d (s.next h a) := by
  obtain ⟨hown, hstarted⟩ := learning_next (h := h) (T := fun _ d p => p.Visits P seen d)
    (fun _ _ _ _ hvisits => hvisits.2) hs.own hs.started ha
  exact ⟨hown, hstarted⟩

/-- A task satisfies `P`. -/
theorem Visiting.here {s : Pool R A ε α σ} (hs : Visiting P seen d s) {i : ℕ} {p : Prog R A ε α}
    (hp : s.tasks[i]? = some p) : P (learned seen d i s.trace) p := (hs.own.own i p hp).here

end Threads.Pool
