import Mathlib.Data.List.Basic

/-!
# Programs that issue requests

A `Prog` is a piece of asynchronous code seen from its environment: it returns a
value, throws, or issues one request and continues with the reply.  Requests are
the only points at which such code touches anything outside itself, so between
two requests it is a pure function of the replies it has had.

* `Prog.run` answers the requests one after the other from a state: the
  behaviour of a call that nothing overlaps.  Programs that do overlap share a
  `Threads.Pool`.
* `Prog.Along` says of every request a program can come to that it is one it may
  issue, given the replies it has had; `Prog.wp` is what a run establishes.

A state change made before a throw stays: the state is returned next to the
result, not inside it.
-/

/-- A program issuing requests `r : R`, answered by values of `A r`, that throws
values of `ε` and returns values of `α`. -/
inductive Prog (R : Type) (A : R → Type) (ε α : Type) : Type where
  | pure (a : α)
  | throw (e : ε)
  | request (r : R) (k : A r → Prog R A ε α)

namespace Prog
variable {R : Type} {A : R → Type} {ε α β σ : Type}

/-- Sequencing: the second program starts from the first one's value. -/
def bind : Prog R A ε α → (α → Prog R A ε β) → Prog R A ε β
  | .pure a, f => f a
  | .throw e, _ => .throw e
  | .request r k, f => .request r (fun x => (k x).bind f)

instance : Monad (Prog R A ε) where
  pure := Prog.pure
  bind := Prog.bind

/-- Issue one request and return its reply. -/
def ask (r : R) : Prog R A ε (A r) := .request r .pure

/-- Throw `e` on `none`, return the value otherwise. -/
def ofOption (e : ε) : Option α → Prog R A ε α
  | none => .throw e
  | some a => .pure a

/-- Rethrow an error, return a value. -/
def ofExcept : Except ε α → Prog R A ε α
  | .error e => .throw e
  | .ok a => .pure a

/-! ## Sequential runs -/

/-- How an environment answers requests from its state. -/
abbrev Handler (R : Type) (A : R → Type) (σ : Type) : Type := (r : R) → σ → A r × σ

/-- Run a program to its end against `h`. -/
def run (h : Handler R A σ) : Prog R A ε α → σ → Except ε α × σ
  | .pure a, s => (.ok a, s)
  | .throw e, s => (.error e, s)
  | .request r k, s => run h (k (h r s).1) (h r s).2

variable (h : Handler R A σ)

@[simp] theorem run_pure (a : α) (s : σ) :
    (Pure.pure a : Prog R A ε α).run h s = (.ok a, s) := rfl

@[simp] theorem run_pure' (a : α) (s : σ) :
    (Prog.pure a : Prog R A ε α).run h s = (.ok a, s) := rfl

@[simp] theorem run_throw (e : ε) (s : σ) :
    (Prog.throw e : Prog R A ε α).run h s = (.error e, s) := rfl

@[simp] theorem run_ask (r : R) (s : σ) :
    (ask r : Prog R A ε (A r)).run h s = (.ok (h r s).1, (h r s).2) := rfl

@[simp] theorem run_ofOption_none (e : ε) (s : σ) :
    (ofOption e none : Prog R A ε α).run h s = (.error e, s) := rfl

@[simp] theorem run_ofOption_some (e : ε) (a : α) (s : σ) :
    (ofOption e (some a) : Prog R A ε α).run h s = (.ok a, s) := rfl

@[simp] theorem run_ofExcept_error (e : ε) (s : σ) :
    (ofExcept (.error e) : Prog R A ε α).run h s = (.error e, s) := rfl

@[simp] theorem run_ofExcept_ok (a : α) (s : σ) :
    (ofExcept (.ok a) : Prog R A ε α).run h s = (.ok a, s) := rfl

/-- Running a sequence is running its parts, unless the first one throws. -/
theorem run_bind (p : Prog R A ε α) (f : α → Prog R A ε β) (s : σ) :
    (p >>= f).run h s =
      match p.run h s with
      | (.ok a, s') => (f a).run h s'
      | (.error e, s') => (.error e, s') := by
  show (p.bind f).run h s = _
  induction p generalizing s with
  | pure a => rfl
  | throw e => rfl
  | request r k ih => exact ih (h r s).1 (h r s).2

theorem run_bind_ok {p : Prog R A ε α} {f : α → Prog R A ε β} {s s' : σ} {a : α}
    (hp : p.run h s = (.ok a, s')) : (p >>= f).run h s = (f a).run h s' := by
  rw [run_bind, hp]

/-! ## What a run establishes -/

/-- The weakest precondition of a run: it ends in a value and a state that satisfy `Q`,
or throws an error in a state that satisfies `E`. -/
def wp (Q : α → σ → Prop) (E : ε → σ → Prop) : Prog R A ε α → σ → Prop
  | .pure a, s => Q a s
  | .throw e, s => E e s
  | .request r k, s => wp Q E (k (h r s).1) (h r s).2

variable {h}

theorem wp_iff {Q : α → σ → Prop} {E : ε → σ → Prop} (p : Prog R A ε α) (s : σ) :
    p.wp h Q E s ↔ (∀ a, (p.run h s).1 = .ok a → Q a (p.run h s).2) ∧
      ∀ e, (p.run h s).1 = .error e → E e (p.run h s).2 := by
  induction p generalizing s with
  | pure a =>
    exact ⟨fun hq => ⟨fun _ ha => Except.ok.inj ha ▸ hq, fun _ he => nomatch he⟩, fun hq => hq.1 a rfl⟩
  | throw e =>
    exact ⟨fun hq => ⟨fun _ ha => (nomatch ha), fun _ he => Except.error.inj he ▸ hq⟩, fun hq => hq.2 e rfl⟩
  | request r k ih => exact ih _ _

variable {Q : α → σ → Prop} {E : ε → σ → Prop} {s : σ}

/-- A run that is known says all there is to say. -/
theorem wp_of_run_ok {p : Prog R A ε α} {a : α} {s' : σ} (hp : p.run h s = (.ok a, s')) :
    p.wp h Q E s ↔ Q a s' := by
  rw [wp_iff, hp]
  exact ⟨fun hq => hq.1 a rfl, fun hq => ⟨fun _ ha => Except.ok.inj ha ▸ hq, fun _ he => nomatch he⟩⟩

@[simp] theorem wp_pure {a : α} : (Pure.pure a : Prog R A ε α).wp h Q E s ↔ Q a s := Iff.rfl

@[simp] theorem wp_pure' {a : α} : (Prog.pure a : Prog R A ε α).wp h Q E s ↔ Q a s := Iff.rfl

@[simp] theorem wp_throw {e : ε} : (Prog.throw e : Prog R A ε α).wp h Q E s ↔ E e s := Iff.rfl

@[simp] theorem wp_ask {r : R} {Q : A r → σ → Prop} :
    (ask r : Prog R A ε (A r)).wp h Q E s ↔ Q (h r s).1 (h r s).2 := Iff.rfl

@[simp] theorem wp_bind {Q : β → σ → Prop} (p : Prog R A ε α) (f : α → Prog R A ε β) :
    (p >>= f).wp h Q E s ↔ p.wp h (fun a s => (f a).wp h Q E s) E s := by
  show (p.bind f).wp h Q E s ↔ _
  induction p generalizing s with
  | pure a => exact Iff.rfl
  | throw e => exact Iff.rfl
  | request r k ih => exact ih _

@[simp] theorem wp_ofOption {e : ε} (o : Option α) : (ofOption e o : Prog R A ε α).wp h Q E s ↔
    (∀ a, o = some a → Q a s) ∧ (o = none → E e s) := by
  cases o with
  | none => exact ⟨fun he => ⟨fun _ ha => (nomatch ha), fun _ => he⟩, fun hq => hq.2 rfl⟩
  | some a => exact ⟨fun hq => ⟨fun _ ha => Option.some.inj ha ▸ hq, fun he => nomatch he⟩, fun hq => hq.1 a rfl⟩

@[simp] theorem wp_ofExcept (r : Except ε α) : (ofExcept r : Prog R A ε α).wp h Q E s ↔
    (∀ a, r = .ok a → Q a s) ∧ ∀ e, r = .error e → E e s := by
  cases r with
  | error e =>
    exact ⟨fun he => ⟨fun _ ha => (nomatch ha), fun _ h => Except.error.inj h ▸ he⟩, fun hq => hq.2 e rfl⟩
  | ok a =>
    exact ⟨fun hq => ⟨fun _ ha => Except.ok.inj ha ▸ hq, fun _ he => nomatch he⟩, fun hq => hq.1 a rfl⟩

@[simp] theorem wp_ite {c : Prop} [Decidable c] (p q : Prog R A ε α) :
    (if c then p else q).wp h Q E s ↔ (c → p.wp h Q E s) ∧ (¬c → q.wp h Q E s) := by
  split
  · rename_i hc
    exact ⟨fun hp => ⟨fun _ => hp, fun hn => absurd hc hn⟩, fun hp => hp.1 hc⟩
  · rename_i hc
    exact ⟨fun hq => ⟨fun hp => absurd hp hc, fun _ => hq⟩, fun hq => hq.2 hc⟩

/-- **Consequence.** -/
theorem wp_mono {Q' : α → σ → Prop} {E' : ε → σ → Prop} {p : Prog R A ε α} (hp : p.wp h Q E s)
    (hQ : ∀ a s, Q a s → Q' a s) (hE : ∀ e s, E e s → E' e s) : p.wp h Q' E' s := by
  induction p generalizing s with
  | pure a => exact hQ a s hp
  | throw e => exact hE e s hp
  | request r k ih => exact ih _ hp

/-- What is established however a run ends, holds at its end. -/
theorem run_of_wp {M : σ → Prop} {p : Prog R A ε α} (hp : p.wp h (fun _ => M) (fun _ => M) s) :
    M (p.run h s).2 := by
  have hrun := (wp_iff p s).mp hp
  cases hr : (p.run h s).1 with
  | error e => exact hrun.2 e hr
  | ok a => exact hrun.1 a hr

/-- What is established may speak of the run itself. -/
theorem wp_run {p : Prog R A ε α} (hp : p.wp h Q E s) :
    p.wp h (fun a t => Q a t ∧ p.run h s = (.ok a, t)) (fun e t => E e t ∧ p.run h s = (.error e, t))
      s := by
  have hrun := (wp_iff p s).mp hp
  refine (wp_iff p s).mpr ⟨fun a ha => ⟨hrun.1 a ha, ?_⟩, fun e he => ⟨hrun.2 e he, ?_⟩⟩
  · rw [← ha]
  · rw [← he]

/-! ## What a program may ask for -/

variable {δ : Type} (may : δ → R → Prop) (seen : δ → (r : R) → A r → δ)

/-- From `d`, what the replies so far have told, every request `p` can come to is one
it may issue, and every value it can return satisfies `Q`. -/
def Along (Q : δ → α → Prop) : δ → Prog R A ε α → Prop
  | d, .pure a => Q d a
  | _, .throw _ => True
  | d, .request r k => may d r ∧ ∀ x, Along Q (seen d r x) (k x)

variable {may seen}

@[simp] theorem along_pure {Q : δ → α → Prop} {d : δ} {a : α} :
    (Pure.pure a : Prog R A ε α).Along may seen Q d ↔ Q d a := Iff.rfl

@[simp] theorem along_pure' {Q : δ → α → Prop} {d : δ} {a : α} :
    (Prog.pure a : Prog R A ε α).Along may seen Q d ↔ Q d a := Iff.rfl

@[simp] theorem along_throw {Q : δ → α → Prop} {d : δ} {e : ε} :
    (Prog.throw e : Prog R A ε α).Along may seen Q d ↔ True := Iff.rfl

@[simp] theorem along_ask {d : δ} {r : R} {Q : δ → A r → Prop} :
    (ask r : Prog R A ε (A r)).Along may seen Q d ↔ may d r ∧ ∀ x, Q (seen d r x) x := Iff.rfl

/-- **A sequence goes along when its first part does**, up to a point from which the
second does. -/
@[simp] theorem along_bind {Q : δ → β → Prop} {d : δ} (p : Prog R A ε α) (f : α → Prog R A ε β) :
    (p >>= f).Along may seen Q d ↔ p.Along may seen (fun d a => (f a).Along may seen Q d) d := by
  show (p.bind f).Along may seen Q d ↔ _
  induction p generalizing d with
  | pure a => exact Iff.rfl
  | throw e => exact Iff.rfl
  | request r k ih => exact and_congr Iff.rfl (forall_congr' fun x => ih x)

@[simp] theorem along_ofOption {Q : δ → α → Prop} {d : δ} {e : ε} (o : Option α) :
    (ofOption e o : Prog R A ε α).Along may seen Q d ↔ ∀ a, o = some a → Q d a := by
  cases o with
  | none => exact ⟨fun _ _ h => (nomatch h), fun _ => trivial⟩
  | some a => exact ⟨fun h _ ha => Option.some.inj ha ▸ h, fun h => h a rfl⟩

@[simp] theorem along_ofExcept {Q : δ → α → Prop} {d : δ} (r : Except ε α) :
    (ofExcept r : Prog R A ε α).Along may seen Q d ↔ ∀ a, r = .ok a → Q d a := by
  cases r with
  | error e => exact ⟨fun _ _ h => (nomatch h), fun _ => trivial⟩
  | ok a => exact ⟨fun h _ ha => Except.ok.inj ha ▸ h, fun h => h a rfl⟩

/-- What holds along a program still does when less is asked of its requests and its
value. -/
theorem Along.mono {may' : δ → R → Prop} {Q Q' : δ → α → Prop} (hm : ∀ d r, may d r → may' d r)
    (hQ : ∀ d a, Q d a → Q' d a) {d : δ} {p : Prog R A ε α} (h : p.Along may seen Q d) :
    p.Along may' seen Q' d := by
  induction p generalizing d with
  | pure a => exact hQ d a h
  | throw e => trivial
  | request r k ih => exact ⟨hm d r h.1, fun x => ih x (h.2 x)⟩

/-- A program that may issue anything goes along. -/
theorem along_of_forall (hmay : ∀ d r, may d r) (p : Prog R A ε α) {d : δ} :
    p.Along may seen (fun _ _ => True) d := by
  induction p generalizing d with
  | pure a => trivial
  | throw e => trivial
  | request r k ih => exact ⟨hmay d r, fun x => ih x⟩

/-! ## Which requests occur -/

/-- Every request that the program can come to satisfies `P`. -/
def Asks (P : R → Prop) : Prog R A ε α → Prop
  | .pure _ => True
  | .throw _ => True
  | .request r k => P r ∧ ∀ x, (k x).Asks P

variable {P : R → Prop}

theorem asks_pure (a : α) : (Pure.pure a : Prog R A ε α).Asks P := trivial

theorem asks_ask {r : R} (hr : P r) : (ask r : Prog R A ε (A r)).Asks P := ⟨hr, fun _ => trivial⟩

theorem asks_bind {p : Prog R A ε α} {f : α → Prog R A ε β} (hp : p.Asks P)
    (hf : ∀ a, (f a).Asks P) : (p >>= f).Asks P := by
  show (p.bind f).Asks P
  induction p with
  | pure a => exact hf a
  | throw e => trivial
  | request r k ih => exact ⟨hp.1, fun x => ih x (hp.2 x)⟩

/-- A program that goes along asks for what it may, if that does not depend on what was learned. -/
theorem Along.asks {Q : δ → α → Prop} {d : δ} {p : Prog R A ε α}
    (hp : p.Along (fun _ r => P r) seen Q d) : p.Asks P := by
  induction p generalizing d with
  | pure a => trivial
  | throw e => trivial
  | request r k ih => exact ⟨hp.1, fun x => ih x (hp.2 x)⟩

/-- What each request that occurs keeps, holds however the program ends. -/
theorem Asks.wp {p : Prog R A ε α} (hp : p.Asks P) {h : Handler R A σ} {I : σ → Prop}
    (hI : ∀ r s, P r → I s → I (h r s).2) {s : σ} (hs : I s) :
    p.wp h (fun _ => I) (fun _ => I) s := by
  induction p generalizing s with
  | pure a => exact hs
  | throw e => exact hs
  | request r k ih => exact ih _ (hp.2 _) (hI r s hp.1 hs)

/-- **A program goes along** if each request that occurs in it may be issued whatever was
learned; what has been learned moves as these requests move it. -/
theorem Asks.along {p : Prog R A ε α} (hp : p.Asks P) {K : δ → δ → Prop} (hrefl : ∀ d, K d d)
    (htrans : ∀ a b c, K a b → K b c → K a c)
    (hstep : ∀ d r, P r → may d r ∧ ∀ x, K d (seen d r x)) (d : δ) :
    p.Along may seen (fun d' _ => K d d') d := by
  induction p generalizing d with
  | pure a => exact hrefl d
  | throw e => trivial
  | request r k ih =>
    obtain ⟨hmay, hseen⟩ := hstep d r hp.1
    refine ⟨hmay, ?_⟩
    intro x
    exact (ih x (hp.2 x) (seen d r x)).mono (fun _ _ h => h) fun d' _ h => htrans _ _ _ (hseen x) h

/-- **A program goes along as long as `I` holds of what was learned**, if each request that
occurs in it may be issued then and keeps it. -/
theorem Asks.along_while {p : Prog R A ε α} (hp : p.Asks P) {I : δ → Prop}
    (hI : ∀ d r, I d → P r → may d r ∧ ∀ x, I (seen d r x)) {d : δ} (hd : I d) :
    p.Along may seen (fun d _ => I d) d := by
  induction p generalizing d with
  | pure a => exact hd
  | throw e => trivial
  | request r k ih =>
    obtain ⟨hmay, hseen⟩ := hI d r hd hp.1
    exact ⟨hmay, fun x => ih x (hp.2 x) (hseen x)⟩

/-! ## What a run keeps -/

/-- **What every request keeps, a run keeps.** -/
theorem run_invariant {I : σ → Prop} (hI : ∀ r s, I s → I (h r s).2) (p : Prog R A ε α) {s : σ}
    (hs : I s) : I (p.run h s).2 := by
  induction p generalizing s with
  | pure a => exact hs
  | throw e => exact hs
  | request r k ih => exact ih _ (hI r s hs)

end Prog
