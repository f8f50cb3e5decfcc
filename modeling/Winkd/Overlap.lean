import Winkd.Effects

/-!
# Two programs that overlap

Two programs work on one state, and their requests are answered in the order of a
schedule.  The run is that of one after the other when the requests that conflict all come
in one order (`overlap_serial`): a request may be moved past those it does not conflict
with, so the other program is run as if it had come first.
-/

namespace Prog
variable {R : Type} {A : R → Type} {ε α β σ : Type}

/-- Whose request is answered. -/
inductive Turn where
  | first
  | second
  deriving DecidableEq

def Turn.swap : Turn → Turn
  | .first => .second
  | .second => .first

/-- Two programs under way, with the requests that were answered, in their order. -/
structure Overlapped (R : Type) (A : R → Type) (ε α β σ : Type) where
  first : Prog R A ε α
  second : Prog R A ε β
  state : σ
  trace : List (Turn × R)

/-- The requests answered so far, and one before them. -/
def Overlapped.after (t : Turn) (r : R) (o : Overlapped R A ε α β σ) : Overlapped R A ε α β σ :=
  { o with trace := (t, r) :: o.trace }

/-- The two programs after a schedule; each has its own way of being answered.  A program
that has ended passes its turn. -/
def overlap (h₁ h₂ : Handler R A σ) :
    List Turn → Prog R A ε α → Prog R A ε β → σ → Overlapped R A ε α β σ
  | [], p, q, s => ⟨p, q, s, []⟩
  | .first :: l, p, q, s =>
    match p with
    | .request r k => (overlap h₁ h₂ l (k (h₁ r s).1) q (h₁ r s).2).after .first r
    | .pure a => overlap h₁ h₂ l (.pure a) q s
    | .throw e => overlap h₁ h₂ l (.throw e) q s
  | .second :: l, p, q, s =>
    match q with
    | .request r k => (overlap h₁ h₂ l p (k (h₂ r s).1) (h₂ r s).2).after .second r
    | .pure a => overlap h₁ h₂ l p (.pure a) s
    | .throw e => overlap h₁ h₂ l p (.throw e) s

/-- What a program has returned or thrown. -/
def result : Prog R A ε α → Option (Except ε α)
  | .pure a => some (.ok a)
  | .throw e => some (.error e)
  | .request _ _ => none

/-- The requests of a run. -/
def requests (h : Handler R A σ) : Prog R A ε α → σ → List R
  | .request r k, s => r :: requests h (k (h r s).1) (h r s).2
  | _, _ => []

/-- The two requests may change places. -/
structure Commute (h₁ h₂ : Handler R A σ) (r₁ r₂ : R) : Prop where
  first : ∀ s, (h₁ r₁ (h₂ r₂ s).2).1 = (h₁ r₁ s).1
  second : ∀ s, (h₂ r₂ (h₁ r₁ s).2).1 = (h₂ r₂ s).1
  state : ∀ s, (h₂ r₂ (h₁ r₁ s).2).2 = (h₁ r₁ (h₂ r₂ s).2).2

/-- No request of the second comes before one of the first that it conflicts with. -/
def FirstFirst (conflict : R → R → Prop) (l : List (Turn × R)) : Prop :=
  l.Pairwise fun a b => a.1 = .second → b.1 = .first → ¬ conflict b.2 a.2

variable {h₁ h₂ : Handler R A σ}

theorem run_of_result {p : Prog R A ε α} {x : Except ε α} (hp : p.result = some x)
    (h : Handler R A σ) (s : σ) : p.run h s = (x, s) ∧ p.requests h s = [] := by
  cases p with
  | pure a => exact ⟨congrArg (·, s) (Option.some.inj hp), rfl⟩
  | throw e => exact ⟨congrArg (·, s) (Option.some.inj hp), rfl⟩
  | request r k => cases hp

/-- A run with a request of another program before it is a run with it after. -/
theorem run_commute {r : R} (p : Prog R A ε α) (s : σ)
    (hr : ∀ r₁ ∈ p.requests h₁ (h₂ r s).2, Commute h₁ h₂ r₁ r) :
    (p.run h₁ (h₂ r s).2).1 = (p.run h₁ s).1 ∧
      h₂ r (p.run h₁ s).2 = ((h₂ r s).1, (p.run h₁ (h₂ r s).2).2) ∧
        p.requests h₁ (h₂ r s).2 = p.requests h₁ s := by
  induction p generalizing s with
  | pure a => exact ⟨rfl, rfl, rfl⟩
  | throw e => exact ⟨rfl, rfl, rfl⟩
  | request r₁ k ih =>
    have hfirst : Commute h₁ h₂ r₁ r := hr r₁ List.mem_cons_self
    have hreply := hfirst.first s
    have hstate := hfirst.state s
    have hrest : ∀ r' ∈ (k (h₁ r₁ s).1).requests h₁ (h₂ r (h₁ r₁ s).2).2, Commute h₁ h₂ r' r := by
      rw [hstate, ← hreply]
      exact fun r' h => hr r' (List.mem_cons_of_mem _ h)
    obtain ⟨hresult, hafter, hrequests⟩ := ih (h₁ r₁ s).1 (h₁ r₁ s).2 hrest
    rw [hfirst.second] at hafter
    rw [hstate] at hresult hafter hrequests
    refine ⟨?_, ?_, ?_⟩
    · rw [run, run, hreply]
      exact hresult
    · rw [run, run, hreply]
      exact hafter
    · rw [requests, requests, hreply]
      exact congrArg _ hrequests

/-- **Two programs whose conflicts have the first before the second** end as if the first
had been run before the second. -/
theorem overlap_serial {conflict : R → R → Prop}
    (hcommute : ∀ r₁ r₂, ¬ conflict r₁ r₂ → Commute h₁ h₂ r₁ r₂) (l : List Turn)
    (p : Prog R A ε α) (q : Prog R A ε β) (s : σ) {x : Except ε α} {y : Except ε β}
    (hx : (overlap h₁ h₂ l p q s).first.result = some x)
    (hy : (overlap h₁ h₂ l p q s).second.result = some y)
    (hl : FirstFirst conflict (overlap h₁ h₂ l p q s).trace) :
    (p.run h₁ s).1 = x ∧ q.run h₂ (p.run h₁ s).2 = (y, (overlap h₁ h₂ l p q s).state) ∧
      ∀ r ∈ p.requests h₁ s, (Turn.first, r) ∈ (overlap h₁ h₂ l p q s).trace := by
  induction l generalizing p q s with
  | nil =>
    obtain ⟨hrun, hrequests⟩ := run_of_result hx h₁ s
    have hsecond := (run_of_result hy h₂ s).1
    have hp : p.run h₁ s = (x, s) := hrun
    rw [hp]
    refine ⟨rfl, hsecond, fun r hr => ?_⟩
    have hnil : p.requests h₁ s = [] := hrequests
    rw [hnil] at hr
    cases hr
  | cons t l ih =>
    cases t with
    | first =>
      cases p with
      | pure a => exact ih _ _ s hx hy hl
      | throw e => exact ih _ _ s hx hy hl
      | request r k =>
        obtain ⟨hrun, hsecond, hrequests⟩ := ih _ _ (h₁ r s).2 hx hy (List.pairwise_cons.mp hl).2
        refine ⟨hrun, hsecond, fun r' hr' => ?_⟩
        rcases List.mem_cons.mp hr' with rfl | hr'
        · exact List.mem_cons_self
        · exact List.mem_cons_of_mem _ (hrequests r' hr')
    | second =>
      cases q with
      | pure a => exact ih _ _ s hx hy hl
      | throw e => exact ih _ _ s hx hy hl
      | request r k =>
        obtain ⟨hnone, hl⟩ := List.pairwise_cons.mp hl
        obtain ⟨hrun, hsecond, hrequests⟩ := ih _ _ (h₂ r s).2 hx hy hl
        -- none of the requests of the first conflicts with this one
        obtain ⟨hresult, hafter, hsame⟩ := run_commute (r := r) p s fun r₁ hr₁ =>
          hcommute r₁ r (hnone _ (hrequests r₁ hr₁) rfl rfl)
        refine ⟨hresult.symm.trans hrun, ?_, fun r' hr' => ?_⟩
        · rw [run, hafter]
          exact hsecond
        · exact List.mem_cons_of_mem _ (hrequests r' (hsame ▸ hr'))

/-! ## The other way round -/

/-- The two programs change places. -/
def Overlapped.swap (o : Overlapped R A ε α β σ) : Overlapped R A ε β α σ :=
  ⟨o.second, o.first, o.state, o.trace.map fun e => (e.1.swap, e.2)⟩

theorem overlap_swap (l : List Turn) (p : Prog R A ε α) (q : Prog R A ε β) (s : σ) :
    (overlap h₁ h₂ l p q s).swap = overlap h₂ h₁ (l.map Turn.swap) q p s := by
  induction l generalizing p q s with
  | nil => rfl
  | cons t l ih =>
    cases t with
    | first =>
      cases p with
      | pure a => exact ih _ _ s
      | throw e => exact ih _ _ s
      | request r k => exact congrArg (Overlapped.after .second r) (ih _ _ (h₁ r s).2)
    | second =>
      cases q with
      | pure a => exact ih _ _ s
      | throw e => exact ih _ _ s
      | request r k => exact congrArg (Overlapped.after .first r) (ih _ _ (h₂ r s).2)

theorem Commute.swap {r₁ r₂ : R} (h : Commute h₁ h₂ r₁ r₂) : Commute h₂ h₁ r₂ r₁ :=
  ⟨h.second, h.first, fun s => (h.state s).symm⟩

/-- Two programs whose conflicts have the second before the first. -/
theorem overlap_serial_second {conflict : R → R → Prop}
    (hcommute : ∀ r₁ r₂, ¬ conflict r₁ r₂ → Commute h₁ h₂ r₁ r₂)
    (hsymm : ∀ {r r'}, conflict r r' → conflict r' r) (l : List Turn)
    (p : Prog R A ε α) (q : Prog R A ε β) (s : σ) {x : Except ε α} {y : Except ε β}
    (hx : (overlap h₁ h₂ l p q s).first.result = some x)
    (hy : (overlap h₁ h₂ l p q s).second.result = some y)
    (hl : FirstFirst conflict ((overlap h₁ h₂ l p q s).trace.map fun e => (e.1.swap, e.2))) :
    (q.run h₂ s).1 = y ∧ p.run h₁ (q.run h₂ s).2 = (x, (overlap h₁ h₂ l p q s).state) := by
  have hswap : (overlap h₁ h₂ l p q s).swap = overlap h₂ h₁ (l.map Turn.swap) q p s :=
    overlap_swap l p q s
  have hback : ∀ r₂ r₁, ¬ conflict r₂ r₁ → Commute h₂ h₁ r₂ r₁ := by
    intro r₂ r₁ h
    exact (hcommute r₁ r₂ fun h' => h (hsymm h')).swap
  obtain ⟨hsecond, hfirst, -⟩ := overlap_serial hback (l.map Turn.swap) q p s (x := y) (y := x)
    (hswap ▸ hy) (hswap ▸ hx) (hswap ▸ hl)
  rw [← hswap] at hfirst
  exact ⟨hsecond, hfirst⟩

end Prog
