import Mathlib.Logic.Relation

/-!
# Runs of a system

A system takes labelled steps: `next s l` is the state after step `l`, and
`allowed s l` says which steps a run may take in `s`.  `Reaches` is a run of any
length; an invariant that each allowed step keeps holds in every state reached.
-/

namespace Transitions
variable {S L : Type} (next : S → L → S) (allowed : S → L → Prop)

/-- One allowed step. -/
def Step (s t : S) : Prop := ∃ l, allowed s l ∧ next s l = t

/-- A run of allowed steps. -/
def Reaches : S → S → Prop := Relation.ReflTransGen (Step next allowed)

variable {next allowed}

theorem Reaches.refl (s : S) : Reaches next allowed s s := Relation.ReflTransGen.refl

theorem Reaches.tail {s t : S} (h : Reaches next allowed s t) {l : L} (hl : allowed t l) :
    Reaches next allowed s (next t l) :=
  Relation.ReflTransGen.tail h ⟨l, hl, rfl⟩

theorem Reaches.head {s t : S} {l : L} (hl : allowed s l) (h : Reaches next allowed (next s l) t) :
    Reaches next allowed s t :=
  Relation.ReflTransGen.head ⟨l, hl, rfl⟩ h

theorem Reaches.trans {s t u : S} (h : Reaches next allowed s t) (h' : Reaches next allowed t u) :
    Reaches next allowed s u :=
  Relation.ReflTransGen.trans h h'

/-- **Invariants hold along runs.** -/
theorem Reaches.invariant {I : S → Prop} {s t : S} (h : Reaches next allowed s t) (h0 : I s)
    (hstep : ∀ s l, I s → allowed s l → I (next s l)) : I t := by
  induction h with
  | refl => exact h0
  | tail _ hl ih =>
    obtain ⟨l, hl, rfl⟩ := hl
    exact hstep _ l ih hl

/-- A run under stronger conditions is a run under weaker ones. -/
theorem Reaches.mono {allowed' : S → L → Prop} (hw : ∀ s l, allowed s l → allowed' s l) {s t : S}
    (h : Reaches next allowed s t) : Reaches next allowed' s t :=
  Relation.ReflTransGen.mono (fun _ _ ⟨l, hl, he⟩ => ⟨l, hw _ l hl, he⟩) _ _ h

/-! ## Runs given by their steps -/

variable (next allowed)

/-- Every step of the list is allowed where it is taken. -/
def Admits : S → List L → Prop
  | _, [] => True
  | s, l :: ls => allowed s l ∧ Admits (next s l) ls

instance decidableAdmits [∀ s l, Decidable (allowed s l)] :
    ∀ (s : S) (ls : List L), Decidable (Admits next allowed s ls)
  | _, [] => isTrue trivial
  | s, l :: ls =>
    have := decidableAdmits (next s l) ls
    inferInstanceAs (Decidable (allowed s l ∧ Admits next allowed (next s l) ls))

variable {next allowed}

/-! ## What holds in every state of a run -/

/-- `P` holds in every state that the steps come to, from the first on. -/
def Throughout (next : S → L → S) (P : S → Prop) : S → List L → Prop
  | s, [] => P s
  | s, l :: ls => P s ∧ Throughout next P (next s l) ls

theorem Throughout.start {P : S → Prop} {s : S} {ls : List L} (h : Throughout next P s ls) : P s := by
  cases ls with
  | nil => exact h
  | cons l ls => exact h.1

theorem Throughout.last {P : S → Prop} {s : S} {ls : List L} (h : Throughout next P s ls) :
    P (ls.foldl next s) := by
  induction ls generalizing s with
  | nil => exact h
  | cons l ls ih => exact ih h.2

/-- **The steps after which `P` still holds are what keeps it throughout.**  Where `J` and `P` hold,
every step keeps `J`, and `allowed` are just the steps that keep `P`. -/
theorem throughout_iff_admits {P J : S → Prop} (hJ : ∀ s l, J s → P s → J (next s l))
    (hstep : ∀ s l, J s → P s → (P (next s l) ↔ allowed s l)) {s : S} (hs : J s) (hP : P s)
    (ls : List L) : Throughout next P s ls ↔ Admits next allowed s ls := by
  induction ls generalizing s with
  | nil => exact iff_of_true hP trivial
  | cons l ls ih =>
    constructor
    · rintro ⟨-, h⟩
      have hnext := h.start
      exact ⟨(hstep s l hs hP).mp hnext, (ih (hJ s l hs hP) hnext).mp h⟩
    · rintro ⟨hl, h⟩
      have hnext := (hstep s l hs hP).mpr hl
      exact ⟨hP, (ih (hJ s l hs hP) hnext).mpr h⟩

/-! ## What lasts from one state of a run to the next -/

/-- For every `i` and any two states of the run, `K i` relates the first to the second, unless a step
between them ends it. -/
def Lasting {ι : Type} (next : S → L → S) (K : ι → S → S → Prop) (ends : ι → L → Prop) (s : S)
    (ls : List L) : Prop :=
  ∀ before between after i, ls = before ++ between ++ after → (∀ l ∈ between, ¬ ends i l) →
    K i (before.foldl next s) ((before ++ between).foldl next s)

/-- **What lasts over every single step lasts throughout**, if it is transitive. -/
theorem lasting_iff_admits {ι : Type} {K : ι → S → S → Prop} {ends : ι → L → Prop}
    (hrefl : ∀ i s, K i s s) (htrans : ∀ i s t u, K i s t → K i t u → K i s u)
    (hstep : ∀ s l, (∀ i, ¬ ends i l → K i s (next s l)) ↔ allowed s l) {s : S} (ls : List L) :
    Lasting next K ends s ls ↔ Admits next allowed s ls := by
  constructor
  · intro h
    induction ls generalizing s with
    | nil => trivial
    | cons l ls ih =>
      refine ⟨(hstep s l).mp fun i hi => ?_, ih fun before between after i heq hends => ?_⟩
      · refine h [] [l] ls i rfl fun l' hl' => ?_
        obtain rfl := List.mem_singleton.mp hl'
        exact hi
      · exact h (l :: before) between after i (congrArg (l :: ·) heq) hends
  · intro h before between after i heq hends
    rw [List.foldl_append]
    -- the steps between two states are allowed where they are taken
    have hbetween : ∀ {s : S} (before rest : List L), Admits next allowed s (before ++ rest) →
        Admits next allowed (before.foldl next s) rest := by
      intro s before rest
      induction before generalizing s with
      | nil => exact id
      | cons l before ih => exact fun h => ih h.2
    rw [heq, List.append_assoc] at h
    have hrun := hbetween before _ h
    clear heq h
    generalize before.foldl next s = t at hrun ⊢
    induction between generalizing t with
    | nil => exact hrefl i t
    | cons l between ih =>
      have hfirst := (hstep t l).mpr hrun.1 i (hends l List.mem_cons_self)
      exact htrans i t _ _ hfirst (ih (fun l' hl' => hends l' (List.mem_cons_of_mem l hl')) _ hrun.2)

/-- The same of what lasts and what holds in every state together. -/
theorem lasting_and_throughout_iff {ι : Type} {K : ι → S → S → Prop} {ends : ι → L → Prop}
    {P : S → Prop} (hrefl : ∀ i s, K i s s) (htrans : ∀ i s t u, K i s t → K i t u → K i s u)
    (hstep : ∀ s l, P s → (((∀ i, ¬ ends i l → K i s (next s l)) ∧ P (next s l)) ↔ allowed s l)) {s : S}
    (hP : P s) (ls : List L) :
    (Lasting next K ends s ls ∧ Throughout next P s ls) ↔ Admits next allowed s ls := by
  rw [lasting_iff_admits hrefl htrans (fun _ _ => Iff.rfl)]
  induction ls generalizing s with
  | nil => exact iff_of_true ⟨trivial, hP⟩ trivial
  | cons l ls ih =>
    constructor
    · rintro ⟨⟨hkept, hlasting⟩, -, hthroughout⟩
      have hnext := hthroughout.start
      exact ⟨(hstep s l hP).mp ⟨hkept, hnext⟩, (ih hnext).mp ⟨hlasting, hthroughout⟩⟩
    · rintro ⟨hallowed, hadmits⟩
      obtain ⟨hkept, hnext⟩ := (hstep s l hP).mpr hallowed
      obtain ⟨hlasting, hthroughout⟩ := (ih hnext).mpr hadmits
      exact ⟨⟨hkept, hlasting⟩, hP, hthroughout⟩

theorem Admits.and {allowed' : S → L → Prop} {s : S} {ls : List L} (h : Admits next allowed s ls)
    (h' : Admits next allowed' s ls) : Admits next (fun s l => allowed s l ∧ allowed' s l) s ls := by
  induction ls generalizing s with
  | nil => trivial
  | cons l ls ih => exact ⟨⟨h.1, h'.1⟩, ih h.2 h'.2⟩

theorem Admits.append {s : S} {ls ls' : List L} (h : Admits next allowed s ls)
    (h' : Admits next allowed (ls.foldl next s) ls') : Admits next allowed s (ls ++ ls') := by
  induction ls generalizing s with
  | nil => exact h'
  | cons l ls ih => exact ⟨h.1, ih h.2 h'⟩

/-- A list of allowed steps is a run. -/
theorem Admits.reaches {s : S} {ls : List L} (h : Admits next allowed s ls) :
    Reaches next allowed s (ls.foldl next s) := by
  induction ls generalizing s with
  | nil => exact Reaches.refl s
  | cons l ls ih => exact Reaches.head h.1 (ih h.2)

end Transitions
