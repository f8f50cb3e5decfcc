import Mathlib.Data.List.Basic
import Mathlib.Data.List.Nodup
import Mathlib.Logic.Function.Basic

/-!
# Messages in two lanes

A message that is handled is pushed at once, or it is queued.  Who drains the queue holds
what was in it for one receiver, and pushes that in its order.  So messages between the
same two are pushed in the order in which they were handled, where none is pushed past an
earlier one that waits (`Ordered.step`).

The lists of what was handled and what was pushed have the latest first.
-/

/-- Where the messages are. -/
structure Lanes (M : Type) where
  handled : List M
  pushed : List M
  queue : List M
  /-- What each of those who drain the queue has still to push. -/
  held : ℕ → List M

namespace Lanes
variable {M : Type} (same : M → M → Prop)

/-- The first was handled before the second, and they are between the same two. -/
def Earlier (s : Lanes M) (m₁ m₂ : M) : Prop := same m₁ m₂ ∧ [m₂, m₁].Sublist s.handled

/-- What can happen to messages. -/
inductive Step (s : Lanes M) : Lanes M → Prop
  /-- One is handled and pushed at once, and no earlier one waits. -/
  | direct (m : M) (fresh : m ∉ s.handled)
      (clear : ∀ m₁, same m₁ m → m₁ ∉ s.queue ∧ ∀ j, m₁ ∉ s.held j) :
      Step s { s with handled := m :: s.handled, pushed := m :: s.pushed }
  | queue (m : M) (fresh : m ∉ s.handled) :
      Step s { s with handled := m :: s.handled, queue := s.queue ++ [m] }
  | refuse (m : M) (fresh : m ∉ s.handled) : Step s { s with handled := m :: s.handled }
  /-- What is in the queue for one receiver is drained. -/
  | drain (i : ℕ) (p : M → Bool) (hp : ∀ m₁ m₂, same m₁ m₂ → p m₁ = p m₂) :
      Step s { s with
        queue := s.queue.filter fun m => !p m
        held := Function.update s.held i (s.queue.filter p) }
  /-- One that was drained is pushed, and nobody else holds an earlier one. -/
  | replay (i : ℕ) (m : M) (l : List M) (head : s.held i = m :: l)
      (clear : ∀ j, j ≠ i → ∀ m₁ ∈ s.held j, ¬ s.Earlier same m₁ m) :
      Step s { s with pushed := m :: s.pushed, held := Function.update s.held i l }
  /-- Some that were drained are lost. -/
  | release (i : ℕ) (l : List M) (suffix : l.IsSuffix (s.held i)) :
      Step s { s with held := Function.update s.held i l }

/-- Messages between the same two have been pushed in order, and wait in order. -/
structure Ordered (s : Lanes M) : Prop where
  unique : s.handled.Nodup
  placed : ∀ m, m ∈ s.pushed ∨ m ∈ s.queue ∨ (∃ j, m ∈ s.held j) → m ∈ s.handled
  queueOnce : s.queue.Nodup
  heldOnce : ∀ j, (s.held j).Nodup
  pushed : ∀ m₁ m₂, s.Earlier same m₁ m₂ → m₁ ∈ s.pushed → m₂ ∈ s.pushed →
    [m₂, m₁].Sublist s.pushed
  /-- None waits that is earlier than one that was pushed. -/
  passed : ∀ m₁ m₂, s.Earlier same m₁ m₂ → m₂ ∈ s.pushed → m₁ ∉ s.queue ∧ ∀ j, m₁ ∉ s.held j
  queued : ∀ m₁ m₂, s.Earlier same m₁ m₂ → m₁ ∈ s.queue → m₂ ∈ s.queue → [m₁, m₂].Sublist s.queue
  drained : ∀ m₁ m₂, s.Earlier same m₁ m₂ → ∀ j, m₂ ∈ s.held j → m₁ ∉ s.queue
  held : ∀ m₁ m₂, s.Earlier same m₁ m₂ → ∀ j, m₁ ∈ s.held j → m₂ ∈ s.held j →
    [m₁, m₂].Sublist (s.held j)

variable {same} {s : Lanes M}

theorem ordered_empty : Ordered same (⟨[], [], [], fun _ => []⟩ : Lanes M) where
  unique := List.nodup_nil
  placed m h := by simp at h
  queueOnce := List.nodup_nil
  heldOnce _ := List.nodup_nil
  pushed _ _ _ h := nomatch h
  passed _ _ _ h := nomatch h
  queued _ _ _ h := nomatch h
  drained _ _ _ _ h := nomatch h
  held _ _ _ _ h := nomatch h

theorem Earlier.mem {m₁ m₂ : M} (h : s.Earlier same m₁ m₂) : m₁ ∈ s.handled ∧ m₂ ∈ s.handled :=
  ⟨h.2.subset (by simp), h.2.subset (by simp)⟩

/-- What is handled next is later than all. -/
theorem earlier_cons {m m₁ m₂ : M} {t : Lanes M} (ht : t.handled = m :: s.handled)
    (h : t.Earlier same m₁ m₂) :
    s.Earlier same m₁ m₂ ∨ m₂ = m ∧ same m₁ m ∧ m₁ ∈ s.handled := by
  obtain ⟨hsame, hsub⟩ := h
  rw [ht] at hsub
  rcases List.sublist_cons_iff.mp hsub with hsub | ⟨l, hl, hsub⟩
  · exact .inl ⟨hsame, hsub⟩
  · obtain ⟨rfl, rfl⟩ := List.cons.inj hl
    exact .inr ⟨rfl, hsame, hsub.subset List.mem_cons_self⟩

/-- Two that stand in order still do among those that are picked. -/
theorem pair_filter {l : List M} {p : M → Bool} {m₁ m₂ : M} (h : [m₁, m₂].Sublist l)
    (h₁ : m₁ ∈ l.filter p) (h₂ : m₂ ∈ l.filter p) : [m₁, m₂].Sublist (l.filter p) := by
  have hsub := h.filter p
  rwa [List.filter_cons_of_pos (List.mem_filter.mp h₁).2,
    List.filter_cons_of_pos (List.mem_filter.mp h₂).2, List.filter_nil] at hsub

theorem Ordered.direct (hs : s.Ordered same) {m : M} (fresh : m ∉ s.handled)
    (clear : ∀ m₁, same m₁ m → m₁ ∉ s.queue ∧ ∀ j, m₁ ∉ s.held j) :
    Ordered same { s with handled := m :: s.handled, pushed := m :: s.pushed } := by
  have hne : ∀ x ∈ s.handled, x ∈ m :: s.pushed → x ∈ s.pushed := by
    intro x hx hmem
    refine (List.mem_cons.mp hmem).resolve_left ?_
    rintro rfl
    exact fresh hx
  have hqueue : m ∉ s.queue := fun h => fresh (hs.placed m (.inr (.inl h)))
  have hheld : ∀ j, m ∉ s.held j := fun j h => fresh (hs.placed m (.inr (.inr ⟨j, h⟩)))
  refine ⟨List.nodup_cons.mpr ⟨fresh, hs.unique⟩, ?_, hs.queueOnce, hs.heldOnce, ?_, ?_, ?_, ?_, ?_⟩
  · rintro x (hx | hx)
    · rcases List.mem_cons.mp hx with rfl | hx
      · exact List.mem_cons_self
      · exact List.mem_cons_of_mem _ (hs.placed x (.inl hx))
    · exact List.mem_cons_of_mem _ (hs.placed x (.inr hx))
  · intro m₁ m₂ he h₁ h₂
    rcases earlier_cons (s := s) rfl he with he | ⟨rfl, -, hm⟩
    · exact (hs.pushed m₁ m₂ he (hne m₁ he.mem.1 h₁) (hne m₂ he.mem.2 h₂)).cons m
    · -- the new one is the latest pushed
      exact (List.singleton_sublist.mpr (hne m₁ hm h₁)).cons_cons m₂
  · intro m₁ m₂ he h₂
    rcases earlier_cons (s := s) rfl he with he | ⟨rfl, hsame, -⟩
    · exact hs.passed m₁ m₂ he (hne m₂ he.mem.2 h₂)
    · -- nothing earlier waits, or it would be passed now
      exact clear m₁ hsame
  · intro m₁ m₂ he h₁ h₂
    rcases earlier_cons (s := s) rfl he with he | ⟨rfl, -, -⟩
    · exact hs.queued m₁ m₂ he h₁ h₂
    · exact absurd h₂ hqueue
  · intro m₁ m₂ he j h₂
    rcases earlier_cons (s := s) rfl he with he | ⟨rfl, -, -⟩
    · exact hs.drained m₁ m₂ he j h₂
    · exact absurd h₂ (hheld j)
  · intro m₁ m₂ he j h₁ h₂
    rcases earlier_cons (s := s) rfl he with he | ⟨rfl, -, -⟩
    · exact hs.held m₁ m₂ he j h₁ h₂
    · exact absurd h₂ (hheld j)

theorem Ordered.refuse (hs : s.Ordered same) {m : M} (fresh : m ∉ s.handled) :
    Ordered same { s with handled := m :: s.handled } := by
  have hnowhere : ¬ (m ∈ s.pushed ∨ m ∈ s.queue ∨ ∃ j, m ∈ s.held j) := fun h =>
    fresh (hs.placed m h)
  have hold : ∀ m₁ m₂, Earlier same { s with handled := m :: s.handled } m₁ m₂ →
      m₂ ∈ s.pushed ∨ m₂ ∈ s.queue ∨ (∃ j, m₂ ∈ s.held j) → s.Earlier same m₁ m₂ := by
    intro m₁ m₂ he h₂
    refine (earlier_cons (s := s) rfl he).resolve_right ?_
    rintro ⟨rfl, -, -⟩
    exact hnowhere h₂
  refine ⟨List.nodup_cons.mpr ⟨fresh, hs.unique⟩, ?_, hs.queueOnce, hs.heldOnce, ?_, ?_, ?_, ?_, ?_⟩
  · exact fun x hx => List.mem_cons_of_mem _ (hs.placed x hx)
  · exact fun m₁ m₂ he h₁ h₂ => hs.pushed m₁ m₂ (hold m₁ m₂ he (.inl h₂)) h₁ h₂
  · exact fun m₁ m₂ he h₂ => hs.passed m₁ m₂ (hold m₁ m₂ he (.inl h₂)) h₂
  · exact fun m₁ m₂ he h₁ h₂ => hs.queued m₁ m₂ (hold m₁ m₂ he (.inr (.inl h₂))) h₁ h₂
  · exact fun m₁ m₂ he j h₂ => hs.drained m₁ m₂ (hold m₁ m₂ he (.inr (.inr ⟨j, h₂⟩))) j h₂
  · exact fun m₁ m₂ he j h₁ h₂ => hs.held m₁ m₂ (hold m₁ m₂ he (.inr (.inr ⟨j, h₂⟩))) j h₁ h₂

theorem Ordered.queue (hs : s.Ordered same) {m : M} (fresh : m ∉ s.handled) :
    Ordered same { s with handled := m :: s.handled, queue := s.queue ++ [m] } := by
  have hne : ∀ x ∈ s.handled, x ∈ s.queue ++ [m] → x ∈ s.queue := by
    intro x hx hmem
    refine (List.mem_append.mp hmem).resolve_right fun h => ?_
    obtain rfl := List.mem_singleton.mp h
    exact fresh hx
  have hrefused := hs.refuse fresh
  refine ⟨hrefused.unique, ?_, ?_, hs.heldOnce, hrefused.pushed, ?_, ?_, ?_, hrefused.held⟩
  · rintro x (hx | hx | hx)
    · exact hrefused.placed x (.inl hx)
    · rcases List.mem_append.mp hx with hx | hx
      · exact hrefused.placed x (.inr (.inl hx))
      · rw [List.mem_singleton.mp hx]
        exact List.mem_cons_self
    · exact hrefused.placed x (.inr (.inr hx))
  · refine List.nodup_append.mpr ⟨hs.queueOnce, List.nodup_singleton m, ?_⟩
    rintro x hx y hy rfl
    obtain rfl := List.mem_singleton.mp hy
    exact fresh (hs.placed x (.inr (.inl hx)))
  · intro m₁ m₂ he h₂
    obtain ⟨h₁, hheld⟩ := hrefused.passed m₁ m₂ he h₂
    refine ⟨fun hmem => ?_, hheld⟩
    rcases earlier_cons (s := s) rfl he with he | ⟨-, -, hm⟩
    · exact h₁ (hne m₁ he.mem.1 hmem)
    · exact h₁ (hne m₁ hm hmem)
  · intro m₁ m₂ he h₁ h₂
    rcases earlier_cons (s := s) rfl he with he | ⟨rfl, -, hm⟩
    · have hsub := hs.queued m₁ m₂ he (hne m₁ he.mem.1 h₁) (hne m₂ he.mem.2 h₂)
      exact hsub.trans (List.sublist_append_left _ _)
    · -- the new one is the last of the queue
      exact (List.singleton_sublist.mpr (hne m₁ hm h₁)).append (List.Sublist.refl [m₂])
  · intro m₁ m₂ he j h₂ hmem
    refine hrefused.drained m₁ m₂ he j h₂ ?_
    rcases earlier_cons (s := s) rfl he with he | ⟨-, -, hm⟩
    · exact hne m₁ he.mem.1 hmem
    · exact hne m₁ hm hmem

theorem Ordered.drain (hs : s.Ordered same) (i : ℕ) {p : M → Bool}
    (hp : ∀ m₁ m₂, same m₁ m₂ → p m₁ = p m₂) :
    Ordered same { s with
      queue := s.queue.filter fun m => !p m
      held := Function.update s.held i (s.queue.filter p) } := by
  have hqueue : ∀ x ∈ s.queue.filter fun m => !p m, x ∈ s.queue := fun _ h => List.mem_of_mem_filter h
  have hheld : ∀ j, ∀ x ∈ Function.update s.held i (s.queue.filter p) j,
      x ∈ s.held j ∨ j = i ∧ x ∈ s.queue ∧ p x = true := by
    intro j x hx
    by_cases hij : j = i
    · subst hij
      rw [Function.update_self] at hx
      exact .inr ⟨rfl, List.mem_filter.mp hx⟩
    · rw [Function.update_of_ne hij] at hx
      exact .inl hx
  refine ⟨hs.unique, ?_, hs.queueOnce.filter _, ?_, hs.pushed, ?_, ?_, ?_, ?_⟩
  · rintro x (hx | hx | ⟨j, hx⟩)
    · exact hs.placed x (.inl hx)
    · exact hs.placed x (.inr (.inl (hqueue x hx)))
    · rcases hheld j x hx with hx | ⟨-, hx, -⟩
      · exact hs.placed x (.inr (.inr ⟨j, hx⟩))
      · exact hs.placed x (.inr (.inl hx))
  · intro j
    dsimp only
    by_cases hij : j = i
    · subst hij
      rw [Function.update_self]
      exact hs.queueOnce.filter _
    · rw [Function.update_of_ne hij]
      exact hs.heldOnce j
  · intro m₁ m₂ he h₂
    obtain ⟨hq, hh⟩ := hs.passed m₁ m₂ he h₂
    refine ⟨fun h => hq (hqueue m₁ h), fun j h => ?_⟩
    rcases hheld j m₁ h with h | ⟨-, h, -⟩
    · exact hh j h
    · exact hq h
  · intro m₁ m₂ he h₁ h₂
    exact pair_filter (hs.queued m₁ m₂ he (hqueue m₁ h₁) (hqueue m₂ h₂)) h₁ h₂
  · intro m₁ m₂ he j h₂ h₁
    rcases hheld j m₂ h₂ with h₂ | ⟨-, -, hpm⟩
    · exact hs.drained m₁ m₂ he j h₂ (hqueue m₁ h₁)
    · -- the earlier one was for the same receiver
      have hout := (List.mem_filter.mp h₁).2
      rw [hp m₁ m₂ he.1, hpm] at hout
      cases hout
  · intro m₁ m₂ he j h₁ h₂
    dsimp only at h₁ h₂ ⊢
    by_cases hij : j = i
    · subst hij
      rw [Function.update_self] at h₁ h₂ ⊢
      have hsub := hs.queued m₁ m₂ he (List.mem_of_mem_filter h₁) (List.mem_of_mem_filter h₂)
      exact pair_filter hsub h₁ h₂
    · rw [Function.update_of_ne hij] at h₁ h₂ ⊢
      exact hs.held m₁ m₂ he j h₁ h₂

/-- Two of the last of a list without repetition stand in the order of the list. -/
theorem pair_suffix {l l' : List M} (hl : l.IsSuffix l') (hn : l'.Nodup) {m₁ m₂ : M}
    (h : [m₁, m₂].Sublist l') (h₁ : m₁ ∈ l) : [m₁, m₂].Sublist l := by
  obtain ⟨p, rfl⟩ := hl
  have hnot : ∀ x ∈ p, x ≠ m₁ := by
    rintro x hx rfl
    exact (List.nodup_append.mp hn).2.2 x hx x h₁ rfl
  clear hn
  induction p with
  | nil => exact h
  | cons a p ih =>
    refine ih ?_ fun x hx => hnot x (List.mem_cons_of_mem _ hx)
    rcases List.sublist_cons_iff.mp h with h | ⟨r, hr, -⟩
    · exact h
    · exact absurd (List.cons.inj hr).1.symm (hnot a List.mem_cons_self)

theorem Ordered.release (hs : s.Ordered same) (i : ℕ) {l : List M} (hl : l.IsSuffix (s.held i)) :
    Ordered same { s with held := Function.update s.held i l } := by
  have hheld : ∀ j, (Function.update s.held i l j).IsSuffix (s.held j) := by
    intro j
    by_cases hij : j = i
    · subst hij
      rw [Function.update_self]
      exact hl
    · have hsame := Function.update_of_ne hij l s.held
      exact hsame ▸ List.suffix_rfl
  have hmem : ∀ j, ∀ x ∈ Function.update s.held i l j, x ∈ s.held j := fun j _ h => (hheld j).mem h
  refine ⟨hs.unique, ?_, hs.queueOnce, ?_, hs.pushed, ?_, hs.queued, ?_, ?_⟩
  · rintro x (hx | hx | ⟨j, hx⟩)
    · exact hs.placed x (.inl hx)
    · exact hs.placed x (.inr (.inl hx))
    · exact hs.placed x (.inr (.inr ⟨j, hmem j x hx⟩))
  · exact fun j => (hs.heldOnce j).sublist (hheld j).sublist
  · intro m₁ m₂ he h₂
    obtain ⟨hq, hh⟩ := hs.passed m₁ m₂ he h₂
    exact ⟨hq, fun j h => hh j (hmem j m₁ h)⟩
  · exact fun m₁ m₂ he j h₂ => hs.drained m₁ m₂ he j (hmem j m₂ h₂)
  · intro m₁ m₂ he j h₁ h₂
    exact pair_suffix (hheld j) (hs.heldOnce j) (hs.held m₁ m₂ he j (hmem j m₁ h₁) (hmem j m₂ h₂)) h₁

theorem Ordered.replay (hs : s.Ordered same) {i : ℕ} {m : M} {l : List M} (head : s.held i = m :: l)
    (clear : ∀ j, j ≠ i → ∀ m₁ ∈ s.held j, ¬ s.Earlier same m₁ m) :
    Ordered same { s with pushed := m :: s.pushed, held := Function.update s.held i l } := by
  have hheld : m ∈ s.held i := head ▸ List.mem_cons_self
  have hreleased := hs.release i (l := l) (head ▸ List.suffix_cons m l)
  have hone : (m :: l).Nodup := head ▸ hs.heldOnce i
  have hother : ∀ j, ∀ x ∈ Function.update s.held i l j, j = i ∧ x ∈ l ∨ j ≠ i ∧ x ∈ s.held j := by
    intro j x hx
    by_cases hij : j = i
    · subst hij
      rw [Function.update_self] at hx
      exact .inl ⟨rfl, hx⟩
    · rw [Function.update_of_ne hij] at hx
      exact .inr ⟨hij, hx⟩
  have hself : ¬ s.Earlier same m m := by
    rintro ⟨-, hsub⟩
    have hnodup := hs.unique.sublist hsub
    simp at hnodup
  refine ⟨hs.unique, ?_, hs.queueOnce, hreleased.heldOnce, ?_, ?_, hs.queued, hreleased.drained,
    hreleased.held⟩
  · rintro x (hx | hx)
    · rcases List.mem_cons.mp hx with rfl | hx
      · exact hs.placed x (.inr (.inr ⟨i, hheld⟩))
      · exact hreleased.placed x (.inl hx)
    · exact hreleased.placed x (.inr hx)
  · intro m₁ m₂ he h₁ h₂
    rcases List.mem_cons.mp h₁ with rfl | hold₁
    · rcases List.mem_cons.mp h₂ with rfl | hold₂
      · exact absurd he hself
      · -- an earlier one would wait behind one that was pushed
        exact absurd hheld ((hs.passed _ m₂ he hold₂).2 i)
    · rcases List.mem_cons.mp h₂ with rfl | hold₂
      · exact (List.singleton_sublist.mpr hold₁).cons_cons m₂
      · exact (hs.pushed m₁ m₂ he hold₁ hold₂).cons m
  · intro m₁ m₂ he h₂
    rcases List.mem_cons.mp h₂ with rfl | h₂
    · refine ⟨hs.drained m₁ m₂ he i hheld, fun j hx => ?_⟩
      rcases hother j m₁ hx with ⟨-, hx⟩ | ⟨hij, hx⟩
      · -- it would stand behind a later one
        have hsub := hs.held m₁ m₂ he i (head ▸ List.mem_cons_of_mem _ hx) hheld
        rw [head] at hsub
        have hlate : m₂ ∈ l := by
          rcases List.sublist_cons_iff.mp hsub with hsub | ⟨r, hr, hsub⟩
          · exact hsub.subset (by simp)
          · obtain ⟨-, rfl⟩ := List.cons.inj hr
            exact hsub.subset List.mem_cons_self
        exact (List.nodup_cons.mp hone).1 hlate
      · exact clear j hij m₁ hx he
    · exact hreleased.passed m₁ m₂ he h₂

/-- **Messages stay in order** whatever happens to them. -/
theorem Ordered.step {t : Lanes M} (hs : s.Ordered same) (h : s.Step same t) : t.Ordered same := by
  cases h with
  | direct m fresh clear => exact hs.direct fresh clear
  | queue m fresh => exact hs.queue fresh
  | refuse m fresh => exact hs.refuse fresh
  | drain i p hp => exact hs.drain i hp
  | replay i m l head clear => exact hs.replay head clear
  | release i l suffix => exact hs.release i suffix

end Lanes
