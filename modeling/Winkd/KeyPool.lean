import Mathlib.Data.List.Nodup

/-!
# Pools of single-use keys

A pool says which key is held at which address.  It is exclusive, with regard to
the keys used so far, when no key is held twice, none that was used is held, and
none was used twice.

Three things can happen to a pool: its keys move to other addresses, or are
dropped (`Exclusive.moved`); one of them is used and no longer held
(`Exclusive.take`); and addresses are filled with keys never seen before
(`Exclusive.stock`).  Each of them keeps it exclusive.
-/

namespace KeyPool
variable {A β : Type}

/-- No key is held twice or used twice, and no used key is held. -/
structure Exclusive (pool : A → Option β) (used : List β) : Prop where
  distinct : ∀ {a b k}, pool a = some k → pool b = some k → a = b
  unspent : ∀ {a k}, pool a = some k → k ∉ used
  nodup : used.Nodup

/-- Every key of `pool'` was a key of `pool`; `origin` says where. -/
structure Moved (pool pool' : A → Option β) (origin : A → A) : Prop where
  kept : ∀ {a k}, pool' a = some k → pool (origin a) = some k
  injective : ∀ {a b k l}, pool' a = some k → pool' b = some l → origin a = origin b → a = b

variable {pool pool' pool'' : A → Option β} {used : List β} {origin origin' : A → A}

/-- A pool that loses keys, and moves none. -/
theorem Moved.of_le (h : ∀ a k, pool' a = some k → pool a = some k) : Moved pool pool' id :=
  ⟨fun {_ _} ha => h _ _ ha, fun {_ _ _ _} _ _ he => he⟩

/-- Moving keys keeps a pool exclusive. -/
theorem Exclusive.moved (h : Exclusive pool used) (hm : Moved pool pool' origin) :
    Exclusive pool' used where
  distinct ha hb := hm.injective ha hb (h.distinct (hm.kept ha) (hm.kept hb))
  unspent ha := h.unspent (hm.kept ha)
  nodup := h.nodup

/-- **Using a key keeps a pool exclusive**, when the key is not held any more. -/
theorem Exclusive.take (h : Exclusive pool used) (hm : Moved pool pool' origin) {t : A} {k : β}
    (ht : pool t = some k) (hout : ∀ a l, pool' a = some l → origin a ≠ t) :
    Exclusive pool' (used ++ [k]) where
  distinct ha hb := hm.injective ha hb (h.distinct (hm.kept ha) (hm.kept hb))
  unspent := by
    intro a l ha hl
    rcases List.mem_append.mp hl with hl | hl
    · exact h.unspent (hm.kept ha) hl
    · obtain rfl := List.mem_singleton.mp hl
      exact hout a _ ha (h.distinct (hm.kept ha) ht)
  nodup := by
    rw [List.nodup_append]
    refine ⟨h.nodup, List.nodup_singleton k, ?_⟩
    intro a ha b hb hab
    rw [List.mem_singleton.mp hb] at hab
    exact h.unspent ht (hab ▸ ha)

/-- **Filling addresses with fresh keys keeps a pool exclusive.** -/
theorem Exclusive.stock (h : Exclusive pool used) (new : A → Prop)
    (hold : ∀ a k, ¬ new a → pool' a = some k → pool a = some k)
    (hused : ∀ a k, new a → pool' a = some k → k ∉ used)
    (hfresh : ∀ a b k, new a → pool' a = some k → ¬ new b → pool' b ≠ some k)
    (hnew : ∀ a b k, new a → new b → pool' a = some k → pool' b = some k → a = b) :
    Exclusive pool' used where
  distinct := by
    intro a b k ha hb
    by_cases hna : new a
    · by_cases hnb : new b
      · exact hnew a b k hna hnb ha hb
      · exact absurd hb (hfresh a b k hna ha hnb)
    · by_cases hnb : new b
      · exact absurd ha (hfresh b a k hnb hb hna)
      · exact h.distinct (hold a k hna ha) (hold b k hnb hb)
  unspent := by
    intro a k ha
    by_cases hna : new a
    · exact hused a k hna ha
    · exact h.unspent (hold a k hna ha)
  nodup := h.nodup

end KeyPool
