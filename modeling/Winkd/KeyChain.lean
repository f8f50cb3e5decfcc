import Mathlib.Logic.Function.Iterate

/-!
# Key chains

A key chain starts from a base key and is advanced by a one-way step; each of
its keys yields one message key.  `chainAt` and `messageAt` are the `i`-th key
of a chain and its `i`-th message key.

A derivation is **free** on a set of base keys when nothing collides: advancing
and extracting are injective, and no base key is the successor of a key.  Then a
message key determines its chain and its position (`messageAt_inj`), so chains
with different bases have no key in common and no chain repeats itself.
-/

/-- How a chain is advanced, and what each of its keys yields. -/
structure KeyChain (K M : Type) where
  next : K → K
  message : K → M

namespace KeyChain
variable {K M : Type} (c : KeyChain K M)

/-- The `i`-th key of the chain that starts from `base`. -/
def chainAt (base : K) (i : ℕ) : K := c.next^[i] base

/-- The `i`-th message key of the chain that starts from `base`. -/
def messageAt (base : K) (i : ℕ) : M := c.message (c.chainAt base i)

@[simp] theorem chainAt_zero (base : K) : c.chainAt base 0 = base := rfl

theorem chainAt_succ (base : K) (i : ℕ) : c.chainAt base (i + 1) = c.next (c.chainAt base i) :=
  Function.iterate_succ_apply' c.next i base

theorem chainAt_chainAt (base : K) (i j : ℕ) :
    c.chainAt (c.chainAt base i) j = c.chainAt base (i + j) := by
  rw [chainAt, chainAt, ← Function.iterate_add_apply, Nat.add_comm]
  rfl

theorem messageAt_chainAt (base : K) (i j : ℕ) :
    c.messageAt (c.chainAt base i) j = c.messageAt base (i + j) := by
  rw [messageAt, chainAt_chainAt]
  rfl

/-- No two derivations from base keys of `bases` collide. -/
structure Free (bases : K → Prop) : Prop where
  next_injective : Function.Injective c.next
  message_injective : Function.Injective c.message
  base_ne_next : ∀ b k, bases b → b ≠ c.next k

variable {c} {bases : K → Prop}

/-- **A key of a free chain determines its base and its position.** -/
theorem Free.chainAt_inj (h : c.Free bases) {b b' : K} (hb : bases b) (hb' : bases b') :
    ∀ {i j : ℕ}, c.chainAt b i = c.chainAt b' j → b = b' ∧ i = j
  | 0, 0, he => ⟨he, rfl⟩
  | 0, j + 1, he => absurd (he.trans (c.chainAt_succ b' j)) (h.base_ne_next b _ hb)
  | i + 1, 0, he => absurd (he.symm.trans (c.chainAt_succ b i)) (h.base_ne_next b' _ hb')
  | i + 1, j + 1, he => by
      rw [chainAt_succ, chainAt_succ] at he
      obtain ⟨hbb, hij⟩ := h.chainAt_inj hb hb' (h.next_injective he)
      exact ⟨hbb, by rw [hij]⟩

/-- **A message key of a free chain determines its base and its position.** -/
theorem Free.messageAt_inj (h : c.Free bases) {b b' : K} (hb : bases b) (hb' : bases b')
    {i j : ℕ} (he : c.messageAt b i = c.messageAt b' j) : b = b' ∧ i = j :=
  h.chainAt_inj hb hb' (h.message_injective he)

end KeyChain
