import Mathlib.Order.Defs.LinearOrder
import Mathlib.Order.MinMax
import Mathlib.Data.Set.Basic

/-!
# Symbolic cryptography

Key material as terms over a set of names.  A name stands for a generated
private key; every cryptographic operation is a constructor, so two results are
equal only if they come from the same operation on the same arguments, except
that a Diffie–Hellman secret does not depend on the order of its two names
(`agree_comm`).  A byte string is also its own base64 text; the other texts of it
are terms of their own (`respelt`).

`Derives K t` says that an attacker who holds the terms of `K` can compute `t`:
it may apply every operation, take concatenations apart and cut byte arrays, but
nothing is computed backwards.  `Knows K` describes the same set by recursion on
the term; `Derives.knows` is the way to show that something stays secret.
-/

namespace Symbolic

/-- Byte strings, symbolically. -/
inductive Term (N : Type) where
  | lit (bytes : List UInt8)
  | priv (n : N)
  | pub (n : N)
  | shared (a b : N)
  | hkdf (ikm salt : Term N) (info : String) (len : ℕ)
  | hmac (key data : Term N)
  | slice (t : Term N) (i j : ℕ)
  | cat (t u : Term N)
  | aes (key iv : Term N) (plaintext : List UInt8)
  | sig (n : N) (data : Term N)
  /-- Another base64 text of `t`: with spaces in it, say, or without padding. -/
  | respelt (t : Term N) (i : ℕ)
  deriving DecidableEq

namespace Term
variable {N : Type}

/-- The bytes of `t` from `i` up to `j`.  A MAC has 32 bytes. -/
def cut (t : Term N) (i j : ℕ) : Term N :=
  match t, i, j with
  | .hmac k d, 0, 32 => .hmac k d
  | t, i, j => .slice t i j

/-- The base64 text of a byte string. -/
def toBase64 : Term N → Term N
  | .respelt t i => .respelt (.respelt t i) 0
  | t => t

/-- The bytes a base64 text decodes to. -/
def ofBase64 : Term N → Term N
  | .respelt t _ => t
  | t => t

@[simp] theorem ofBase64_toBase64 (t : Term N) : t.toBase64.ofBase64 = t := by
  cases t <;> rfl

section Order
variable [LinearOrder N]

/-- The secret the names `a` and `b` agree on. -/
def agree (a b : N) : Term N := .shared (min a b) (max a b)

theorem agree_comm (a b : N) : agree a b = agree b a := by
  rw [agree, agree, min_comm, max_comm]

/-- A Diffie–Hellman secret determines the two names. -/
theorem agree_inj {a b c d : N} (h : agree a b = agree c d) : a = c ∧ b = d ∨ a = d ∧ b = c := by
  obtain ⟨h1, h2⟩ := Term.shared.inj h
  rcases le_total a b with hab | hab <;> rcases le_total c d with hcd | hcd <;>
    simp only [min_eq_left, min_eq_right, max_eq_left, max_eq_right, hab, hcd] at h1 h2 <;>
    simp [h1, h2]

/-- ECDH of a private and a public key. -/
def dh : Term N → Term N → Option (Term N)
  | .priv a, .pub b => some (agree a b)
  | _, _ => none

@[simp] theorem dh_priv_pub (a b : N) : dh (.priv a) (.pub b) = some (agree a b) := rfl

/-- Only a private key and a public key agree on a secret. -/
theorem dh_cases {t u z : Term N} (h : dh t u = some z) :
    ∃ a b, t = .priv a ∧ u = .pub b ∧ z = agree a b := by
  unfold dh at h
  split at h
  · exact ⟨_, _, rfl, rfl, (Option.some.inj h).symm⟩
  · cases h

end Order

/-- AES-GCM decryption opens what was sealed under the same key and iv. -/
def aesOpen [DecidableEq N] (key iv : Term N) : Term N → Option (List UInt8)
  | .aes k v p => if k = key ∧ v = iv then some p else none
  | _ => none

/-- What AES-GCM opens was sealed under the same key and iv. -/
theorem aesOpen_eq_some [DecidableEq N] {key iv t : Term N} {p : List UInt8}
    (h : aesOpen key iv t = some p) : t = .aes key iv p := by
  unfold aesOpen at h
  split at h
  · split at h
    · rename_i he
      obtain ⟨rfl, rfl⟩ := he
      rw [Option.some.inj h]
    · cases h
  · cases h

/-- ECDSA verification. -/
def verify [DecidableEq N] (key signature data : Term N) : Option Bool :=
  match key, signature with
  | .pub a, .sig b d => some (a = b && d = data)
  | .pub _, _ => some false
  | _, _ => none

/-- ECDSA signing. -/
def sign (key data : Term N) : Term N :=
  match key with
  | .priv a => .sig a data
  | _ => .lit []

/-- The name of a public key, in whatever text. -/
def publicName (t : Term N) : Option N :=
  match t.ofBase64 with
  | .pub n => some n
  | _ => none

theorem publicName_eq_some_iff {t : Term N} {n : N} :
    t.publicName = some n ↔ t.ofBase64 = .pub n := by
  unfold publicName
  constructor
  · intro h
    split at h
    · rename_i heq
      rw [heq, Option.some.inj h]
    · cases h
  · intro h
    rw [h]

@[simp] theorem publicName_pub (n : N) : publicName (.pub n : Term N) = some n := rfl

/-- Concatenation of a list of byte strings. -/
def concat (ts : List (Term N)) : Term N := ts.foldr .cat (.lit [])

end Term

/-! ## The attacker -/

variable {N : Type}

/-- What can be computed from the terms of `K`. -/
inductive Derives [LinearOrder N] (K : Set (Term N)) : Term N → Prop where
  | given {t} : t ∈ K → Derives K t
  | lit (bytes) : Derives K (.lit bytes)
  | pub (n) : Derives K (.pub n)
  | shared {a} (b) : Derives K (.priv a) → Derives K (Term.agree a b)
  | hkdf {ikm salt} (info len) : Derives K ikm → Derives K salt → Derives K (.hkdf ikm salt info len)
  | hmac {k d} : Derives K k → Derives K d → Derives K (.hmac k d)
  | slice {t} (i j) : Derives K t → Derives K (.slice t i j)
  | cat {t u} : Derives K t → Derives K u → Derives K (.cat t u)
  | left {t u} : Derives K (.cat t u) → Derives K t
  | right {t u} : Derives K (.cat t u) → Derives K u
  | aes {k v} (p) : Derives K k → Derives K v → Derives K (.aes k v p)
  | sig {n d} : Derives K (.priv n) → Derives K d → Derives K (.sig n d)
  | respell {t} (i) : Derives K t → Derives K (.respelt t i)
  | decode {t i} : Derives K (.respelt t i) → Derives K t

/-- Whoever has the bytes has every text of them. -/
theorem Derives.of_ofBase64 [LinearOrder N] {K : Set (Term N)} {t : Term N}
    (h : Derives K t.ofBase64) : Derives K t := by
  cases t with
  | respelt t i => exact .respell i h
  | _ => exact h

/-- The terms an attacker holding `K` knows: those of `K`, and what the public
operations make of known terms. -/
def Knows (K : Set (Term N)) : Term N → Prop
  | .lit _ => True
  | .pub _ => True
  | .priv n => Term.priv n ∈ K
  | .shared a b => Term.shared a b ∈ K ∨ Term.priv a ∈ K ∨ Term.priv b ∈ K
  | .hkdf ikm salt info len => Term.hkdf ikm salt info len ∈ K ∨ Knows K ikm ∧ Knows K salt
  | .hmac k d => Term.hmac k d ∈ K ∨ Knows K k ∧ Knows K d
  | .slice t i j => Term.slice t i j ∈ K ∨ Knows K t
  | .cat t u => Knows K t ∧ Knows K u
  | .aes k v p => Term.aes k v p ∈ K ∨ Knows K k ∧ Knows K v
  | .sig n d => Term.sig n d ∈ K ∨ Term.priv n ∈ K ∧ Knows K d
  | .respelt t _ => Knows K t

theorem knows_ofBase64 {K : Set (Term N)} {t : Term N} : Knows K t.ofBase64 ↔ Knows K t := by
  cases t <;> exact Iff.rfl

theorem Knows.of_mem {K : Set (Term N)} {t : Term N} (hcat : ∀ t u, Term.cat t u ∉ K)
    (hrespelt : ∀ t i, Term.respelt t i ∈ K → Knows K t) (h : t ∈ K) : Knows K t := by
  cases t with
  | lit => trivial
  | pub => trivial
  | priv => exact h
  | cat t u => exact absurd h (hcat t u)
  | respelt t i => exact hrespelt t i h
  | _ => exact .inl h

variable [LinearOrder N]

/-- A secret agreed on is known to whoever holds one of the two private keys. -/
theorem knows_agree {K : Set (Term N)} {a b : N} :
    Knows K (Term.agree a b) ↔
      Term.agree a b ∈ K ∨ Term.priv a ∈ K ∨ Term.priv b ∈ K := by
  rcases le_total a b with h | h <;> simp [Term.agree, Knows, h, or_comm]

/-- **What an attacker derives, it knows** — when it is given no concatenation, and knows the
byte strings of the texts it is given. -/
theorem Derives.knows {K : Set (Term N)} (hcat : ∀ t u, Term.cat t u ∉ K)
    (hrespelt : ∀ t i, Term.respelt t i ∈ K → Knows K t) {t : Term N} (h : Derives K t) :
    Knows K t := by
  induction h with
  | given h => exact Knows.of_mem hcat hrespelt h
  | lit => trivial
  | pub => trivial
  | shared b _ ih => exact knows_agree.mpr (.inr (.inl ih))
  | hkdf _ _ _ _ ih₁ ih₂ => exact .inr ⟨ih₁, ih₂⟩
  | hmac _ _ ih₁ ih₂ => exact .inr ⟨ih₁, ih₂⟩
  | slice _ _ _ ih => exact .inr ih
  | cat _ _ ih₁ ih₂ => exact ⟨ih₁, ih₂⟩
  | left _ ih => exact ih.1
  | right _ ih => exact ih.2
  | aes _ _ _ ih₁ ih₂ => exact .inr ⟨ih₁, ih₂⟩
  | sig _ _ ih₁ ih₂ => exact .inr ⟨ih₁, ih₂⟩
  | respell _ _ ih => exact ih
  | decode _ ih => exact ih

end Symbolic
