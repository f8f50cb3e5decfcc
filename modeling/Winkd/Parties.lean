import Winkd.Symbolic
import Winkd.KeyStore
import Mathlib.Data.Prod.Lex

/-!
# Two parties and their names

Alice and Bob, and the private keys each of them can have: an identity key, the
pre-keys it has published, and the key pairs its calls generate.  Each of these
is a name of its own, so symbolically no two of them are ever confused.  Anybody
else's key pairs are outsiders.
`KeyStore.Owned` says that a store holds a party's own keys, under their ids.
-/

namespace Winkd
open Symbolic

inductive Party where
  | alice
  | bob
  deriving DecidableEq

namespace Party

/-- The party a party talks to. -/
def other : Party → Party
  | alice => bob
  | bob => alice

@[simp] theorem other_other (p : Party) : p.other.other = p := by cases p <;> rfl

theorem other_ne (p : Party) : p.other ≠ p := by cases p <;> decide

theorem ne_other (p : Party) : p ≠ p.other := by cases p <;> decide

theorem eq_or_eq_other (p q : Party) : q = p ∨ q = p.other := by cases p <;> cases q <;> decide

/-- The id under which the other party keeps its session with this one. -/
def userId : Party → String
  | alice => "alice"
  | bob => "bob"

def toNat : Party → ℕ
  | alice => 0
  | bob => 1

theorem toNat_inj {p q : Party} : p.toNat = q.toNat ↔ p = q := by cases p <;> cases q <;> decide

end Party

/-- The private keys of the two parties, and of everybody else. -/
inductive Name where
  | identity (p : Party)
  | signedPreKey (p : Party) (id : Int)
  | preKey (p : Party) (id : Int)
  /-- The `i`-th key pair `p` generates. -/
  | generated (p : Party) (i : ℕ)
  | outsider (i : ℕ)
  deriving DecidableEq

namespace Name

/-- A name as a triple, to order names by. -/
def rank : Name → ℕ ×ₗ ℕ ×ₗ ℤ
  | identity p => toLex (0, toLex (p.toNat, 0))
  | signedPreKey p id => toLex (1, toLex (p.toNat, id))
  | preKey p id => toLex (2, toLex (p.toNat, id))
  | generated p i => toLex (3, toLex (p.toNat, (i : ℤ)))
  | outsider i => toLex (4, toLex (0, (i : ℤ)))

theorem rank_injective : Function.Injective rank := by
  intro a b h
  cases a <;> cases b <;> simp_all [rank, Party.toNat_inj]

instance : LinearOrder Name := LinearOrder.lift' rank rank_injective

/-- Which of the two parties has the private key. -/
def owner : Name → Option Party
  | identity p => some p
  | signedPreKey p _ => some p
  | preKey p _ => some p
  | generated p _ => some p
  | outsider _ => none

end Name

/-- Byte strings of a conversation between the two. -/
abbrev Bytes : Type := Term Name

/-- Payloads of such a conversation. -/
abbrev Payload : Type := Option (WireMessage Bytes)

/-! ## What the parties hold -/

/-- The random values of a party: its names in order, and any initialisation
vectors. -/
def Party.entropy (p : Party) (ivs : ℕ → List UInt8) : Entropy Bytes where
  key i := pairOf (.generated p i)
  iv i := .lit (ivs i)

def Party.identityKeyPair (p : Party) : IdentityKeyPair Bytes :=
  ⟨.pub (.identity p), .priv (.identity p)⟩

def Party.signedPreKey (p : Party) (id : Int) : SignedPreKey Bytes where
  id := id
  publicKey := .pub (.signedPreKey p id)
  privateKey := .priv (.signedPreKey p id)
  signature := .sig (.identity p) (.pub (.signedPreKey p id))

def Party.oneTimePreKey (p : Party) (id : Int) : PreKey Bytes :=
  ⟨id, .pub (.preKey p id), .priv (.preKey p id)⟩

/-- A bundle of `p`'s: a signed pre-key, and a one-time pre-key if it has one
left. -/
def Party.bundle (p : Party) (spkId : Int) (opkId : Option Int) : PreKeyBundle Bytes where
  identityKey := .pub (.identity p)
  signedPreKey := ⟨⟨spkId, .pub (.signedPreKey p spkId)⟩, (p.signedPreKey spkId).signature⟩
  oneTimePreKey := opkId.map fun id => ⟨id, .pub (.preKey p id)⟩

/-- The store holds `p`'s identity key, and pre-keys of `p` under their ids. -/
structure KeyStore.Owned (p : Party) (store : KeyStore Bytes) : Prop where
  identity : store.identity = some p.identityKeyPair
  signedPreKeys : ∀ id spk, store.signedPreKeys id = some spk → spk = p.signedPreKey id
  preKeys : ∀ id opk, store.preKeys id = some opk → opk = p.oneTimePreKey id

/-- A new store of `p` with the given pre-keys in it. -/
def Party.newStore (p : Party) (spkIds opkIds : List Int) : KeyStore Bytes where
  identity := some p.identityKeyPair
  registrationId := some 1
  preKeys id := if id ∈ opkIds then some (p.oneTimePreKey id) else none
  signedPreKeys id := if id ∈ spkIds then some (p.signedPreKey id) else none
  sessions _ := none

theorem Party.newStore_owned (p : Party) (spkIds opkIds : List Int) :
    (p.newStore spkIds opkIds).Owned p where
  identity := rfl
  signedPreKeys id spk h := by
    simp only [newStore] at h
    split at h
    · exact (Option.some.inj h).symm
    · cases h
  preKeys id opk h := by
    simp only [newStore] at h
    split at h
    · exact (Option.some.inj h).symm
    · cases h

/-- A party that has drawn nothing yet. -/
def Party.newWorld (p : Party) (spkIds opkIds : List Int) : World Bytes :=
  ⟨p.newStore spkIds opkIds, 0, 0⟩

end Winkd
