import Winkd.SessionKeys
import Winkd.SendKeys
import Winkd.Parties

/-!
# Where chains come from

Symbolically, a chain is known by the root step that started it.  While a party's
current ratchet key pair is its `m`-th one, the chains it has started so far come
from root keys that owe nothing to that pair (`Origin`).  So the chains the next
DH ratchet starts are new: the root key it departs from was made with the `m`-th
pair, and the sending chain with a pair generated since.  A responder's receiving
chain is new when its handshake is (`Handshake.chainKey_inj`).
-/

namespace Winkd
open Symbolic SignalSessionManager KeyPool

/-! ## Names drawn so far -/

/-- `a` is no key pair of `p`'s from the `m`-th on. -/
def Name.Past (p : Party) (m : ℕ) (a : Name) : Prop := ∀ i, a = .generated p i → i < m

instance (p : Party) (m : ℕ) : (a : Name) → Decidable (a.Past p m)
  | .generated q i => decidable_of_iff (q = p → i < m)
      ⟨fun h j hj => (Name.generated.inj hj).2 ▸ h (Name.generated.inj hj).1,
        fun h hq => h i (by rw [hq])⟩
  | .identity _ => isTrue nofun
  | .signedPreKey _ _ => isTrue nofun
  | .preKey _ _ => isTrue nofun
  | .outsider _ => isTrue nofun

theorem Name.Past.mono {p : Party} {m m' : ℕ} {a : Name} (h : a.Past p m) (hm : m ≤ m') :
    a.Past p m' :=
  fun i hi => Nat.lt_of_lt_of_le (h i hi) hm

theorem Name.past_generated {p : Party} {m i : ℕ} (hi : i < m) :
    (Name.generated p i).Past p m := by
  intro j hj
  rw [← (Name.generated.inj hj).2]
  exact hi

theorem Name.past_of_not_generated {p : Party} {m : ℕ} {a : Name}
    (h : ∀ i, a ≠ .generated p i) : a.Past p m :=
  fun i hi => absurd hi (h i)

theorem Name.past_of_owner {p : Party} {m : ℕ} {a : Name} (h : a.owner ≠ some p) : a.Past p m := by
  intro i hi
  rw [hi] at h
  exact absurd rfl h

/-- Two secrets that share a name are equal only if the other names are. -/
theorem agree_left_cancel {a b c : Name} (h : Term.agree a b = Term.agree a c) : b = c := by
  rcases Term.agree_inj h with ⟨-, h⟩ | ⟨h, h'⟩
  · exact h
  · exact h'.trans h

theorem agree_right_cancel {a b c : Name} (h : Term.agree a c = Term.agree b c) : a = b := by
  rw [Term.agree_comm a, Term.agree_comm b] at h
  exact agree_left_cancel h

/-- A secret agreed on with the `m`-th pair is none agreed on before. -/
theorem agree_ne_of_past {p : Party} {m : ℕ} {a b k : Name} (ha : a.Past p m) (hb : b.Past p m) :
    Term.agree a b ≠ Term.agree (.generated p m) k := by
  intro h
  rcases Term.agree_inj h with ⟨h, -⟩ | ⟨-, h⟩
  · exact Nat.lt_irrefl m (ha m h)
  · exact Nat.lt_irrefl m (hb m h)

/-! ## Root keys -/

/-- `root` was made with the secret `z`: by a root step, or as X3DH's first one. -/
inductive LastSecret (z : Bytes) : Bytes → Prop where
  | step (root : Bytes) : LastSecret z ((symbolic Name).kdfRootKey root z).newRootKey
  | x3dh (z2 z3 : Bytes) (z4 : Option Bytes) :
      LastSecret z ((symbolic Name).x3dhSecret z z2 z3 z4)

theorem kdfRootKey_newRootKey_inj {r z r' z' : Bytes}
    (h : ((symbolic Name).kdfRootKey r z).newRootKey =
      ((symbolic Name).kdfRootKey r' z').newRootKey) : r = r' ∧ z = z' := by
  simp only [Platform.kdfRootKey, Platform.hkdf, symbolic, Term.cut, Term.slice.injEq,
    Term.hkdf.injEq] at h
  exact ⟨h.1.2.1, h.1.1⟩

theorem kdfRootKey_ne_x3dhSecret {r z z1 z2 z3 : Bytes} {z4 : Option Bytes} :
    ((symbolic Name).kdfRootKey r z).newRootKey ≠ (symbolic Name).x3dhSecret z1 z2 z3 z4 := nofun

/-- X3DH's result determines the secrets that went into it. -/
theorem x3dhSecret_inj {z1 z2 z3 z1' z2' z3' : Bytes} {z4 z4' : Option Bytes}
    (h : (symbolic Name).x3dhSecret z1 z2 z3 z4 = (symbolic Name).x3dhSecret z1' z2' z3' z4') :
    z1 = z1' ∧ z2 = z2' ∧ z3 = z3' ∧ z4 = z4' := by
  cases z4 <;> cases z4' <;>
    simp_all [Platform.x3dhSecret, Platform.hkdf, symbolic, Term.concat]

theorem LastSecret.eq_of_step {z r0 z' : Bytes}
    (h : LastSecret z ((symbolic Name).kdfRootKey r0 z').newRootKey) : z = z' := by
  generalize hr : ((symbolic Name).kdfRootKey r0 z').newRootKey = r at h
  cases h with
  | step root => exact (kdfRootKey_newRootKey_inj hr).2.symm
  | x3dh z2 z3 z4 => exact absurd hr kdfRootKey_ne_x3dhSecret

/-! ## Handshakes -/

/-- What a responder derives its first receiving chain from: the initiator's
identity, ephemeral and ratchet key, its own signed pre-key, and the one-time
pre-key it consumed. -/
structure Handshake where
  identity : Name
  ephemeral : Name
  ratchet : Name
  spkId : Int
  opkId : Option Int
  deriving DecidableEq

/-- The X3DH secret of a handshake `p` answers. -/
def Handshake.secret (p : Party) (hs : Handshake) : Bytes :=
  (symbolic Name).x3dhSecret (Term.agree (.signedPreKey p hs.spkId) hs.identity)
    (Term.agree (.identity p) hs.ephemeral) (Term.agree (.signedPreKey p hs.spkId) hs.ephemeral)
    (hs.opkId.map fun id => Term.agree (.preKey p id) hs.ephemeral)

/-- The first root step of a handshake `p` answers. -/
def Handshake.keys1 (p : Party) (hs : Handshake) : Platform.RootStep Bytes :=
  (symbolic Name).kdfRootKey (hs.secret p) (Term.agree (.signedPreKey p hs.spkId) hs.ratchet)

/-- The pair of a name, as the code holds it. -/
def dhPairOf (n : Name) : DHKeyPair Bytes := (symbolic Name).toDHKeyPair (pairOf n)

/-- The session `p` starts with when it answers a handshake with its `m`-th pair; `rk` is the
text of the ratchet key. -/
def Handshake.session (p : Party) (m : ℕ) (rk : Bytes) (hs : Handshake) : RatchetSession Bytes :=
  responderSession rk (hs.keys1 p)
    ((symbolic Name).kdfRootKey (hs.keys1 p).newRootKey (Term.agree (.generated p m) hs.ratchet))
    (dhPairOf (.generated p m))

/-- The handshake a type-1 message asks for, given what the store has for it. -/
def handshakeOf (store : KeyStore Bytes) (msg : WireMessage Bytes) : Option Handshake := do
  let params ← msg.preKey
  let h ← msg.h
  let identity ← params.ik.publicName
  let ephemeral ← params.ek.publicName
  let ratchet ← h.rk.publicName
  pure ⟨identity, ephemeral, ratchet, params.spkId,
    params.opkId.filter fun id => (store.preKeys id).isSome⟩

/-- A handshake's names are those of the message. -/
theorem handshakeOf_names {store : KeyStore Bytes} {msg : WireMessage Bytes} {hs : Handshake}
    {params : PreKeyParams Bytes} {h : RatchetHeader Bytes} (hp : msg.preKey = some params)
    (hh : msg.h = some h) (hhs : handshakeOf store msg = some hs) :
    hs.identity ∈ params.ik.publicName ∧ hs.ephemeral ∈ params.ek.publicName ∧
      hs.ratchet ∈ h.rk.publicName := by
  simp only [handshakeOf, hp, hh, Option.bind_eq_bind, Option.bind_some] at hhs
  obtain ⟨i, hi, hhs⟩ := Option.bind_eq_some_iff.mp hhs
  obtain ⟨e, he, hhs⟩ := Option.bind_eq_some_iff.mp hhs
  obtain ⟨r, hr, hhs⟩ := Option.bind_eq_some_iff.mp hhs
  obtain rfl := Option.some.inj hhs
  exact ⟨hi, he, hr⟩

/-- The one-time pre-key a store has for a handshake, when it holds `p`'s own. -/
theorem opkPrivate_owned {p : Party} {store : KeyStore Bytes} (howned : store.Owned p)
    (opkId : Option Int) :
    opkPrivate store opkId = (opkId.filter fun id => (store.preKeys id).isSome).map
      fun id => .priv (.preKey p id) := by
  cases opkId with
  | none => rfl
  | some id =>
    rw [opkPrivate, Option.bind_some]
    cases hk : store.preKeys id with
    | none => simp [Option.filter, hk]
    | some opk => simp [Option.filter, hk, howned.preKeys id opk hk, Party.oneTimePreKey]

/-- X3DH on the initiator's side, from two private keys and a signed pre-key. -/
theorem x3dh_cases {a e s : Name} {ik spk SK : Bytes} {opk : Option Bytes}
    (hs : spk.publicName = some s)
    (h : (symbolic Name).x3dh (.priv a) (.priv e) ik spk opk = some SK) :
    ∃ i z4, ik.publicName = some i ∧ SK = (symbolic Name).x3dhSecret (Term.agree a s)
      (Term.agree e i) (Term.agree e s) z4 := by
  simp only [Platform.x3dh, symbolic_dh _ hs, Option.bind_eq_bind, Option.bind_some] at h
  obtain ⟨z2, h2, h⟩ := Option.bind_eq_some_iff.mp h
  obtain ⟨e', i, he, hi, rfl⟩ := symbolic_dh_cases h2
  obtain rfl := Term.priv.inj he
  refine ⟨i, ?_⟩
  cases opk with
  | none => exact ⟨none, hi, (Option.some.inj h).symm⟩
  | some t =>
    obtain ⟨z4, -, h⟩ := Option.bind_eq_some_iff.mp h
    exact ⟨some z4, hi, (Option.some.inj h).symm⟩

/-- X3DH on the responder's side, from private keys. -/
theorem x3dhRespond_cases {a s : Name} {opk : Option Name} {ik ek SK : Bytes}
    (h : (symbolic Name).x3dhRespond (.priv a) (.priv s) (opk.map .priv) ik ek = some SK) :
    ∃ i e, ik.publicName = some i ∧ ek.publicName = some e ∧
      SK = (symbolic Name).x3dhSecret (Term.agree s i) (Term.agree a e) (Term.agree s e)
        (opk.map fun o => Term.agree o e) := by
  simp only [Platform.x3dhRespond, Option.bind_eq_bind] at h
  obtain ⟨z1, h1, h⟩ := Option.bind_eq_some_iff.mp h
  obtain ⟨s', i, hs, hi, rfl⟩ := symbolic_dh_cases h1
  obtain rfl := Term.priv.inj hs
  obtain ⟨z2, h2, h⟩ := Option.bind_eq_some_iff.mp h
  obtain ⟨a', e, ha, he, rfl⟩ := symbolic_dh_cases h2
  obtain rfl := Term.priv.inj ha
  refine ⟨i, e, hi, he, ?_⟩
  rw [symbolic_dh s he] at h
  cases opk with
  | none => exact (Option.some.inj h).symm
  | some o =>
    simp only [Option.map_some, Option.bind_some, symbolic_dh o he] at h
    exact (Option.some.inj h).symm

/-- **A handshake that is answered is the one the message asks for.** -/
theorem respondWith_handshake {p : Party} {m : ℕ} {store : KeyStore Bytes}
    {msg : WireMessage Bytes} {session : RatchetSession Bytes} (howned : store.Owned p)
    (hok : respondWith (symbolic Name) (dhPairOf (.generated p m)) store msg = .ok session) :
    ∃ hs h, handshakeOf store msg = some hs ∧ msg.h = some h ∧ session = hs.session p m h.rk := by
  obtain ⟨idKP, params, spk, SK, h, d1, d2, hid, hparams, hspk, hx, hh, hd1, hd2, rfl⟩ :=
    respondWith_ok _ hok
  obtain rfl : p.identityKeyPair = idKP := Option.some.inj (howned.identity.symm.trans hid)
  obtain rfl := howned.signedPreKeys _ _ hspk
  obtain ⟨-, r, -, hr, -⟩ := symbolic_dh_cases hd1
  rw [opkPrivate_owned howned, show (fun id => (.priv (.preKey p id) : Bytes)) =
    Term.priv ∘ Name.preKey p from rfl, ← Option.map_map] at hx
  obtain ⟨i, e, hik, hek, rfl⟩ := x3dhRespond_cases hx
  obtain rfl := Option.some.inj ((symbolic_dh _ hr).symm.trans hd1)
  obtain rfl := Option.some.inj ((symbolic_dh _ hr).symm.trans hd2)
  refine ⟨⟨i, e, r, params.spkId, params.opkId.filter fun id => (store.preKeys id).isSome⟩, h, ?_,
    hh, ?_⟩
  · simp only [handshakeOf, hparams, hh, hik, hek, hr, Option.bind_eq_bind, Option.bind_some]
    rfl
  · rw [Option.map_map]
    rfl

/-- **A receiving chain tells which handshake it was made in.** -/
theorem Handshake.chainKey_inj {p : Party} {hs hs' : Handshake}
    (h : (hs.keys1 p).chainKey = (hs'.keys1 p).chainKey) : hs = hs' := by
  obtain ⟨hsecret, hz⟩ := symbolic_freeKdf.root _ _ _ _ h
  obtain ⟨h1, h2, h3, h4⟩ := x3dhSecret_inj hsecret
  have he : hs.ephemeral = hs'.ephemeral := agree_left_cancel h2
  have hspk : hs.spkId = hs'.spkId := by
    rw [← he] at h3
    exact (Name.signedPreKey.inj (agree_right_cancel h3)).2
  rw [hspk] at h1 hz
  have hopk : hs.opkId = hs'.opkId := by
    rw [← he] at h4
    cases ho : hs.opkId with
    | none =>
      rw [ho, Option.map_none] at h4
      exact (Option.map_eq_none_iff.mp h4.symm).symm
    | some id =>
      rw [ho, Option.map_some] at h4
      obtain ⟨id', hid', heq⟩ := Option.map_eq_some_iff.mp h4.symm
      rw [hid', (Name.preKey.inj (agree_right_cancel heq)).2]
  obtain ⟨_, _, _, _, _⟩ := hs
  obtain ⟨_, _, _, _, _⟩ := hs'
  simp only [Handshake.mk.injEq]
  exact ⟨agree_left_cancel h1, he, agree_left_cancel hz, hspk, hopk⟩

/-! ## Origins of chains -/

/-- A chain of `p`'s from before: it was started from `base` with names before the
`drawn`-th, and from a root key made with names before the `m`-th.  If it is the
receiving chain of a handshake, the handshake was answered. -/
structure Origin (p : Party) (m drawn : ℕ) (answered : List Handshake) (base : Bytes) : Prop where
  derived : ∃ r a b c d, base = ((symbolic Name).kdfRootKey r (Term.agree c d)).chainKey ∧
    LastSecret (Term.agree a b) r ∧ a.Past p m ∧ b.Past p m ∧ c.Past p drawn ∧ d.Past p drawn
  handshake : ∀ hs : Handshake, base = (hs.keys1 p).chainKey → hs ∈ answered

theorem Origin.mono {p : Party} {m m' drawn drawn' : ℕ} {answered answered' : List Handshake}
    {base : Bytes} (h : Origin p m drawn answered base) (hm : m ≤ m') (hd : drawn ≤ drawn')
    (ha : answered ⊆ answered') : Origin p m' drawn' answered' base where
  derived := by
    obtain ⟨r, a, b, c, d, hbase, hlast, h1, h2, h3, h4⟩ := h.derived
    exact ⟨r, a, b, c, d, hbase, hlast, h1.mono hm, h2.mono hm, h3.mono hd, h4.mono hd⟩
  handshake hs hbase := ha (h.handshake hs hbase)

/-- Every chain key that comes from a root step. -/
theorem Origin.base {p : Party} {m drawn : ℕ} {answered : List Handshake} {base : Bytes}
    (h : Origin p m drawn answered base) :
    ∃ r z, base = ((symbolic Name).kdfRootKey r z).chainKey := by
  obtain ⟨r, _, _, c, d, hbase, -⟩ := h.derived
  exact ⟨r, _, hbase⟩

/-- A chain from before is not one made with a pair generated since. -/
theorem Origin.ne_of_generated {p : Party} {m drawn i : ℕ} {answered : List Handshake}
    {base r : Bytes} {k : Name} (h : Origin p m drawn answered base) (hi : drawn ≤ i) :
    base ≠ ((symbolic Name).kdfRootKey r (Term.agree (.generated p i) k)).chainKey := by
  obtain ⟨r', _, _, c, d, rfl, -, -, -, hc, hd⟩ := h.derived
  intro he
  exact agree_ne_of_past (hc.mono hi) (hd.mono hi) (symbolic_freeKdf.root _ _ _ _ he).2

/-- A chain from before does not come from the current root key. -/
theorem Origin.ne_of_root {p : Party} {m drawn : ℕ} {answered : List Handshake}
    {base r z : Bytes} {k : Name} (h : Origin p m drawn answered base) :
    base ≠ ((symbolic Name).kdfRootKey
      ((symbolic Name).kdfRootKey r (Term.agree (.generated p m) k)).newRootKey z).chainKey := by
  obtain ⟨r', a, b, _, _, rfl, hlast, ha, hb, -⟩ := h.derived
  intro he
  obtain ⟨rfl, -⟩ := symbolic_freeKdf.root _ _ _ _ he
  exact agree_ne_of_past ha hb hlast.eq_of_step

/-- A key of a chain from before. -/
def OfOrigin (p : Party) (m drawn : ℕ) (answered : List Handshake) (key : Bytes) : Prop :=
  ∃ base i, Origin p m drawn answered base ∧ key = (symbolic Name).chain.messageAt base i

theorem OfOrigin.mono {p : Party} {m m' drawn drawn' : ℕ} {answered answered' : List Handshake}
    {key : Bytes} (h : OfOrigin p m drawn answered key) (hm : m ≤ m') (hd : drawn ≤ drawn')
    (ha : answered ⊆ answered') : OfOrigin p m' drawn' answered' key := by
  obtain ⟨base, i, hb, hk⟩ := h
  exact ⟨base, i, hb.mono hm hd ha, hk⟩

/-- A chain whose base no chain from before has shares no key with them. -/
theorem newBase_of_origin {p : Party} {m drawn : ℕ} {answered : List Handshake}
    {skipped : Finmap (fun _ : Bytes × UnicodeText.CodeUnits => Bytes)} {used : List Bytes} {new : Bytes}
    (hnew : ∃ r z, new = ((symbolic Name).kdfRootKey r z).chainKey)
    (hsaved : ∀ key v, skipped.lookup key = some v → OfOrigin p m drawn answered v)
    (hused : ∀ mk ∈ used, OfOrigin p m drawn answered mk)
    (hne : ∀ base, Origin p m drawn answered base → base ≠ new) :
    NewBase (symbolic Name) skipped used new := by
  have hkey : ∀ mk, OfOrigin p m drawn answered mk → ∀ i,
      mk ≠ (symbolic Name).chain.messageAt new i := by
    rintro mk ⟨base, j, hb, rfl⟩ i he
    exact hne base hb (symbolic_freeKdf.chain.messageAt_inj hb.base hnew he).1
  intro i
  exact ⟨fun hi => hkey _ (hused _ hi) i rfl, fun key v hv => hkey v (hsaved key v hv) i⟩

end Winkd
