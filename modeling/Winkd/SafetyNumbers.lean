import Winkd.DataUrl
import Winkd.Decimals
import Winkd.UnicodeText
import Mathlib.Data.Nat.Digits.Lemmas
import Mathlib.Data.Sym.Sym2
import Mathlib.Data.UInt

/-!
# Safety numbers

`computeSafetyNumber` of `encryption/crypto.ts`: two users compare a number that a hash of both
their ids and identity keys gives.  The hash is of the ids and keys one after the other, without
lengths.  A key has a fixed length and begins with the byte 4, which no id has; so the bytes can be
read in one way only, and the number does not depend on who computes it (`safety_number_sound`).
-/

namespace Winkd
open UnicodeText

/-! ## Texts followed by marked blocks -/

/-- A text without the mark, a block that begins with it and has a known length, and the rest are
determined by the whole. -/
theorem append_marked_inj {α : Type} {mark : α} {s s' k k' r r' : List α} (hs : mark ∉ s)
    (hs' : mark ∉ s') (hk : k.head? = some mark) (hk' : k'.head? = some mark)
    (hlen : k.length = k'.length) (h : s ++ (k ++ r) = s' ++ (k' ++ r')) :
    s = s' ∧ k = k' ∧ r = r' := by
  induction s generalizing s' with
  | nil =>
    cases s' with
    | nil => exact ⟨rfl, List.append_inj h hlen⟩
    | cons c s' =>
      -- the block begins where the other text still goes on
      obtain ⟨t, rfl⟩ := List.head?_eq_some_iff.1 hk
      obtain ⟨rfl, -⟩ := List.cons.inj h
      exact absurd List.mem_cons_self hs'
  | cons c s ih =>
    cases s' with
    | nil =>
      obtain ⟨t, rfl⟩ := List.head?_eq_some_iff.1 hk'
      obtain ⟨rfl, -⟩ := List.cons.inj h
      exact absurd List.mem_cons_self hs
    | cons d s' =>
      obtain ⟨rfl, htail⟩ := List.cons.inj h
      obtain ⟨rfl, hrest⟩ := ih (fun hmem => hs (List.mem_cons_of_mem c hmem))
        (fun hmem => hs' (List.mem_cons_of_mem c hmem)) htail
      exact ⟨rfl, hrest⟩

/-- **UTF-8 tells well-formed strings apart.** -/
theorem textEncode_inj {s t : CodeUnits} (hs : isWellFormed s = true) (ht : isWellFormed t = true)
    (h : textEncode s = textEncode t) : s = t := by
  have hscalars := congrArg (decodeFrom none) h
  rw [textEncode, textEncode, decodeFrom_flatMap (isScalar_of_mem_toScalars s),
    decodeFrom_flatMap (isScalar_of_mem_toScalars t)] at hscalars
  calc s = ofScalars (toScalars s) := ((ofScalars_toScalars_iff s).2 hs).symm
    _ = ofScalars (toScalars t) := by rw [hscalars]
    _ = t := (ofScalars_toScalars_iff t).2 ht

namespace SafetyNumber

/-! ## The function -/

/-- `base64ToBuf`, which throws where `atob` does. -/
def base64ToBuf (b64 : CodeUnits) : Option (List UInt8) :=
  if b64.all fun u => u.toNat < 256 then
    DataUrl.forgivingBase64 (b64.map fun u => UInt8.ofNat u.toNat)
  else none

/-- What is hashed: the party with the smaller id comes first. -/
def safetyData (myWinkdId myIdentityPublicB64 theirWinkdId theirIdentityPublicB64 : CodeUnits) :
    Option (List UInt8) := do
  let (id1, key1, id2, key2) :=
    if myWinkdId < theirWinkdId then
      (myWinkdId, myIdentityPublicB64, theirWinkdId, theirIdentityPublicB64)
    else (theirWinkdId, theirIdentityPublicB64, myWinkdId, myIdentityPublicB64)
  let buf1 ← base64ToBuf key1
  let buf2 ← base64ToBuf key2
  pure (textEncode id1 ++ (buf1 ++ (textEncode id2 ++ buf2)))

/-- A result of arithmetic on whole numbers, where it is exact. -/
def exact (n : ℕ) : Option ℕ := if n < 2 ^ 53 then some n else none

/-- `n * 256 + b` -/
def shift (n : ℕ) (b : UInt8) : Option ℕ := do
  let m ← exact (n * 256)
  exact (m + b.toNat)

/-- Five bytes of the hash, from `o` on, as one number. -/
def fold (hash : List UInt8) (o : ℕ) : Option ℕ := do
  let b0 ← hash[o]?
  let b1 ← hash[o + 1]?
  let b2 ← hash[o + 2]?
  let b3 ← hash[o + 3]?
  let b4 ← hash[o + 4]?
  let n ← shift b0.toNat b1
  let n ← shift n b2
  let n ← shift n b3
  shift n b4

/-- `n.toString().padStart(5, "0")`, of five bytes. -/
def group (hash : List UInt8) (i : ℕ) : Option (List Char) := do
  let n ← fold hash (i * 5)
  pure (Decimals.padded 5 (n % 100000))

def groups (hash : List UInt8) : Option (List (List Char)) := (List.range 12).mapM (group hash)

/-- The safety number, unless a key is no base64. -/
def computeSafetyNumber (sha512 : List UInt8 → List UInt8)
    (myWinkdId myIdentityPublicB64 theirWinkdId theirIdentityPublicB64 : CodeUnits) :
    Option (List Char) := do
  let data ← safetyData myWinkdId myIdentityPublicB64 theirWinkdId theirIdentityPublicB64
  let groups ← groups (sha512 data)
  pure ([' '].intercalate groups)

/-! ## Users and their keys -/

/-- A user's id, and the identity key: 65 bytes, uncompressed. -/
structure Party where
  winkdId : CodeUnits
  identityPublicB64 : CodeUnits
  key : List UInt8
  wellFormed : isWellFormed winkdId = true
  unmarked : 4 ∉ textEncode winkdId
  decodes : base64ToBuf identityPublicB64 = some key
  length : key.length = 65
  uncompressed : key.head? = some 4

namespace Party

/-- What the number is to tell about a user. -/
def named (x : Party) : CodeUnits × List UInt8 := (x.winkdId, x.key)

def number (x : Party) (sha512 : List UInt8 → List UInt8) (y : Party) : Option (List Char) :=
  computeSafetyNumber sha512 x.winkdId x.identityPublicB64 y.winkdId y.identityPublicB64

def data (x y : Party) : Option (List UInt8) :=
  safetyData x.winkdId x.identityPublicB64 y.winkdId y.identityPublicB64

def bytes (x : Party) : List UInt8 := textEncode x.winkdId ++ x.key

theorem data_eq (x y : Party) :
    x.data y = some (if x.winkdId < y.winkdId then x.bytes ++ y.bytes else y.bytes ++ x.bytes) := by
  rw [data, safetyData]
  by_cases hlt : x.winkdId < y.winkdId
  · rw [if_pos hlt, if_pos hlt]
    simp [x.decodes, y.decodes, bytes]
  · rw [if_neg hlt, if_neg hlt]
    simp [x.decodes, y.decodes, bytes]

/-- Of two ids one is smaller. -/
theorem lt_iff_not_lt {a b : CodeUnits} (h : a ≠ b) : a < b ↔ ¬ b < a := by
  constructor
  · exact List.lt_asymm
  · intro hnot
    exact (List.le_iff_lt_or_eq.1 hnot).resolve_right h

theorem data_comm {x y : Party} (h : x.winkdId ≠ y.winkdId) : x.data y = y.data x := by
  rw [data_eq, data_eq]
  by_cases hlt : x.winkdId < y.winkdId
  · rw [if_pos hlt, if_neg ((lt_iff_not_lt h).1 hlt)]
  · rw [if_neg hlt, if_pos ((lt_iff_not_lt h.symm).2 hlt)]

theorem bytes_append_inj {x y x' y' : Party} (h : x.bytes ++ y.bytes = x'.bytes ++ y'.bytes) :
    x.named = x'.named ∧ y.named = y'.named := by
  have hkey : ∀ u v : Party, u.key.length = v.key.length := fun u v => u.length.trans v.length.symm
  simp only [bytes, List.append_assoc] at h
  obtain ⟨hid, hfirst, hrest⟩ := append_marked_inj x.unmarked x'.unmarked x.uncompressed
    x'.uncompressed (hkey x x') h
  have hlast : textEncode y.winkdId ++ (y.key ++ []) = textEncode y'.winkdId ++ (y'.key ++ []) := by
    rw [List.append_nil, List.append_nil]
    exact hrest
  obtain ⟨hid', hsecond, -⟩ := append_marked_inj y.unmarked y'.unmarked y.uncompressed
    y'.uncompressed (hkey y y') hlast
  exact ⟨Prod.ext (textEncode_inj x.wellFormed x'.wellFormed hid) hfirst,
    Prod.ext (textEncode_inj y.wellFormed y'.wellFormed hid') hsecond⟩

/-- The bytes are those of the two users, in some order. -/
theorem data_ordered (x y : Party) :
    ∃ u v : Party, x.data y = some (u.bytes ++ v.bytes) ∧ s(x.named, y.named) = s(u.named, v.named) := by
  rw [data_eq]
  split
  · exact ⟨x, y, rfl, rfl⟩
  · exact ⟨y, x, rfl, Sym2.eq_swap⟩

/-- **What is hashed determines the two users and their keys.** -/
theorem data_inj {x y x' y' : Party} (h : x.data y = x'.data y') :
    s(x.named, y.named) = s(x'.named, y'.named) := by
  obtain ⟨u, v, hdata, hpair⟩ := data_ordered x y
  obtain ⟨u', v', hdata', hpair'⟩ := data_ordered x' y'
  rw [hdata, hdata'] at h
  obtain ⟨hfirst, hsecond⟩ := bytes_append_inj (Option.some.inj h)
  rw [hpair, hpair', hfirst, hsecond]

end Party
/-! ## The groups -/

/-- Nothing is rounded where there is room for one byte more. -/
theorem shift_eq {n : ℕ} (hn : n < 2 ^ 45 - 1) (b : UInt8) : shift n b = some (n * 256 + b.toNat) := by
  have hb := b.toNat_lt
  have hproduct : exact (n * 256) = some (n * 256) := if_pos (by omega)
  have hsum : exact (n * 256 + b.toNat) = some (n * 256 + b.toNat) := if_pos (by omega)
  rw [shift, hproduct]
  exact hsum

/-- The number that bytes are, the first of them counting most. -/
def value (bytes : List UInt8) : ℕ := Nat.ofDigits 256 (bytes.map UInt8.toNat).reverse

theorem value_lt (bytes : List UInt8) : value bytes < 256 ^ bytes.length := by
  have hlt := Nat.ofDigits_lt_base_pow_length (b := 256) (l := (bytes.map UInt8.toNat).reverse)
    (by decide) fun d hd => by
      obtain ⟨b, -, rfl⟩ := List.mem_map.1 (List.mem_reverse.1 hd)
      exact b.toNat_lt
  rwa [List.length_reverse, List.length_map] at hlt

/-- Five bytes from `o` on. -/
def bytesAt (hash : List UInt8) (o : ℕ) : List UInt8 := (hash.drop o).take 5

theorem bytesAt_eq {hash : List UInt8} {o : ℕ} (ho : o + 4 < hash.length) :
    bytesAt hash o = [hash[o], hash[o + 1], hash[o + 2], hash[o + 3], hash[o + 4]] := by
  rw [bytesAt, List.drop_eq_getElem_cons (by omega), List.drop_eq_getElem_cons (by omega),
    List.drop_eq_getElem_cons (by omega), List.drop_eq_getElem_cons (by omega),
    List.drop_eq_getElem_cons ho]
  rfl

/-- **The fold is exact** where the five bytes are there. -/
theorem fold_eq {hash : List UInt8} {o : ℕ} (ho : o + 4 < hash.length) :
    fold hash o = some (value (bytesAt hash o)) := by
  have h0 := hash[o].toNat_lt
  have h1 := hash[o + 1].toNat_lt
  have h2 := hash[o + 2].toNat_lt
  have h3 := hash[o + 3].toNat_lt
  have hvalue : value (bytesAt hash o) = (((hash[o].toNat * 256 + hash[o + 1].toNat) * 256 +
      hash[o + 2].toNat) * 256 + hash[o + 3].toNat) * 256 + hash[o + 4].toNat := by
    rw [bytesAt_eq ho, value]
    simp only [List.map_cons, List.map_nil, List.reverse_cons, List.reverse_nil, List.nil_append,
      List.cons_append, Nat.ofDigits_cons, Nat.ofDigits_nil]
    omega
  rw [fold, List.getElem?_eq_getElem (by omega), List.getElem?_eq_getElem (by omega),
    List.getElem?_eq_getElem (by omega), List.getElem?_eq_getElem (by omega),
    List.getElem?_eq_getElem ho, hvalue]
  simp only [Option.bind_eq_bind, Option.bind_some]
  rw [shift_eq (by omega), Option.bind_some, shift_eq (by omega), Option.bind_some,
    shift_eq (by omega), Option.bind_some, shift_eq (by omega)]

/-- The last five digits of the number that each of the first twelve blocks of five bytes is. -/
def digitGroups (hash : List UInt8) : List (List Char) :=
  (List.range 12).map fun i => Decimals.padded 5 (value (bytesAt hash (i * 5)) % 100000)

/-- What is made of a hash: every index is in range, no number is rounded, and the groups are the
twelve of five digits that the hash's bytes give. -/
structure ExactGroups (hash : List UInt8) : Prop where
  inRange : ∀ i < 12, ∀ j < 5, i * 5 + j < hash.length
  folded : ∀ i < 12, fold hash (i * 5) = some (value (bytesAt hash (i * 5))) ∧
    value (bytesAt hash (i * 5)) < 2 ^ 53
  made : groups hash = some (digitGroups hash)
  twelve : (digitGroups hash).length = 12 ∧
    ∀ g ∈ digitGroups hash, g.length = 5 ∧ ∀ c ∈ g, c.isDigit = true

theorem mapM_eq_some {α β : Type} {f : α → Option β} {g : α → β} {l : List α}
    (h : ∀ a ∈ l, f a = some (g a)) : l.mapM f = some (l.map g) := by
  induction l with
  | nil => rfl
  | cons a l ih =>
    rw [List.mapM_cons, h a List.mem_cons_self, ih fun b hb => h b (List.mem_cons_of_mem a hb)]
    rfl

theorem exactGroups {hash : List UInt8} (hhash : hash.length = 64) : ExactGroups hash := by
  have hfold : ∀ i < 12, fold hash (i * 5) = some (value (bytesAt hash (i * 5))) := by
    intro i hi
    exact fold_eq (by omega)
  constructor
  case inRange =>
    intro i hi j hj
    omega
  case folded =>
    intro i hi
    refine ⟨hfold i hi, (value_lt _).trans_le ?_⟩
    rw [bytesAt_eq (by omega)]
    show 256 ^ 5 ≤ 2 ^ 53
    decide
  case made =>
    refine mapM_eq_some fun i hi => ?_
    rw [group, hfold i (List.mem_range.1 hi)]
    rfl
  case twelve =>
    refine ⟨rfl, fun g hg => ?_⟩
    obtain ⟨i, -, rfl⟩ := List.mem_map.1 hg
    exact ⟨Decimals.length_padded (by decide) (Nat.mod_lt _ (by decide)), fun c hc =>
      Decimals.isDigit_of_mem_padded hc⟩

/-! ## Soundness -/

variable {sha512 : List UInt8 → List UInt8}

/-- The number is the groups of the hash of what is hashed. -/
theorem Party.number_eq {x y : Party} {bytes : List UInt8} (hdata : x.data y = some bytes)
    (hhash : (sha512 bytes).length = 64) :
    x.number sha512 y = some ([' '].intercalate (digitGroups (sha512 bytes))) := by
  rw [data] at hdata
  rw [number, computeSafetyNumber, hdata]
  simp only [Option.bind_eq_bind, Option.bind_some, (exactGroups hhash).made]
  rfl

theorem Party.number_comm {x y : Party} (h : x.winkdId ≠ y.winkdId) :
    x.number sha512 y = y.number sha512 x := by
  have hdata := data_comm h
  rw [data, data] at hdata
  rw [number, number, computeSafetyNumber, computeSafetyNumber, hdata]

/-- **Safety numbers are sound.**  There is one for any two users, it is the digits of the hash of
their ids and keys, both compute the same, and what is hashed tells the two users and their keys. -/
theorem safety_number_sound (sha512 : List UInt8 → List UInt8) :
    (∀ x y : Party, x.winkdId ≠ y.winkdId → x.number sha512 y = y.number sha512 x) ∧
      (∀ x y x' y' : Party, x.winkdId ≠ y.winkdId → x'.winkdId ≠ y'.winkdId →
        x.data y = x'.data y' → s(x.named, y.named) = s(x'.named, y'.named)) ∧
      (∀ x y : Party, ∃ data, x.data y = some data ∧ ((sha512 data).length = 64 →
        x.number sha512 y = some ([' '].intercalate (digitGroups (sha512 data))))) ∧
      ∀ hash : List UInt8, hash.length = 64 → ExactGroups hash := by
  refine ⟨fun x y => Party.number_comm, fun x y x' y' _ _ => Party.data_inj, fun x y => ?_,
    fun hash => exactGroups⟩
  obtain ⟨u, v, hdata, -⟩ := Party.data_ordered x y
  exact ⟨u.bytes ++ v.bytes, hdata, Party.number_eq hdata⟩

namespace Sample

def alice : Party where
  winkdId := [97, 35, 49]
  identityPublicB64 := 66 :: List.replicate 86 65 ++ [61]
  key := 4 :: List.replicate 64 0
  wellFormed := by decide
  unmarked := by decide
  decodes := by decide
  length := by decide
  uncompressed := rfl

def bob : Party where
  winkdId := [98, 35, 50]
  identityPublicB64 := [66, 65, 69] ++ List.replicate 84 65 ++ [61]
  key := 4 :: 1 :: List.replicate 63 0
  wellFormed := by decide
  unmarked := by decide
  decodes := by decide
  length := by decide
  uncompressed := rfl

end Sample

/-- Two users compute one number, whoever begins. -/
theorem safety_number_sound_two :
    Sample.alice.number (fun _ => List.replicate 64 7) Sample.bob =
        Sample.bob.number (fun _ => List.replicate 64 7) Sample.alice ∧
      s(Sample.alice.named, Sample.bob.named) = s(Sample.bob.named, Sample.alice.named) ∧
      Sample.alice.number (fun _ => List.replicate 64 7) Sample.bob =
        some ([' '].intercalate (digitGroups (List.replicate 64 7))) ∧
      ExactGroups (List.replicate 64 7) := by
  have hne : Sample.alice.winkdId ≠ Sample.bob.winkdId := by decide
  obtain ⟨hcomm, hinj, hmade, hgroups⟩ := safety_number_sound fun _ => List.replicate 64 7
  obtain ⟨data, -, hnumber⟩ := hmade Sample.alice Sample.bob
  exact ⟨hcomm _ _ hne, hinj _ _ _ _ hne hne.symm (Party.data_comm hne), hnumber (by decide),
    hgroups _ (by decide)⟩

end SafetyNumber
end Winkd
