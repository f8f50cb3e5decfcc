import Mathlib.Data.List.Basic

/-!
# UTF-16 strings, UTF-8 bytes, and the two web codecs

Strings of the web platform are sequences of 16-bit code units, byte arrays are
sequences of octets.  `textEncode` and `textDecode` are the platform's UTF-8
encoder and decoder with their default options:

* encoding first makes the string a sequence of scalar values, and every
  surrogate without a partner becomes U+FFFD;
* decoding replaces every ill-formed byte sequence by U+FFFD, and drops a
  U+FEFF that comes first.

Both are total, and neither undoes the other on every input.
`textDecode_textEncode_iff` says on which strings the pair is the identity.
-/

namespace UnicodeText

/-- A string: its UTF-16 code units. -/
abbrev CodeUnits := List UInt16

/-- U+FFFD, the replacement character. -/
def replacement : Nat := 0xFFFD

/-- U+FEFF, the byte order mark. -/
def byteOrderMark : Nat := 0xFEFF

/-- The first unit of a surrogate pair. -/
def isLead (u : UInt16) : Bool := 0xD800 ≤ u.toNat && u.toNat ≤ 0xDBFF

/-- The second unit of a surrogate pair. -/
def isTrail (u : UInt16) : Bool := 0xDC00 ≤ u.toNat && u.toNat ≤ 0xDFFF

/-- The scalar value of a surrogate pair. -/
def pairValue (u v : UInt16) : Nat := 0x10000 + (u.toNat - 0xD800) * 0x400 + (v.toNat - 0xDC00)

/-- The scalar values of a string, a lone surrogate read as U+FFFD. -/
def toScalars : CodeUnits → List Nat
  | [] => []
  | [u] => if isLead u || isTrail u then [replacement] else [u.toNat]
  | u :: v :: rest =>
      if isLead u then
        if isTrail v then pairValue u v :: toScalars rest
        else replacement :: toScalars (v :: rest)
      else if isTrail u then replacement :: toScalars (v :: rest)
      else u.toNat :: toScalars (v :: rest)

/-- The code units of one scalar value. -/
def unitsOf (c : Nat) : CodeUnits :=
  if c < 0x10000 then [UInt16.ofNat c]
  else [UInt16.ofNat (0xD800 + (c - 0x10000) / 0x400), UInt16.ofNat (0xDC00 + (c - 0x10000) % 0x400)]

/-- The code units of a sequence of scalar values. -/
def ofScalars (cs : List Nat) : CodeUnits := cs.flatMap unitsOf

/-- No surrogate without its partner. -/
def isWellFormed : CodeUnits → Bool
  | [] => true
  | [u] => !(isLead u || isTrail u)
  | u :: v :: rest =>
      if isLead u then isTrail v && isWellFormed rest
      else !isTrail u && isWellFormed (v :: rest)

/-! ## UTF-8 -/

/-- The octets of one scalar value. -/
def octetsOf (c : Nat) : List UInt8 :=
  if c < 0x80 then [UInt8.ofNat c]
  else if c < 0x800 then [UInt8.ofNat (0xC0 + c / 0x40), UInt8.ofNat (0x80 + c % 0x40)]
  else if c < 0x10000 then
    [UInt8.ofNat (0xE0 + c / 0x1000), UInt8.ofNat (0x80 + c / 0x40 % 0x40),
      UInt8.ofNat (0x80 + c % 0x40)]
  else
    [UInt8.ofNat (0xF0 + c / 0x40000), UInt8.ofNat (0x80 + c / 0x1000 % 0x40),
      UInt8.ofNat (0x80 + c / 0x40 % 0x40), UInt8.ofNat (0x80 + c % 0x40)]

/-- A character whose last octets are still to come: the value read so far, how
many octets are missing, and the range the next one must be in. -/
structure Pending where
  value : Nat
  missing : Nat
  lower : Nat
  upper : Nat

/-- The first octet of a character: the values it completes, and what it leaves
open. -/
def startByte (b : UInt8) : List Nat × Option Pending :=
  let n := b.toNat
  if n < 0x80 then ([n], none)
  else if n < 0xC2 then ([replacement], none)
  else if n < 0xE0 then ([], some ⟨n % 0x20, 1, 0x80, 0xBF⟩)
  else if n < 0xF0 then
    ([], some ⟨n % 0x10, 2, if n = 0xE0 then 0xA0 else 0x80, if n = 0xED then 0x9F else 0xBF⟩)
  else if n < 0xF5 then
    ([], some ⟨n % 0x08, 3, if n = 0xF0 then 0x90 else 0x80, if n = 0xF4 then 0x8F else 0xBF⟩)
  else ([replacement], none)

/-- One octet of the decoder.  An octet outside the range the open character
allows ends that character with U+FFFD and is read again as a first octet. -/
def decodeByte : Option Pending → UInt8 → List Nat × Option Pending
  | none, b => startByte b
  | some p, b =>
      if p.lower ≤ b.toNat ∧ b.toNat ≤ p.upper then
        let value := p.value * 0x40 + b.toNat % 0x40
        if p.missing = 1 then ([value], none)
        else ([], some ⟨value, p.missing - 1, 0x80, 0xBF⟩)
      else (replacement :: (startByte b).1, (startByte b).2)

/-- The scalar values of a byte sequence, from the given decoder state. -/
def decodeFrom : Option Pending → List UInt8 → List Nat
  | none, [] => []
  | some _, [] => [replacement]
  | st, b :: bs => (decodeByte st b).1 ++ decodeFrom (decodeByte st b).2 bs

/-- Drop a byte order mark that comes first. -/
def dropMark : List Nat → List Nat
  | [] => []
  | c :: cs => if c = byteOrderMark then cs else c :: cs

/-- `new TextEncoder().encode(s)`. -/
def textEncode (s : CodeUnits) : List UInt8 := (toScalars s).flatMap octetsOf

/-- `new TextDecoder().decode(bytes)`. -/
def textDecode (bytes : List UInt8) : CodeUnits := ofScalars (dropMark (decodeFrom none bytes))

/-! ## Decoding what was encoded -/

/-- A Unicode scalar value: a code point that is no surrogate. -/
def IsScalar (c : Nat) : Prop := c < 0xD800 ∨ 0xE000 ≤ c ∧ c < 0x110000

theorem isScalar_replacement : IsScalar replacement := by
  unfold IsScalar replacement
  omega

theorem decodeFrom_cons (st : Option Pending) (b : UInt8) (bs : List UInt8) :
    decodeFrom st (b :: bs) = (decodeByte st b).1 ++ decodeFrom (decodeByte st b).2 bs := by
  cases st <;> rfl

/-- **One character**: the decoder reads the octets of a scalar value back as
that value, and is between characters again. -/
theorem decodeFrom_octetsOf {c : Nat} (hc : IsScalar c) (bs : List UInt8) :
    decodeFrom none (octetsOf c ++ bs) = c :: decodeFrom none bs := by
  unfold IsScalar at hc
  unfold octetsOf
  split
  · have hn : (UInt8.ofNat c).toNat = c := by simp; omega
    simp only [List.cons_append, List.nil_append, decodeFrom_cons, decodeByte, startByte, hn]
    rw [if_pos (by omega)]
    rfl
  split
  · have h1 : (UInt8.ofNat (0xC0 + c / 0x40)).toNat = 0xC0 + c / 0x40 := by simp; omega
    have h2 : (UInt8.ofNat (0x80 + c % 0x40)).toNat = 0x80 + c % 0x40 := by simp; omega
    simp only [List.cons_append, List.nil_append, decodeFrom_cons]
    simp only [decodeByte, startByte, h1]
    rw [if_neg (by omega), if_neg (by omega), if_pos (by omega)]
    simp only [List.nil_append, h2]
    rw [if_pos (by omega), if_pos trivial, List.cons_append, List.nil_append]
    congr 1
    omega
  split
  · have h1 : (UInt8.ofNat (0xE0 + c / 0x1000)).toNat = 0xE0 + c / 0x1000 := by simp; omega
    have h2 : (UInt8.ofNat (0x80 + c / 0x40 % 0x40)).toNat = 0x80 + c / 0x40 % 0x40 := by
      simp; omega
    have h3 : (UInt8.ofNat (0x80 + c % 0x40)).toNat = 0x80 + c % 0x40 := by simp; omega
    simp only [List.cons_append, List.nil_append, decodeFrom_cons]
    simp only [decodeByte, startByte, h1]
    rw [if_neg (by omega), if_neg (by omega), if_neg (by omega), if_pos (by omega)]
    simp only [List.nil_append, h2]
    -- the second byte is in the narrower range that rules out overlong forms and surrogates
    rw [if_pos (by constructor <;> split <;> omega), if_neg (by omega)]
    simp only [List.nil_append, h3]
    rw [if_pos (by omega), if_pos trivial, List.cons_append, List.nil_append]
    congr 1
    omega
  · have h1 : (UInt8.ofNat (0xF0 + c / 0x40000)).toNat = 0xF0 + c / 0x40000 := by simp; omega
    have h2 : (UInt8.ofNat (0x80 + c / 0x1000 % 0x40)).toNat = 0x80 + c / 0x1000 % 0x40 := by
      simp; omega
    have h3 : (UInt8.ofNat (0x80 + c / 0x40 % 0x40)).toNat = 0x80 + c / 0x40 % 0x40 := by
      simp; omega
    have h4 : (UInt8.ofNat (0x80 + c % 0x40)).toNat = 0x80 + c % 0x40 := by simp; omega
    simp only [List.cons_append, List.nil_append, decodeFrom_cons]
    simp only [decodeByte, startByte, h1]
    rw [if_neg (by omega), if_neg (by omega), if_neg (by omega), if_neg (by omega),
      if_pos (by omega)]
    simp only [List.nil_append, h2]
    rw [if_pos (by constructor <;> split <;> omega), if_neg (by omega)]
    simp only [List.nil_append, h3]
    rw [if_pos (by omega), if_neg (by omega)]
    simp only [List.nil_append, h4]
    rw [if_pos (by omega), if_pos trivial, List.cons_append, List.nil_append]
    congr 1
    omega

/-- The UTF-8 decoder undoes the UTF-8 encoder on scalar values. -/
theorem decodeFrom_flatMap {cs : List Nat} (hcs : ∀ c ∈ cs, IsScalar c) :
    decodeFrom none (cs.flatMap octetsOf) = cs := by
  induction cs with
  | nil => rfl
  | cons c cs ih =>
    rw [List.flatMap_cons, decodeFrom_octetsOf (hcs c List.mem_cons_self),
      ih (fun d hd => hcs d (List.mem_cons_of_mem _ hd))]

theorem isScalar_toNat {u : UInt16} (hl : isLead u = false) (ht : isTrail u = false) :
    IsScalar u.toNat := by
  have hu := u.toNat_lt
  simp only [isLead, isTrail, Bool.and_eq_false_iff, decide_eq_false_iff_not] at hl ht
  unfold IsScalar
  omega

theorem isScalar_pairValue {u v : UInt16} (hu : isLead u = true) (hv : isTrail v = true) :
    IsScalar (pairValue u v) := by
  simp only [isLead, isTrail, Bool.and_eq_true, decide_eq_true_eq] at hu hv
  unfold IsScalar pairValue
  omega

/-- Every value the encoder sees is a scalar value. -/
theorem isScalar_of_mem_toScalars (s : CodeUnits) : ∀ c ∈ toScalars s, IsScalar c := by
  fun_induction toScalars s with
  | case1 => exact fun c hc => absurd hc List.not_mem_nil
  | case2 u h => exact fun c hc => (List.mem_singleton.mp hc) ▸ isScalar_replacement
  | case3 u h =>
    intro c hc
    rw [Bool.or_eq_true, not_or, Bool.not_eq_true, Bool.not_eq_true] at h
    exact (List.mem_singleton.mp hc) ▸ isScalar_toNat h.1 h.2
  | case4 u v rest hu hv ih =>
    exact List.forall_mem_cons.mpr ⟨isScalar_pairValue hu hv, ih⟩
  | case5 u v rest hu hv ih => exact List.forall_mem_cons.mpr ⟨isScalar_replacement, ih⟩
  | case6 u v rest hu ht ih => exact List.forall_mem_cons.mpr ⟨isScalar_replacement, ih⟩
  | case7 u v rest hu ht ih =>
    exact List.forall_mem_cons.mpr
      ⟨isScalar_toNat (Bool.not_eq_true _ ▸ hu) (Bool.not_eq_true _ ▸ ht), ih⟩

theorem textDecode_textEncode (s : CodeUnits) :
    textDecode (textEncode s) = ofScalars (dropMark (toScalars s)) := by
  rw [textDecode, textEncode, decodeFrom_flatMap (isScalar_of_mem_toScalars s)]

/-! ## Which strings survive -/

theorem ofScalars_cons (c : Nat) (cs : List Nat) :
    ofScalars (c :: cs) = unitsOf c ++ ofScalars cs := rfl

theorem unitsOf_toNat (u : UInt16) : unitsOf u.toNat = [u] := by
  have hu := u.toNat_lt
  rw [unitsOf, if_pos (by omega), UInt16.ofNat_toNat]

theorem unitsOf_pairValue {u v : UInt16} (hu : isLead u = true) (hv : isTrail v = true) :
    unitsOf (pairValue u v) = [u, v] := by
  simp only [isLead, isTrail, Bool.and_eq_true, decide_eq_true_eq] at hu hv
  unfold unitsOf pairValue
  rw [if_neg (by omega)]
  have h1 : 0xD800 + (0x10000 + (u.toNat - 0xD800) * 0x400 + (v.toNat - 0xDC00) - 0x10000) / 0x400
      = u.toNat := by omega
  have h2 : 0xDC00 + (0x10000 + (u.toNat - 0xD800) * 0x400 + (v.toNat - 0xDC00) - 0x10000) % 0x400
      = v.toNat := by omega
  rw [h1, h2, UInt16.ofNat_toNat, UInt16.ofNat_toNat]

/-- A surrogate is not what U+FFFD is written as. -/
theorem unitsOf_replacement_ne {u : UInt16} (hu : isLead u = true ∨ isTrail u = true) :
    UInt16.ofNat replacement ≠ u := by
  rintro rfl
  revert hu
  decide

theorem unitsOf_replacement : unitsOf replacement = [UInt16.ofNat replacement] := by decide

/-- Reading a string as scalar values keeps it exactly when it is well formed. -/
theorem ofScalars_toScalars_iff (s : CodeUnits) :
    ofScalars (toScalars s) = s ↔ isWellFormed s = true := by
  fun_induction toScalars s with
  | case1 => simp [ofScalars, isWellFormed]
  | case2 u h =>
    have hne := unitsOf_replacement_ne (Bool.or_eq_true _ _ ▸ h)
    simp [unitsOf_replacement, isWellFormed, h, ofScalars, hne]
  | case3 u h => simp [unitsOf_toNat, isWellFormed, h, ofScalars]
  | case4 u v rest hu hv ih =>
    rw [ofScalars_cons, unitsOf_pairValue hu hv]
    simp [isWellFormed, hu, hv, ih]
  | case5 u v rest hu hv ih =>
    have hne := unitsOf_replacement_ne (Or.inl hu)
    simp [ofScalars_cons, unitsOf_replacement, isWellFormed, hu, hv, hne]
  | case6 u v rest hu ht ih =>
    have hne := unitsOf_replacement_ne (Or.inr ht)
    simp [ofScalars_cons, unitsOf_replacement, isWellFormed, hu, ht, hne]
  | case7 u v rest hu ht ih =>
    rw [ofScalars_cons, unitsOf_toNat]
    simp [isWellFormed, hu, ht, ih]

/-- Replacing lone surrogates keeps the length. -/
theorem length_ofScalars_toScalars (s : CodeUnits) :
    (ofScalars (toScalars s)).length = s.length := by
  fun_induction toScalars s with
  | case1 => rfl
  | case2 u h => simp [unitsOf_replacement, ofScalars]
  | case3 u h => simp [unitsOf_toNat, ofScalars]
  | case4 u v rest hu hv ih =>
    rw [ofScalars_cons, unitsOf_pairValue hu hv]
    simp [ih]
  | case5 u v rest hu hv ih => simpa [ofScalars_cons, unitsOf_replacement] using ih
  | case6 u v rest hu ht ih => simpa [ofScalars_cons, unitsOf_replacement] using ih
  | case7 u v rest hu ht ih => simpa [ofScalars_cons, unitsOf_toNat] using ih

theorem toNat_eq_byteOrderMark {u : UInt16} : u.toNat = byteOrderMark ↔ u = 0xFEFF :=
  ⟨fun h => UInt16.toNat_inj.mp h, fun h => h ▸ rfl⟩

/-- The first scalar value is the byte order mark exactly when the first unit
is. -/
theorem head_toScalars_iff (s : CodeUnits) :
    (toScalars s).head? = some byteOrderMark ↔ s.head? = some 0xFEFF := by
  have hr : replacement ≠ byteOrderMark := by decide
  have hs : ∀ u : UInt16, isLead u = true ∨ isTrail u = true → u ≠ 0xFEFF := by
    rintro u hu rfl
    revert hu
    decide
  fun_cases toScalars s with
  | case1 => simp
  | case2 u h => simpa [hr] using hs u (Bool.or_eq_true _ _ ▸ h)
  | case3 u h => simp [toNat_eq_byteOrderMark]
  | case4 u v rest hu hv =>
    have hp : pairValue u v ≠ byteOrderMark := by unfold pairValue byteOrderMark; omega
    simpa [hp] using hs u (Or.inl hu)
  | case5 u v rest hu hv => simpa [hr] using hs u (Or.inl hu)
  | case6 u v rest hu ht => simpa [hr] using hs u (Or.inr ht)
  | case7 u v rest hu ht => simp [toNat_eq_byteOrderMark]

/-- A string the two codecs carry over unchanged: no lone surrogate, and no byte
order mark in front. -/
def Transportable (s : CodeUnits) : Prop := isWellFormed s = true ∧ s.head? ≠ some 0xFEFF

instance (s : CodeUnits) : Decidable (Transportable s) := inferInstanceAs (Decidable (_ ∧ _))

/-- **Encoding and decoding a string gives the string back exactly when it has no
lone surrogate and does not start with a byte order mark.** -/
theorem textDecode_textEncode_iff (s : CodeUnits) :
    textDecode (textEncode s) = s ↔ Transportable s := by
  rw [textDecode_textEncode, Transportable, ← ofScalars_toScalars_iff, ne_eq,
    ← head_toScalars_iff]
  cases hcs : toScalars s with
  | nil => simp [dropMark]
  | cons c cs =>
    by_cases hc : c = byteOrderMark
    · -- The mark is dropped, so the result is one unit shorter than the string.
      have hlen := length_ofScalars_toScalars s
      rw [hcs, hc, ofScalars_cons] at hlen
      have hm : (unitsOf byteOrderMark).length = 1 := by decide
      rw [List.length_append, hm] at hlen
      simp only [dropMark, hc, if_true, List.head?_cons, not_true_eq_false, and_false,
        iff_false]
      intro h
      rw [h] at hlen
      omega
    · simp [dropMark, hc]

end UnicodeText
