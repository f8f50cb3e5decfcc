import Mathlib.Data.List.Basic

/-!
# Data URLs

The body of a `data:` URL is percent-encoded, and encoded in base64 besides where the
header says so.  Base64 has four characters for three bytes (`length_forgivingBase64_le`).
-/

namespace DataUrl

/-! ## Percent-encoding -/

/-- The value of a hexadecimal digit. -/
def hexDigit (c : UInt8) : Option ℕ :=
  if 48 ≤ c ∧ c ≤ 57 then some (c.toNat - 48)
  else if 65 ≤ c ∧ c ≤ 70 then some (c.toNat - 55)
  else if 97 ≤ c ∧ c ≤ 102 then some (c.toNat - 87)
  else none

/-- A `%` and two hexadecimal digits stand for one byte. -/
def percentDecode : List UInt8 → List UInt8
  | 37 :: a :: b :: rest =>
    match hexDigit a, hexDigit b with
    | some x, some y => UInt8.ofNat (16 * x + y) :: percentDecode rest
    | _, _ => 37 :: percentDecode (a :: b :: rest)
  | c :: rest => c :: percentDecode rest
  | [] => []

theorem length_percentDecode_le (l : List UInt8) : (percentDecode l).length ≤ l.length := by
  fun_induction percentDecode l with
  | case1 a b rest x hx y hy ih =>
    simp only [List.length_cons]
    omega
  | case2 a b rest hno ih => exact Nat.succ_le_succ ih
  | case3 c rest hno ih => exact Nat.succ_le_succ ih
  | case4 => exact Nat.le_refl _

/-! ## Base64 -/

/-- The six bits that a character of the alphabet stands for. -/
def sextet (c : UInt8) : Option ℕ :=
  if 65 ≤ c ∧ c ≤ 90 then some (c.toNat - 65)
  else if 97 ≤ c ∧ c ≤ 122 then some (c.toNat - 97 + 26)
  else if 48 ≤ c ∧ c ≤ 57 then some (c.toNat - 48 + 52)
  else if c = 43 then some 62
  else if c = 47 then some 63
  else none

/-- Four times six bits are three bytes; a rest of two or three times six is cut to whole bytes. -/
def ofSextets : List ℕ → Option (List UInt8)
  | a :: b :: c :: d :: rest =>
    (ofSextets rest).map fun bytes =>
      UInt8.ofNat (4 * a + b / 16) :: UInt8.ofNat (16 * (b % 16) + c / 4) ::
        UInt8.ofNat (64 * (c % 4) + d) :: bytes
  | [a, b, c] => some [UInt8.ofNat (4 * a + b / 16), UInt8.ofNat (16 * (b % 16) + c / 4)]
  | [a, b] => some [UInt8.ofNat (4 * a + b / 16)]
  | [_] => none
  | [] => some []

theorem length_ofSextets {l : List ℕ} {bytes : List UInt8} (h : ofSextets l = some bytes) :
    bytes.length = l.length * 3 / 4 := by
  fun_induction ofSextets l generalizing bytes with
  | case1 a b c d rest ih =>
    obtain ⟨bytes, hrest, rfl⟩ := Option.map_eq_some_iff.mp h
    have hlength := ih hrest
    simp only [List.length_cons]
    omega
  | case2 a b c =>
    cases h
    simp
  | case3 a b =>
    cases h
    simp
  | case4 a => cases h
  | case5 =>
    cases h
    rfl

def isAsciiWhitespace (c : UInt8) : Bool := c == 9 || c == 10 || c == 12 || c == 13 || c == 32

/-- Without the one or two `=` that fill up the last four. -/
def dropPadding (l : List UInt8) : List UInt8 :=
  if l.length % 4 = 0 then l.take (l.length - min 2 (l.reverse.takeWhile (· == 61)).length) else l

/-- Decodes base64, with padding or without.  White space does not count, and any other character is
an error. -/
def forgivingBase64 (l : List UInt8) : Option (List UInt8) :=
  ((dropPadding (l.filter fun c => !isAsciiWhitespace c)).mapM sextet).bind ofSextets

example : forgivingBase64 [84, 87, 70, 117, 84, 81, 61, 61] = some [77, 97, 110, 77] := by decide

theorem length_dropPadding_le (l : List UInt8) : (dropPadding l).length ≤ l.length := by
  unfold dropPadding
  split
  · exact List.length_take_le' _ _
  · exact Nat.le_refl _

theorem length_mapM {l : List UInt8} {sextets : List ℕ} (h : l.mapM sextet = some sextets) :
    sextets.length = l.length := by
  induction l generalizing sextets with
  | nil =>
    cases h
    rfl
  | cons c l ih =>
    rw [List.mapM_cons] at h
    obtain ⟨x, -, h⟩ := Option.bind_eq_some_iff.mp h
    obtain ⟨rest, hrest, h⟩ := Option.bind_eq_some_iff.mp h
    cases h
    rw [List.length_cons, List.length_cons, ih hrest]

/-- **Four characters of base64 make at most three bytes.** -/
theorem length_forgivingBase64_le {l bytes : List UInt8} (h : forgivingBase64 l = some bytes) :
    bytes.length ≤ l.length * 3 / 4 := by
  obtain ⟨sextets, hmap, hbytes⟩ := Option.bind_eq_some_iff.mp h
  have hlength : sextets.length ≤ l.length := by
    calc sextets.length = (dropPadding (l.filter fun c => !isAsciiWhitespace c)).length := length_mapM hmap
      _ ≤ (l.filter fun c => !isAsciiWhitespace c).length := length_dropPadding_le _
      _ ≤ l.length := List.length_filter_le _ _
  rw [length_ofSextets hbytes]
  omega

end DataUrl
