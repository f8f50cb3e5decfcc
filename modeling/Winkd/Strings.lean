import Mathlib.Data.List.Basic
import Mathlib.Tactic.Ring

/-!
# Rust strings

The server takes texts apart by their characters: it trims them, filters them,
splits them and parses numbers out of them.  A `Text` is the list of a string's
characters, and the functions are those of Rust's `str` and `char` that the server
uses, under the names they have there.
-/

namespace Winkd.Server

/-- A Rust `String`, as its `chars()`. -/
abbrev Text : Type := List Char

namespace Text

/-- `char::is_whitespace`: the Unicode property White_Space. -/
def isWhitespace (c : Char) : Bool :=
  let n := c.toNat
  (9 ≤ n && n ≤ 13) || n == 0x20 || n == 0x85 || n == 0xA0 || n == 0x1680 ||
    (0x2000 ≤ n && n ≤ 0x200A) || n == 0x2028 || n == 0x2029 || n == 0x202F || n == 0x205F ||
    n == 0x3000

/-- `str::trim`. -/
def trim (t : Text) : Text :=
  ((t.dropWhile isWhitespace).reverse.dropWhile isWhitespace).reverse

/-- `str::len`: the length in UTF-8. -/
def len (t : Text) : ℕ := (t.map fun c => c.utf8Size).sum

/-- `str::strip_prefix`. -/
def stripPrefix (p t : Text) : Option Text :=
  if p.isPrefixOf t then some (t.drop p.length) else none

/-- Removes a prefix as often as it is there, at most so many times. -/
def trimStartTimes (p : Text) : ℕ → Text → Text
  | 0, t => t
  | n + 1, t =>
    match stripPrefix p t with
    | some rest => trimStartTimes p n rest
    | none => t

/-- `str::trim_start_matches`. -/
def trimStartMatches (p t : Text) : Text := trimStartTimes p t.length t

/-- `str::split(c)`. -/
def split (c : Char) (t : Text) : List Text := t.splitOn c

/-- `str::splitn(2, c)`: what stands before the first `c`, and what stands after it if
there is one. -/
def splitOnce (c : Char) (t : Text) : Text × Option Text :=
  match t.dropWhile (· != c) with
  | [] => (t, none)
  | _ :: rest => (t.takeWhile (· != c), some rest)

/-- `str::to_ascii_lowercase`. -/
def toAsciiLowercase (t : Text) : Text := t.map Char.toLower

/-- `str::eq_ignore_ascii_case`. -/
def eqIgnoreAsciiCase (s t : Text) : Bool := toAsciiLowercase s = toAsciiLowercase t

/-- `str::as_bytes`. -/
def asBytes (t : Text) : List UInt8 := (String.ofList t).toUTF8.data.toList

/-- The number that decimal digits denote. -/
def digitsValue (t : Text) : ℕ := t.foldl (fun n c => 10 * n + (c.toNat - '0'.toNat)) 0

/-- `str::parse` to an unsigned integer below `bound`: digits, with a plus sign or
without. -/
def parseUnsigned (bound : ℕ) (t : Text) : Option ℕ :=
  let digits := if t.head? = some '+' then t.tail else t
  if digits.isEmpty || !digits.all Char.isDigit then none
  else if digitsValue digits < bound then some (digitsValue digits) else none

/-- `str::parse` to an `i64`. -/
def parseI64 : Text → Option ℤ
  | '-' :: digits =>
      if digits.head? = some '+' then none
      else (parseUnsigned (2 ^ 63 + 1) digits).map fun n => -(n : ℤ)
  | t => (parseUnsigned (2 ^ 63) t).map fun n => (n : ℤ)

example : parseI64 "-12".toList = some (-12) := by decide

theorem length_le_len (t : Text) : t.length ≤ t.len := by
  induction t with
  | nil => exact Nat.le_refl 0
  | cons c t ih =>
    have hc : 1 ≤ c.utf8Size := Char.utf8Size_pos c
    simp only [len, List.map_cons, List.sum_cons, List.length_cons] at ih ⊢
    omega

theorem digitsValue_lt {t : Text} (hd : t.all Char.isDigit = true) :
    digitsValue t < 10 ^ t.length := by
  suffices h : ∀ n, t.foldl (fun n c => 10 * n + (c.toNat - '0'.toNat)) n <
      (n + 1) * 10 ^ t.length by simpa [digitsValue] using h 0
  induction t with
  | nil => intro n; simp
  | cons c t ih =>
    intro n
    rw [List.all_cons, Bool.and_eq_true] at hd
    have hc : c.toNat - '0'.toNat ≤ 9 := by
      have h9 := hd.1
      rw [Char.isDigit, Bool.and_eq_true] at h9
      have h9 : c.toNat ≤ 57 := UInt32.le_iff_toNat_le.mp (of_decide_eq_true h9.2)
      have h0 : '0'.toNat = 48 := rfl
      omega
    calc (c :: t).foldl (fun n c => 10 * n + (c.toNat - '0'.toNat)) n
        < (10 * n + (c.toNat - '0'.toNat) + 1) * 10 ^ t.length := ih hd.2 _
      _ ≤ (10 * (n + 1)) * 10 ^ t.length := Nat.mul_le_mul_right _ (by omega)
      _ = (n + 1) * 10 ^ (c :: t).length := by rw [List.length_cons, Nat.pow_succ]; ac_rfl

/-- Digits are parsed to their value, unless it is too large. -/
theorem parseUnsigned_digits {bound : ℕ} {t : Text} (hd : t.all Char.isDigit = true)
    (hne : t ≠ []) (hlt : digitsValue t < bound) : parseUnsigned bound t = some (digitsValue t) := by
  have hplus : t.head? ≠ some '+' := by
    intro h
    have hmem := List.all_eq_true.mp hd '+' (List.mem_of_head? h)
    exact absurd hmem (by decide)
  simp only [parseUnsigned, if_neg hplus, List.isEmpty_eq_false_iff.mpr hne, hd, Bool.not_true,
    Bool.or_self, Bool.false_eq_true, if_false, if_pos hlt]

/-- The decimal digit `d`. -/
def digit (d : ℕ) : Char := Char.ofNat ('0'.toNat + d)

/-- An integer in decimal. -/
def ofInt (n : ℤ) : Text := (if n < 0 then ['-'] else []) ++ Nat.toDigits 10 n.natAbs

/-- `format!("{:04}", n)` for a number of at most four digits. -/
def pad4 (n : ℕ) : Text := [digit (n / 1000), digit (n / 100 % 10), digit (n / 10 % 10), digit (n % 10)]

end Text
end Winkd.Server
