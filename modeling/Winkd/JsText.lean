import Winkd.UnicodeText
import Mathlib.Data.Nat.Digits.Defs

/-!
# JavaScript's strings

The functions of JavaScript's strings that a page uses to show what it is given, on code
units: `trim`, `split` at its first match, `toString` of a number, and `replace` with a
global regular expression.  A regular expression is given by how long its match is where it
matches, so `scan` is the search from left to right, and what has been replaced is not
searched again.
-/

namespace UnicodeText

/-- A literal. -/
def js (s : String) : CodeUnits := s.toList.flatMap fun c => unitsOf c.toNat

def unit (c : Char) : UInt16 := UInt16.ofNat c.toNat

/-- What `\s` matches, and `trim` removes. -/
def isSpace (u : UInt16) : Bool :=
  u.toNat ∈ [0x20, 0xA0, 0x1680, 0x2028, 0x2029, 0x202F, 0x205F, 0x3000, 0xFEFF] ||
    (9 ≤ u.toNat && u.toNat ≤ 13) || (0x2000 ≤ u.toNat && u.toNat ≤ 0x200A)

/-- What `.` does not match. -/
def isLineEnd (u : UInt16) : Bool := u.toNat ∈ [10, 13, 0x2028, 0x2029]

def isDigit (u : UInt16) : Bool := 48 ≤ u.toNat && u.toNat ≤ 57

def isLower (u : UInt16) : Bool := 97 ≤ u.toNat && u.toNat ≤ 122

def isUpper (u : UInt16) : Bool := 65 ≤ u.toNat && u.toNat ≤ 90

/-- What `[a-z0-9-]` matches with the flag `i`. -/
def isSlug (u : UInt16) : Bool := isLower u || isUpper u || isDigit u || u = unit '-'

/-- The lower case of an ASCII letter. -/
def lowerUnit (u : UInt16) : UInt16 := if isUpper u then u + 32 else u

/-- `toLowerCase` on a string of ASCII characters. -/
def asciiLower (s : CodeUnits) : CodeUnits := s.map lowerUnit

def trim (s : CodeUnits) : CodeUnits :=
  ((s.dropWhile isSpace).reverse.dropWhile isSpace).reverse

/-- `s.split(c)[0]` -/
def beforeFirst (c : Char) (s : CodeUnits) : CodeUnits := s.takeWhile (· ≠ unit c)

/-- `${n}` -/
def decimal (n : ℕ) : CodeUnits := (Nat.toDigits 10 n).map unit

/-- `s.includes(t)` -/
def includes (s t : CodeUnits) : Bool := s.tails.any t.isPrefixOf

/-- Starts with a literal in lower case, when case is ignored. -/
def startsWithIgnoreCase (t s : CodeUnits) : Bool := t.isPrefixOf (asciiLower s)

/-- `s.replace(/c/g, t)` -/
def replaceUnit (c : Char) (t s : CodeUnits) : CodeUnits :=
  s.flatMap fun u => if u = unit c then t else [u]

/-- `s.replace(re, f)`, where `re` is global and `len` is the length of its match at the front
of a string, or zero; the first `skip` units have been matched. -/
def scan (len : CodeUnits → ℕ) (f : CodeUnits → CodeUnits) : (skip : ℕ) → CodeUnits → CodeUnits
  | _, [] => []
  | skip + 1, _ :: s => scan len f skip s
  | 0, u :: s =>
    match len (u :: s) with
    | 0 => u :: scan len f 0 s
    | n + 1 => f ((u :: s).take (n + 1)) ++ scan len f n s

def replaceAll (len : CodeUnits → ℕ) (f : CodeUnits → CodeUnits) (s : CodeUnits) : CodeUnits :=
  scan len f 0 s

theorem js_ofList (l : List Char) : js (String.ofList l) = l.flatMap fun c => unitsOf c.toNat := by
  rw [js, String.toList_ofList]

theorem scan_skip (len : CodeUnits → ℕ) (f : CodeUnits → CodeUnits) (n : ℕ) (s : CodeUnits) :
    scan len f n s = scan len f 0 (s.drop n) := by
  induction s generalizing n with
  | nil => cases n <;> rfl
  | cons u s ih =>
    cases n with
    | zero => rfl
    | succ n => exact ih n

/-- Only what is matched is replaced. -/
theorem scan_congr {len : CodeUnits → ℕ} {f g : CodeUnits → CodeUnits}
    (h : ∀ s, len s ≠ 0 → f (s.take (len s)) = g (s.take (len s))) (n : ℕ) (s : CodeUnits) :
    scan len f n s = scan len g n s := by
  induction s generalizing n with
  | nil => cases n <;> rfl
  | cons u s ih =>
    cases n with
    | succ n => exact ih n
    | zero =>
      have hu := h (u :: s)
      rw [scan, scan]
      cases hlen : len (u :: s) with
      | zero => exact congrArg (List.cons u) (ih 0)
      | succ n =>
        rw [hlen] at hu
        show f _ ++ scan len f n s = g _ ++ scan len g n s
        rw [hu nofun, ih n]

/-- Nowhere in `t` a match begins, whatever follows. -/
def Quiet (len : CodeUnits → ℕ) : CodeUnits → Prop
  | [] => True
  | u :: t => (∀ s, len (u :: t ++ s) = 0) ∧ Quiet len t

theorem quiet_append {len : CodeUnits → ℕ} {s t : CodeUnits} (hs : Quiet len s)
    (ht : Quiet len t) : Quiet len (s ++ t) := by
  induction s with
  | nil => exact ht
  | cons u s ih =>
    refine ⟨fun r => ?_, ih hs.2⟩
    show len ((u :: s) ++ t ++ r) = 0
    rw [List.append_assoc]
    exact hs.1 (t ++ r)

/-- Where no character can begin a match, there is none. -/
theorem quiet_of_forall {len : CodeUnits → ℕ} {t : CodeUnits}
    (h : ∀ u ∈ t, ∀ s, len (u :: s) = 0) : Quiet len t := by
  induction t with
  | nil => exact trivial
  | cons u t ih =>
    exact ⟨fun s => h u List.mem_cons_self (t ++ s), ih fun v hv => h v (List.mem_cons_of_mem _ hv)⟩

/-- **What is quiet is passed over.** -/
theorem scan_quiet {len : CodeUnits → ℕ} (f : CodeUnits → CodeUnits) {t : CodeUnits}
    (ht : Quiet len t) (s : CodeUnits) : scan len f 0 (t ++ s) = t ++ scan len f 0 s := by
  induction t with
  | nil => rfl
  | cons u t ih =>
    show (match len (u :: t ++ s) with
      | 0 => u :: scan len f 0 (t ++ s)
      | n + 1 => f ((u :: t ++ s).take (n + 1)) ++ scan len f n (t ++ s)) = _
    rw [ht.1 s, ih ht.2]
    rfl

end UnicodeText
