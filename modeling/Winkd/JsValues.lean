import Winkd.JsText
import Mathlib.Data.List.DropRight
import Mathlib.Logic.Function.Iterate

/-!
# JavaScript's values, as counters

What a field can hold once `JSON.parse` has read it, and what `+`, `++`, `<` and a template
literal make of it.  A number is `NaN`, infinite, or an integer and what comes after the point.
Its digits are exact: where a double would round, from 2 ^ 53 on or beyond its precision,
nothing is rounded here, but what a double cannot reach is infinite, or zero.

A loop `while (c < t) c++` makes as many passes as `passes` says (`passes_eq_some_iff`), or
does not end (`passes_eq_none_iff`).
-/

namespace Js
open UnicodeText

/-- The digits after the point. -/
structure Part where
  digits : List (Fin 10)
  /-- No zeros stand at the end. -/
  last_ne : digits.getLast? ≠ some 0
  deriving DecidableEq

namespace Part

def none : Part := ⟨[], nofun⟩

/-- Digits, without the zeros at the end. -/
def ofDigits (digits : List (Fin 10)) : Part where
  digits := digits.rdropWhile (· = 0)
  last_ne h := by
    have hne : digits.rdropWhile (· = 0) ≠ [] := by
      intro hnil
      rw [hnil] at h
      cases h
    rw [List.getLast?_eq_some_getLast hne, Option.some.injEq] at h
    have hlast := List.rdropWhile_last_not (fun d : Fin 10 => d = 0) digits hne
    rw [h] at hlast
    exact hlast (decide_eq_true rfl)

/-- The digits of one minus the part. -/
def complementDigits : List (Fin 10) → List (Fin 10)
  | [] => []
  | [d] => [0 - d]
  | d :: digits => (9 - d) :: complementDigits digits

theorem getLast?_complementDigits (digits : List (Fin 10)) :
    (complementDigits digits).getLast? = digits.getLast?.map (0 - ·) := by
  induction digits with
  | nil => rfl
  | cons d digits ih =>
    cases digits with
    | nil => rfl
    | cons e digits =>
      have hne : complementDigits (e :: digits) ≠ [] := by
        cases digits <;> exact List.cons_ne_nil _ _
      rw [complementDigits, List.getLast?_cons_of_ne_nil hne, ih,
        List.getLast?_cons_of_ne_nil (List.cons_ne_nil e digits)]
      exact List.cons_ne_nil e digits

/-- One minus the part. -/
def complement (part : Part) : Part where
  digits := complementDigits part.digits
  last_ne h := by
    rw [getLast?_complementDigits, Option.map_eq_some_iff] at h
    obtain ⟨d, hd, hzero⟩ := h
    have hd0 : d = 0 := by
      have hall : ∀ e : Fin 10, 0 - e = 0 → e = 0 := by decide
      exact hall d hzero
    exact part.last_ne (hd0 ▸ hd)

end Part

/-- A number; one that is finite is an integer and a part. -/
inductive Number where
  | nan
  | negInfinity
  | infinity
  | finite (floor : ℤ) (part : Part)
  deriving DecidableEq

/-! ## Texts -/

def digitUnit (d : Fin 10) : UInt16 := UInt16.ofNat (48 + d.val)

/-- The text of an integer. -/
def intText (k : ℤ) : CodeUnits := if k < 0 then unit '-' :: decimal k.natAbs else decimal k.natAbs

/-- The text of a number that is not negative and has digits after the point. -/
def pointText (whole : ℕ) (digits : List (Fin 10)) : CodeUnits :=
  if whole = 0 ∧ 6 ≤ (digits.takeWhile (· = 0)).length then
    -- with an exponent
    let exponent := js "e-" ++ decimal ((digits.takeWhile (· = 0)).length + 1)
    match digits.dropWhile (· = 0) with
    | [] => js "0"
    | [d] => digitUnit d :: exponent
    | d :: rest => digitUnit d :: unit '.' :: rest.map digitUnit ++ exponent
  else decimal whole ++ unit '.' :: digits.map digitUnit

namespace Number

/-- `${x}` -/
def toText : Number → CodeUnits
  | nan => js "NaN"
  | negInfinity => js "-Infinity"
  | infinity => js "Infinity"
  | finite floor part =>
    if part.digits = [] then intText floor
    else if 0 ≤ floor then pointText floor.natAbs part.digits
    else unit '-' :: pointText (floor + 1).natAbs part.complement.digits

def int (k : ℤ) : Number := finite k .none

def neg : Number → Number
  | nan => nan
  | negInfinity => infinity
  | infinity => negInfinity
  | finite floor part =>
    if part.digits = [] then int (-floor) else finite (-floor - 1) part.complement

/-- The digits `0.d₁d₂…`, with the point moved `point` places. -/
def ofPoint (digits : List (Fin 10)) (point : ℤ) : Number :=
  let significant := digits.dropWhile (· = 0)
  let point := point - (digits.takeWhile (· = 0)).length
  if significant = [] ∨ point < -323 then int 0
  else if 309 < point then infinity
  else
    let places := point.toNat
    let padded := List.replicate (-point).toNat 0 ++ significant ++
      List.replicate (places - significant.length) 0
    let whole := (padded.take places).foldl (fun n d => 10 * n + d.val) 0
    if 2 ^ 1024 - 2 ^ 970 ≤ whole then infinity else finite whole (.ofDigits (padded.drop places))

/-- A digit of a radix. -/
def digitOf (radix : ℕ) (u : UInt16) : Option ℕ :=
  let v := if isDigit u then u.toNat - 48
    else if isLower u then u.toNat - 87
    else if isUpper u then u.toNat - 55
    else radix
  if v < radix then some v else none

/-- The digits of a radix, to the end. -/
def radixText (radix : ℕ) (s : CodeUnits) : Number :=
  match s.mapM (digitOf radix) with
  | some (d :: digits) => int ((d :: digits).foldl (fun n v => radix * n + v) 0)
  | _ => nan

/-- The exponent of a decimal literal. -/
def exponentOf : CodeUnits → Option ℤ
  | [] => some 0
  | e :: s =>
    if lowerUnit e = unit 'e' then
      let (sign, digits) : ℤ × CodeUnits := match s with
        | u :: rest => if u = unit '-' then (-1, rest) else if u = unit '+' then (1, rest) else (1, s)
        | [] => (1, [])
      match digits.mapM (digitOf 10) with
      | some (d :: rest) => some (sign * ((d :: rest).foldl (fun n v => 10 * n + v) 0 : ℕ))
      | _ => none
    else none

/-- The digits in front, and what comes after them. -/
def leadingDigits (s : CodeUnits) : List (Fin 10) × CodeUnits :=
  ((s.takeWhile isDigit).map fun u => Fin.ofNat 10 (u.toNat - 48), s.dropWhile isDigit)

/-- An unsigned decimal literal. -/
def unsignedText (s : CodeUnits) : Number :=
  if s = js "Infinity" then infinity
  else
    let (whole, rest) := leadingDigits s
    let (digits, rest) := match rest with
      | u :: after => if u = unit '.' then leadingDigits after else ([], rest)
      | [] => ([], [])
    match exponentOf rest with
    | some exponent => if whole ++ digits = [] then nan else ofPoint (whole ++ digits) (whole.length + exponent)
    | none => nan

/-- `Number(s)` -/
def ofText (s : CodeUnits) : Number :=
  match trim s with
  | [] => int 0
  | [u] => unsignedText [u]
  | u :: v :: rest =>
    if u = unit '0' ∧ lowerUnit v = unit 'x' then radixText 16 rest
    else if u = unit '0' ∧ lowerUnit v = unit 'o' then radixText 8 rest
    else if u = unit '0' ∧ lowerUnit v = unit 'b' then radixText 2 rest
    else if u = unit '-' then (unsignedText (v :: rest)).neg
    else if u = unit '+' then unsignedText (v :: rest)
    else unsignedText (u :: v :: rest)

example : ofText (js " 14e2 ") = int 1400 := by decide +kernel
example : (ofText (js "-0.25")).toText = js "-0.25" := by decide +kernel
example : ofText (js "14e999") = infinity := by decide +kernel

/-! ## Operators -/

/-- `x + k` -/
def plus (x : Number) (k : ℤ) : Number :=
  match x with
  | finite floor part => finite (floor + k) part
  | x => x

/-- `x < y` -/
def lt : Number → Number → Bool
  | nan, _ => false
  | _, nan => false
  | _, negInfinity => false
  | infinity, _ => false
  | negInfinity, _ => true
  | _, infinity => true
  | finite f p, finite g q => f < g ∨ f = g ∧ p.digits < q.digits

/-- `x <= y` -/
def le (x y : Number) : Bool := x ≠ nan && y ≠ nan && !y.lt x

/-- How often one is added to `x` before it is not below `y`; `none` when it is for ever. -/
def steps (x y : Number) : Option ℕ :=
  if x.lt y then
    match x, y with
    | finite f p, finite g q => some ((g - f).toNat + if p.digits < q.digits then 1 else 0)
    | _, _ => none
  else some 0

section Integers
variable {a b k : ℤ}

theorem int_injective : Function.Injective int := fun _ _ h => (finite.inj h).1

@[simp] theorem plus_int : (int a).plus k = int (a + k) := rfl

@[simp] theorem lt_int : (int a).lt (int b) = decide (a < b) := by
  simp [int, lt, Part.none]

@[simp] theorem le_int : (int a).le (int b) = decide (a ≤ b) := by
  have hne : ∀ k, int k ≠ nan := nofun
  rw [le, lt_int, decide_eq_true (hne a), decide_eq_true (hne b), ← decide_not]
  simp only [Bool.true_and, Int.not_lt]

@[simp] theorem toText_int : (int k).toText = intText k := rfl

end Integers

theorem plus_plus (x : Number) (k l : ℤ) : (x.plus k).plus l = x.plus (k + l) := by
  cases x with
  | finite floor part => simp only [plus, Int.add_assoc]
  | _ => rfl

@[simp] theorem plus_zero (x : Number) : x.plus 0 = x := by
  cases x with
  | finite floor part => simp only [plus, Int.add_zero]
  | _ => rfl

/-- **So many steps below**, and then no more. -/
theorem lt_plus_iff (x y : Number) (j : ℕ) :
    (x.plus j).lt y = true ↔ ∀ k, x.steps y = some k → j < k := by
  unfold steps
  split
  · rename_i hlt
    cases x with
    | nan => cases hlt
    | infinity => cases y <;> cases hlt
    | negInfinity =>
      -- adding does not get it anywhere
      exact iff_of_true hlt nofun
    | finite f p =>
      cases y with
      | nan => cases hlt
      | negInfinity => cases hlt
      | infinity => exact iff_of_true rfl nofun
      | finite g q =>
        simp only [lt, decide_eq_true_eq] at hlt
        simp only [plus, lt, decide_eq_true_eq, Option.some.injEq, forall_eq']
        by_cases hparts : p.digits < q.digits
        · simp only [hparts, and_true, if_true]
          omega
        · simp only [hparts, and_false, or_false, if_false] at hlt ⊢
          omega
  · rename_i hlt
    simp only [Option.some.injEq, forall_eq', Nat.not_lt_zero, iff_false, Bool.not_eq_true]
    rw [Bool.not_eq_true] at hlt
    cases x with
    | finite f p =>
      cases y with
      | finite g q =>
        simp only [lt, decide_eq_false_iff_not, not_or, not_and] at hlt
        simp only [plus, lt, decide_eq_false_iff_not, not_or, not_and]
        exact ⟨by omega, fun heq => hlt.2 (by omega)⟩
      | infinity => cases hlt
      | _ => rfl
    | _ => exact hlt

end Number

/-! ## Texts of integers -/

/-- The digits can be read off. -/
theorem map_decimal (n : ℕ) : (decimal n).map (fun u => Char.ofNat u.toNat) = Nat.toDigits 10 n := by
  rw [decimal, List.map_map]
  refine (List.map_congr_left fun c hc => ?_).trans (List.map_id _)
  have hdigit : c.isDigit = true := Nat.isDigit_of_mem_toDigits (by decide) (by decide) hc
  rw [Char.isDigit, Bool.and_eq_true] at hdigit
  have hle : c.toNat ≤ 57 := UInt32.le_iff_toNat_le.mp (of_decide_eq_true hdigit.2)
  have hunit : (unit c).toNat = c.toNat :=
    UInt16.toNat_ofNat_of_lt' (show c.toNat < 2 ^ 16 by omega)
  rw [Function.comp_apply, hunit, Char.ofNat_toNat]
  rfl

theorem decimal_injective : Function.Injective decimal := by
  intro m n h
  have hdigits : Nat.toDigits 10 m = Nat.toDigits 10 n := by
    rw [← map_decimal, ← map_decimal, h]
  have hvalue := congrArg (Nat.ofDigitChars 10 · 0) hdigits
  simpa only [Nat.ofDigitChars_ten_toDigits] using hvalue

/-- A decimal has no sign. -/
theorem minus_notMem_decimal (n : ℕ) : unit '-' ∉ decimal n := by
  intro h
  have hmem : '-' ∈ Nat.toDigits 10 n := by
    rw [← map_decimal]
    exact List.mem_map.mpr ⟨_, h, rfl⟩
  exact absurd (Nat.isDigit_of_mem_toDigits (by decide) (by decide) hmem) (by decide)

theorem intText_injective : Function.Injective intText := by
  intro a b h
  have hcons : ∀ m n : ℕ, unit '-' :: decimal m ≠ decimal n := fun m n heq =>
    minus_notMem_decimal n (heq ▸ List.mem_cons_self)
  unfold intText at h
  split at h <;> split at h
  · have hnat := decimal_injective (List.cons.inj h).2
    omega
  · exact absurd h (hcons _ _)
  · exact absurd h.symm (hcons _ _)
  · have hnat := decimal_injective h
    omega

/-! ## Primitive values -/

inductive Primitive where
  | undefined
  | null
  | boolean (b : Bool)
  | number (x : Number)
  | string (s : CodeUnits)
  deriving DecidableEq

namespace Primitive

def int (k : ℤ) : Primitive := .number (.int k)

/-- The integer, of a number that is one. -/
def floor : Primitive → ℤ
  | number (.finite k _) => k
  | _ => 0

/-- `${p}` -/
def toText : Primitive → CodeUnits
  | undefined => js "undefined"
  | null => js "null"
  | boolean b => if b then js "true" else js "false"
  | number x => x.toText
  | string s => s

/-- `Number(p)` -/
def toNumber : Primitive → Number
  | undefined => .nan
  | null => .int 0
  | boolean b => .int b.toNat
  | number x => x
  | string s => .ofText s

/-- `p + k`, for a number `k` -/
def plus (p : Primitive) (k : ℤ) : Primitive :=
  match p with
  | string s => string (s ++ intText k)
  | _ => number (p.toNumber.plus k)

/-- What `p` is after `p++` -/
def increment (p : Primitive) : Primitive := number (p.toNumber.plus 1)

/-- `p < q`: two strings are compared by their code units, all else as numbers. -/
def lt (p q : Primitive) : Bool :=
  match p, q with
  | string s, string t => s < t
  | _, _ => p.toNumber.lt q.toNumber

/-- `p <= q` -/
def le (p q : Primitive) : Bool :=
  match p, q with
  | string s, string t => s ≤ t
  | _, _ => p.toNumber.le q.toNumber

/-- How many passes `while (c < t) c++` makes; `none` when it does not end. -/
def passes (c t : Primitive) : Option ℕ :=
  if c.lt t then (c.increment.toNumber.steps t.toNumber).map (· + 1) else some 0

/-- What `c` is after so many passes. -/
def after (c : Primitive) : ℕ → Primitive
  | 0 => c
  | j + 1 => (c.after j).increment

theorem after_succ (c : Primitive) (j : ℕ) :
    c.after (j + 1) = number (c.increment.toNumber.plus j) := by
  induction j with
  | zero => exact congrArg number (Number.plus_zero _).symm
  | succ j ih =>
    rw [after, ih, increment, toNumber, Number.plus_plus]
    rfl

/-- From the first pass on numbers are compared. -/
theorem lt_after_succ_iff (c t : Primitive) (j : ℕ) :
    (c.after (j + 1)).lt t = true ↔ ∀ k, c.increment.toNumber.steps t.toNumber = some k → j < k := by
  rw [after_succ, ← Number.lt_plus_iff]
  cases t <;> exact Iff.rfl

/-- **The loop ends after so many passes**, and not before. -/
theorem passes_eq_some_iff (c t : Primitive) (k : ℕ) :
    c.passes t = some k ↔ (∀ j < k, (c.after j).lt t = true) ∧ (c.after k).lt t = false := by
  have hafter := lt_after_succ_iff c t
  unfold passes
  split
  · rename_i hlt
    rw [Option.map_eq_some_iff]
    constructor
    · rintro ⟨m, hm, rfl⟩
      simp only [hm, Option.some.injEq, forall_eq'] at hafter
      constructor
      · intro j hj
        cases j with
        | zero => exact hlt
        | succ j => exact (hafter j).mpr (Nat.lt_of_succ_lt_succ hj)
      · exact Bool.eq_false_iff.mpr fun h => Nat.lt_irrefl m ((hafter m).mp h)
    · rintro ⟨hbelow, hend⟩
      cases k with
      | zero => exact absurd hlt (Bool.eq_false_iff.mp hend)
      | succ k =>
        have hnot := mt (hafter k).mpr (Bool.eq_false_iff.mp hend)
        simp only [not_forall, Nat.not_lt] at hnot
        obtain ⟨m, hm, hle⟩ := hnot
        refine ⟨m, hm, congrArg (· + 1) (Nat.le_antisymm hle ?_)⟩
        -- the pass before the last is made
        cases k with
        | zero => exact Nat.zero_le m
        | succ k => exact (hafter k).mp (hbelow (k + 1) (Nat.lt_succ_self _)) m hm
  · rename_i hlt
    rw [Option.some.injEq]
    constructor
    · rintro rfl
      exact ⟨fun j hj => absurd hj (Nat.not_lt_zero j), Bool.not_eq_true _ ▸ hlt⟩
    · rintro ⟨hbelow, -⟩
      by_contra hne
      exact hlt (hbelow 0 (Nat.pos_of_ne_zero fun h => hne h.symm))

/-- **The loop does not end.** -/
theorem passes_eq_none_iff (c t : Primitive) :
    c.passes t = none ↔ ∀ j, (c.after j).lt t = true := by
  constructor
  · intro hnone j
    unfold passes at hnone
    split at hnone
    · rename_i hlt
      rw [Option.map_eq_none_iff] at hnone
      cases j with
      | zero => exact hlt
      | succ j =>
        rw [lt_after_succ_iff, hnone]
        exact nofun
    · cases hnone
  · intro hall
    by_contra hne
    obtain ⟨k, hk⟩ := Option.ne_none_iff_exists'.mp hne
    exact Bool.eq_false_iff.mp ((passes_eq_some_iff c t k).mp hk).2 (hall k)

/-- To add one makes nothing less. -/
theorem lt_plus_one (p : Primitive) : (p.plus 1).lt p = false := by
  have hnumber : ∀ x : Number, (x.plus 1).lt x = false := by
    intro x
    cases x with
    | finite floor part =>
      simp only [Number.plus, Number.lt, decide_eq_false_iff_not, not_or, not_and]
      exact ⟨by omega, fun h => by omega⟩
    | _ => rfl
  cases p with
  | string s =>
    have hle : s ≤ s ++ intText 1 := (List.prefix_append s _).le
    exact decide_eq_false hle
  | undefined => exact hnumber .nan
  | null => exact hnumber (.int 0)
  | boolean b => exact hnumber (.int b.toNat)
  | number x => exact hnumber x

section Integers
variable {a b k : ℤ}

theorem int_injective : Function.Injective int := fun _ _ h => Number.int_injective (number.inj h)

@[simp] theorem int_inj : int a = int b ↔ a = b := int_injective.eq_iff

@[simp] theorem toText_int : (int k).toText = intText k := rfl

@[simp] theorem plus_int : (int a).plus k = int (a + k) := rfl

@[simp] theorem lt_int : (int a).lt (int b) = decide (a < b) := Number.lt_int

@[simp] theorem le_int : (int a).le (int b) = decide (a ≤ b) := Number.le_int

@[simp] theorem floor_int : (int k).floor = k := rfl

@[simp] theorem after_int (j : ℕ) : (int a).after j = int (a + j) := by
  cases j with
  | zero => rw [after, Int.natCast_zero, Int.add_zero]
  | succ j =>
    rw [after_succ]
    exact congrArg (fun l => number (Number.int l)) (by push_cast; omega)

@[simp] theorem passes_int : (int a).passes (int b) = some (b - a).toNat := by
  rw [passes_eq_some_iff]
  simp only [after_int, lt_int, decide_eq_true_eq, decide_eq_false_iff_not]
  exact ⟨fun j hj => by omega, by omega⟩

end Integers

end Primitive

/-! ## Values -/

/-- What `JSON.parse` gives, or `undefined`.  An array or an object is told by the string that
`ToPrimitive` makes of it; it throws where `toString` is a field of its own. -/
inductive Value where
  | primitive (p : Primitive)
  | object (text : Option CodeUnits)
  deriving DecidableEq

namespace Value

def int (k : ℤ) : Value := .primitive (.int k)

def toPrimitive : Value → Option Primitive
  | primitive p => some p
  | object text => text.map Primitive.string

/-- The integer, of a number that is one. -/
def floor : Value → ℤ
  | primitive p => p.floor
  | object _ => 0

@[simp] theorem floor_int (k : ℤ) : (int k).floor = k := rfl

theorem int_injective : Function.Injective int := fun _ _ h => Primitive.int_injective (primitive.inj h)

@[simp] theorem int_inj {a b : ℤ} : int a = int b ↔ a = b := int_injective.eq_iff

@[simp] theorem toPrimitive_int (k : ℤ) : (int k).toPrimitive = some (.int k) := rfl

end Value
end Js
