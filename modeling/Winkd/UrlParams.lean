import Winkd.Percent

/-!
# Parameters of a URL

Pairs of a name and a value, with `=` between the two and `&` between the pairs.  The parser is that of
`URLSearchParams`, which makes something of any text: a plus sign is a space, an escape is an octet, a
percent sign without two digits is itself, and octets that are no UTF-8 are replaced.

Whoever percent-encodes the names and the values gets them back, if none of the signs that mean something
is kept (`parse_write`).
-/

namespace UrlParams
open UnicodeText Winkd.Server

/-- Octets without their escapes. -/
def unescape : List UInt8 → List UInt8
  | [] => []
  | [b] => [b]
  | [b, c] => [b, c]
  | b :: c :: d :: t =>
    if b = 0x25 then
      match Hex.value (Char.ofNat c.toNat), Hex.value (Char.ofNat d.toNat) with
      | some x, some y => UInt8.ofNat (16 * x + y) :: unescape t
      | _, _ => b :: unescape (c :: d :: t)
    else b :: unescape (c :: d :: t)

def spaceOfPlus (c : Char) : Char := if c = '+' then ' ' else c

/-- The UTF-8 of a text. -/
def octets (t : List Char) : List UInt8 := t.flatMap fun c => octetsOf c.toNat

/-- A name or a value, as it is read. -/
def component (t : List Char) : List Char :=
  (decodeFrom none (unescape (octets (t.map spaceOfPlus)))).map Char.ofNat

def pair (t : List Char) : List Char × List Char :=
  ((component (Text.splitOnce '=' t).1), component ((Text.splitOnce '=' t).2.getD []))

/-- `new URLSearchParams(t)` -/
def parse (t : List Char) : List (List Char × List Char) :=
  (((if t.head? = some '?' then t.drop 1 else t).splitOn '&').filter (· ≠ [])).map pair

/-- `params.get(name)`: the first of several. -/
def get (name : List Char) (params : List (List Char × List Char)) : Option (List Char) :=
  (params.find? fun p => p.1 = name).map Prod.snd

example : parse "?a=1%2b1+x&&b&%zz=%e2%82".toList = [("a".toList, "1+1 x".toList), ("b".toList, []),
    ("%zz".toList, [Char.ofNat 0xFFFD])] := by decide

/-- The pairs, percent-encoded. -/
def write (keep : Char → Bool) (params : List (List Char × List Char)) : List Char :=
  ['&'].intercalate (params.map fun p => Percent.encode keep p.1 ++ '=' :: Percent.encode keep p.2)

/-! ## Escapes -/

theorem unescape_cons {b : UInt8} (hb : b ≠ 0x25) (t : List UInt8) : unescape (b :: t) = b :: unescape t := by
  rcases t with _ | ⟨c, _ | ⟨d, t⟩⟩
  · rfl
  · rfl
  · rw [unescape, if_neg hb]

theorem unescape_append {s : List UInt8} (hs : ∀ b ∈ s, b ≠ 0x25) (t : List UInt8) :
    unescape (s ++ t) = s ++ unescape t := by
  induction s with
  | nil => rfl
  | cons b s ih =>
    have hrest := ih fun c hc => hs c (List.mem_cons_of_mem _ hc)
    rw [List.cons_append, unescape_cons (hs b List.mem_cons_self), hrest]
    rfl

theorem toNat_ofNat {n : ℕ} (hn : n < 256) : (UInt8.ofNat n).toNat = n := UInt8.toNat_ofNat_of_lt' hn

/-- Only the percent sign has its octet. -/
theorem ne_percent {c : Char} (hc : c ≠ '%') : ∀ b ∈ octetsOf c.toNat, b ≠ 0x25 := by
  have hne : c.toNat ≠ 0x25 := fun h => hc (Char.toNat_inj.mp h)
  have hother : ∀ n, n < 256 → n ≠ 0x25 → UInt8.ofNat n ≠ 0x25 := by
    intro n hn hne h
    exact hne (by rw [← toNat_ofNat hn, h]; rfl)
  have hscalar := Percent.isScalar_toNat c
  unfold IsScalar at hscalar
  unfold octetsOf
  split_ifs
  all_goals
    simp only [List.forall_mem_cons, List.not_mem_nil, false_implies, implies_true, and_true]
    repeat' apply And.intro
    all_goals exact hother _ (by omega) (by omega)

theorem octets_ascii {c : Char} (hc : c.toNat < 0x80) (t : List Char) :
    octets (c :: t) = UInt8.ofNat c.toNat :: octets t := by
  rw [octets, List.flatMap_cons, octetsOf, if_pos hc]
  rfl

theorem unescape_escape (b : UInt8) (t : List Char) :
    unescape (octets (Percent.escape b ++ t)) = b :: unescape (octets t) := by
  have hb := b.toNat_lt
  have hdigit : ∀ n, n < 16 → (Hex.upperDigit n).toNat < 0x80 := by
    intro n hn
    rw [Hex.toNat_upperDigit hn]
    split <;> omega
  have hvalue : ∀ n, n < 16 →
      Hex.value (Char.ofNat (UInt8.ofNat (Hex.upperDigit n).toNat).toNat) = some n := by
    intro n hn
    have hlt := hdigit n hn
    rw [toNat_ofNat (by omega), Char.ofNat_toNat, Hex.value_upperDigit hn]
  have hbyte : UInt8.ofNat (16 * (b.toNat / 16) + b.toNat % 16) = b :=
    (Hex.ofNat_eq_iff (by omega) (by omega) b).2 ⟨rfl, rfl⟩
  show unescape (octets ('%' :: Hex.upperDigit (b.toNat / 16) :: Hex.upperDigit (b.toNat % 16) :: t)) = _
  rw [octets_ascii (by decide), octets_ascii (hdigit _ (by omega)), octets_ascii (hdigit _ (by omega)),
    unescape, if_pos (by decide), hvalue _ (by omega), hvalue _ (by omega)]
  show UInt8.ofNat (16 * (b.toNat / 16) + b.toNat % 16) :: _ = _
  rw [hbyte]

theorem unescape_flatMap (bytes : List UInt8) (t : List Char) :
    unescape (octets (bytes.flatMap Percent.escape ++ t)) = bytes ++ unescape (octets t) := by
  induction bytes with
  | nil => rfl
  | cons b bytes ih =>
    rw [List.flatMap_cons, List.append_assoc, unescape_escape, ih]
    rfl

/-! ## Names and values -/

section
variable {keep : Char → Bool}

theorem unescape_encode (hpercent : keep '%' = false) (t : List Char) :
    unescape (octets (Percent.encode keep t)) = octets t := by
  induction t with
  | nil => rfl
  | cons c t ih =>
    have hcons : Percent.encode keep (c :: t) = Percent.encodeChar keep c ++ Percent.encode keep t := rfl
    rw [hcons, Percent.encodeChar]
    split
    next hc =>
      have hne : c ≠ '%' := by
        rintro rfl
        exact Bool.false_ne_true (hpercent.symm.trans hc)
      show unescape (octetsOf c.toNat ++ octets (Percent.encode keep t)) = _
      rw [unescape_append (ne_percent hne), ih]
      rfl
    next =>
      rw [unescape_flatMap, ih]
      rfl

theorem encode_kept {t : List Char} (ht : ∀ c ∈ t, keep c = true) : Percent.encode keep t = t := by
  induction t with
  | nil => rfl
  | cons c t ih =>
    have hcons : Percent.encode keep (c :: t) = Percent.encodeChar keep c ++ Percent.encode keep t := rfl
    rw [hcons, Percent.encodeChar, if_pos (ht c List.mem_cons_self),
      ih fun d hd => ht d (List.mem_cons_of_mem _ hd)]
    rfl

/-- A sign that is not kept does not occur in what is encoded. -/
theorem not_mem_encode {c : Char} (hkeep : keep c = false) (hpercent : c ≠ '%')
    (hdigit : ∀ n < 16, c ≠ Hex.upperDigit n) (t : List Char) : c ∉ Percent.encode keep t := by
  intro hc
  rcases Percent.mem_encode hc with hkept | hsign | ⟨n, hn, hvalue⟩
  · exact Bool.false_ne_true (hkeep.symm.trans hkept)
  · exact hpercent hsign
  · exact hdigit n hn hvalue

theorem ne_upperDigit {c : Char} (hc : c.toNat < 48 ∨ 57 < c.toNat ∧ c.toNat < 65) (n : ℕ) (hn : n < 16) :
    c ≠ Hex.upperDigit n := by
  rintro rfl
  rw [Hex.toNat_upperDigit hn] at hc
  split at hc <;> omega

theorem component_encode (hpercent : keep '%' = false) (hplus : keep '+' = false) (t : List Char) :
    component (Percent.encode keep t) = t := by
  have hspaces : (Percent.encode keep t).map spaceOfPlus = Percent.encode keep t := by
    refine (List.map_congr_left fun c hc => ?_).trans (List.map_id _)
    refine if_neg ?_
    rintro rfl
    exact not_mem_encode hplus (by decide) (ne_upperDigit (.inl (by decide))) t hc
  have hoctets : octets t = (t.map Char.toNat).flatMap octetsOf := (List.flatMap_map ..).symm
  have hscalars : ∀ n ∈ t.map Char.toNat, IsScalar n := by
    intro n hn
    obtain ⟨c, -, rfl⟩ := List.mem_map.mp hn
    exact Percent.isScalar_toNat c
  rw [component, hspaces, unescape_encode hpercent, hoctets, decodeFrom_flatMap hscalars, List.map_map]
  exact (List.map_congr_left fun c _ => Char.ofNat_toNat c).trans (List.map_id t)

theorem not_mem_part {c : Char} (hkeep : keep c = false) (hpercent : c ≠ '%') (hequals : c ≠ '=')
    (hdigit : ∀ n < 16, c ≠ Hex.upperDigit n) (p : List Char × List Char) :
    c ∉ Percent.encode keep p.1 ++ '=' :: Percent.encode keep p.2 := by
  rw [List.mem_append, List.mem_cons]
  rintro (h | rfl | h)
  · exact not_mem_encode hkeep hpercent hdigit _ h
  · exact hequals rfl
  · exact not_mem_encode hkeep hpercent hdigit _ h

/-- **What was written is read back.** -/
theorem parse_write (hpercent : keep '%' = false) (hplus : keep '+' = false) (hand : keep '&' = false)
    (hequals : keep '=' = false) (hquestion : keep '?' = false) (params : List (List Char × List Char)) :
    parse (write keep params) = params := by
  have hquery : (write keep params).head? ≠ some '?' := by
    intro h
    have hother : ∀ c ∈ write keep params, c ≠ '?' := by
      have hand : ∀ c ∈ ['&'], c ≠ '?' := by
        rintro c hc
        rw [List.mem_singleton.mp hc]
        decide
      refine Text.forall_mem_intercalate hand fun t ht c hc => ?_
      obtain ⟨p, -, rfl⟩ := List.mem_map.mp ht
      rintro rfl
      exact not_mem_part hquestion (by decide) (by decide) (ne_upperDigit (.inr (by decide))) p hc
    exact hother '?' (List.mem_of_mem_head? h) rfl
  have hpair : ∀ p : List Char × List Char,
      pair (Percent.encode keep p.1 ++ '=' :: Percent.encode keep p.2) = p := by
    intro p
    have hname := not_mem_encode hequals (by decide) (ne_upperDigit (.inr (by decide))) p.1
    rw [pair, Text.splitOnce_append hname]
    exact Prod.ext (component_encode hpercent hplus p.1) (component_encode hpercent hplus p.2)
  have hparts : (write keep params).splitOn '&' = params.map (fun p =>
      Percent.encode keep p.1 ++ '=' :: Percent.encode keep p.2) ∨ params = [] := by
    by_cases hnone : params = []
    · exact .inr hnone
    · refine .inl (List.splitOn_intercalate '&' (fun t ht => ?_) fun h => hnone (List.map_eq_nil_iff.mp h))
      obtain ⟨p, -, rfl⟩ := List.mem_map.mp ht
      exact not_mem_part hand (by decide) (by decide) (ne_upperDigit (.inl (by decide))) p
  rcases hparts with hparts | rfl
  · rw [parse, if_neg hquery, hparts, List.filter_eq_self.mpr, List.map_map]
    · exact (List.map_congr_left fun p _ => hpair p).trans (List.map_id params)
    · intro t ht
      obtain ⟨p, -, rfl⟩ := List.mem_map.mp ht
      exact decide_eq_true (List.append_ne_nil_of_right_ne_nil _ (List.cons_ne_nil _ _))
  · rfl

end

end UrlParams
