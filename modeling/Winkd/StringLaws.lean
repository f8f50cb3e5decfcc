import Winkd.Strings
import Mathlib

/-!
# What trimming and lower-casing keep

Facts on the functions of `Strings` that take a text's characters one by one.
-/

namespace Winkd.Server.Text

theorem toNat_toLower (c : Char) :
    c.toLower.toNat = if 65 ≤ c.toNat ∧ c.toNat ≤ 90 then c.toNat + 32 else c.toNat := by
  have hA : 'A'.val ≤ c.val ↔ 65 ≤ c.toNat := UInt32.le_iff_toNat_le
  have hZ : c.val ≤ 'Z'.val ↔ c.toNat ≤ 90 := UInt32.le_iff_toNat_le
  by_cases h : 65 ≤ c.toNat ∧ c.toNat ≤ 90
  · rw [if_pos h]
    unfold Char.toLower
    rw [dif_pos ⟨hA.mpr h.1, hZ.mpr h.2⟩]
    show (c.val + ('a'.val - 'A'.val)).toNat = c.val.toNat + 32
    have hle : c.val.toNat ≤ 90 := h.2
    rw [UInt32.toNat_add, show ('a'.val - 'A'.val).toNat = 32 from rfl, Nat.mod_eq_of_lt (by omega)]
  · rw [if_neg h]
    unfold Char.toLower
    rw [dif_neg fun hcon => h ⟨hA.mp hcon.1, hZ.mp hcon.2⟩]

theorem toLower_eq_self {c : Char} (h : ¬ (65 ≤ c.toNat ∧ c.toNat ≤ 90)) : c.toLower = c := by
  apply Char.toNat_inj.mp
  rw [toNat_toLower, if_neg h]

theorem toLower_toLower (c : Char) : c.toLower.toLower = c.toLower := by
  apply toLower_eq_self
  rw [toNat_toLower]
  split <;> omega

theorem isWhitespace_toLower (c : Char) : isWhitespace c.toLower = isWhitespace c := by
  by_cases h : 65 ≤ c.toNat ∧ c.toNat ≤ 90
  · have hupper : isWhitespace c = false := by
      simp only [isWhitespace, Bool.or_eq_false_iff, Bool.and_eq_false_iff, decide_eq_false_iff_not,
        beq_eq_false_iff_ne]
      omega
    have hlower : isWhitespace c.toLower = false := by
      simp only [isWhitespace, Bool.or_eq_false_iff, Bool.and_eq_false_iff, decide_eq_false_iff_not,
        beq_eq_false_iff_ne, toNat_toLower, if_pos h]
      omega
    rw [hupper, hlower]
  · rw [toLower_eq_self h]

/-! ## Trimming -/

/-- What a filter drops anyhow need not be trimmed before. -/
theorem filter_dropWhile {p q : Char → Bool} (h : ∀ c, q c = true → p c = false) (t : Text) :
    (t.dropWhile q).filter p = t.filter p := by
  induction t with
  | nil => rfl
  | cons c t ih =>
    rw [List.dropWhile_cons]
    split
    · rename_i hc
      rw [ih, List.filter_cons_of_neg (by rw [h c hc]; exact Bool.false_ne_true)]
    · rfl

theorem filter_trim {p : Char → Bool} (h : ∀ c, isWhitespace c = true → p c = false) (t : Text) :
    t.trim.filter p = t.filter p := by
  rw [trim, List.filter_reverse, filter_dropWhile h, List.filter_reverse, List.reverse_reverse,
    filter_dropWhile h]

theorem dropWhile_eq_self {p : Char → Bool} {t : Text} (ht : ∀ c ∈ t, p c = false) : t.dropWhile p = t := by
  cases t with
  | nil => rfl
  | cons c t => exact List.dropWhile_cons_of_neg (by rw [ht c List.mem_cons_self]; exact Bool.false_ne_true)

/-- There is nothing to trim, at either end. -/
theorem dropWhile_ends_eq_self {p : Char → Bool} {t : Text} (ht : ∀ c ∈ t, p c = false) :
    ((t.dropWhile p).reverse.dropWhile p).reverse = t := by
  rw [dropWhile_eq_self ht, dropWhile_eq_self fun c hc => ht c (List.mem_reverse.1 hc), List.reverse_reverse]

theorem trim_eq_self {t : Text} (ht : ∀ c ∈ t, isWhitespace c = false) : t.trim = t :=
  dropWhile_ends_eq_self ht

theorem dropWhile_append_cons {p : Char → Bool} {c : Char} (hc : p c = false) (s t : Text) :
    (s ++ c :: t).dropWhile p = s.dropWhile p ++ c :: t := by
  induction s with
  | nil => exact List.dropWhile_cons_of_neg (by rw [hc]; exact Bool.false_ne_true)
  | cons d s ih =>
    rw [List.cons_append, List.dropWhile_cons, List.dropWhile_cons]
    split
    · exact ih
    · rfl

/-- Around a character that is no space, each side is trimmed at its own end. -/
theorem trim_append_cons {c : Char} (hc : isWhitespace c = false) (s t : Text) :
    trim (s ++ c :: t) = s.dropWhile isWhitespace ++ c :: (t.reverse.dropWhile isWhitespace).reverse := by
  rw [trim, dropWhile_append_cons hc, List.reverse_append, List.reverse_cons, List.append_assoc,
    List.singleton_append, dropWhile_append_cons hc, List.reverse_append, List.reverse_cons,
    List.reverse_reverse, List.append_assoc, List.singleton_append]

theorem trim_dropWhile (t : Text) : trim (t.dropWhile isWhitespace) = t.trim := by
  rw [trim, List.dropWhile_idempotent, trim]

/-! ## Splitting -/

/-- **A separator makes one part more.** -/
theorem length_split_eq_one_iff {c : Char} {t : Text} : (split c t).length = 1 ↔ c ∉ t := by
  constructor
  · intro hone hc
    obtain ⟨s, r, rfl⟩ := List.append_of_mem hc
    rw [split, List.splitOn_append_cons_self, List.length_append] at hone
    have hs := List.length_pos_of_ne_nil (List.splitOn_ne_nil c s)
    have hr := List.length_pos_of_ne_nil (List.splitOn_ne_nil c r)
    omega
  · intro hc
    rw [split, List.splitOn_eq_singleton hc]
    rfl

/-- What holds of the separator and of every part holds of the whole. -/
theorem forall_mem_intercalate {P : Char → Prop} {sep : Text} {parts : List Text} (hsep : ∀ c ∈ sep, P c)
    (hparts : ∀ t ∈ parts, ∀ c ∈ t, P c) : ∀ c ∈ sep.intercalate parts, P c := by
  induction parts with
  | nil => exact fun c hc => absurd hc List.not_mem_nil
  | cons t parts ih =>
    have hrest := ih fun s hs => hparts s (List.mem_cons_of_mem _ hs)
    have ht := hparts t List.mem_cons_self
    cases parts with
    | nil =>
      rw [List.intercalate_singleton]
      exact ht
    | cons s parts =>
      rw [List.intercalate_cons_cons, List.forall_mem_append, List.forall_mem_append]
      exact ⟨⟨ht, hsep⟩, hrest⟩

theorem splitOnce_append {c : Char} {s : Text} (hs : c ∉ s) (t : Text) :
    splitOnce c (s ++ c :: t) = (s, some t) := by
  have hother : ∀ d ∈ s, (d != c) = true := by
    intro d hd
    rw [bne_iff_ne]
    rintro rfl
    exact hs hd
  have hstop : (c != c) = false := bne_self_eq_false c
  have hdrop : (s ++ c :: t).dropWhile (· != c) = c :: t := by
    rw [List.dropWhile_append_of_pos hother]
    exact List.dropWhile_cons_of_neg (by rw [hstop]; exact Bool.false_ne_true)
  have htake : (s ++ c :: t).takeWhile (· != c) = s := by
    rw [List.takeWhile_append_of_pos hother,
      List.takeWhile_cons_of_neg (by rw [hstop]; exact Bool.false_ne_true), List.append_nil]
  rw [splitOnce, hdrop, htake]

/-! ## Prefixes -/

theorem stripPrefix_append (p t : Text) : stripPrefix p (p ++ t) = some t := by
  rw [stripPrefix, if_pos (List.isPrefixOf_iff_prefix.2 (List.prefix_append p t)), List.drop_left]

theorem stripPrefix_eq_none {p t : Text} (h : ¬ p <+: t) : stripPrefix p t = none :=
  if_neg fun hp => h (List.isPrefixOf_iff_prefix.1 hp)

/-- A prefix that is there `n` times is removed, if it is removed often enough. -/
theorem trimStartTimes_flatten {p t : Text} (h : ¬ p <+: t) (n k : ℕ) :
    trimStartTimes p (n + k) ((List.replicate n p).flatten ++ t) = t := by
  induction n with
  | zero =>
    cases k with
    | zero => rfl
    | succ k =>
      rw [Nat.zero_add, List.replicate_zero, List.flatten_nil, List.nil_append, trimStartTimes,
        stripPrefix_eq_none h]
  | succ n ih =>
    rw [Nat.add_right_comm, trimStartTimes, List.replicate_succ, List.flatten_cons, List.append_assoc,
      stripPrefix_append]
    exact ih

/-- Every text begins with a prefix some number of times, and not once more. -/
theorem exists_eq_flatten {p : Text} (hp : p ≠ []) (t : Text) :
    ∃ n rest, t = (List.replicate n p).flatten ++ rest ∧ ¬ p <+: rest := by
  by_cases h : p <+: t
  · obtain ⟨s, rfl⟩ := h
    have hshort : s.length < (p ++ s).length := by
      rw [List.length_append]
      have hpos := List.length_pos_iff.2 hp
      omega
    obtain ⟨n, rest, hs, hrest⟩ := exists_eq_flatten hp s
    refine ⟨n + 1, rest, ?_, hrest⟩
    rw [List.replicate_succ, List.flatten_cons, List.append_assoc, ← hs]
  · exact ⟨0, t, rfl, h⟩
termination_by t.length

/-- **`trim_start_matches` removes all of the repetitions**, and nothing else. -/
theorem trimStartMatches_eq_iff {p : Text} (hp : p ≠ []) {t rest : Text} :
    trimStartMatches p t = rest ↔ ∃ n, t = (List.replicate n p).flatten ++ rest ∧ ¬ p <+: rest := by
  have htrim : ∀ n r, ¬ p <+: r → trimStartMatches p ((List.replicate n p).flatten ++ r) = r := by
    intro n r hr
    have hpos := List.length_pos_iff.2 hp
    have hlong : n ≤ ((List.replicate n p).flatten ++ r).length := by
      rw [List.length_append, List.length_flatten, List.map_replicate, List.sum_replicate_nat]
      exact Nat.le_add_right_of_le (Nat.le_mul_of_pos_right n hpos)
    obtain ⟨k, hk⟩ := Nat.exists_eq_add_of_le hlong
    rw [trimStartMatches, hk]
    exact trimStartTimes_flatten hr n k
  constructor
  · intro h
    obtain ⟨n, r, rfl, hr⟩ := exists_eq_flatten hp t
    rw [htrim n r hr] at h
    exact ⟨n, h ▸ rfl, h ▸ hr⟩
  · rintro ⟨n, rfl, hrest⟩
    exact htrim n rest hrest

/-! ## ASCII -/

/-- A text of ASCII characters has as many bytes as characters. -/
theorem len_eq_length {t : Text} (ht : ∀ c ∈ t, c.toNat < 128) : t.len = t.length := by
  induction t with
  | nil => rfl
  | cons c t ih =>
    have hc : c.utf8Size = 1 := by
      have hlt : c.toNat < 128 := ht c List.mem_cons_self
      exact Char.utf8Size_eq_one_iff.mpr (UInt32.le_iff_toNat_le.mpr (Nat.lt_succ_iff.mp hlt))
    have hrest := ih fun d hd => ht d (List.mem_cons_of_mem c hd)
    rw [len] at hrest
    rw [len, List.map_cons, List.sum_cons, hc, hrest, List.length_cons, Nat.add_comm]

theorem toNat_lt_of_isDigit {c : Char} (hc : c.isDigit = true) : c.toNat < 128 := by
  rw [Char.isDigit, Bool.and_eq_true] at hc
  have h9 : c.toNat ≤ 57 := UInt32.le_iff_toNat_le.mp (of_decide_eq_true hc.2)
  omega

/-! ## Decimals -/

theorem isDigit_of_mem_toString {n : ℕ} {c : Char} (hc : c ∈ (toString n).toList) : c.isDigit = true := by
  rw [show (toString n).toList = Nat.toDigits 10 n from Nat.toList_repr] at hc
  exact Nat.isDigit_of_mem_toDigits (by decide) (by decide) hc

/-- A number is parsed back from its decimal. -/
theorem parseUnsigned_toString {bound n : ℕ} (hn : n < bound) :
    parseUnsigned bound (toString n).toList = some n := by
  have hdecimal : (toString n).toList = Nat.toDigits 10 n := Nat.toList_repr
  have hvalue : digitsValue (Nat.toDigits 10 n) = n := Nat.ofDigitChars_ten_toDigits
  have hdigits : (Nat.toDigits 10 n).all Char.isDigit = true :=
    List.all_eq_true.2 fun c hc => Nat.isDigit_of_mem_toDigits (by decide) (by decide) hc
  rw [hdecimal, parseUnsigned_digits hdigits Nat.toDigits_ne_nil (by rwa [hvalue]), hvalue]

end Winkd.Server.Text
