import Winkd.MessageRow
import Winkd.ProfileMarkup

/-!
# Replacing after escaping

`addMsg` escapes a text first, and then replaces line ends, the files of emoticons and their
names by markup, one after the other, in what the replacements before have left.  No match
begins in markup, and none goes over an escaped character or into markup: their characters
are none of those that the regular expressions name.  So the result is the text, escaped
character by character, with images and line ends between (`messageText_eq`), and all that
stands in the images is plain.
-/

namespace Winkd.Web
open UnicodeText Markup

/-- What stands in a text: a character of it, or what was put in the place of some. -/
inductive Chunk where
  | char (u : UInt16)
  | lineBreak
  | image (src alt size : CodeUnits)

namespace Chunk

def pieces : Chunk → List Piece
  | .char u => [escaped [u]]
  | .lineBreak => [.own (js "<br>")]
  | .image src alt size => emoticon src alt size

def written (c : Chunk) : CodeUnits := html c.pieces

end Chunk

def written (cs : List Chunk) : CodeUnits := cs.flatMap Chunk.written

theorem written_append (cs cs' : List Chunk) : written (cs ++ cs') = written cs ++ written cs' :=
  List.flatMap_append

/-- A character of the files of emoticons. -/
def isUrlUnit (u : UInt16) : Bool := isFileUnit u || u = unit '/'

/-- A character of their files or names. -/
def isPathUnit (u : UInt16) : Bool := isUrlUnit u || u = unit ':'

/-- What a regular expression says of its matches: they have only characters of names and
paths. -/
structure Pattern where
  len : CodeUnits → ℕ
  len_le : ∀ s : CodeUnits, len s ≤ s.length
  names : ∀ s : CodeUnits, ∀ u ∈ s.take (len s), isPathUnit u = true

/-- The replacement, chunk by chunk; the first `skip` chunks have been matched. -/
def pass (len : CodeUnits → ℕ) (f : CodeUnits → List Chunk) : (skip : ℕ) → List Chunk → List Chunk
  | _, [] => []
  | skip + 1, _ :: cs => pass len f skip cs
  | 0, c :: cs =>
    match len (written (c :: cs)) with
    | 0 => c :: pass len f 0 cs
    | n + 1 => f ((written (c :: cs)).take (n + 1)) ++ pass len f n cs

theorem pass_skip (len : CodeUnits → ℕ) (f : CodeUnits → List Chunk) (n : ℕ) (cs : List Chunk) :
    pass len f n cs = pass len f 0 (cs.drop n) := by
  induction cs generalizing n with
  | nil => cases n <;> rfl
  | cons c cs ih =>
    cases n with
    | zero => rfl
    | succ n => exact ih n

theorem isPathUnit_plain {p : Place} {u : UInt16} (h : isPathUnit u = true) : p.entity u = none := by
  apply Place.entity_eq_none
  simp only [isPathUnit, isUrlUnit, isFileUnit, isPackUnit, isSlug, isLower, isUpper, isDigit, Bool.or_eq_true,
    Bool.and_eq_true, decide_eq_true_eq, ← UInt16.toNat_inj] at h
  simp only [List.mem_cons, List.not_mem_nil, or_false]
  simp only [show (unit '-').toNat = 45 from rfl, show (unit '_').toNat = 95 from rfl,
    show (unit '%').toNat = 37 from rfl, show (unit '.').toNat = 46 from rfl,
    show (unit ' ').toNat = 32 from rfl, show (unit '/').toNat = 47 from rfl,
    show (unit ':').toNat = 58 from rfl] at h
  omega

theorem Chunk.written_char (u : UInt16) :
    (Chunk.char u).written = (Place.text.entity u).getD [u] := by
  show escapeHtml [u] ++ [] = _
  rw [List.append_nil, escapeHtml_eq, Place.escape_cons]
  exact List.append_nil _

/-- A chunk is one character, or begins with one that names and paths do not have. -/
theorem Chunk.written_cases (c : Chunk) : (∃ u, c = .char u ∧ c.written = [u]) ∨
    ∃ u s, c.written = u :: s ∧ isPathUnit u = false := by
  have hhead : ∀ u, c.written.head? = some u → isPathUnit u = false →
      ∃ u s, c.written = u :: s ∧ isPathUnit u = false := by
    intro u hu hpath
    obtain ⟨s, hs⟩ := List.head?_eq_some_iff.mp hu
    exact ⟨u, s, hs, hpath⟩
  cases c with
  | char v =>
    have hwritten := Chunk.written_char v
    cases hv : Place.text.entity v with
    | none =>
      rw [hv] at hwritten
      exact .inl ⟨v, rfl, hwritten⟩
    | some t =>
      rw [hv, Option.getD_some] at hwritten
      exact .inr (hhead (unit '&') (hwritten ▸ Place.head?_entity hv) (by decide))
  | lineBreak => exact .inr (hhead (unit '<') (by decide) (by decide))
  | image src alt size =>
    refine .inr (hhead (unit '<') ?_ (by decide))
    show (js "<img src=\"" ++ _).head? = _
    rw [js_ofList]
    rfl

/-- Characters of names and paths are chunks of their own. -/
theorem drop_written {n : ℕ} {cs : List Chunk} (hn : n ≤ (written cs).length)
    (hnames : ∀ u ∈ (written cs).take n, isPathUnit u = true) :
    (written cs).drop n = written (cs.drop n) := by
  induction n generalizing cs with
  | zero => rfl
  | succ n ih =>
    cases cs with
    | nil => exact absurd hn (by simp [written])
    | cons c cs =>
      have hwritten : written (c :: cs) = c.written ++ written cs := rfl
      rcases c.written_cases with ⟨u, rfl, hu⟩ | ⟨u, s, hu, hpath⟩
      · rw [hwritten, hu] at hn hnames ⊢
        refine ih (Nat.le_of_succ_le_succ hn) fun v hv => hnames v ?_
        exact List.mem_cons_of_mem u hv
      · rw [hwritten, hu] at hnames
        rw [hnames u List.mem_cons_self] at hpath
        cases hpath

/-- A character that is written as it is, or a chunk in which no match begins. -/
def Chunk.Still (len : CodeUnits → ℕ) (c : Chunk) : Prop :=
  (∃ u, c = .char u ∧ c.written = [u]) ∨ Quiet len c.written

/-- **A replacement works chunk by chunk.** -/
theorem replaceAll_written (p : Pattern) (f : CodeUnits → List Chunk) {cs : List Chunk}
    (hstill : ∀ c ∈ cs, c.Still p.len) :
    replaceAll p.len (fun m => written (f m)) (written cs) = written (pass p.len f 0 cs) := by
  unfold replaceAll
  induction hlength : cs.length using Nat.strong_induction_on generalizing cs with
  | _ length ih =>
    cases cs with
    | nil => rfl
    | cons c cs =>
      have hwritten : written (c :: cs) = c.written ++ written cs := rfl
      have hrest : ∀ n, scan p.len (fun m => written (f m)) 0 (written (cs.drop n)) =
          written (pass p.len f 0 (cs.drop n)) := by
        intro n
        refine ih (cs.drop n).length ?_ (fun c hc => ?_) rfl
        · rw [← hlength, List.length_drop, List.length_cons]
          omega
        · exact hstill c (List.mem_cons_of_mem _ (List.mem_of_mem_drop hc))
      have hle := p.len_le (written (c :: cs))
      have hnames := p.names (written (c :: cs))
      rw [pass]
      rcases hstill c List.mem_cons_self with ⟨u, rfl, hu⟩ | hquiet
      · rw [hwritten, hu] at hle hnames ⊢
        rw [List.singleton_append, scan]
        rw [List.singleton_append] at hle hnames
        cases hlen : p.len (u :: written cs) with
        | zero =>
          have hkept : written (Chunk.char u :: pass p.len f 0 cs) = u :: written (pass p.len f 0 cs) := by
            show (Chunk.char u).written ++ _ = _
            rw [hu]
            rfl
          exact (congrArg (List.cons u) (hrest 0)).trans hkept.symm
        | succ n =>
          -- the match goes over characters that are chunks of their own
          rw [hlen] at hle hnames
          have hdrop : (written cs).drop n = written (cs.drop n) :=
            drop_written (Nat.le_of_succ_le_succ hle) fun v hv =>
              hnames v (List.mem_cons_of_mem u hv)
          show _ ++ scan p.len (fun m => written (f m)) n (written cs) =
            written (_ ++ pass p.len f n cs)
          rw [written_append, scan_skip, pass_skip, hdrop, hrest n]
      · have hnone : p.len (written (c :: cs)) = 0 := by
          obtain ⟨u, s, hc⟩ : ∃ u s, c.written = u :: s := by
            rcases c.written_cases with ⟨u, -, hu⟩ | ⟨u, s, hu, -⟩
            · exact ⟨u, [], hu⟩
            · exact ⟨u, s, hu⟩
          rw [hwritten, hc]
          rw [hc] at hquiet
          exact hquiet.1 (written cs)
        rw [hnone, hwritten, scan_quiet _ hquiet]
        exact congrArg (c.written ++ ·) (hrest 0)

theorem mem_pass {len : CodeUnits → ℕ} {f : CodeUnits → List Chunk} {n : ℕ} {cs : List Chunk}
    {c : Chunk} (h : c ∈ pass len f n cs) : c ∈ cs ∨ ∃ s, len s ≠ 0 ∧ c ∈ f (s.take (len s)) := by
  induction cs generalizing n with
  | nil => cases n <;> cases h
  | cons c' cs ih =>
    have hrest : ∀ n, c ∈ pass len f n cs →
        c ∈ c' :: cs ∨ ∃ s, len s ≠ 0 ∧ c ∈ f (s.take (len s)) :=
      fun n hc => (ih hc).imp_left (List.mem_cons_of_mem c')
    cases n with
    | succ n => exact hrest n h
    | zero =>
      rw [pass] at h
      cases hlen : len (written (c' :: cs)) with
      | zero =>
        rw [hlen] at h
        rcases List.mem_cons.mp h with rfl | h
        · exact .inl List.mem_cons_self
        · exact hrest 0 h
      | succ n =>
        rw [hlen] at h
        rcases List.mem_append.mp h with h | h
        · exact .inr ⟨written (c' :: cs), by rw [hlen]; exact nofun, by rw [hlen]; exact h⟩
        · exact hrest n h

/-! ## The three regular expressions -/

/-- So many characters at the front satisfy `P`. -/
def Spelled (P : UInt16 → Bool) (n : ℕ) (s : CodeUnits) : Prop :=
  n ≤ s.length ∧ ∀ u ∈ s.take n, P u = true

theorem Spelled.add {P : UInt16 → Bool} {m n : ℕ} {s : CodeUnits} (hm : Spelled P m s)
    (hn : Spelled P n (s.drop m)) : Spelled P (m + n) s := by
  have hle := hn.1
  rw [List.length_drop] at hle
  have hm1 := hm.1
  refine ⟨by omega, ?_⟩
  rw [List.take_add]
  exact List.forall_mem_append.mpr ⟨hm.2, hn.2⟩

theorem Spelled.mono {P Q : UInt16 → Bool} {n : ℕ} {s : CodeUnits} (h : Spelled P n s)
    (hPQ : ∀ u, P u = true → Q u = true) : Spelled Q n s := ⟨h.1, fun u hu => hPQ u (h.2 u hu)⟩

theorem spelled_takeWhile {P : UInt16 → Bool} {n : ℕ} {s : CodeUnits}
    (hn : n ≤ (s.takeWhile P).length) : Spelled P n s := by
  have hprefix : s.takeWhile P <+: s := List.takeWhile_prefix P
  refine ⟨hn.trans hprefix.length_le, fun u hu => ?_⟩
  obtain ⟨t, ht⟩ := hprefix
  rw [← ht, List.take_append_of_le_length hn] at hu
  exact List.all_eq_true.mp List.all_takeWhile u (List.mem_of_mem_take hu)

/-- What is found without regard to case is the literal, in lower case. -/
theorem asciiLower_take {t s : CodeUnits} (h : t.isPrefixOf (asciiLower s) = true) :
    asciiLower (s.take t.length) = t := by
  obtain ⟨r, hr⟩ := List.isPrefixOf_iff_prefix.mp h
  rw [asciiLower, List.map_take]
  exact (congrArg (List.take t.length) hr.symm).trans (List.take_left' rfl)

/-- A literal that is found without regard to case. -/
theorem spelled_literal {P : UInt16 → Bool} (hP : ∀ u, P (lowerUnit u) = true → P u = true)
    {t s : CodeUnits} (ht : ∀ u ∈ t, P u = true) (h : t.isPrefixOf (asciiLower s) = true) :
    Spelled P t.length s := by
  obtain ⟨r, hr⟩ := List.isPrefixOf_iff_prefix.mp h
  have hlength := congrArg List.length hr
  rw [asciiLower, List.length_map, List.length_append] at hlength
  refine ⟨by omega, fun u hu => hP u (ht _ ?_)⟩
  rw [← asciiLower_take h]
  exact List.mem_map_of_mem hu

theorem literalLength_cases (ts : List CodeUnits) (s : CodeUnits) : literalLength ts s = 0 ∨
    ∃ t ∈ ts, literalLength ts s = t.length ∧ t.isPrefixOf s = true := by
  unfold literalLength
  cases hfound : ts.find? fun t => t.isPrefixOf s with
  | none => exact .inl rfl
  | some t =>
    have hprefix := List.find?_some hfound
    exact .inr ⟨t, List.mem_of_find?_eq_some hfound, rfl, hprefix⟩

theorem isUrlUnit_of_lower (u : UInt16) (h : isUrlUnit (lowerUnit u) = true) : isUrlUnit u = true := by
  unfold lowerUnit at h
  split at h
  · rename_i hupper
    simp [isUrlUnit, isFileUnit, isPackUnit, isSlug, hupper]
  · exact h

theorem spelled_ending (s : CodeUnits) :
    Spelled isUrlUnit (literalLength [js ".png", js ".gif"] (asciiLower s)) s := by
  rcases literalLength_cases [js ".png", js ".gif"] (asciiLower s) with hzero | ⟨t, ht, hlen, hprefix⟩
  · rw [hzero]
    exact ⟨Nat.zero_le _, fun _ hu => nomatch hu⟩
  · rw [hlen]
    refine spelled_literal isUrlUnit_of_lower ?_ hprefix
    have hurl : ∀ t ∈ [js ".png", js ".gif"], t.all isUrlUnit = true := by decide
    exact List.all_eq_true.mp (hurl t ht)

theorem spelled_msnLength (s : CodeUnits) : Spelled isUrlUnit (msnLength s) s := by
  have hzero : Spelled isUrlUnit 0 s := ⟨Nat.zero_le _, fun _ hu => nomatch hu⟩
  unfold msnLength
  split
  · rename_i hprefix
    dsimp only
    split
    · exact hzero
    · have hbase : Spelled isUrlUnit 15 s :=
        spelled_literal isUrlUnit_of_lower (List.all_eq_true.mp (by decide)) hprefix
      refine (hbase.add ?_).add ?_
      · refine (spelled_takeWhile (Nat.le_refl _)).mono fun u hu => ?_
        simp [isUrlUnit, isFileUnit, isPackUnit, hu]
      · rw [← List.drop_drop]
        exact spelled_ending _
  · exact hzero

theorem spelled_fileLength (s : CodeUnits) : Spelled isUrlUnit (fileLength s) s := by
  unfold fileLength
  dsimp only
  cases hfound : (List.range (s.takeWhile isFileUnit).length).findSome? fun n =>
      if literalLength [js ".png", js ".gif"] (asciiLower (s.drop (n + 1))) = 0 then none
      else some (n + 1 + literalLength [js ".png", js ".gif"] (asciiLower (s.drop (n + 1)))) with
  | none => exact ⟨Nat.zero_le _, fun _ hu => nomatch hu⟩
  | some m =>
    obtain ⟨n, hn, hm⟩ := List.exists_of_findSome?_eq_some hfound
    split at hm
    · cases hm
    · cases hm
      refine Spelled.add ?_ (spelled_ending _)
      refine (spelled_takeWhile (List.mem_range.mp hn)).mono fun u hu => ?_
      simp [isUrlUnit, hu]

theorem spelled_packLength (s : CodeUnits) : Spelled isUrlUnit (packLength s) s := by
  have hzero : Spelled isUrlUnit 0 s := ⟨Nat.zero_le _, fun _ hu => nomatch hu⟩
  unfold packLength
  split
  · rename_i hprefix
    dsimp only
    split
    · exact hzero
    · rename_i hmatch
      have hbase : Spelled isUrlUnit 13 s :=
        spelled_literal isUrlUnit_of_lower (List.all_eq_true.mp (by decide)) hprefix
      rw [not_or, not_or, not_not] at hmatch
      obtain ⟨-, hslash, -⟩ := hmatch
      rw [List.drop_drop] at hslash ⊢
      obtain ⟨file, hfile⟩ := List.head?_eq_some_iff.mp hslash
      refine ((hbase.add ?_).add ?_).add ?_
      · refine (spelled_takeWhile (Nat.le_refl _)).mono fun u hu => ?_
        simp [isUrlUnit, isFileUnit, hu]
      · rw [hfile]
        refine ⟨by simp, fun u hu => ?_⟩
        obtain rfl := List.mem_singleton.mp hu
        decide
      · rw [hfile, ← List.drop_drop, hfile]
        exact spelled_fileLength file
  · exact hzero

theorem spelled_tokenLength (s : CodeUnits) :
    Spelled (fun u => isSlug u || u = unit ':') (tokenLength s) s := by
  have hzero : ∀ s, Spelled (fun u => isSlug u || u = unit ':') 0 s :=
    fun s => ⟨Nat.zero_le _, fun _ hu => nomatch hu⟩
  unfold tokenLength
  split
  · exact hzero []
  · rename_i u rest
    dsimp only
    split
    · rename_i hmatch
      obtain ⟨rfl, -, hend⟩ := hmatch
      obtain ⟨more, hmore⟩ := List.head?_eq_some_iff.mp hend
      have hcolon : ∀ s, Spelled (fun u => isSlug u || u = unit ':') 1 (unit ':' :: s) := by
        intro s
        refine ⟨by simp, fun u hu => ?_⟩
        obtain rfl := List.mem_singleton.mp hu
        decide
      rw [Nat.add_comm, show 2 + (rest.takeWhile isSlug).length =
        1 + (rest.takeWhile isSlug).length + 1 by omega]
      refine ((hcolon rest).add ?_).add ?_
      · refine (spelled_takeWhile (Nat.le_refl _)).mono fun u hu => ?_
        simp [hu]
      · rw [← List.drop_drop, List.drop_one, List.tail_cons, hmore]
        exact hcolon more
    · exact hzero _

def msnPattern : Pattern where
  len := msnLength
  len_le s := (spelled_msnLength s).1
  names s u hu := by simp [isPathUnit, (spelled_msnLength s).2 u hu]

def packPattern : Pattern where
  len := packLength
  len_le s := (spelled_packLength s).1
  names s u hu := by simp [isPathUnit, (spelled_packLength s).2 u hu]

def tokenPattern : Pattern where
  len := tokenLength
  len_le s := (spelled_tokenLength s).1
  names s u hu := by
    rcases Bool.or_eq_true _ _ |>.mp ((spelled_tokenLength s).2 u hu) with hslug | hcolon
    · simp [isPathUnit, isUrlUnit, isFileUnit, isPackUnit, hslug]
    · simp [isPathUnit, hcolon]

/-! ## Where no match begins -/

theorem lowerUnit_eq {u v : UInt16} (h : lowerUnit u = v) (hv : isLower v = false) : u = v := by
  unfold lowerUnit at h
  split at h
  · rename_i hupper
    subst h
    simp only [isUpper, isLower, Bool.and_eq_true, decide_eq_true_eq, Bool.and_eq_false_iff,
      decide_eq_false_iff_not] at hupper hv
    have hadd : (u + 32).toNat = u.toNat + 32 := by
      rw [UInt16.toNat_add]
      exact Nat.mod_eq_of_lt (by simp; omega)
    omega
  · exact h

theorem mem_of_lower {u : UInt16} {t : CodeUnits} (hu : isLower u = false) (h : u ∈ asciiLower t) :
    u ∈ t := by
  obtain ⟨v, hv, hlower⟩ := List.mem_map.mp h
  exact lowerUnit_eq hlower hu ▸ hv

theorem msnLength_first {u : UInt16} (hu : u ≠ unit '/') (s : CodeUnits) : msnLength (u :: s) = 0 := by
  refine if_neg fun hprefix => hu ?_
  obtain ⟨r, hr⟩ := List.isPrefixOf_iff_prefix.mp hprefix
  rw [js_ofList] at hr
  exact lowerUnit_eq (List.cons.inj hr).1.symm (by decide)

theorem packLength_prefix {s : CodeUnits} (h : packLength s ≠ 0) :
    js "/emoji-packs/" <+: asciiLower s := by
  unfold packLength at h
  split at h
  · rename_i hprefix
    exact List.isPrefixOf_iff_prefix.mp hprefix
  · exact absurd rfl h

theorem packLength_first {u : UInt16} (hu : u ≠ unit '/') (s : CodeUnits) :
    packLength (u :: s) = 0 := by
  by_contra hne
  obtain ⟨r, hr⟩ := packLength_prefix hne
  rw [js_ofList] at hr
  exact hu (lowerUnit_eq (List.cons.inj hr).1.symm (by decide))

theorem tokenLength_first {u : UInt16} (hu : u ≠ unit ':') (s : CodeUnits) :
    tokenLength (u :: s) = 0 := if_neg fun h => hu h.1

/-- Nothing that reads so begins the path of a pack. -/
theorem quiet_pack_of_lower {t : CodeUnits} (h : ∀ v ∈ (asciiLower t).tails, v ≠ [] →
    ¬ js "/emoji-packs/" <+: v ∧ ¬ v <+: js "/emoji-packs/") : Quiet packLength t := by
  induction t with
  | nil => exact trivial
  | cons u t ih =>
    have hcons : (asciiLower (u :: t)).tails = asciiLower (u :: t) :: (asciiLower t).tails := rfl
    rw [hcons] at h
    refine ⟨fun s => ?_, ih fun v hv => h v (List.mem_cons_of_mem _ hv)⟩
    by_contra hne
    have hprefix := packLength_prefix hne
    have hlower : asciiLower (u :: t ++ s) = asciiLower (u :: t) ++ asciiLower s := List.map_append
    rw [hlower] at hprefix
    obtain ⟨hnot, hnot'⟩ := h _ List.mem_cons_self nofun
    rcases List.prefix_or_prefix_of_prefix hprefix (List.prefix_append _ _) with hle | hle
    · exact hnot hle
    · exact hnot' hle

/-- Nor does the file's name, from the slash before it. -/
theorem quiet_pack_file {t : CodeUnits} (hslash : unit '/' ∉ t) (hdot : unit '.' ∈ t) :
    Quiet packLength (unit '/' :: t) := by
  constructor
  · intro s
    by_contra hne
    have hprefix := packLength_prefix hne
    have hlower : asciiLower (unit '/' :: t ++ s) = unit '/' :: (asciiLower t ++ asciiLower s) :=
      congrArg (List.cons _) List.map_append
    have hbase : js "/emoji-packs/" = unit '/' :: js "emoji-packs/" := by decide
    rw [hlower, hbase, List.cons_prefix_cons] at hprefix
    -- the path goes on to a second slash, and the name has a dot before one could come
    rcases List.prefix_or_prefix_of_prefix hprefix.2 (List.prefix_append _ _) with hle | hle
    · have hmem : unit '/' ∈ js "emoji-packs/" := by decide
      exact hslash (mem_of_lower (by decide) (hle.subset hmem))
    · have hmem : unit '.' ∈ asciiLower t := List.mem_map.mpr ⟨_, hdot, by decide⟩
      exact absurd (hle.subset hmem) (by decide)
  · exact quiet_of_forall fun u hu => packLength_first fun heq => hslash (heq ▸ hu)

/-- An emoticon's path is its directory, and a name with a dot. -/
theorem msnLength_path {s : CodeUnits} (h : msnLength s ≠ 0) :
    ∃ dir file, s.take (msnLength s) = dir ++ unit '/' :: file ∧
      asciiLower dir = js "/msn-emoticons" ∧ unit '/' ∉ file ∧ unit '.' ∈ file := by
  unfold msnLength at h ⊢
  split at h
  · rename_i hprefix
    rw [if_pos hprefix]
    dsimp only at h ⊢
    split at h
    · exact absurd rfl h
    · rename_i hmatch
      rw [if_neg hmatch, Nat.add_assoc, List.take_add]
      rw [not_or] at hmatch
      have hbase : asciiLower (s.take 15) = js "/msn-emoticons" ++ [unit '/'] :=
        (asciiLower_take hprefix).trans (by decide)
      obtain ⟨dir, slash, hdir, hlower, hslash⟩ := List.map_eq_append_iff.mp hbase
      obtain ⟨u, rest, rfl, hu, hrest⟩ := List.map_eq_cons_iff.mp hslash
      obtain rfl := List.map_eq_nil_iff.mp hrest
      obtain rfl := lowerUnit_eq hu (by decide)
      have hpath : ∀ file, s.take 15 ++ file = dir ++ unit '/' :: file := by
        intro file
        rw [hdir, List.append_assoc]
        rfl
      refine ⟨dir, _, hpath _, hlower, ?_⟩
      generalize s.drop 15 = name at hmatch ⊢
      rw [List.take_add]
      rcases literalLength_cases [js ".png", js ".gif"]
        (asciiLower (name.drop (name.takeWhile isSlug).length)) with hzero | ⟨t, ht, hlen, hending⟩
      · exact absurd hzero hmatch.2
      · rw [hlen]
        have htake := asciiLower_take hending
        have hdots : ∀ t ∈ [js ".png", js ".gif"], unit '/' ∉ t ∧ unit '.' ∈ t := by decide
        obtain ⟨hno, hdot⟩ := hdots t ht
        constructor
        · intro hmem
          rcases List.mem_append.mp hmem with hslug | hext
          · have hprefix : name.takeWhile isSlug <+: name := List.takeWhile_prefix isSlug
            rw [← List.prefix_iff_eq_take.mp hprefix] at hslug
            exact absurd (List.all_eq_true.mp List.all_takeWhile _ hslug) (by decide)
          · exact hno (htake ▸ List.mem_map.mpr ⟨_, hext, by decide⟩)
        · rw [← htake] at hdot
          exact List.mem_append_right _ (mem_of_lower (by decide) hdot)
  · exact absurd rfl h

theorem quiet_pack_msn {s : CodeUnits} (h : msnLength s ≠ 0) :
    Quiet packLength (s.take (msnLength s)) := by
  obtain ⟨dir, file, hpath, hdir, hslash, hdot⟩ := msnLength_path h
  rw [hpath]
  refine quiet_append (quiet_pack_of_lower ?_) (quiet_pack_file hslash hdot)
  rw [hdir]
  decide

theorem quiet_token_of_spelled {n : ℕ} {s : CodeUnits} (h : Spelled isUrlUnit n s) :
    Quiet tokenLength (s.take n) := by
  refine quiet_of_forall fun u hu => tokenLength_first ?_
  rintro rfl
  exact absurd (h.2 _ hu) (by decide)

/-- In `t` every name after a colon ends, and not at a colon. -/
def namesEnd : CodeUnits → Bool
  | [] => true
  | u :: t => (u ≠ unit ':' || (t.dropWhile isSlug).head?.any (· ≠ unit ':')) && namesEnd t

theorem quiet_token_of_namesEnd {t : CodeUnits} (h : namesEnd t = true) : Quiet tokenLength t := by
  induction t with
  | nil => exact trivial
  | cons u t ih =>
    rw [namesEnd, Bool.and_eq_true] at h
    refine ⟨fun s => ?_, ih h.2⟩
    by_cases hu : u = unit ':'
    · have hnext := h.1
      rw [hu, decide_eq_false (fun hne => hne rfl), Bool.false_or, Option.any_eq_true] at hnext
      obtain ⟨v, hv, hne⟩ := hnext
      obtain ⟨more, hmore⟩ := List.head?_eq_some_iff.mp hv
      have hnotSlug : isSlug v = false := by
        have hhead := List.head?_dropWhile_not isSlug t
        rw [hv] at hhead
        simpa using hhead
      have hall : ∀ w ∈ t.takeWhile isSlug, isSlug w = true :=
        fun w hw => List.all_eq_true.mp List.all_takeWhile w hw
      have hsplit : t ++ s = t.takeWhile isSlug ++ v :: (more ++ s) := by
        calc t ++ s = t.takeWhile isSlug ++ t.dropWhile isSlug ++ s := by
              rw [List.takeWhile_append_dropWhile]
          _ = t.takeWhile isSlug ++ v :: (more ++ s) := by rw [hmore, List.append_assoc]; rfl
      have hslug : (t ++ s).takeWhile isSlug = t.takeWhile isSlug := by
        rw [hsplit, List.takeWhile_append_of_pos hall, List.takeWhile_cons_of_neg (by simp [hnotSlug]),
          List.append_nil]
      refine if_neg fun hmatch => ?_
      have hend : ((t ++ s).drop ((t ++ s).takeWhile isSlug).length).head? = some (unit ':') :=
        hmatch.2.2
      rw [hslug, hsplit, List.drop_left' rfl] at hend
      have heq : v = unit ':' := Option.some.inj hend
      simp [heq] at hne
    · exact tokenLength_first hu _

/-! ## The text of a message -/

/-- The text after escaping: line ends, and characters. -/
def escapedChunks (rawText : CodeUnits) : List Chunk :=
  rawText.map fun u => if u = unit '\n' then .lineBreak else .char u

def msnImage (url : CodeUnits) : List Chunk := [.image url (js "msn emoji") (js "20")]

def packImage (url : CodeUnits) : List Chunk := [.image url (js "winkd emoji") (js "22")]

def tokenChunks (token : CodeUnits) : List Chunk :=
  match emojiTokenToAsset token with
  | none => token.map .char
  | some src =>
    if msnLength src ≠ 0 ∧ msnLength src = src.length then msnImage src else packImage src

def textChunks (rawText : CodeUnits) : List Chunk :=
  pass tokenLength tokenChunks 0
    (pass packLength packImage 0 (pass msnLength msnImage 0 (escapedChunks rawText)))

/-- The chunks that the replacements leave. -/
inductive Chunk.Made : Chunk → Prop
  | char (u : UInt16) : Made (.char u)
  | lineBreak : Made .lineBreak
  | msn {s : CodeUnits} (h : msnLength s ≠ 0) :
      Made (.image (s.take (msnLength s)) (js "msn emoji") (js "20"))
  | pack {s : CodeUnits} (h : packLength s ≠ 0) :
      Made (.image (s.take (packLength s)) (js "winkd emoji") (js "22"))

theorem written_escapedChunks (rawText : CodeUnits) :
    replaceUnit '\n' (js "<br>") (escapeHtml rawText) = written (escapedChunks rawText) := by
  rw [escapeHtml_eq]
  induction rawText with
  | nil => rfl
  | cons u s ih =>
    rw [Place.escape_cons, replaceUnit_append, ih]
    refine congrArg (· ++ _) ?_
    show _ = Chunk.written (if u = unit '\n' then .lineBreak else .char u)
    split
    · rename_i hu
      subst hu
      decide
    · rename_i hu
      rw [Chunk.written_char]
      cases hentity : Place.text.entity u with
      | none => simp [replaceUnit, hu]
      | some t =>
        have hall : ∀ t ∈ Place.references, replaceUnit '\n' (js "<br>") t = t := by decide
        exact hall t (Place.entity_mem hentity)

/-- A character is still where no reference has the one with which matches begin. -/
theorem Chunk.still_char {len : CodeUnits → ℕ} {first : UInt16}
    (hfirst : ∀ u, u ≠ first → ∀ s, len (u :: s) = 0)
    (hreferences : ∀ t ∈ Place.references, first ∉ t) (u : UInt16) : (Chunk.char u).Still len := by
  have hwritten := Chunk.written_char u
  cases hentity : Place.text.entity u with
  | none =>
    rw [hentity] at hwritten
    exact .inl ⟨u, rfl, hwritten⟩
  | some t =>
    rw [hentity, Option.getD_some] at hwritten
    refine .inr (hwritten ▸ quiet_of_forall fun v hv => hfirst v ?_)
    rintro rfl
    exact hreferences t (Place.entity_mem hentity) hv

/-- Before and after the path of an image. -/
theorem written_image (src alt size : CodeUnits) : (Chunk.image src alt size).written =
    js "<img src=\"" ++ (src ++ (js "\" alt=\"" ++ alt ++ js "\" style=\"width:" ++ size ++
      js "px;height:" ++ size ++ js "px;vertical-align:middle;\">")) := by
  simp [Chunk.written, Chunk.pieces, emoticon, html, Piece.written, Piece.raw]

theorem quiet_image {len : CodeUnits → ℕ} {src alt size : CodeUnits} (hsrc : Quiet len src)
    (hbefore : Quiet len (js "<img src=\""))
    (hafter : Quiet len (js "\" alt=\"" ++ alt ++ js "\" style=\"width:" ++ size ++
      js "px;height:" ++ size ++ js "px;vertical-align:middle;\">")) :
    Quiet len (Chunk.image src alt size).written := by
  rw [written_image]
  exact quiet_append hbefore (quiet_append hsrc hafter)

theorem still_msn {c : Chunk} {rawText : CodeUnits} (hc : c ∈ escapedChunks rawText) :
    c.Still msnLength := by
  obtain ⟨u, -, rfl⟩ := List.mem_map.mp hc
  split
  · refine .inr (quiet_of_forall fun v hv => msnLength_first ?_)
    rintro rfl
    exact absurd hv (by decide)
  · exact Chunk.still_char (fun u hu => msnLength_first hu) (by decide) u

theorem mem_escapedChunks {c : Chunk} {rawText : CodeUnits} (hc : c ∈ escapedChunks rawText) :
    c = .lineBreak ∨ ∃ u, c = .char u := by
  obtain ⟨u, -, rfl⟩ := List.mem_map.mp hc
  split
  · exact .inl rfl
  · exact .inr ⟨u, rfl⟩

/-- After the first replacement. -/
theorem mem_msn {c : Chunk} {rawText : CodeUnits}
    (hc : c ∈ pass msnLength msnImage 0 (escapedChunks rawText)) :
    c.Made ∧ c.Still packLength := by
  rcases mem_pass hc with hc | ⟨s, hs, hc⟩
  · rcases mem_escapedChunks hc with rfl | ⟨u, rfl⟩
    · refine ⟨.lineBreak, .inr (quiet_of_forall fun v hv => packLength_first ?_)⟩
      rintro rfl
      exact absurd hv (by decide)
    · exact ⟨.char u, Chunk.still_char (fun u hu => packLength_first hu) (by decide) u⟩
  · obtain rfl := List.mem_singleton.mp hc
    have hnone : ∀ t : CodeUnits, unit '/' ∉ t → Quiet packLength t := by
      intro t ht
      refine quiet_of_forall fun v hv => packLength_first ?_
      rintro rfl
      exact ht hv
    refine ⟨.msn hs, .inr (quiet_image (quiet_pack_msn hs) (hnone _ ?_) (hnone _ ?_))⟩
    · rw [js_ofList]
      decide
    · repeat rw [js_ofList]
      decide

/-- After the second. -/
theorem made_of_mem {c : Chunk} {rawText : CodeUnits}
    (hc : c ∈ pass packLength packImage 0 (pass msnLength msnImage 0 (escapedChunks rawText))) :
    c.Made := by
  rcases mem_pass hc with hc | ⟨s, hs, hc⟩
  · exact (mem_msn hc).1
  · obtain rfl := List.mem_singleton.mp hc
    exact .pack hs

theorem Chunk.Made.still_token {c : Chunk} (hc : c.Made) : c.Still tokenLength := by
  have hnone : ∀ t : CodeUnits, unit ':' ∉ t → Quiet tokenLength t := by
    intro t ht
    refine quiet_of_forall fun v hv => tokenLength_first ?_
    rintro rfl
    exact ht hv
  cases hc with
  | char u => exact Chunk.still_char (fun u hu => tokenLength_first hu) (by decide) u
  | lineBreak => exact .inr (hnone _ (by decide))
  | @msn s h =>
    refine .inr (quiet_image (quiet_token_of_spelled (spelled_msnLength s)) (hnone _ ?_) ?_)
    · rw [js_ofList]
      decide
    · apply quiet_token_of_namesEnd
      repeat rw [js_ofList]
      decide
  | @pack s h =>
    refine .inr (quiet_image (quiet_token_of_spelled (spelled_packLength s)) (hnone _ ?_) ?_)
    · rw [js_ofList]
      decide
    · apply quiet_token_of_namesEnd
      repeat rw [js_ofList]
      decide

theorem written_msnImage (url : CodeUnits) :
    written (msnImage url) = html (emoticon url (js "msn emoji") (js "20")) := List.append_nil _

theorem written_packImage (url : CodeUnits) :
    written (packImage url) = html (emoticon url (js "winkd emoji") (js "22")) := List.append_nil _

/-- A name of an emoticon that is none is written as it is. -/
theorem written_tokenChunks (s : CodeUnits) :
    ((tokenImage (s.take (tokenLength s))).map html).getD (s.take (tokenLength s)) =
      written (tokenChunks (s.take (tokenLength s))) := by
  have hnames := tokenPattern.names s
  unfold tokenImage tokenChunks
  cases emojiTokenToAsset (s.take (tokenLength s)) with
  | none =>
    have hplain : ∀ t : CodeUnits, (∀ u ∈ t, isPathUnit u = true) → t = written (t.map .char) := by
      intro t ht
      induction t with
      | nil => rfl
      | cons u t ih =>
        have hu : (Chunk.char u).written = [u] := by
          rw [Chunk.written_char, isPathUnit_plain (ht u List.mem_cons_self)]
          rfl
        show _ = (Chunk.char u).written ++ written (t.map .char)
        rw [hu, ← ih fun v hv => ht v (List.mem_cons_of_mem u hv)]
        rfl
    exact hplain _ hnames
  | some src =>
    dsimp only [Option.map_some, Option.getD_some]
    split
    · exact (written_msnImage src).symm
    · exact (written_packImage src).symm

/-- **What is written for a text is its chunks.** -/
theorem messageText_eq (rawText : CodeUnits) :
    messageText rawText = html ((textChunks rawText).flatMap Chunk.pieces) := by
  have hhtml : ∀ cs : List Chunk, html (cs.flatMap Chunk.pieces) = written cs := by
    intro cs
    rw [html, List.flatMap_assoc]
    rfl
  have hmsn : replaceAll msnLength (fun url => written (msnImage url))
      (written (escapedChunks rawText)) =
        written (pass msnLength msnImage 0 (escapedChunks rawText)) :=
    replaceAll_written msnPattern msnImage fun c hc => still_msn hc
  have hpack : replaceAll packLength (fun url => written (packImage url))
      (written (pass msnLength msnImage 0 (escapedChunks rawText))) =
        written (pass packLength packImage 0 (pass msnLength msnImage 0 (escapedChunks rawText))) :=
    replaceAll_written packPattern packImage fun c hc => (mem_msn hc).2
  unfold messageText
  simp only [← written_msnImage, ← written_packImage]
  rw [hhtml, written_escapedChunks, hmsn, hpack]
  refine (scan_congr (g := fun token => written (tokenChunks token))
    (fun s _ => written_tokenChunks s) 0 _).trans ?_
  exact replaceAll_written tokenPattern tokenChunks fun c hc => (made_of_mem hc).still_token

/-! ## What stands in the text -/

theorem plain_of_path {p : Place} {s : CodeUnits} (h : ∀ u ∈ s, isPathUnit u = true) : p.Plain s :=
  fun u hu => isPathUnit_plain (h u hu)

theorem isPathUnit_lower {u : UInt16} (h : isPathUnit u = true) : isPathUnit (lowerUnit u) = true := by
  unfold lowerUnit
  split
  · rename_i hupper
    have hslug : isSlug (u + 32) = true := by
      simp only [isUpper, Bool.and_eq_true, decide_eq_true_eq] at hupper
      have hadd : (u + 32).toNat = u.toNat + 32 := by
        rw [UInt16.toNat_add]
        exact Nat.mod_eq_of_lt (by simp; omega)
      simp only [isSlug, isLower, hadd, Bool.or_eq_true, Bool.and_eq_true, decide_eq_true_eq]
      omega
    simp [isPathUnit, isUrlUnit, isFileUnit, isPackUnit, hslug]
  · exact h

/-- **The path of an emoticon is plain.** -/
theorem emojiTokenToAsset_plain {token src : CodeUnits} (h : emojiTokenToAsset token = some src) :
    Place.value.Plain src := by
  unfold emojiTokenToAsset at h
  dsimp only at h
  split at h
  · cases h
  · rename_i htoken
    rw [Bool.not_eq_true', Bool.not_eq_false, isEmojiToken, Bool.and_eq_true, decide_eq_true_eq,
      decide_eq_true_eq] at htoken
    have hnames := tokenPattern.names (trim token)
    rw [show tokenPattern.len (trim token) = (trim token).length from htoken.2, List.take_length]
      at hnames
    have hslug : ∀ n, Place.value.Plain ((asciiLower (trim token)).drop n).dropLast := by
      intro n
      refine plain_of_path fun u hu => ?_
      obtain ⟨v, hv, rfl⟩ := List.mem_map.mp (List.mem_of_mem_drop (List.dropLast_subset _ hu))
      exact isPathUnit_lower (hnames v hv)
    have hbase : Place.value.Plain msnEmoticonBaseUrl ∧ Place.value.Plain spikeyBaseUrl ∧
        Place.value.Plain (js "/") ∧ Place.value.Plain (js ".png") := by decide
    split at h
    · split at h
      · cases h
      · cases h
        simp [Place.plain_append, hslug, hbase]
    · split at h
      · split at h
        · rename_i hit hfound
          cases h
          have hall : ∀ x ∈ spikeyPack, Place.value.Plain x.1 := by decide
          exact hall hit (List.mem_of_find?_eq_some hfound)
        · split at h
          · cases h
          · cases h
            simp [Place.plain_append, hslug, hbase]
      · cases h

theorem allEscaped_emoticon {src alt size : CodeUnits} (hsrc : Place.value.Plain src)
    (hrest : Place.value.Plain alt ∧ Place.value.Plain size) :
    AllEscaped (emoticon src alt size) := by
  simp [emoticon, hsrc, hrest]

theorem allEscaped_msnImage {src : CodeUnits} (hsrc : Place.value.Plain src) :
    ∀ c ∈ msnImage src, AllEscaped c.pieces := by
  intro c hc
  obtain rfl := List.mem_singleton.mp hc
  exact allEscaped_emoticon hsrc (by decide)

theorem allEscaped_packImage {src : CodeUnits} (hsrc : Place.value.Plain src) :
    ∀ c ∈ packImage src, AllEscaped c.pieces := by
  intro c hc
  obtain rfl := List.mem_singleton.mp hc
  exact allEscaped_emoticon hsrc (by decide)

theorem allEscaped_char (u : UInt16) : AllEscaped (Chunk.char u).pieces := by
  simp [Chunk.pieces]

theorem plain_of_spelled {n : ℕ} {s : CodeUnits} (h : Spelled isUrlUnit n s) :
    Place.value.Plain (s.take n) :=
  plain_of_path fun u hu => by simp [isPathUnit, h.2 u hu]

/-- **Every text is escaped**, whatever it is. -/
theorem allEscaped_textChunks (rawText : CodeUnits) :
    AllEscaped ((textChunks rawText).flatMap Chunk.pieces) := by
  have hall : ∀ c ∈ textChunks rawText, AllEscaped c.pieces := by
    intro c hc
    rcases mem_pass hc with hc | ⟨s, hs, hc⟩
    · cases made_of_mem hc with
      | char u => exact allEscaped_char u
      | lineBreak => simp [Chunk.pieces]
      | msn h => exact allEscaped_msnImage (plain_of_spelled (spelled_msnLength _)) _ List.mem_cons_self
      | pack h =>
        exact allEscaped_packImage (plain_of_spelled (spelled_packLength _)) _ List.mem_cons_self
    · unfold tokenChunks at hc
      split at hc
      · obtain ⟨u, -, rfl⟩ := List.mem_map.mp hc
        exact allEscaped_char u
      · rename_i src hsrc
        have hplain := emojiTokenToAsset_plain hsrc
        split at hc
        · exact allEscaped_msnImage hplain c hc
        · exact allEscaped_packImage hplain c hc
  intro piece hpiece
  obtain ⟨c, hc, hpiece⟩ := List.mem_flatMap.mp hpiece
  exact hall c hc piece hpiece

theorem block_textChunks (rawText : CodeUnits) :
    Block ((textChunks rawText).flatMap Chunk.pieces) := by
  have hchunk : ∀ c : Chunk, Block c.pieces := by
    intro c
    cases c with
    | char u => exact block_text _ _
    | lineBreak => decide
    | image src alt size =>
      rw [← block_hollow]
      simp only [Chunk.pieces, emoticon, List.map_cons, List.map_nil, Piece.hollow, Piece.raw]
      repeat rw [js_ofList]
      decide
  induction textChunks rawText with
  | nil => exact block_nil
  | cons c cs ih => exact (hchunk c).append ih

end Winkd.Web
