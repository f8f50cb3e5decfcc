import Winkd.JsText

/-!
# Markup from templates

A page writes HTML by putting strings into a template.  A string stands in a text or in a
quoted attribute value, and stays there as long as it does not have the character that ends
its place: `<` in a text, a quotation mark in a value.  Then the tokenizer reads the tags of
the template and no others (`read_html`), whatever the strings are.

The tokenizer is that of the HTML standard as far as tags and the names of their attributes
go: values and character references are skipped, and a document type is read as a comment.
In the elements whose text is not markup it reads nothing but their end tag.
-/

namespace Markup
open UnicodeText

/-! ## The tokenizer -/

/-- The states of the tokenizer. -/
inductive Mode where
  | data
  | tagOpen
  | endTagOpen
  | tagName
  | beforeName
  | name
  | afterName
  | beforeValue
  | doubleQuoted
  | singleQuoted
  | unquoted
  | afterValue
  | selfClosing
  | bogusComment
  | declaration
  | declarationDash
  | commentStart
  | commentStartDash
  | comment
  | commentDash
  | commentEnd
  | commentEndBang
  | rawText
  | rawOpen
  | rawEnd
  deriving DecidableEq

structure Tag where
  closing : Bool
  name : CodeUnits
  /-- The names of the attributes. -/
  names : List CodeUnits
  deriving DecidableEq

/-- The tokenizer, between two characters. -/
structure Reader where
  mode : Mode
  /-- The tag that is being read, or was last; the names are in reverse. -/
  tag : Tag
  /-- What may be the name of the end tag of a raw text. -/
  ending : CodeUnits
  /-- The tags read, the last first. -/
  tags : List Tag
  deriving DecidableEq

def start : Reader := ⟨.data, ⟨false, [], []⟩, [], []⟩

def isLetter (u : UInt16) : Bool := isLower u || isUpper u

/-- Tab, line feed, form feed, carriage return or space. -/
def isBlank (u : UInt16) : Bool := u.toNat ∈ [9, 10, 12, 13, 32]

/-- The elements whose text is not markup. -/
def rawNames : List CodeUnits :=
  [js "textarea", js "title", js "script", js "style", js "xmp", js "iframe", js "noembed",
    js "noframes", js "plaintext"]

namespace Reader

def goto (r : Reader) (m : Mode) : Reader := { r with mode := m }

/-- Back to text: nothing is kept but the tags. -/
def toData (r : Reader) : Reader := { start with tags := r.tags }

/-- A tag ends. -/
def emit (r : Reader) : Reader :=
  let tags := { r.tag with names := r.tag.names.reverse } :: r.tags
  if !r.tag.closing && r.tag.name ∈ rawNames then { r with mode := .rawText, tags := tags }
  else { start with tags := tags }

/-- A tag begins. -/
def openTag (r : Reader) (closing : Bool) (u : UInt16) : Reader :=
  { r with mode := .tagName, tag := ⟨closing, [lowerUnit u], []⟩ }

def inTagName (r : Reader) (u : UInt16) : Reader :=
  { r with tag := { r.tag with name := r.tag.name ++ [lowerUnit u] } }

/-- The name of an attribute begins. -/
def openName (r : Reader) (u : UInt16) : Reader :=
  { r with mode := .name, tag := { r.tag with names := [lowerUnit u] :: r.tag.names } }

def inName (r : Reader) (u : UInt16) : Reader :=
  { r with tag := { r.tag with
      names := r.tag.names.modifyHead fun name => name ++ [lowerUnit u] } }

/-- The tag begins with this character, or it is none. -/
def atTagOpen (r : Reader) (u : UInt16) : Reader :=
  if isLetter u then r.openTag false u
  else if u = unit '/' then r.goto .endTagOpen
  else if u = unit '!' then r.goto .declaration
  else if u = unit '?' then r.goto .bogusComment
  else if u = unit '<' then r
  else r.toData

/-- Between the attributes. -/
def betweenNames (r : Reader) (u : UInt16) : Reader :=
  if isBlank u then r.goto .beforeName
  else if u = unit '/' then r.goto .selfClosing
  else if u = unit '>' then r.emit
  else r.openName u

/-- A comment that is read to its end, except where `m` says. -/
def inComment (r : Reader) (m : Mode) (u : UInt16) : Reader :=
  if u = unit '-' then r.goto m else r.goto .comment

/-- In a comment that may end here. -/
def endComment (r : Reader) (m : Mode) (u : UInt16) : Reader :=
  if u = unit '>' then r.toData else r.inComment m u

/-- In what may be the end tag of a raw text. -/
def atRawEnd (r : Reader) (u : UInt16) : Reader :=
  if isLetter u then { r with ending := r.ending ++ [lowerUnit u] }
  else if r.ending = r.tag.name && (isBlank u || u = unit '/' || u = unit '>') then
    betweenNames { r with tag := ⟨true, r.ending, []⟩ } u
  else if u = unit '<' then r.goto .rawOpen
  else r.goto .rawText

/-- One character is read. -/
def step (r : Reader) (u : UInt16) : Reader :=
  match r.mode with
  | .data => if u = unit '<' then r.goto .tagOpen else r
  | .tagOpen => r.atTagOpen u
  | .endTagOpen =>
      if isLetter u then r.openTag true u
      else if u = unit '>' then r.toData
      else r.goto .bogusComment
  | .tagName =>
      if isBlank u || u = unit '/' || u = unit '>' then r.betweenNames u else r.inTagName u
  | .beforeName => r.betweenNames u
  | .name =>
      if u = unit '=' then r.goto .beforeValue
      else if isBlank u then r.goto .afterName
      else if u = unit '/' || u = unit '>' then r.betweenNames u
      else r.inName u
  | .afterName =>
      if u = unit '=' then r.goto .beforeValue else if isBlank u then r else r.betweenNames u
  | .beforeValue =>
      if isBlank u then r
      else if u = unit '"' then r.goto .doubleQuoted
      else if u = unit '\'' then r.goto .singleQuoted
      else if u = unit '>' then r.emit
      else r.goto .unquoted
  | .doubleQuoted => if u = unit '"' then r.goto .afterValue else r
  | .singleQuoted => if u = unit '\'' then r.goto .afterValue else r
  | .unquoted =>
      if isBlank u then r.goto .beforeName else if u = unit '>' then r.emit else r
  | .afterValue => r.betweenNames u
  | .selfClosing => r.betweenNames u
  | .bogusComment => if u = unit '>' then r.toData else r
  | .declaration =>
      if u = unit '-' then r.goto .declarationDash
      else if u = unit '>' then r.toData
      else r.goto .bogusComment
  | .declarationDash =>
      if u = unit '-' then r.goto .commentStart
      else if u = unit '>' then r.toData
      else r.goto .bogusComment
  | .commentStart => r.endComment .commentStartDash u
  | .commentStartDash => r.endComment .commentEnd u
  | .comment => r.inComment .commentDash u
  | .commentDash => r.inComment .commentEnd u
  | .commentEnd => if u = unit '!' then r.goto .commentEndBang else r.endComment .commentEnd u
  | .commentEndBang => r.endComment .commentDash u
  | .rawText => if u = unit '<' then r.goto .rawOpen else r
  | .rawOpen =>
      if u = unit '/' then { r with mode := .rawEnd, ending := [] }
      else if u = unit '<' then r
      else r.goto .rawText
  | .rawEnd => r.atRawEnd u

def read (r : Reader) (s : CodeUnits) : Reader := s.foldl step r

theorem read_append (r : Reader) (s t : CodeUnits) : r.read (s ++ t) = (r.read s).read t :=
  List.foldl_append

/-- What does nothing character by character does nothing. -/
theorem read_same {r : Reader} {s : CodeUnits} (h : ∀ u ∈ s, r.step u = r) : r.read s = r := by
  induction s with
  | nil => rfl
  | cons u s ih =>
    have hu : r.step u = r := h u List.mem_cons_self
    have hs : r.read s = r := ih fun v hv => h v (List.mem_cons_of_mem _ hv)
    calc r.read (u :: s) = (r.step u).read s := rfl
      _ = r := by rw [hu, hs]

/-- In a text it keeps nothing but the tags. -/
def Settled (r : Reader) : Prop := r.mode = .data → r = r.toData

/-- With tags that were read before. -/
def onto (r : Reader) (ts : List Tag) : Reader := { r with tags := r.tags ++ ts }

theorem settled_toData (r : Reader) : r.toData.Settled := fun _ => rfl

theorem settled_of_ne {r : Reader} (h : r.mode ≠ .data) : r.Settled := fun hmode => absurd hmode h

theorem settled_emit (r : Reader) : r.emit.Settled := by
  unfold emit
  split
  · exact settled_of_ne nofun
  · exact fun _ => rfl

theorem settled_betweenNames (r : Reader) (u : UInt16) : (r.betweenNames u).Settled := by
  unfold betweenNames
  split_ifs
  · exact settled_of_ne nofun
  · exact settled_of_ne nofun
  · exact settled_emit r
  · exact settled_of_ne nofun

theorem settled_endComment (r : Reader) {m : Mode} (hm : m ≠ .data) (u : UInt16) :
    (r.endComment m u).Settled := by
  unfold endComment inComment
  split_ifs
  · exact settled_toData r
  · exact settled_of_ne hm
  · exact settled_of_ne nofun

theorem Settled.step {r : Reader} (h : r.Settled) (u : UInt16) : (r.step u).Settled := by
  unfold Reader.step
  cases hmode : r.mode <;> simp only [atTagOpen, atRawEnd, inComment]
  all_goals try split_ifs
  all_goals
    first
    | exact h
    | exact settled_toData _
    | exact settled_emit _
    | exact settled_betweenNames _ _
    | exact settled_endComment _ (by decide) _
    | exact settled_of_ne (by simp [goto, openTag, inTagName, inName, hmode])

theorem emit_onto (r : Reader) (ts : List Tag) : (r.onto ts).emit = r.emit.onto ts := by
  unfold emit onto
  dsimp only
  split_ifs <;> rfl

theorem betweenNames_onto (r : Reader) (ts : List Tag) (u : UInt16) :
    (r.onto ts).betweenNames u = (r.betweenNames u).onto ts := by
  unfold betweenNames
  rw [emit_onto]
  split_ifs <;> rfl

theorem atRawEnd_onto (r : Reader) (ts : List Tag) (u : UInt16) :
    (r.onto ts).atRawEnd u = (r.atRawEnd u).onto ts := by
  have hend : betweenNames { r.onto ts with tag := ⟨true, (r.onto ts).ending, []⟩ } u =
      (betweenNames { r with tag := ⟨true, r.ending, []⟩ } u).onto ts :=
    betweenNames_onto { r with tag := ⟨true, r.ending, []⟩ } ts u
  have hending : (r.onto ts).ending = r.ending := rfl
  have htag : (r.onto ts).tag = r.tag := rfl
  unfold atRawEnd
  rw [hend, hending, htag]
  split_ifs <;> rfl

theorem step_onto (r : Reader) (ts : List Tag) (u : UInt16) :
    (r.onto ts).step u = (r.step u).onto ts := by
  unfold step
  rw [betweenNames_onto, emit_onto, atRawEnd_onto, show (r.onto ts).mode = r.mode from rfl]
  cases r.mode <;> simp only [atTagOpen, endComment, inComment]
  all_goals first | rfl | (split_ifs <;> rfl)

theorem read_onto (r : Reader) (ts : List Tag) (s : CodeUnits) :
    (r.onto ts).read s = (r.read s).onto ts := by
  induction s generalizing r with
  | nil => rfl
  | cons u s ih =>
    calc (r.onto ts).read (u :: s) = ((r.onto ts).step u).read s := rfl
      _ = ((r.step u).onto ts).read s := by rw [step_onto]
      _ = (r.read (u :: s)).onto ts := ih (r.step u)

theorem Settled.read {r : Reader} (h : r.Settled) (s : CodeUnits) : (r.read s).Settled := by
  induction s generalizing r with
  | nil => exact h
  | cons u s ih => exact ih (h.step u)

/-- Back in the text, it is as at the start, with more tags. -/
theorem read_start {s : CodeUnits} (h : (start.read s).mode = .data) :
    start.read s = start.onto (start.read s).tags := by
  have hsettled : start.Settled := fun _ => rfl
  exact hsettled.read s h

end Reader

/-- The tags of a text, with the names of their attributes. -/
def tags (s : CodeUnits) : List Tag := (start.read s).tags.reverse

example : tags (js "<b>1 < 2</b><img src=\"a>b\" alt=''>") =
    [⟨false, js "b", []⟩, ⟨true, js "b", []⟩, ⟨false, js "img", [js "src", js "alt"]⟩] := by
  decide

/-! ## Templates -/

/-- Where a string stands. -/
inductive Place where
  | text
  | value
  deriving DecidableEq

namespace Place

/-- What the tokenizer does there. -/
def mode : Place → Mode
  | .text => .data
  | .value => .doubleQuoted

/-- The character that ends the place. -/
def ends : Place → UInt16
  | .text => unit '<'
  | .value => unit '"'

/-- The character reference for a character that is not written as itself there. -/
def entity (p : Place) (u : UInt16) : Option CodeUnits :=
  if u = unit '&' then some (js "&amp;")
  else if u = unit '<' then some (js "&lt;")
  else if u = unit '>' then some (js "&gt;")
  else if u = unit '"' ∧ p = .value then some (js "&quot;")
  else none

def escape (p : Place) (s : CodeUnits) : CodeUnits := s.flatMap fun u => (p.entity u).getD [u]

/-- A string that is written as it stands there. -/
def Plain (p : Place) (s : CodeUnits) : Prop := ∀ u ∈ s, p.entity u = none

instance (p : Place) (s : CodeUnits) : Decidable (p.Plain s) :=
  List.decidableBAll (fun u => p.entity u = none) s

/-- The character references. -/
def references : List CodeUnits := [js "&amp;", js "&lt;", js "&gt;", js "&quot;"]

theorem entity_mem {p : Place} {u : UInt16} {t : CodeUnits} (h : p.entity u = some t) :
    t ∈ references := by
  unfold entity at h
  split_ifs at h <;> cases h <;> simp [references]

theorem two_le_length_entity {p : Place} {u : UInt16} {t : CodeUnits} (h : p.entity u = some t) :
    2 ≤ t.length := by
  have hall : ∀ t ∈ references, 2 ≤ t.length := by decide
  exact hall t (entity_mem h)

theorem ends_notMem_entity {p : Place} {u : UInt16} {t : CodeUnits} (h : p.entity u = some t) :
    p.ends ∉ t := by
  have hall : ∀ t ∈ references, Place.text.ends ∉ t ∧ Place.value.ends ∉ t := by decide
  cases p with
  | text => exact (hall t (entity_mem h)).1
  | value => exact (hall t (entity_mem h)).2

theorem head?_entity {p : Place} {u : UInt16} {t : CodeUnits} (h : p.entity u = some t) :
    t.head? = some (unit '&') := by
  have hall : ∀ t ∈ references, t.head? = some (unit '&') := by decide
  exact hall t (entity_mem h)

/-- What ends a place is not written as itself. -/
theorem entity_ends (p : Place) : p.entity p.ends ≠ none := by
  cases p <;> decide

theorem escape_cons (p : Place) (u : UInt16) (s : CodeUnits) :
    p.escape (u :: s) = (p.entity u).getD [u] ++ p.escape s := List.flatMap_cons

theorem length_le_length_escape (p : Place) (s : CodeUnits) : s.length ≤ (p.escape s).length := by
  induction s with
  | nil => exact Nat.le_refl 0
  | cons u s ih =>
    rw [escape_cons, List.length_append, List.length_cons]
    cases hu : p.entity u with
    | none =>
      rw [Option.getD_none, List.length_singleton]
      omega
    | some t =>
      have ht := two_le_length_entity hu
      rw [Option.getD_some]
      omega

/-- **Escaping leaves a string as it stands just if it is plain.** -/
theorem eq_escape_iff (p : Place) (s : CodeUnits) : s = p.escape s ↔ p.Plain s := by
  induction s with
  | nil => exact ⟨fun _ _ hu => (nomatch hu), fun _ => rfl⟩
  | cons u s ih =>
    rw [escape_cons, Plain, List.forall_mem_cons]
    cases hu : p.entity u with
    | none =>
      rw [Option.getD_none, List.singleton_append, List.cons_inj_right]
      exact ih.trans ⟨fun h => ⟨rfl, h⟩, And.right⟩
    | some t =>
      -- a reference takes two places at least, and nothing takes less than its place
      have ht := two_le_length_entity hu
      have hs := p.length_le_length_escape s
      constructor
      · intro h
        have hlength := congrArg List.length h
        rw [Option.getD_some, List.length_append, List.length_cons] at hlength
        omega
      · exact fun h => nomatch h.1

/-- An escaped string does not end its place. -/
theorem ends_notMem_escape (p : Place) (s : CodeUnits) : p.ends ∉ p.escape s := by
  intro h
  obtain ⟨u, -, hu⟩ := List.mem_flatMap.mp h
  cases hentity : p.entity u with
  | none =>
    rw [hentity, Option.getD_none, List.mem_singleton] at hu
    exact p.entity_ends (hu ▸ hentity)
  | some t =>
    rw [hentity, Option.getD_some] at hu
    exact ends_notMem_entity hentity hu

theorem entity_eq_none {p : Place} {u : UInt16} (h : u.toNat ∉ [34, 38, 60, 62]) :
    p.entity u = none := by
  have hne : ∀ v : UInt16, v.toNat ∈ [34, 38, 60, 62] → u ≠ v := fun v hv heq => h (heq ▸ hv)
  have hquote : ¬ (u = unit '"' ∧ p = .value) := fun heq => hne _ (by decide) heq.1
  rw [entity, if_neg (hne _ (by decide)), if_neg (hne _ (by decide)), if_neg (hne _ (by decide)),
    if_neg hquote]

/-- What is plain in a value is plain in a text. -/
theorem plain_text {s : CodeUnits} (h : Place.value.Plain s) : Place.text.Plain s := by
  intro u hu
  have hvalue := h u hu
  unfold entity at hvalue ⊢
  split_ifs at hvalue with hamp hlt hgt hquote
  rw [if_neg hamp, if_neg hlt, if_neg hgt, if_neg (fun h => nomatch h.2)]

theorem plain_nil (p : Place) : p.Plain [] := fun _ hu => nomatch hu

theorem plain_append {p : Place} {s t : CodeUnits} : p.Plain (s ++ t) ↔ p.Plain s ∧ p.Plain t :=
  List.forall_mem_append

theorem plain_decimal (p : Place) (n : ℕ) : p.Plain (decimal n) := by
  intro u hu
  obtain ⟨c, hc, rfl⟩ := List.mem_map.mp hu
  have hdigit := Nat.isDigit_of_mem_toDigits (by omega) (by omega) hc
  rw [Char.isDigit, Bool.and_eq_true] at hdigit
  have hlow : 48 ≤ c.toNat := UInt32.le_iff_toNat_le.mp (of_decide_eq_true hdigit.1)
  have hhigh : c.toNat ≤ 57 := UInt32.le_iff_toNat_le.mp (of_decide_eq_true hdigit.2)
  have hunit : (unit c).toNat = c.toNat := Nat.mod_eq_of_lt (by omega)
  apply entity_eq_none
  rw [hunit]
  simp only [List.mem_cons, List.not_mem_nil, or_false]
  omega

/-- What is plain does not end its place. -/
theorem Plain.ends_notMem {p : Place} {s : CodeUnits} (h : p.Plain s) : p.ends ∉ s :=
  (p.eq_escape_iff s).mpr h ▸ p.ends_notMem_escape s

end Place

/-- A piece of what a template gives: its own text, or a string that it was given, and what is
written for it. -/
inductive Piece where
  | own (t : CodeUnits)
  | given (place : Place) (s written : CodeUnits)

namespace Piece

def written : Piece → CodeUnits
  | .own t => t
  | .given _ _ w => w

/-- The template's own part. -/
def frame : Piece → CodeUnits
  | .own t => t
  | .given _ _ _ => []

/-- What is written for a string is the string, escaped. -/
def Escaped : Piece → Prop
  | .own _ => True
  | .given p s w => w = p.escape s

/-- What is written for a string does not end its place. -/
def Stays : Piece → Prop
  | .own _ => True
  | .given p _ w => p.ends ∉ w

/-- What is written for a string is the string, escaped, in a text, and has no quotation mark in
a value. -/
def Held : Piece → Prop
  | .own _ => True
  | .given .text s w => w = Place.text.escape s
  | .given .value _ w => unit '"' ∉ w

/-- The piece without what it was given. -/
def hollow : Piece → Piece
  | .own t => .own t
  | .given p _ _ => .given p [] []

/-- A string that is written as it stands. -/
def raw (p : Place) (s : CodeUnits) : Piece := .given p s s

instance : ∀ piece : Piece, Decidable piece.Escaped
  | .own _ => isTrue trivial
  | .given p s w => inferInstanceAs (Decidable (w = p.escape s))

theorem Escaped.stays {piece : Piece} (h : piece.Escaped) : piece.Stays := by
  cases piece with
  | own t => exact trivial
  | given p s w =>
    obtain rfl : w = p.escape s := h
    exact p.ends_notMem_escape s

theorem Escaped.held {piece : Piece} (h : piece.Escaped) : piece.Held := by
  cases piece with
  | own t => exact trivial
  | given p s w =>
    cases p with
    | text => exact h
    | value =>
      obtain rfl : w = Place.value.escape s := h
      exact Place.value.ends_notMem_escape s

theorem Held.stays {piece : Piece} (h : piece.Held) : piece.Stays := by
  cases piece with
  | own t => exact trivial
  | given p s w =>
    cases p with
    | text =>
      obtain rfl : w = Place.text.escape s := h
      exact Place.text.ends_notMem_escape s
    | value => exact h

@[simp] theorem held_own (t : CodeUnits) : (own t).Held := trivial

@[simp] theorem held_raw_text {s : CodeUnits} : (raw .text s).Held ↔ Place.text.Plain s :=
  Place.text.eq_escape_iff s

@[simp] theorem held_raw_value {s : CodeUnits} : (raw .value s).Held ↔ unit '"' ∉ s := Iff.rfl

@[simp] theorem escaped_own (t : CodeUnits) : (own t).Escaped := trivial

@[simp] theorem escaped_raw {p : Place} {s : CodeUnits} : (raw p s).Escaped ↔ p.Plain s :=
  p.eq_escape_iff s

end Piece

/-- The HTML that is written. -/
def html (ps : List Piece) : CodeUnits := ps.flatMap Piece.written

/-- The template alone, with all its strings empty. -/
def frame (ps : List Piece) : CodeUnits := ps.flatMap Piece.frame

theorem html_append (ps qs : List Piece) : html (ps ++ qs) = html ps ++ html qs :=
  List.flatMap_append

theorem frame_append (ps qs : List Piece) : frame (ps ++ qs) = frame ps ++ frame qs :=
  List.flatMap_append

/-- Every string stands in a place of its kind. -/
def Placed (r : Reader) : List Piece → Prop
  | [] => True
  | .own t :: ps => Placed (r.read t) ps
  | .given p _ _ :: ps => r.mode = p.mode ∧ Placed r ps

instance decidablePlaced : ∀ (r : Reader) (ps : List Piece), Decidable (Placed r ps)
  | _, [] => isTrue trivial
  | r, .own t :: ps => decidablePlaced (r.read t) ps
  | r, .given p _ _ :: ps =>
    have := decidablePlaced r ps
    inferInstanceAs (Decidable (r.mode = p.mode ∧ Placed r ps))

theorem placed_append {r : Reader} {ps qs : List Piece} :
    Placed r (ps ++ qs) ↔ Placed r ps ∧ Placed (r.read (frame ps)) qs := by
  induction ps generalizing r with
  | nil => exact ⟨fun h => ⟨trivial, h⟩, And.right⟩
  | cons piece ps ih =>
    cases piece with
    | own t =>
      have hread : (r.read t).read (frame ps) = r.read (frame (.own t :: ps)) := by
        rw [← Reader.read_append]
        rfl
      show Placed (r.read t) (ps ++ qs) ↔ _
      rw [ih, hread]
      rfl
    | given p s w =>
      show r.mode = p.mode ∧ Placed r (ps ++ qs) ↔ _
      rw [ih]
      exact and_assoc.symm

theorem placed_onto {r : Reader} {ts : List Tag} {ps : List Piece} :
    Placed (r.onto ts) ps ↔ Placed r ps := by
  induction ps generalizing r with
  | nil => exact Iff.rfl
  | cons piece ps ih =>
    cases piece with
    | own t =>
      show Placed ((r.onto ts).read t) ps ↔ _
      rw [Reader.read_onto]
      exact ih
    | given p s w => exact and_congr_right fun _ => ih

/-- A part of a template that begins in a text and ends in one, and has its strings where they
belong. -/
def Block (ps : List Piece) : Prop := Placed start ps ∧ (start.read (frame ps)).mode = .data

instance (ps : List Piece) : Decidable (Block ps) :=
  inferInstanceAs (Decidable (Placed start ps ∧ (start.read (frame ps)).mode = .data))

theorem block_nil : Block [] := ⟨trivial, rfl⟩

theorem block_text (s w : CodeUnits) : Block [.given .text s w] := ⟨⟨rfl, trivial⟩, rfl⟩

theorem Block.append {ps qs : List Piece} (hp : Block ps) (hq : Block qs) : Block (ps ++ qs) := by
  have hstart := Reader.read_start hp.2
  constructor
  · rw [placed_append, hstart, placed_onto]
    exact ⟨hp.1, hq.1⟩
  · rw [frame_append, Reader.read_append, hstart, Reader.read_onto]
    exact hq.2

/-- Where strings stand does not depend on them. -/
theorem block_hollow {ps : List Piece} : Block (ps.map Piece.hollow) ↔ Block ps := by
  have hplaced : ∀ r, Placed r (ps.map Piece.hollow) ↔ Placed r ps := by
    induction ps with
    | nil => exact fun _ => Iff.rfl
    | cons piece ps ih =>
      intro r
      cases piece with
      | own t => exact ih (r.read t)
      | given p s w => exact and_congr_right fun _ => ih r
  have hframe : frame (ps.map Piece.hollow) = frame ps := by
    rw [frame, List.flatMap_map]
    exact List.flatMap_congr fun piece _ => by cases piece <;> rfl
  rw [Block, hplaced, hframe, Block]

/-- What does not end its place is not read as markup. -/
theorem read_given {r : Reader} {p : Place} {w : CodeUnits} (hmode : r.mode = p.mode)
    (hw : p.ends ∉ w) : r.read w = r := by
  refine Reader.read_same fun u hu => ?_
  have hne : u ≠ p.ends := fun heq => hw (heq ▸ hu)
  unfold Reader.step
  cases p with
  | text =>
    rw [hmode]
    exact if_neg hne
  | value =>
    rw [hmode]
    exact if_neg hne

/-- **Strings that stay in their places are not read as markup**: the tokenizer reads what it
reads of the template alone. -/
theorem read_html {r : Reader} {ps : List Piece} (hplaced : Placed r ps)
    (hstays : ∀ p ∈ ps, p.Stays) : r.read (html ps) = r.read (frame ps) := by
  induction ps generalizing r with
  | nil => rfl
  | cons piece ps ih =>
    have hrest : ∀ p ∈ ps, p.Stays := fun p hp => hstays p (List.mem_cons_of_mem _ hp)
    have hpiece := hstays piece List.mem_cons_self
    cases piece with
    | own t =>
      calc r.read (t ++ html ps) = (r.read t).read (html ps) := r.read_append t (html ps)
        _ = (r.read t).read (frame ps) := ih hplaced hrest
        _ = r.read (t ++ frame ps) := (r.read_append t (frame ps)).symm
    | given p s w =>
      obtain ⟨hmode, hplaced⟩ := hplaced
      calc r.read (w ++ html ps) = (r.read w).read (html ps) := r.read_append w (html ps)
        _ = r.read (html ps) := by rw [read_given hmode hpiece]
        _ = r.read (frame ps) := ih hplaced hrest

/-- Every string is escaped where it stands. -/
def AllEscaped (ps : List Piece) : Prop := ∀ p ∈ ps, p.Escaped

instance (ps : List Piece) : Decidable (AllEscaped ps) :=
  inferInstanceAs (Decidable (∀ p ∈ ps, p.Escaped))

@[simp] theorem allEscaped_nil : AllEscaped [] := fun _ hp => nomatch hp

@[simp] theorem allEscaped_cons {p : Piece} {ps : List Piece} :
    AllEscaped (p :: ps) ↔ p.Escaped ∧ AllEscaped ps := List.forall_mem_cons

@[simp] theorem allEscaped_append {ps qs : List Piece} :
    AllEscaped (ps ++ qs) ↔ AllEscaped ps ∧ AllEscaped qs := List.forall_mem_append

/-- Every string is escaped where it stands, and the tags are the template's. -/
def Contained (ps : List Piece) : Prop := AllEscaped ps ∧ tags (html ps) = tags (frame ps)

/-- **In a template that has its strings where they belong, escaping is enough.** -/
theorem Block.contained_iff {ps : List Piece} (h : Block ps) :
    Contained ps ↔ AllEscaped ps := by
  refine ⟨And.left, fun hescaped => ⟨hescaped, ?_⟩⟩
  rw [tags, tags, read_html h.1 fun p hp => (hescaped p hp).stays]

/-- Every string is held where it stands. -/
def AllHeld (ps : List Piece) : Prop := ∀ p ∈ ps, p.Held

@[simp] theorem allHeld_nil : AllHeld [] := fun _ hp => nomatch hp

@[simp] theorem allHeld_cons {p : Piece} {ps : List Piece} :
    AllHeld (p :: ps) ↔ p.Held ∧ AllHeld ps := List.forall_mem_cons

@[simp] theorem allHeld_append {ps qs : List Piece} :
    AllHeld (ps ++ qs) ↔ AllHeld ps ∧ AllHeld qs := List.forall_mem_append

theorem AllEscaped.held {ps : List Piece} (h : AllEscaped ps) : AllHeld ps :=
  fun p hp => (h p hp).held

/-- Every string is held where it stands, and the tags are the template's. -/
def Confined (ps : List Piece) : Prop := AllHeld ps ∧ tags (html ps) = tags (frame ps)

/-- In a template that has its strings where they belong, holding them is enough. -/
theorem Block.confined_iff {ps : List Piece} (h : Block ps) : Confined ps ↔ AllHeld ps := by
  refine ⟨And.left, fun hheld => ⟨hheld, ?_⟩⟩
  rw [tags, tags, read_html h.1 fun p hp => (hheld p hp).stays]

/-! ## Values in parts -/

/-- Pieces of one place: what the template adds does not end it. -/
def Inside (p : Place) (ps : List Piece) : Prop :=
  ∀ piece ∈ ps, match piece with
    | .own t => p.ends ∉ t
    | .given q _ _ => q = p

theorem Inside.append {p : Place} {ps qs : List Piece} (hp : Inside p ps) (hq : Inside p qs) :
    Inside p (ps ++ qs) := List.forall_mem_append.mpr ⟨hp, hq⟩

theorem Inside.placed {p : Place} {ps : List Piece} (h : Inside p ps) {r : Reader}
    (hmode : r.mode = p.mode) : Placed r ps ∧ r.read (frame ps) = r := by
  induction ps with
  | nil => exact ⟨trivial, rfl⟩
  | cons piece ps ih =>
    have hpiece := h piece List.mem_cons_self
    obtain ⟨hplaced, hread⟩ := ih fun q hq => h q (List.mem_cons_of_mem _ hq)
    cases piece with
    | own t =>
      have ht : r.read t = r := read_given hmode hpiece
      constructor
      · show Placed (r.read t) ps
        rw [ht]
        exact hplaced
      · calc r.read (t ++ frame ps) = (r.read t).read (frame ps) := r.read_append t (frame ps)
          _ = r := by rw [ht, hread]
    | given q s w =>
      obtain rfl : q = p := hpiece
      exact ⟨⟨hmode, hplaced⟩, hread⟩

/-- A value made of parts stands where one string may stand. -/
theorem Inside.block {p : Place} {style : List Piece} (h : Inside p style) {ps qs : List Piece}
    (hblock : Block (ps ++ [.given p [] []] ++ qs)) : Block (ps ++ style ++ qs) := by
  obtain ⟨hplaced, hread⟩ := hblock
  rw [List.append_assoc, placed_append] at hplaced
  obtain ⟨hps, hmode, hqs⟩ := hplaced
  obtain ⟨hstyle, hsame⟩ := h.placed hmode
  have hgiven : frame [.given p [] []] = [] := rfl
  constructor
  · rw [List.append_assoc, placed_append, placed_append, hsame]
    exact ⟨hps, hstyle, hqs⟩
  · rw [frame_append, frame_append, hgiven, List.append_nil, Reader.read_append] at hread
    rw [frame_append, frame_append, Reader.read_append, Reader.read_append, hsame]
    exact hread

end Markup
