import Winkd.Profiles
import Winkd.Transitions

/-!
# Profile strings in the page

Names, Winkd IDs, moods and pictures come from other users.  `escapeHtml` is used for the
name and the mood of a contact on the roster, and not for initials and pictures, nor for any
string of a chat's frame, a request or a blocked user; and the URL of an image at the
beginning of a mood is not escaped.

What the page assigns to `innerHTML` has all these strings escaped where they stand, and the
template's own tags, just if the strings it writes as they stand are plain
(`profile_strings_contained_iff`).
-/

namespace Winkd.Web
open UnicodeText Markup

/-! ## Escaped texts -/

theorem replaceUnit_append (c : Char) (t s s' : CodeUnits) :
    replaceUnit c t (s ++ s') = replaceUnit c t s ++ replaceUnit c t s' := List.flatMap_append

/-- The three replacements do what one does. -/
theorem escapeHtml_eq (s : CodeUnits) : escapeHtml s = Place.text.escape s := by
  induction s with
  | nil => rfl
  | cons u s ih =>
    have hcons : escapeHtml (u :: s) = escapeHtml [u] ++ escapeHtml s := by
      unfold escapeHtml
      rw [← replaceUnit_append, ← replaceUnit_append, ← replaceUnit_append]
      rfl
    have hone : escapeHtml [u] = (Place.text.entity u).getD [u] := by
      by_cases hamp : u = unit '&'
      · subst hamp
        decide
      · by_cases hlt : u = unit '<'
        · subst hlt
          decide
        · by_cases hgt : u = unit '>'
          · subst hgt
            decide
          · simp [escapeHtml, replaceUnit, Place.entity, hamp, hlt, hgt]
    rw [hcons, hone, ih, Place.escape_cons]

@[simp] theorem escaped_escaped (s : CodeUnits) : (escaped s).Escaped := escapeHtml_eq s

/-! ## What the page writes of its own -/

theorem entity_of_hexDigit {p : Place} {u : UInt16} (h : isHexDigit u = true) :
    p.entity u = none := by
  apply Place.entity_eq_none
  simp only [isHexDigit, isDigit, Bool.or_eq_true, Bool.and_eq_true, decide_eq_true_eq] at h
  simp only [List.mem_cons, List.not_mem_nil, or_false]
  omega

theorem plain_color (h : Color) : Place.value.Plain h.text := by
  obtain ⟨hhash, -, hdigits⟩ := h.isHex
  obtain ⟨text, htext⟩ : ∃ tail, h.text = unit '#' :: tail := ⟨_, List.eq_cons_of_mem_head? hhash⟩
  rw [htext, List.tail_cons, List.all_eq_true] at hdigits
  rw [htext]
  intro u hu
  rcases List.mem_cons.mp hu with rfl | hu
  · decide
  · exact entity_of_hexDigit (hdigits u hu)

theorem plain_commas (r g b : ℕ) : Place.value.Plain (commas r g b) := by
  have hcomma : Place.value.Plain (js ",") := by decide
  simp only [commas, Place.plain_append, Place.plain_decimal, hcomma, and_self]

theorem plain_dk (h : Color) : Place.value.Plain (dk h) := by
  have hopen : Place.value.Plain (js "rgb(") := by decide
  have hclose : Place.value.Plain (js ")") := by decide
  simp only [dk, Place.plain_append, plain_commas, hopen, hclose, and_self]

theorem plain_gemStyle (status : Status) : Place.value.Plain (gemStyle status) := by
  unfold gemStyle
  split
  · rw [js_ofList]
    decide
  · simp only [Place.plain_append, plain_commas, plain_color, and_true]
    and_intros
    all_goals
      rw [js_ofList]
      decide

theorem plain_avBg {gradA gradB : CodeUnits} (hA : Place.value.Plain gradA)
    (hB : Place.value.Plain gradB) (status : Status) :
    Place.value.Plain (avBg gradA gradB status) := by
  have hgrad : Place.value.Plain status.grad.1 ∧ Place.value.Plain status.grad.2 := by
    cases status <;> decide
  simp only [avBg, Place.plain_append, hA, hB, hgrad, and_true]
  and_intros
  all_goals
    rw [js_ofList]
    decide

theorem plain_status (status : Status) :
    Place.text.Plain status.text ∧ Place.text.Plain status.label := by
  cases status <;> decide

/-! ## Strings that are written as they stand -/

/-- A picture, and the initials beside it or for it. -/
def PlainAvatar (avatarSrc initials : CodeUnits) : Prop :=
  if avatarSrc = [] then Place.text.Plain initials
  else Place.value.Plain avatarSrc ∧ Place.value.Plain initials

/-- The image of a mood. -/
def PlainMood (U : Unicode) (mood : CodeUnits) : Prop :=
  ∀ x ∈ moodImage U mood, Place.value.Plain x.1

/-- What is written as it stands is plain. -/
def Shown.Plain (U : Unicode) (me : Own) : Shown → Prop
  | .group _ _ => True
  | .contact c => PlainAvatar c.avatarSrc c.initials ∧ PlainMood U c.mood
  | .chat c =>
      Place.value.Plain c.name ∧ PlainAvatar c.avatarSrc c.initials ∧ PlainMood U c.mood ∧
        Place.value.Plain me.name ∧ PlainAvatar me.avatarSrc (myInitials U me)
  | .request req => Place.text.Plain req.fromDisplayName ∧ Place.text.Plain req.fromWinkdId
  | .blocked user => Place.text.Plain user.displayName ∧ Place.text.Plain user.winkdId

theorem moodImage_blank (U : Unicode) {mood : CodeUnits} (h : trim mood = []) :
    moodImage U mood = none := by
  unfold moodImage
  rw [h]
  cases hmatch : matchMood U [] with
  | none => rfl
  | some x =>
    -- nothing is what it begins with
    obtain ⟨n, -, hn⟩ := List.exists_of_findSome?_eq_some hmatch
    rw [List.take_nil, List.drop_nil] at hn
    cases hn
    decide

theorem moodToInlineHtml_escaped_iff (U : Unicode) (mood : CodeUnits) (size : ℕ) :
    AllEscaped (moodToInlineHtml U mood size) ↔ PlainMood U mood := by
  unfold moodToInlineHtml PlainMood
  split
  · rename_i hblank
    simp [moodImage_blank U hblank]
  · cases moodImage U mood with
    | none => simp
    | some x =>
      obtain ⟨src, rest⟩ := x
      simp [Place.plain_decimal]

theorem avatarOr_escaped_iff (avatarSrc initials : CodeUnits) {img letters : List Piece}
    (himg : AllEscaped img ↔ Place.value.Plain avatarSrc ∧ Place.value.Plain initials)
    (hletters : AllEscaped letters ↔ Place.text.Plain initials) :
    AllEscaped (avatarOr avatarSrc img letters) ↔ PlainAvatar avatarSrc initials := by
  unfold avatarOr PlainAvatar
  split
  · exact hletters
  · exact himg

theorem contactItem_escaped_iff (U : Unicode) (c : Contact) :
    AllEscaped (contactItem U c) ↔ PlainAvatar c.avatarSrc c.initials ∧ PlainMood U c.mood := by
  have hbg := plain_avBg (plain_color c.color) (plain_dk c.color) c.status
  have hgem := plain_gemStyle c.status
  have hbadge : AllEscaped (if c.unread = 0 then [] else
      [.own (js "<div class=\"c-badge\">"), .raw .text (decimal c.unread), .own (js "</div>")]) := by
    split
    · exact allEscaped_nil
    · simp [Place.plain_decimal]
  unfold contactItem
  simp only [allEscaped_append, allEscaped_cons, allEscaped_nil, Piece.escaped_own, Piece.escaped_raw,
    escaped_escaped, moodToInlineHtml_escaped_iff, hbg, hgem, hbadge, true_and, and_true]
  rw [avatarOr_escaped_iff c.avatarSrc c.initials (by simp) (by simp)]

theorem dpHTML_escaped_iff (U : Unicode) {colorA colorB : CodeUnits}
    (hA : Place.value.Plain colorA) (hB : Place.value.Plain colorB)
    (initials label : CodeUnits) (statusKey : Option Status) (mood imgSrc : CodeUnits) :
    AllEscaped (dpHTML U initials colorA colorB label statusKey mood imgSrc) ↔
      Place.value.Plain label ∧ PlainAvatar imgSrc initials ∧ PlainMood U mood := by
  have hbg := plain_avBg hA hB (statusKey.getD .offline)
  have hmood : AllEscaped (if mood = [] then [] else
      [.own (js "<div class=\"dp-contact-mood\">")] ++ moodToInlineHtml U mood 14 ++
        [.own (js "</div>")]) ↔ PlainMood U mood := by
    split
    · rename_i hempty
      have hblank : moodImage U mood = none := moodImage_blank U (by rw [hempty]; rfl)
      simp [PlainMood, hblank]
    · simp [moodToInlineHtml_escaped_iff]
  have hlabel : Place.value.Plain label → Place.text.Plain label := Place.plain_text
  unfold dpHTML
  simp only [allEscaped_append, allEscaped_cons, allEscaped_nil, Piece.escaped_own,
    Piece.escaped_raw, hbg, hmood, true_and, and_true]
  rw [avatarOr_escaped_iff imgSrc initials (by simp) (by simp)]
  cases statusKey with
  | none =>
    simp only [allEscaped_nil, and_true]
    tauto
  | some status =>
    have hcolor := plain_color status.color
    have hgem := plain_gemStyle status
    have htext := (plain_status status).1
    simp only [allEscaped_cons, allEscaped_nil, Piece.escaped_own, Piece.escaped_raw, hcolor, hgem,
      htext, and_true]
    tauto

theorem buildChat_escaped_iff (U : Unicode) (me : Own) (c : Contact) :
    AllEscaped (buildChat U me c) ↔
      Place.value.Plain c.name ∧ PlainAvatar c.avatarSrc c.initials ∧ PlainMood U c.mood ∧
        Place.value.Plain me.name ∧ PlainAvatar me.avatarSrc (myInitials U me) := by
  have hcolor := plain_color c.color
  have hdk := plain_dk c.color
  have hstatus := plain_status c.status
  have hline : Place.value.Plain (if me.onLine then [] else js "visible") := by
    split
    · exact Place.plain_nil _
    · decide
  have hname : Place.value.Plain c.name → Place.text.Plain c.name := Place.plain_text
  have hnoMood : PlainMood U [] := by
    have hblank : moodImage U [] = none := moodImage_blank U rfl
    simp [PlainMood, hblank]
  have havatar : AllEscaped (avatarOr c.avatarSrc
      [.own (js "<img src=\""), .raw .value c.avatarSrc,
        .own (js "\" style=\"width:100%;height:100%;object-fit:cover;border-radius:4px;\">")]
      [.raw .text c.initials]) ↔
      if c.avatarSrc = [] then Place.text.Plain c.initials else Place.value.Plain c.avatarSrc := by
    unfold avatarOr
    split
    · simp
    · simp
  -- the picture in the chat's header has no initials beside it
  have hheader : PlainAvatar c.avatarSrc c.initials →
      if c.avatarSrc = [] then Place.text.Plain c.initials else Place.value.Plain c.avatarSrc := by
    unfold PlainAvatar
    split
    · exact id
    · exact And.left
  unfold buildChat
  simp only [allEscaped_append, allEscaped_cons, allEscaped_nil, Piece.escaped_own,
    Piece.escaped_raw, hline, hcolor, hdk, plain_color, hstatus, true_and, and_true]
  rw [dpHTML_escaped_iff U hcolor hdk, dpHTML_escaped_iff U (plain_color _) (plain_dk _), havatar]
  tauto

/-! ## Where the strings stand -/

theorem block_avatarOr (avatarSrc : CodeUnits) {img letters : List Piece} (himg : Block img)
    (hletters : Block letters) : Block (avatarOr avatarSrc img letters) := by
  unfold avatarOr
  split
  · exact hletters
  · exact himg

set_option maxRecDepth 2000 in
theorem block_moodToInlineHtml (U : Unicode) (mood : CodeUnits) (size : ℕ) :
    Block (moodToInlineHtml U mood size) := by
  unfold moodToInlineHtml
  split
  · exact block_nil
  · cases moodImage U mood with
    | none => exact block_text _ _
    | some x =>
      rw [← block_hollow]
      simp only [List.map_cons, List.map_nil, Piece.hollow, Piece.raw, escaped]
      repeat rw [js_ofList]
      decide

set_option maxRecDepth 2000 in
theorem block_contactItem (U : Unicode) (c : Contact) : Block (contactItem U c) := by
  have hmood := block_moodToInlineHtml U c.mood 13
  unfold contactItem
  refine (((((?_ : Block _).append (block_avatarOr _ ?_ (block_text _ _))).append ?_).append
    hmood).append ?_).append ?_
  case refine_5 =>
    split
    · exact block_nil
    · rw [← block_hollow]
      simp only [List.map_cons, List.map_nil, Piece.hollow, Piece.raw]
      repeat rw [js_ofList]
      decide
  all_goals
    rw [← block_hollow]
    simp only [List.map_cons, List.map_nil, Piece.hollow, Piece.raw, escaped]
    repeat rw [js_ofList]
    decide

theorem block_dpHTML (U : Unicode) (initials colorA colorB label : CodeUnits)
    (statusKey : Option Status) (mood imgSrc : CodeUnits) :
    Block (dpHTML U initials colorA colorB label statusKey mood imgSrc) := by
  unfold dpHTML
  refine ((((((?_ : Block _).append (block_avatarOr _ ?_ ?_)).append ?_).append ?_).append
    ?_).append ?_).append ?_
  case refine_4 =>
    cases statusKey with
    | none => exact block_nil
    | some status =>
      rw [← block_hollow]
      simp only [List.map_cons, List.map_nil, Piece.hollow, Piece.raw]
      repeat rw [js_ofList]
      decide
  case refine_6 =>
    cases statusKey with
    | none => exact block_nil
    | some status =>
      rw [← block_hollow]
      simp only [List.map_cons, List.map_nil, Piece.hollow, Piece.raw]
      repeat rw [js_ofList]
      decide
  case refine_7 =>
    split
    · exact block_nil
    · refine ((?_ : Block _).append (block_moodToInlineHtml U mood 14)).append ?_
      all_goals
        repeat rw [js_ofList]
        decide
  all_goals
    rw [← block_hollow]
    simp only [List.map_cons, List.map_nil, Piece.hollow, Piece.raw]
    repeat rw [js_ofList]
    decide

set_option maxRecDepth 20000 in
theorem block_buildChat (U : Unicode) (me : Own) (c : Contact) : Block (buildChat U me c) := by
  unfold buildChat
  refine ((((((?_ : Block _).append (block_avatarOr _ ?_ (block_text _ _))).append ?_).append
    (block_dpHTML U _ _ _ _ _ _ _)).append ?_).append (block_dpHTML U _ _ _ _ _ _ _)).append ?_
  all_goals
    rw [← block_hollow]
    simp only [List.map_cons, List.map_nil, Piece.hollow, Piece.raw, chatTop, chatControls, chatPanel]
    repeat rw [js_ofList]
    decide +kernel

set_option maxRecDepth 8000 in
theorem Shown.block (U : Unicode) (me : Own) (x : Shown) : Block (x.pieces U me) := by
  cases x with
  | contact c => exact block_contactItem U c
  | chat c => exact block_buildChat U me c
  | _ =>
    rw [← block_hollow]
    simp only [Shown.pieces, groupLabel, inboundRequest, blockedUser, List.map_cons, List.map_nil,
      Piece.hollow, Piece.raw]
    repeat rw [js_ofList]
    decide

/-- What is shown is contained just if what is written as it stands is plain. -/
theorem Shown.contained_iff (U : Unicode) (me : Own) (x : Shown) :
    Contained (x.pieces U me) ↔ x.Plain U me := by
  refine (x.block U me).contained_iff.trans ?_
  cases x with
  | group key count => simp [Shown.pieces, groupLabel, Shown.Plain, Place.plain_decimal, plain_status]
  | contact c => exact contactItem_escaped_iff U c
  | chat c => exact buildChat_escaped_iff U me c
  | request req =>
    have hrid : Place.value.Plain (req.requestId.filter (· ≠ unit '\'')) := by
      intro u hu
      have huuid := List.all_eq_true.mp req.isUuid u (List.mem_filter.mp hu).1
      rcases Bool.or_eq_true _ _ |>.mp huuid with hhex | hdash
      · exact entity_of_hexDigit hhex
      · obtain rfl := of_decide_eq_true hdash
        decide
    simp only [Shown.pieces, inboundRequest, allEscaped_cons, allEscaped_nil, Piece.escaped_own,
      Piece.escaped_raw, hrid, true_and, and_true]
    exact Iff.rfl
  | blocked user =>
    have hname : Place.text.Plain (if user.displayName = [] then js "Unknown" else user.displayName) ↔
        Place.text.Plain user.displayName := by
      split
      · rename_i hempty
        rw [hempty]
        decide
      · exact Iff.rfl
    simp only [Shown.pieces, blockedUser, allEscaped_cons, allEscaped_nil, Piece.escaped_own,
      Piece.escaped_raw, hname, true_and, and_true]
    exact Iff.rfl

/-- **Profile strings are contained in all that a page assigns to `innerHTML`** just if those
that it writes as they stand are plain, in every run. -/
theorem profile_strings_contained_iff (U : Unicode) (me : Own) (events : List PageEvent) :
    (∀ x ∈ (events.foldl (Page.next U) Page.start).shown, Contained (x.pieces U me)) ↔
      ∀ x ∈ (events.foldl (Page.next U) Page.start).shown, x.Plain U me :=
  forall₂_congr fun x _ => x.contained_iff U me

/-! ## Plain profiles -/

theorem forall_mem_modify {α : Type} {P : α → Prop} {l : List α} (h : ∀ x ∈ l, P x) {f : α → α}
    (hf : ∀ x ∈ l, P (f x)) (i : ℕ) : ∀ x ∈ l.modify i f, P x := by
  intro x hx
  obtain ⟨n, hn, rfl⟩ := List.mem_iff_getElem.mp hx
  rw [List.getElem_modify]
  split
  · exact hf _ (List.getElem_mem _)
  · exact h _ (List.getElem_mem _)

section Runs
variable (U : Unicode) (me : Own)

/-- A contact whose strings are plain on the roster and in the chat. -/
def Contact.Plain (c : Contact) : Prop :=
  Place.value.Plain c.name ∧ PlainAvatar c.avatarSrc c.initials ∧ PlainMood U c.mood

/-- The strings of the event make a plain contact or entry. -/
def PageEvent.Plain : PageEvent → Prop
  | .contactsSnapshot items => ∀ item ∈ items, (item.contact U).Plain U
  | .contactRequest req => (Shown.request req).Plain U me
  | .contactAccepted winkdId displayName avatarData moodMessage =>
      (newContact U winkdId displayName moodMessage .online avatarData).Plain U
  | .contactRequestSent toWinkdId toDisplayName toAvatarData =>
      (newContact U toWinkdId toDisplayName (js "Pending acceptance…") .offline toAvatarData).Plain U
  | .blockedList users => ∀ user ∈ users, (Shown.blocked user).Plain U me ∧
      (newContact U user.winkdId user.displayName [] .offline user.avatarData).Plain U
  | .buildChat c => c.Plain U
  | _ => True

/-- All that the page holds and has shown is plain. -/
structure Page.Plain (p : Page) : Prop where
  contacts : ∀ c ∈ p.contacts, c.Plain U
  requests : ∀ req ∈ p.inboundRequests, (Shown.request req).Plain U me
  blocked : ∀ user ∈ p.blockedUsers, (Shown.blocked user).Plain U me ∧
    (newContact U user.winkdId user.displayName [] .offline user.avatarData).Plain U
  shown : ∀ x ∈ p.shown, x.Plain U me

variable {U me} {p : Page}

theorem Page.Plain.assign (h : p.Plain U me) {xs : List Shown} (hxs : ∀ x ∈ xs, x.Plain U me) :
    (p.assign xs).Plain U me :=
  ⟨h.contacts, h.requests, h.blocked, List.forall_mem_append.mpr ⟨h.shown, hxs⟩⟩

theorem Page.Plain.renderContacts (h : p.Plain U me) (f : CodeUnits) :
    (Page.renderContacts U p f).Plain U me := by
  refine h.assign fun x hx => ?_
  obtain ⟨key, -, hx⟩ := List.mem_flatMap.mp hx
  dsimp only at hx
  split at hx
  · cases hx
  · rcases List.mem_cons.mp hx with rfl | hx
    · exact trivial
    · obtain ⟨c, hc, rfl⟩ := List.mem_map.mp hx
      exact (h.contacts c (List.mem_filter.mp hc).1).2

theorem Page.Plain.renderInboundRequests (h : p.Plain U me) :
    p.renderInboundRequests.Plain U me := by
  refine h.assign fun x hx => ?_
  obtain ⟨req, hreq, rfl⟩ := List.mem_map.mp hx
  exact h.requests req hreq

theorem Page.Plain.renderBlockedUsers (h : p.Plain U me) : p.renderBlockedUsers.Plain U me := by
  refine h.assign fun x hx => ?_
  obtain ⟨user, huser, rfl⟩ := List.mem_map.mp hx
  exact (h.blocked user huser).1

/-- With other contacts that are plain. -/
theorem Page.Plain.withContacts (h : p.Plain U me) {contacts : List Contact}
    (hc : ∀ c ∈ contacts, c.Plain U) (active : Option CodeUnits) :
    Page.Plain U me { p with contacts := contacts, activeContact := active } :=
  ⟨hc, h.requests, h.blocked, h.shown⟩

theorem Page.Plain.append (h : p.Plain U me) {c : Contact} (hc : c.Plain U) :
    ∀ c' ∈ p.contacts ++ [c], c'.Plain U := by
  intro c' hc'
  rcases List.mem_append.mp hc' with hc' | hc'
  · exact h.contacts c' hc'
  · exact List.mem_singleton.mp hc' ▸ hc

/-- **An event with plain strings keeps a page plain.** -/
theorem Page.Plain.next (h : p.Plain U me) (hme : Place.value.Plain me.name)
    (havatar : PlainAvatar me.avatarSrc (myInitials U me)) {e : PageEvent} (he : e.Plain U me) :
    (p.next U e).Plain U me := by
  cases e with
  | contactsSnapshot items =>
    refine (h.withContacts ?_ p.activeContact).renderContacts _
    intro c hc
    obtain ⟨item, hitem, rfl⟩ := List.mem_map.mp hc
    exact he item (List.mem_filter.mp hitem).1
  | contactRequest req =>
    show (handleInboundContactRequest p req).Plain U me
    unfold handleInboundContactRequest
    split
    · exact h
    · refine Page.Plain.renderInboundRequests ⟨h.contacts, ?_, h.blocked, h.shown⟩
      intro r hr
      rcases List.mem_append.mp hr with hr | hr
      · exact h.requests r hr
      · exact List.mem_singleton.mp hr ▸ he
  | contactAccepted winkdId displayName avatarData moodMessage =>
    show (handleContactAccepted U p winkdId displayName avatarData moodMessage).Plain U me
    unfold handleContactAccepted
    dsimp only
    split
    · refine (h.withContacts (forall_mem_modify h.contacts ?_ _) p.activeContact).renderContacts _
      exact fun c _ => he
    · -- the request that was accepted is taken off the list
      have hanswered : ∀ q : Page, q.Plain U me → Page.Plain U me (Page.renderContacts U
          { q with contacts := if hasContactByWinkdId U q.contacts winkdId then q.contacts
            else q.contacts ++ [newContact U winkdId displayName moodMessage .online avatarData] }
          []) := by
        intro q hq
        refine (hq.withContacts ?_ q.activeContact).renderContacts _
        split
        · exact hq.contacts
        · exact hq.append he
      split
      · refine hanswered _ (Page.Plain.renderInboundRequests ⟨h.contacts, ?_, h.blocked, h.shown⟩)
        exact fun r hr => h.requests r (List.mem_of_mem_eraseIdx hr)
      · exact hanswered p h
  | contactRequestSent toWinkdId toDisplayName toAvatarData =>
    show (handleContactRequestSent U p toWinkdId toDisplayName toAvatarData).Plain U me
    unfold handleContactRequestSent
    split
    · exact h
    · exact (h.withContacts (h.append he) p.activeContact).renderContacts _
  | contactUnblocked userId =>
    show (handleContactUnblocked U p userId).Plain U me
    unfold handleContactUnblocked
    split
    · exact h
    · have hrest : Page.Plain U me
          { p with blockedUsers := p.blockedUsers.filter fun u => u.userId ≠ userId } :=
        ⟨h.contacts, h.requests, fun u hu => h.blocked u (List.mem_filter.mp hu).1, h.shown⟩
      dsimp only
      refine Page.Plain.renderBlockedUsers ?_
      split
      · exact hrest
      · rename_i user hfound
        have huser := (h.blocked user (List.mem_of_find?_eq_some hfound)).2
        split
        · exact hrest
        · exact (hrest.withContacts (hrest.append huser) p.activeContact).renderContacts _
  | blockedList users => exact Page.Plain.renderBlockedUsers ⟨h.contacts, h.requests, he, h.shown⟩
  | filterContacts v =>
    have hfield : Page.Plain U me { p with search := v } := ⟨h.contacts, h.requests, h.blocked, h.shown⟩
    exact hfield.renderContacts v
  | selectContact id =>
    show (selectContact U p id).Plain U me
    unfold selectContact
    split
    · exact ⟨h.contacts, h.requests, h.blocked, h.shown⟩
    · refine (h.withContacts (forall_mem_modify h.contacts ?_ _) _).renderContacts _
      exact h.contacts
  | buildChat c =>
    refine h.assign fun x hx => ?_
    obtain rfl := List.mem_singleton.mp hx
    exact ⟨he.1, he.2.1, he.2.2, hme, havatar⟩
  | openBlockedUsersModal => exact h.renderBlockedUsers

/-- **Plain profiles are contained**: a page that is sent plain strings only assigns nothing to
`innerHTML` but them and its templates. -/
theorem contained_of_plain (hme : Place.value.Plain me.name)
    (havatar : PlainAvatar me.avatarSrc (myInitials U me)) {events : List PageEvent}
    (hplain : ∀ e ∈ events, e.Plain U me) :
    ∀ x ∈ (events.foldl (Page.next U) Page.start).shown, Contained (x.pieces U me) := by
  have hkept : ∀ p : Page, p.Plain U me → (events.foldl (Page.next U) p).Plain U me := by
    induction events with
    | nil => exact fun p h => h
    | cons e events ih =>
      intro p h
      have he := h.next hme havatar (hplain e List.mem_cons_self)
      exact ih (fun e' he' => hplain e' (List.mem_cons_of_mem _ he')) _ he
  have hstart : Page.start.Plain U me :=
    ⟨fun _ h => (nomatch h), fun _ h => (nomatch h), fun _ h => (nomatch h), fun _ h => nomatch h⟩
  exact fun x hx => (x.contained_iff U me).mpr ((hkept _ hstart).shown x hx)

end Runs

namespace Sample

/-- A contact request from a user with markup for a name. -/
def strangersRequest : InboundRequest :=
  ⟨js "0b54ad30-6d04-4b2e-9f6b-5d7c2b4b6a0c", by decide, js "mallory#1234",
    js "<img src=x onerror=alert(1)>"⟩

end Sample

/-- The name becomes an element of the page. -/
theorem profile_string_not_contained :
    ¬ ∀ (U : Unicode) (me : Own) (events : List PageEvent),
      ∀ x ∈ (events.foldl (Page.next U) Page.start).shown, Contained (x.pieces U me) := by
  intro h
  have hcontained := h ⟨id, id, fun _ => []⟩ ⟨js "Ada", contactColor, [], .online, true⟩
    [.contactRequest Sample.strangersRequest] (.request Sample.strangersRequest) List.mem_cons_self
  exact absurd hcontained.1 (by decide)

end Winkd.Web
