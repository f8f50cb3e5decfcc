import Winkd.EmoticonPasses

/-!
# Messages in the page

`addMsg` escapes the text of a message, and the source of its attachment goes through
`sanitizeMediaSrc`, which leaves no quotation mark.  The colour, the font and the time are
written as the sender chose them, and the name and the picture as they stand in the profile.

What is assigned to `innerHTML` for a message has its strings held where they stand, and the
template's own tags, just if these are (`message_confined_iff`).
-/

namespace Winkd.Web
open UnicodeText Markup Winkd.Server

/-! ## The template -/

theorem units_eq_nil {t : Text} : units t = [] ↔ t = [] := by
  constructor
  · intro h
    cases t with
    | nil => rfl
    | cons c t =>
      rw [units, List.flatMap_cons, List.append_eq_nil_iff, unitsOf] at h
      have hunits := h.1
      split at hunits <;> cases hunits
  · rintro rfl
    rfl

theorem pass_ne_nil {len : CodeUnits → ℕ} {f : CodeUnits → List Chunk}
    (hf : ∀ s, s ≠ [] → f s ≠ []) {cs : List Chunk} (h : cs ≠ []) : pass len f 0 cs ≠ [] := by
  obtain ⟨c, cs, rfl⟩ := List.exists_cons_of_ne_nil h
  rw [pass]
  cases hlen : len (written (c :: cs)) with
  | zero => exact List.cons_ne_nil _ _
  | succ n =>
    -- a chunk begins with a character, so what is matched is not empty
    have hwritten : written (c :: cs) ≠ [] := by
      show c.written ++ written cs ≠ []
      rcases c.written_cases with ⟨u, -, hu⟩ | ⟨u, s, hu, -⟩ <;> rw [hu] <;> exact List.cons_ne_nil _ _
    refine List.append_ne_nil_of_left_ne_nil (hf _ ?_) _
    obtain ⟨u, s, hs⟩ := List.exists_cons_of_ne_nil hwritten
    rw [hs]
    exact List.cons_ne_nil _ _

/-- A text is shown if there is one. -/
theorem messageText_eq_nil {rawText : CodeUnits} : messageText rawText = [] ↔ rawText = [] := by
  constructor
  · intro h
    by_contra hraw
    have hescaped : escapedChunks rawText ≠ [] := fun hnil => hraw (List.map_eq_nil_iff.mp hnil)
    have htokens : ∀ s, s ≠ [] → tokenChunks s ≠ [] := by
      intro s hs
      unfold tokenChunks
      split
      · exact fun hnil => hs (List.map_eq_nil_iff.mp hnil)
      · split <;> exact List.cons_ne_nil _ _
    have hchunks : textChunks rawText ≠ [] :=
      pass_ne_nil htokens (pass_ne_nil (fun _ _ => List.cons_ne_nil _ _)
        (pass_ne_nil (fun _ _ => List.cons_ne_nil _ _) hescaped))
    obtain ⟨c, cs, hcs⟩ := List.exists_cons_of_ne_nil hchunks
    rw [messageText_eq, hcs, List.flatMap_cons, html, List.flatMap_append] at h
    have hfirst : c.written = [] := (List.append_eq_nil_iff.mp h).1
    rcases c.written_cases with ⟨u, -, hu⟩ | ⟨u, s, hu, -⟩ <;> rw [hu] at hfirst <;> cases hfirst
  · rintro rfl
    rfl

namespace Row

/-- What the row is made of, piece by piece. -/
def pieces (r : Row) : List Piece := r.template ((textChunks r.text).flatMap Chunk.pieces)

/-- The HTML of a row is its pieces'. -/
theorem html_eq (r : Row) : r.html = Markup.html r.pieces := by
  have htext : Markup.html [.own (messageText r.text)] =
      Markup.html ((textChunks r.text).flatMap Chunk.pieces) :=
    (List.append_nil _).trans (messageText_eq r.text)
  have htextHtml : Markup.html (r.textHtml [.own (messageText r.text)]) =
      Markup.html (r.textHtml ((textChunks r.text).flatMap Chunk.pieces)) := by
    unfold textHtml
    split
    · rfl
    · simp only [html_append, htext]
  unfold Row.html pieces template
  simp only [html_append, htextHtml]

/-- Every string of a row is held where it stands, and its tags are the template's. -/
structure Confined (r : Row) : Prop where
  html : r.html = Markup.html r.pieces
  held : AllHeld r.pieces
  tags : tags r.html = tags (frame r.pieces)

/-- The name and the picture of the one whose message it is. -/
def PersonHeld (r : Row) : Prop :=
  Place.text.Plain r.name ∧
    if r.avatarSrc = [] then Place.text.Plain r.initials else unit '"' ∉ r.avatarSrc

theorem avInner_held_iff (r : Row) : AllHeld r.avInner ↔
    if r.avatarSrc = [] then Place.text.Plain r.initials else unit '"' ∉ r.avatarSrc := by
  unfold avInner avatarOr
  split <;> simp

theorem mediaHtml_held {r : Row} (hmedia : ∀ s ∈ r.media, unit '"' ∉ s) : AllHeld r.mediaHtml := by
  unfold mediaHtml
  cases hsome : r.media with
  | none => exact allHeld_nil
  | some safeSrc =>
    have hsrc := hmedia safeSrc hsome
    have hmargin := (Place.plain_decimal .value (if r.text = [] then 0 else 6)).ends_notMem
    simp only [allHeld_cons, allHeld_nil, Piece.held_own, Piece.held_raw_value, hsrc, true_and,
      and_true, not_false_eq_true]
    exact hmargin

theorem textHtml_held_iff (r : Row) :
    AllHeld (r.textHtml ((textChunks r.text).flatMap Chunk.pieces)) ↔
      (r.text ≠ [] → AllHeld r.style) := by
  have hchunks := (allEscaped_textChunks r.text).held
  unfold textHtml
  by_cases hempty : r.text = []
  · rw [if_pos (messageText_eq_nil.mpr hempty)]
    exact iff_of_true allHeld_nil fun h => absurd hempty h
  · rw [if_neg (fun h => hempty (messageText_eq_nil.mp h))]
    simp [hempty, hchunks]

/-- What is written as it stands is held just if the sender's style and time are, and what the
profile says. -/
theorem allHeld_iff {r : Row} (hbackground : unit '"' ∉ r.background)
    (hmedia : ∀ s ∈ r.media, unit '"' ∉ s) :
    AllHeld r.pieces ↔
      r.PersonHeld ∧ Place.text.Plain r.time ∧ (r.text ≠ [] → AllHeld r.style) := by
  have hbubble : unit '"' ∉ js (if r.fromMe then "bubble-me" else "bubble-them") := by
    cases r.fromMe <;> decide
  have hid : unit '"' ∉ r.msgId.text := fun hquote =>
    absurd (List.all_eq_true.mp r.msgId.isSlug _ hquote) (by decide)
  have hattachment := mediaHtml_held hmedia
  unfold pieces template PersonHeld
  simp only [allHeld_append, avInner_held_iff, hattachment, textHtml_held_iff]
  simp only [allHeld_cons, allHeld_nil, Piece.held_own, Piece.held_raw_value,
    Piece.held_raw_text, hbackground, hbubble, hid, not_false_eq_true, true_and, and_true]
  tauto

set_option maxRecDepth 4000 in
theorem block_mediaHtml (r : Row) : Block r.mediaHtml := by
  unfold mediaHtml
  cases r.media with
  | none => exact block_nil
  | some safeSrc =>
    rw [← block_hollow]
    simp only [List.map_cons, List.map_nil, Piece.hollow, Piece.raw]
    repeat rw [js_ofList]
    decide

theorem block_textHtml {r : Row} (hstyle : Inside .value r.style) :
    Block (r.textHtml ((textChunks r.text).flatMap Chunk.pieces)) := by
  unfold textHtml
  split
  · exact block_nil
  · have hopen : Block ([.own (js "<div style=\"")] ++ r.style ++ [.own (js "\">")]) :=
      hstyle.block (by decide)
    have hclose : Block [.own (js "</div>")] := by decide
    exact (hopen.append (block_textChunks r.text)).append hclose

set_option maxRecDepth 4000 in
theorem block_pieces {r : Row} (hstyle : Inside .value r.style) : Block r.pieces := by
  have havatar : Block r.avInner := by
    refine block_avatarOr _ ?_ (block_text _ _)
    rw [← block_hollow]
    simp only [List.map_cons, List.map_nil, Piece.hollow, Piece.raw]
    repeat rw [js_ofList]
    decide
  unfold pieces template
  refine (((((?_ : Block _).append havatar).append ?_).append (block_mediaHtml r)).append
    (block_textHtml hstyle)).append ?_
  all_goals
    rw [← block_hollow]
    simp only [List.map_cons, List.map_nil, Piece.hollow, Piece.raw]
    repeat rw [js_ofList]
    decide

/-- **A row is confined** just if the strings written as they stand are held. -/
theorem confined_iff {r : Row} (hstyle : Inside .value r.style)
    (hbackground : unit '"' ∉ r.background) (hmedia : ∀ s ∈ r.media, unit '"' ∉ s) :
    r.Confined ↔ r.PersonHeld ∧ Place.text.Plain r.time ∧ (r.text ≠ [] → AllHeld r.style) := by
  rw [← allHeld_iff hbackground hmedia]
  refine ⟨Confined.held, fun hheld => ⟨r.html_eq, hheld, ?_⟩⟩
  rw [r.html_eq]
  exact ((block_pieces hstyle).confined_iff.mpr hheld).2

end Row

/-! ## The row of a message -/

section AddMsg
variable {U : Unicode} {numberText : Text → CodeUnits}

/-- What `sanitizeMediaSrc` leaves stays in its value. -/
theorem quote_notMem_sanitizeMediaSrc {src : Json} {s : CodeUnits}
    (h : sanitizeMediaSrc numberText src = some s) : unit '"' ∉ s := by
  have hreplaced : ∀ t : CodeUnits, unit '"' ∉ replaceUnit '"' (js "&quot;") t := by
    intro t hquote
    obtain ⟨u, -, hu⟩ := List.mem_flatMap.mp hquote
    split at hu
    · exact absurd hu (by decide)
    · rename_i hne
      exact hne (List.mem_singleton.mp hu).symm
  unfold sanitizeMediaSrc at h
  split at h
  · cases h
    exact List.not_mem_nil
  · obtain ⟨t, -, h⟩ := Option.bind_eq_some_iff.mp h
    split at h
    · cases src <;> cases h
      exact hreplaced _
    · cases h
      exact List.not_mem_nil

theorem quote_notMem_mediaImage {m : TextMessage} {media : Option CodeUnits}
    (h : mediaImage U numberText m = some media) : ∀ s ∈ media, unit '"' ∉ s := by
  unfold mediaImage at h
  obtain ⟨safeSrc, hsafe, h⟩ := Option.bind_eq_some_iff.mp h
  obtain ⟨mediaType, -, h⟩ := Option.bind_eq_some_iff.mp h
  cases h
  intro s hs
  split at hs
  · cases hs
    exact quote_notMem_sanitizeMediaSrc hsafe
  · cases hs

/-- A value of the style has no quotation mark. -/
def StyleHeld (numberText : Text → CodeUnits) (v : Option Json) : Prop :=
  ∀ j ∈ v, ∀ s ∈ toJsString numberText j, unit '"' ∉ s

instance (v : Option Json) : Decidable (StyleHeld numberText v) :=
  inferInstanceAs (Decidable (∀ j ∈ v, ∀ s ∈ toJsString numberText j, unit '"' ∉ s))

theorem declaration_spec {property : CodeUnits} {v : Option Json} {ps : List Piece}
    (hproperty : unit '"' ∉ property) (htruthy : ∀ j ∈ v, j.truthy = true)
    (h : declaration numberText property (v.getD .null) = some ps) :
    Inside .value ps ∧ (AllHeld ps ↔ StyleHeld numberText v) := by
  unfold declaration at h
  cases v with
  | none =>
    cases h
    exact ⟨fun _ hp => (nomatch hp), iff_of_true allHeld_nil nofun⟩
  | some j =>
    rw [Option.getD_some, if_pos (htruthy j rfl)] at h
    obtain ⟨s, hs, rfl⟩ := Option.map_eq_some_iff.mp h
    have hend : unit '"' ∉ js ";" := by decide
    constructor
    · intro piece hpiece
      simp only [List.mem_cons, List.not_mem_nil, or_false] at hpiece
      rcases hpiece with rfl | rfl | rfl
      · exact hproperty
      · rfl
      · exact hend
    · simp [StyleHeld, hs]

theorem styleStr_spec {m : TextMessage} (color font : Option Json) {ps : List Piece}
    (hcolor : m.color = color.getD .null) (hfont : m.font = font.getD .null)
    (hcolorTrue : ∀ j ∈ color, j.truthy = true) (hfontTrue : ∀ j ∈ font, j.truthy = true)
    (h : styleStr numberText m = some ps) :
    Inside .value ps ∧
      (AllHeld ps ↔ StyleHeld numberText color ∧ StyleHeld numberText font) := by
  unfold styleStr at h
  obtain ⟨colorPs, hcolorPs, h⟩ := Option.bind_eq_some_iff.mp h
  obtain ⟨fontPs, hfontPs, h⟩ := Option.bind_eq_some_iff.mp h
  cases h
  rw [hcolor] at hcolorPs
  rw [hfont] at hfontPs
  obtain ⟨hcolorIn, hcolorHeld⟩ := declaration_spec (by decide) hcolorTrue hcolorPs
  obtain ⟨hfontIn, hfontHeld⟩ := declaration_spec (by decide) hfontTrue hfontPs
  -- the declarations without a value are the template's own
  have hown : ∀ (b : Bool) (t : CodeUnits), unit '"' ∉ t →
      Inside .value (if b then [.own t] else []) ∧ AllHeld (if b then [.own t] else []) := by
    intro b t ht
    cases b with
    | false => exact ⟨fun _ hp => (nomatch hp), allHeld_nil⟩
    | true =>
      refine ⟨fun piece hp => ?_, by simp⟩
      obtain rfl := List.mem_singleton.mp hp
      exact ht
  obtain ⟨hboldIn, hboldHeld⟩ := hown m.bold (js "font-weight:700;") (by decide)
  obtain ⟨hitalicIn, hitalicHeld⟩ := hown m.italic (js "font-style:italic;") (by decide)
  obtain ⟨hunderIn, hunderHeld⟩ :=
    hown m.underline (js "text-decoration:underline;") (by decide)
  constructor
  · exact (((hcolorIn.append hboldIn).append hitalicIn).append hunderIn).append hfontIn
  · simp only [allHeld_append, hcolorHeld, hfontHeld, hboldHeld, hitalicHeld, hunderHeld, and_true]

/-- The time that is shown: what the sender says, or the client's own. -/
def shownTime (payload : Json) (ts now : Text) : Json :=
  orElse ((payload.firstTruthy ["sentAt", "sent_at", "time"]).getD (.str ts)) (.str now)

/-- What `addMsg` writes as it stands of a payload is held: the time, and where there is a text
its colour and its font. -/
structure PayloadHeld (numberText : Text → CodeUnits) (payload : Json) (ts now : Text) : Prop where
  time : ∀ s ∈ toJsString numberText (shownTime payload ts now), Place.text.Plain s
  color : (payload.firstTruthy ["body", "text"]).isSome →
    StyleHeld numberText (payload.firstTruthy ["color"])
  font : (payload.firstTruthy ["body", "text"]).isSome →
    StyleHeld numberText (payload.firstTruthy ["font"])

/-- And of the profile of the one whose message it is: the name, and the picture or the initials. -/
structure ProfileHeld (U : Unicode) (me : Own) (c : Contact) (fromMe : Bool) : Prop where
  name : Place.text.Plain (if fromMe then me.name else c.name)
  picture : if (if fromMe then me.avatarSrc else c.avatarSrc) = [] then
      Place.text.Plain (if fromMe then myInitials U me else c.initials)
    else unit '"' ∉ (if fromMe then me.avatarSrc else c.avatarSrc)

theorem truthy_of_firstTruthy {payload : Json} {keys : List String} :
    ∀ j ∈ payload.firstTruthy keys, j.truthy = true := by
  intro j hj
  obtain ⟨key, -, hkey⟩ := List.exists_of_findSome?_eq_some hj
  exact (Option.filter_eq_some_iff.mp hkey).2

/-- A text message with a row has a string for its text. -/
theorem rawText_ne_nil_iff {payload : Json} {side : Side} {msgTime : Json} {text : CodeUnits}
    (h : rawText (textMessage payload side msgTime) = some text) :
    text ≠ [] ↔ (payload.firstTruthy ["body", "text"]).isSome := by
  have htext : (textMessage payload side msgTime).text =
      (payload.firstTruthy ["body", "text"]).getD (.str []) := rfl
  unfold rawText orElse at h
  rw [htext] at h
  cases hfirst : payload.firstTruthy ["body", "text"] with
  | none =>
    rw [hfirst] at h
    cases h
    exact iff_of_false (fun hne => hne rfl) Bool.false_ne_true
  | some j =>
    have htruthy := truthy_of_firstTruthy j hfirst
    rw [hfirst, Option.getD_some, if_pos htruthy] at h
    cases j <;> cases h
    refine iff_of_true (fun hnil => ?_) rfl
    rw [units_eq_nil.mp hnil] at htruthy
    cases htruthy

theorem messageRow_confined_iff {me : Own} {c : Contact} {msgId : RowId} {now ts : Text}
    {payload : Json} {side : Side} {r : Row}
    (h : messageRow U numberText me c msgId now
      (textMessage payload side ((payload.firstTruthy ["sentAt", "sent_at", "time"]).getD (.str ts))) =
        some r) :
    r.Confined ↔ PayloadHeld numberText payload ts now ∧ ProfileHeld U me c (side = .me) := by
  unfold messageRow at h
  obtain ⟨style, hstyle, h⟩ := Option.bind_eq_some_iff.mp h
  obtain ⟨media, hmedia, h⟩ := Option.bind_eq_some_iff.mp h
  obtain ⟨text, htext, h⟩ := Option.bind_eq_some_iff.mp h
  obtain ⟨time, htime, h⟩ := Option.bind_eq_some_iff.mp h
  cases h
  obtain ⟨hinside, hstyleHeld⟩ := styleStr_spec (payload.firstTruthy ["color"])
    (payload.firstTruthy ["font"]) rfl rfl truthy_of_firstTruthy truthy_of_firstTruthy hstyle
  have hbackground : unit '"' ∉ (if decide (side = .me) then
      avBg me.avColor.text (dk me.avColor) me.status
      else avBg c.color.text (dk c.color) c.status) := by
    split
    · exact (plain_avBg (plain_color _) (plain_dk _) _).ends_notMem
    · exact (plain_avBg (plain_color _) (plain_dk _) _).ends_notMem
  have htimeHeld : (∀ s ∈ toJsString numberText (shownTime payload ts now), Place.text.Plain s) ↔
      Place.text.Plain time := by
    have hshown : toJsString numberText (shownTime payload ts now) = some time := htime
    simp [hshown]
  have hstyles : (text ≠ [] → AllHeld style) ↔ ((payload.firstTruthy ["body", "text"]).isSome →
      StyleHeld numberText (payload.firstTruthy ["color"]) ∧
        StyleHeld numberText (payload.firstTruthy ["font"])) := by
    rw [rawText_ne_nil_iff htext, hstyleHeld]
  refine (Row.confined_iff hinside hbackground (quote_notMem_mediaImage hmedia)).trans ?_
  constructor
  · rintro ⟨hperson, htime, hstyle⟩
    exact ⟨⟨htimeHeld.mpr htime, fun hsome => (hstyles.mp hstyle hsome).1,
      fun hsome => (hstyles.mp hstyle hsome).2⟩, ⟨hperson.1, hperson.2⟩⟩
  · rintro ⟨hpayload, hprofile⟩
    exact ⟨⟨hprofile.name, hprofile.picture⟩, htimeHeld.mp hpayload.time,
      hstyles.mpr fun hsome => ⟨hpayload.color hsome, hpayload.font hsome⟩⟩

/-- **What is assigned to `innerHTML` for a message** has its strings held and its template's
tags just if the colour, the font and the time of the payload are held, and the name and the
picture of the profile. -/
theorem message_confined_iff {me : Own} {c : Contact} {msgId : RowId} {now ts : Text}
    {payload : Json} {contactName : Option Text} {fromMe : Bool} {r : Row}
    (h : addMsg U numberText me c msgId now (payloadToUiMessage payload contactName fromMe ts) =
      some r) :
    r.Confined ↔ PayloadHeld numberText payload ts now ∧ ProfileHeld U me c fromMe := by
  unfold addMsg payloadToUiMessage at h
  dsimp only at h
  by_cases hwinkd : messageKind payload = some "winkd".toList
  · rw [if_pos hwinkd] at h
    cases h
  by_cases hnudge : messageKind payload = some "nudge".toList
  · rw [if_neg hwinkd, if_pos hnudge] at h
    cases h
  by_cases hwink : messageKind payload = some "wink".toList
  · rw [if_neg hwinkd, if_neg hnudge, if_pos hwink] at h
    cases h
  rw [if_neg hwinkd, if_neg hnudge, if_neg hwink] at h
  cases fromMe with
  | true => exact messageRow_confined_iff h
  | false => exact messageRow_confined_iff h

end AddMsg

namespace Sample

/-- Of Unicode nothing is asked here. -/
def ascii : Unicode := ⟨asciiLower, asciiLower, fun _ => []⟩

def ada : Own := ⟨js "Ada", contactColor, [], .online, true⟩

def bob : Contact :=
  ⟨js "bob#0002", js "BO", js "Bob", [], .online, contactColor, [], 0⟩

def row : RowId := ⟨js "msg-1-ab12", by decide⟩

/-- A greeting in blue, with a name of an emoticon. -/
def greeting : Json :=
  .obj [("id", .ofString "1"), ("body", .ofString "hi <b> :classic-smile:"),
    ("sentAt", .ofString "10:15"), ("color", .ofString "#0000ff")]

theorem greeting_confined :
    ∃ r, addMsg ascii units ada bob row [] (payloadToUiMessage greeting none false []) = some r ∧
      r.Confined := by
  have hsome : (addMsg ascii units ada bob row []
      (payloadToUiMessage greeting none false [])).isSome := by decide
  obtain ⟨r, hr⟩ := Option.isSome_iff_exists.mp hsome
  refine ⟨r, hr, (message_confined_iff hr).mpr ⟨⟨?_, fun _ => ?_, fun _ => ?_⟩, ⟨?_, ?_⟩⟩⟩
  · decide
  · decide
  · exact nofun
  · decide
  · decide

/-- A message whose time is markup. -/
def lateMessage : List (String × Json) :=
  [("conversationId", .ofString "ada#0001"), ("body", .ofString "hi"),
    ("sentAt", .ofString "<img src=x onerror=alert(1)>")]

end Sample

/-- The relay takes the message, and its time becomes an element of the page. -/
theorem message_not_confined :
    ¬ ∀ (U : Unicode) (numberText : Text → CodeUnits) (me : Own) (c : Contact) (msgId : RowId)
      (now ts : Text) (user : Member) (limits : TierLimits) (fields : List (String × Json)) (r : Row),
      validateSendPayload (.obj fields) limits = .ok () →
      addMsg U numberText me c msgId now
        (payloadToUiMessage (forwardedPayload user (.obj fields)) none false ts) = some r →
      r.Confined := by
  intro h
  have htime : (addMsg Sample.ascii units Sample.ada Sample.bob Sample.row []
      (payloadToUiMessage (forwardedPayload ReceivedSize.Sample.ada (.obj Sample.lateMessage)) none
        false [])).map Row.time = some (js "<img src=x onerror=alert(1)>") := by
    decide
  obtain ⟨r, hr, htime⟩ := Option.map_eq_some_iff.mp htime
  have hconfined := h _ _ _ _ _ _ _ _ freeLimits Sample.lateMessage r (by decide) hr
  have hheld : Piece.Held (.raw .text r.time) := by
    refine hconfined.held _ ?_
    simp [Row.pieces, Row.template]
  rw [Piece.held_raw_text, htime] at hheld
  exact absurd hheld (by decide)

end Winkd.Web
