import Winkd.Markup

/-!
# Emoticons and moods

What the web client makes of a mood, and of the names of emoticons: `escapeHtml`,
`emojiTokenToAsset` and `moodToInlineHtml`.  A mood that begins with the name of an emoticon,
its file or an image's URL is shown with the image.

A regular expression is given by the lengths it can match at the front of a string, in the
order in which they are tried.
-/

namespace Winkd.Web
open UnicodeText Markup

/-- What of Unicode the client asks JavaScript for. -/
structure Unicode where
  toUpperCase : CodeUnits → CodeUnits
  toLowerCase : CodeUnits → CodeUnits
  /-- The lengths that `\p{Emoji_Presentation}|\p{Emoji}\uFE0F` matches. -/
  emoji : CodeUnits → List ℕ

def escapeHtml (v : CodeUnits) : CodeUnits :=
  replaceUnit '>' (js "&gt;") (replaceUnit '<' (js "&lt;") (replaceUnit '&' (js "&amp;") v))

/-! ## Emoticons -/

def msnEmoticonBaseUrl : CodeUnits := js "/msn-emoticons"

def spikeyBaseUrl : CodeUnits := js "/emoji-packs/spikey"

/-- The emoticons of a pack: the file and the trigger of each. -/
def spikeyFiles : List (CodeUnits × CodeUnits) :=
  [(js "Smile.png", js ":spikey-smile:"), (js "Laugh.png", js ":spikey-laugh:"),
    (js "Smirk.png", js ":spikey-smirk:"), (js "Excited.png", js ":spikey-excited:"),
    (js "Love.png", js ":spikey-love:"), (js "Love_1.png", js ":spikey-love-2:"),
    (js "Heart.png", js ":spikey-heart:"), (js "Hug.png", js ":spikey-hug:"),
    (js "Sleep.png", js ":spikey-sleep:"), (js "Idea.png", js ":spikey-idea:"),
    (js "King.png", js ":spikey-king:"), (js "Police.png", js ":spikey-police:"),
    (js "Music.png", js ":spikey-music:"), (js "Drink.png", js ":spikey-drink:"),
    (js "Checklist.png", js ":spikey-checklist:"), (js "Party.png", js ":spikey-party:"),
    (js "RIP.png", js ":spikey-rip:"), (js "Coffee.gif", js ":spikey-coffee:"),
    (js "Hearts.gif", js ":spikey-hearts:"), (js "Headbang.gif", js ":spikey-headbang:"),
    (js "Notes.gif", js ":spikey-notes:"), (js "Lightsaber.gif", js ":spikey-lightsaber:"),
    (js "Trophy.gif", js ":spikey-trophy:"), (js "Baseball Bat.gif", js ":spikey-baseball-bat:")]

/-- `SPIKEY_PACK`: the image and the trigger of each emoticon.  Of the files' characters
`encodeURI` changes only the space. -/
def spikeyPack : List (CodeUnits × CodeUnits) :=
  spikeyFiles.map fun x => (spikeyBaseUrl ++ js "/" ++ replaceUnit ' ' (js "%20") x.1, x.2)

/-- `/^:[a-z0-9-]+:/i`: how long a token is at the front of a string, if there is one. -/
def tokenLength (s : CodeUnits) : ℕ :=
  match s with
  | [] => 0
  | u :: rest =>
    let slug := rest.takeWhile isSlug
    if u = unit ':' ∧ slug ≠ [] ∧ (rest.drop slug.length).head? = some (unit ':') then slug.length + 2
    else 0

def isEmojiToken (v : CodeUnits) : Bool := tokenLength (trim v) ≠ 0 && tokenLength (trim v) = (trim v).length

def emojiTokenToAsset (token : CodeUnits) : Option CodeUnits :=
  let t := asciiLower (trim token)
  if !isEmojiToken token then none
  else if (js ":classic-").isPrefixOf t then
    let slug := (t.drop 9).dropLast
    if slug = [] then none else some (msnEmoticonBaseUrl ++ js "/" ++ slug ++ js ".png")
  else if (js ":spikey-").isPrefixOf t then
    match spikeyPack.find? fun x => asciiLower x.2 = t with
    | some hit => some hit.1
    | none =>
      let slug := (t.drop 8).dropLast
      if slug = [] then none else some (spikeyBaseUrl ++ js "/" ++ slug ++ js ".png")
  else none

def isClassicEmojiValue (v : CodeUnits) : Bool :=
  (msnEmoticonBaseUrl ++ js "/").isPrefixOf v || (spikeyBaseUrl ++ js "/").isPrefixOf v

/-! ## Moods -/

/-- With the flags `iu` two more characters are letters: the long s and the Kelvin sign. -/
def foldUnit (u : UInt16) : UInt16 :=
  if u.toNat = 0x17F then unit 's' else if u.toNat = 0x212A then unit 'k' else lowerUnit u

/-- How long the one of several literals is with which a string begins. -/
def literalLength (ts : List CodeUnits) (s : CodeUnits) : ℕ :=
  ((ts.find? fun t => t.isPrefixOf s).map List.length).getD 0

/-- `\.(?:png|gif|webp)` -/
def imageEndings : List CodeUnits := [js ".png", js ".gif", js ".webp"]

/-- `[^\s]+\.(?:png|gif|webp)`: the longest match is tried first. -/
def imageLengths (s : CodeUnits) : List ℕ :=
  (List.range (s.takeWhile fun u => !isSpace u).length).reverse.filterMap fun dot =>
    let ending := literalLength imageEndings ((s.map foldUnit).drop dot)
    if dot ≠ 0 ∧ ending ≠ 0 then some (dot + ending) else none

/-- One of the literals, and then an image's name. -/
def imageUrlLengths (ts : List CodeUnits) (s : CodeUnits) : List ℕ :=
  let n := literalLength ts (s.map foldUnit)
  if n = 0 then [] else (imageLengths (s.drop n)).map (n + ·)

def moodTokenLengths : CodeUnits → List ℕ
  | [] => []
  | u :: rest =>
    let slug := rest.takeWhile fun v => isSlug (foldUnit v)
    if u = unit ':' ∧ slug ≠ [] ∧ (rest.drop slug.length).head? = some (unit ':') then
      [slug.length + 2]
    else []

/-- The match of `moodToInlineHtml`: what it begins with, and the rest after white space.  A
rest of several lines does not match. -/
def matchMood (U : Unicode) (text : CodeUnits) : Option (CodeUnits × CodeUnits) :=
  let lengths := moodTokenLengths text ++ imageUrlLengths [js "https://", js "http://"] text ++
    imageUrlLengths [js "/msn-emoticons/", js "/emoji-packs/"] text ++ U.emoji text
  lengths.findSome? fun n =>
    let rest := (text.drop n).dropWhile isSpace
    if rest.any isLineEnd then none else some (text.take n, rest)

/-- `/^https?:\/\/[^\s]+\.(?:png|gif|webp)$/i` -/
def isImageUrl (s : CodeUnits) : Bool :=
  let n := literalLength [js "https://", js "http://"] (asciiLower s)
  n ≠ 0 && !s.any isSpace && imageEndings.any fun ending =>
    ending.isSuffixOf (asciiLower s) && n + ending.length < s.length

/-- The image with which a mood is shown, and the rest of it. -/
def moodImage (U : Unicode) (mood : CodeUnits) : Option (CodeUnits × CodeUnits) := do
  let (leading, rest) ← matchMood U (trim mood)
  let tokenAsset := emojiTokenToAsset leading
  if tokenAsset.isSome || isClassicEmojiValue leading || isImageUrl leading then
    some (tokenAsset.getD leading, rest)
  else none

/-- A text that `escapeHtml` has escaped. -/
def escaped (s : CodeUnits) : Piece := .given .text s (escapeHtml s)

def moodToInlineHtml (U : Unicode) (mood : CodeUnits) (size : ℕ) : List Piece :=
  if trim mood = [] then []
  else
    match moodImage U mood with
    | none => [escaped (trim mood)]
    | some (src, rest) =>
      [.own (js "<img src=\""), .raw .value src, .own (js "\" alt=\"mood emoji\" style=\"width:"),
        .raw .value (decimal size), .own (js "px;height:"),
        .raw .value (decimal size),
        .own (js "px;vertical-align:middle;object-fit:contain;margin-right:4px;\">"), escaped rest]

end Winkd.Web
