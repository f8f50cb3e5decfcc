import Winkd.SendQueue
import Winkd.Preflight
import Winkd.OauthCookies
import Winkd.UrlParams

/-!
# Signing in on the login page

`login.html` keeps who has signed in where `app.html` reads it.  A password sign-in has the account in
the body of the answer, an OAuth sign-in in the fragment of the URL that the browser is sent to.

What the server has is stored; what it does not have is kept from before, if it was of the same
account.  Only what is stored under `winkd-auth` has a structure, and it is taken as the value that its
JSON has; a write to the storage succeeds.
-/

namespace Winkd.Web
open Winkd.Server

/-! ## What is stored -/

/-- What the pages keep in `localStorage` about who is signed in. -/
structure SessionStorage where
  /-- `winkd-auth`, if it is JSON. -/
  auth : Option Json
  /-- `winkd_session_token` -/
  sessionToken : Option Text
  /-- `winkd_winkd_id` -/
  winkdId : Option Text

namespace SessionStorage

/-- `auth.state.session` -/
def session (st : SessionStorage) : Option Json :=
  st.auth.bind fun auth => (auth.get "state").bind (Json.get "session")

/-- `auth.state.session.profile`, if it is truthy. -/
def profile (st : SessionStorage) : Option Json :=
  (st.session.bind (Json.get "profile")).filter Json.truthy

end SessionStorage

def MOODS_2000S : List Text :=
  ["☕ brb, getting a frappuccino",
   "🎵 avril lavigne on repeat rn",
   "💿 sk8er boi is stuck in my head",
   "🌟 complicated feelings rn",
   "🍭 sugar we're going down",
   "💔 my chemical romance era",
   "🎮 addicted to sims 2",
   "✨ like omg it's so fetch",
   "🌙 sparkling like edward cullen",
   "🎸 boulevard of broken dreams",
   "💫 chasing pavements",
   "🍕 pizza hut friday night!!",
   "💾 downloading songs on emule",
   "📼 rewatching lord of the rings again",
   "🧟 team edward or team jacob?",
   "🌹 twilight saga is my life",
   "👾 my tamagotchi is judging me",
   "📀 burning cds for the car",
   "🎀 wearing my von dutch hat",
   "💻 zoning out on myspace",
   "🌺 nelly furtado vibes",
   "⚡ wake me up when september ends",
   "🦄 crazy in love (beyoncé forever)",
   "🎙️ kelly clarkson was robbed",
   "🌊 surfing the web lol",
   "🏴‍☠️ the pirate bay was peak",
   "📱 brt, sending a text",
   "🧲 one step at a time",
   "🌀 the veronicas understood me",
   "🐱 still thinking about my tamagotchi"].map String.toList

/-- `p.key || other` -/
def kept (p : Option Json) (key : String) (other : Json) : Json :=
  ((p.bind (Json.get key)).filter Json.truthy).getD other

/-- The server's value if there is one that is not blank. -/
def groundTruth (serverValue : Option Text) (other : Json) : Json :=
  match serverValue with
  | some t => if jsTrim t = [] then other else .str t
  | none => other

/-- What is stored of the account with this id. -/
def SessionStorage.profileOf (st : SessionStorage) (winkdId : Text) : Option Json :=
  st.profile.filter fun p => p.getStr "winkdId" = some winkdId

section Saving
variable (draw : Fin MOODS_2000S.length) (st : SessionStorage) (token winkdId displayName : Text)
  (serverMood serverAvatar serverNameColor serverAvColor : Option Text)

/-- `draw` is where in the list the random mood is. -/
def savedProfile : Json :=
  let p := st.profileOf winkdId
  let mood := groundTruth serverMood (kept p "moodMessage" (.str []))
  let isNewAccount := p.isNone
  .obj [("winkdId", .str winkdId), ("displayName", .str displayName),
    ("moodMessage", if isNewAccount && !mood.truthy then .str (MOODS_2000S.get draw) else mood),
    ("status", kept p "status" (.ofString "online")),
    ("avatarData", groundTruth serverAvatar (kept p "avatarData" .null)),
    ("avColor", groundTruth serverAvColor (kept p "avColor" .null)),
    ("nameColor", groundTruth serverNameColor (kept p "nameColor" .null)), ("sessionToken", .str token)]

def saveSession : SessionStorage :=
  let profile := savedProfile draw st token winkdId displayName serverMood serverAvatar serverNameColor
    serverAvColor
  { auth := some (.obj [("state", .obj [("session", .obj [("token", .str token), ("profile", profile)])]),
      ("version", .ofNat 0)])
    sessionToken := some token
    winkdId := some winkdId }

end Saving

/-! ## The two ways -/

/-- What `authenticateWithPassword`, `completeTotpChallenge` and `registerWithPassword` do with the
account that they are answered. -/
def saveResponse (draw : Fin MOODS_2000S.length) (st : SessionStorage) (data : LoginResponse) :
    SessionStorage :=
  saveSession draw st data.sessionToken data.winkdId data.displayName (some data.moodMessage) data.avatarData
    data.displayNameColor data.avColor

/-- `t || null` -/
def orNull (t : Text) : Option Text := if t = [] then none else some t

/-- `hash` is what stands after the number sign; nothing is stored where there is no sign-in.  A page that
is given a code instead would ask the server for the account, which has no such endpoint. -/
def handleOAuthCallback (draw : Fin MOODS_2000S.length) (st : SessionStorage) (hash : Text) :
    Option SessionStorage :=
  let params := UrlParams.parse hash
  let get (name : String) : Text := (UrlParams.get name.toList params).getD []
  if hash = [] ∨ UrlParams.get "oauth".toList params ≠ some "success".toList then none
  else if get "session_token" = [] ∨ get "winkd_id" = [] then none
  else some <| saveSession draw st (get "session_token") (get "winkd_id")
    (if get "display_name" = [] then get "winkd_id" else get "display_name") (some (get "mood_message"))
    (orNull (get "avatar_data")) (orNull (get "display_name_color")) (orNull (get "av_color"))

/-- What the page stores upon an answer, if it is one that signs in.  A redirect loads the page again. -/
def storeSignIn (draw : Fin MOODS_2000S.length) (st : SessionStorage) : Response → Option SessionStorage
  | .login data => some (saveResponse draw st data)
  | .redirect location _ => handleOAuthCallback draw st ((Text.splitOnce '#' location).2.getD [])
  | _ => none

/-! ## What the messenger reads -/

/-- Who `app.html` takes its user for. -/
structure Me where
  myWinkdId : Json
  myName : Json
  myAvColor : Json
  myNameColor : Json
  myAvatarSrc : Json
  myStatus : Json

/-- `other` is the id that is drawn where none is stored. -/
def orDrawn (stored : Json) (other : Text) : Json := if stored.truthy then stored else .str other

def loadProfile (p : Json) (other : Text) : Me where
  myWinkdId := orDrawn (kept (some p) "winkdId" (.str [])) other
  myName := kept (some p) "displayName" (.ofString "You")
  myAvColor := kept (some p) "avColor" (.ofString "#5a5acc")
  myNameColor := (p.get "nameColor").getD .null
  myAvatarSrc := kept (some p) "avatarData" .null
  myStatus := kept (some p) "status" (.ofString "online")

/-- Without a profile there may still be the id that older pages have stored. -/
def loadMe (st : SessionStorage) (other : Text) : Me :=
  match st.profile with
  | some p => loadProfile p other
  | none =>
    { myWinkdId := orDrawn (.str (st.winkdId.getD [])) other
      myName := .ofString "You"
      myAvColor := .ofString "#5a5acc"
      myNameColor := .null
      myAvatarSrc := .null
      myStatus := .ofString "online" }

def wsGetToken (st : SessionStorage) : Json := kept st.session "token" (.str [])

/-! ## What is stored is read -/

section Saved
variable {draw : Fin MOODS_2000S.length} {st : SessionStorage} {token winkdId displayName : Text}
  {serverMood serverAvatar serverNameColor serverAvColor : Option Text}

theorem truthy_str {t : Text} (ht : t ≠ []) : (Json.str t).truthy = true := by
  rw [Json.truthy, List.isEmpty_eq_false_iff.mpr ht]
  rfl

theorem kept_str {p : Json} {key : String} {t : Text} (h : p.get key = some (.str t)) (ht : t ≠ [])
    (other : Json) : kept (some p) key other = .str t := by
  rw [kept, Option.bind_some, h, Option.filter_some, if_pos (truthy_str ht)]
  rfl

theorem groundTruth_some {t : Text} (ht : jsTrim t ≠ []) (other : Json) :
    groundTruth (some t) other = .str t := if_neg ht

/-- What is blank is as good as nothing. -/
theorem groundTruth_orNull (t : Option Text) (other : Json) :
    groundTruth (orNull (t.getD [])) other = groundTruth t other := by
  rcases t with _ | _ | ⟨c, t⟩
  · rfl
  · rfl
  · rfl

/-- What was stored of other accounts does not matter. -/
theorem saveSession_congr {st' : SessionStorage} (h : st.profileOf winkdId = st'.profileOf winkdId) :
    saveSession draw st token winkdId displayName serverMood serverAvatar serverNameColor serverAvColor =
      saveSession draw st' token winkdId displayName serverMood serverAvatar serverNameColor serverAvColor := by
  unfold saveSession savedProfile
  rw [h]

end Saved

/-- The pages take the user for this one: whom the server has stored, as far as it has. -/
structure ShownAs (st : SessionStorage) (token : Text) (user : User) : Prop where
  token : wsGetToken st = .str token
  winkdId : ∀ other, (loadMe st other).myWinkdId = .str user.winkdId
  name : user.displayName ≠ [] → ∀ other, (loadMe st other).myName = .str user.displayName
  avatar : ∀ t, user.avatarData = some t → jsTrim t ≠ [] → ∀ other, (loadMe st other).myAvatarSrc = .str t
  avColor : ∀ t, user.avColor = some t → jsTrim t ≠ [] → ∀ other, (loadMe st other).myAvColor = .str t
  nameColor : ∀ t, user.displayNameColor = some t → jsTrim t ≠ [] →
    ∀ other, (loadMe st other).myNameColor = .str t

theorem shown_saveSession (draw : Fin MOODS_2000S.length) (st : SessionStorage) {token displayName : Text}
    {user : User} (htoken : token ≠ []) (hwinkdId : user.winkdId ≠ [])
    (hname : user.displayName ≠ [] → displayName = user.displayName) :
    ShownAs (saveSession draw st token user.winkdId displayName (some user.moodMessage) user.avatarData
      user.displayNameColor user.avColor) token user := by
  have hloaded : ∀ other, loadMe (saveSession draw st token user.winkdId displayName (some user.moodMessage)
      user.avatarData user.displayNameColor user.avColor) other = loadProfile (savedProfile draw st token
        user.winkdId displayName (some user.moodMessage) user.avatarData user.displayNameColor user.avColor)
        other := fun _ => rfl
  have htruth : ∀ {v : Option Text} {t : Text}, v = some t → jsTrim t ≠ [] → ∀ other,
      some (groundTruth v other) = some (.str t) := by
    intro v t hv ht other
    rw [hv, groundTruth_some ht]
  have hne : ∀ {t : Text}, jsTrim t ≠ [] → t ≠ [] := by
    rintro t ht rfl
    exact ht rfl
  constructor
  · exact kept_str rfl htoken _
  · intro other
    rw [hloaded]
    show orDrawn (kept (some _) "winkdId" (.str [])) other = _
    rw [kept_str (t := user.winkdId) rfl hwinkdId, orDrawn, if_pos (truthy_str hwinkdId)]
  · intro hdisplay other
    rw [hloaded, ← hname hdisplay]
    exact kept_str rfl (hname hdisplay ▸ hdisplay) _
  · intro t ht htrim other
    rw [hloaded]
    refine kept_str ?_ (hne htrim) _
    exact htruth ht htrim _
  · intro t ht htrim other
    rw [hloaded]
    refine kept_str ?_ (hne htrim) _
    exact htruth ht htrim _
  · intro t ht htrim other
    rw [hloaded]
    show groundTruth user.displayNameColor _ = _
    rw [ht, groundTruth_some htrim]

end Winkd.Web
