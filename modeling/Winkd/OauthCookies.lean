import Winkd.AuthRuns
import Winkd.StringLaws
import Winkd.Percent
import Winkd.Service

/-!
# The state cookie of an OAuth login

`oauth_start` puts five values into a cookie, with `|` between them, and `oauth_callback` takes them apart
again.  The values that are drawn have no `|` in them, but the redirect URL may have one: it comes from the
configuration or from headers.  Then the cookie has a part too many, and the login is refused; without
one the callback goes on with the values of the start (`state_cookie_iff`).
-/

namespace Winkd.Server

/-! ## The provider -/

namespace OAuthProvider

def authUrl : OAuthProvider → Text
  | discord => "https://discord.com/oauth2/authorize".toList
  | google => "https://accounts.google.com/o/oauth2/v2/auth".toList
  | apple => "https://appleid.apple.com/auth/authorize".toList
  | microsoft => "https://login.microsoftonline.com/common/oauth2/v2.0/authorize".toList
  | facebook => "https://www.facebook.com/v18.0/dialog/oauth".toList
  | github => "https://github.com/login/oauth/authorize".toList
  | twitter => "https://twitter.com/i/oauth2/authorize".toList
  | twitch => "https://id.twitch.tv/oauth2/authorize".toList
  | reddit => "https://www.reddit.com/api/v1/authorize".toList
  | steam => "https://steamcommunity.com/openid/login".toList
  | spotify => "https://accounts.spotify.com/authorize".toList
  | linkedin => "https://www.linkedin.com/oauth/v2/authorization".toList

def scopes : OAuthProvider → List String
  | discord => ["identify", "email"]
  | google => ["openid", "profile", "email"]
  | apple => ["name", "email"]
  | microsoft => ["openid", "profile", "email", "offline_access"]
  | facebook => ["email", "public_profile"]
  | github => ["user:email", "read:user"]
  | twitter => ["tweet.read", "users.read"]
  | twitch => ["openid", "user:read:email"]
  | reddit => ["identity"]
  | steam => []
  | spotify => ["user-read-private", "user-read-email"]
  | linkedin => ["openid", "profile", "email"]

end OAuthProvider

/-- What `oauth2` draws for a login, and the address it makes of a provider's. -/
structure Authorization where
  csrfToken : Text
  pkceVerifier : Text
  pkceChallenge : Text
  url : (authUrl clientId redirectUrl : Text) → (scopes : List String) → (state challenge : Text) → Text

/-! ## The cookie -/

/-- The values in the cookie. -/
structure StateCookie where
  provider : Text
  state : Text
  pkceVerifier : Text
  issuedAt : ℕ
  redirectUrl : Text
  deriving DecidableEq

def StateCookie.value (c : StateCookie) : Text :=
  c.provider ++ '|' :: (c.state ++ '|' :: (c.pkceVerifier ++ '|' ::
    ((toString c.issuedAt).toList ++ '|' :: c.redirectUrl)))

/-- The `Set-Cookie` header. -/
def StateCookie.setCookie (C : Crates) (c : StateCookie) : Text :=
  "winkd_oauth_state=".toList ++ C.urlEncode c.value ++
    "; Path=/; HttpOnly; SameSite=Lax; Max-Age=600".toList

/-- `HeaderValue::from_str` accepts the text. -/
def isHeaderValue (t : Text) : Bool :=
  (Text.asBytes t).all fun b => (32 ≤ b.toNat && b.toNat ≠ 127) || b.toNat = 9

/-- A redirect, and the cookie it sets. -/
structure StartResponse where
  location : Text
  setCookie : Text
  deriving DecidableEq

/-- `oauth_start`. -/
def oauthStart (C : Crates) (o : Outside) (a : Authorization) (provider : Text) (headers : Headers) :
    Handler StartResponse := do
  let provider ← Prog.ofOption (.internal "Unsupported OAuth provider".toList)
    (OAuthProvider.fromSlug provider)
  let cfg ← provider.loadEnv o
  let redirectUrl := cfg.redirectUrl.getD (inferRedirectUrl headers provider.slug)
  ensure (C.isRedirectUrl redirectUrl) (.internal "Invalid redirect URL".toList)
  let authUrl := a.url provider.authUrl cfg.clientId redirectUrl provider.scopes a.csrfToken a.pkceChallenge
  let now ← Prog.ask .currentUnixSecs
  let cookie : StateCookie := ⟨provider.slug, a.csrfToken, a.pkceVerifier, now, redirectUrl⟩
  ensure (isHeaderValue (cookie.setCookie C)) (.internal "Failed to set oauth cookie".toList)
  pure ⟨authUrl, cookie.setCookie C⟩

/-- The parts of a decoded cookie. -/
def StateCookie.ofParts : List Text → Option StateCookie
  | [provider, state, pkceVerifier, issuedAt, redirectUrl] =>
    (Text.parseUnsigned (2 ^ 64) issuedAt).map fun issuedAt =>
      ⟨provider, state, pkceVerifier, issuedAt, redirectUrl⟩
  | _ => none

/-- What `oauth_callback` reads in the cookie. -/
def readStateCookie (C : Crates) (headers : Headers) : Option StateCookie :=
  ((parseCookie headers "winkd_oauth_state".toList).bind C.urlDecode).bind fun decoded =>
    StateCookie.ofParts (Text.split '|' decoded)

/-- The redirect URL of a login: the one that is configured, else one made of the headers. -/
def startRedirectUrl (o : Outside) (headers : Headers) (slug : Text) : Text :=
  (envVarFirst o ["WINKD_OAUTH_".toList ++ slug.map Char.toUpper ++ "_REDIRECT_URL".toList,
    "OAUTH_".toList ++ slug.map Char.toUpper ++ "_REDIRECT_URL".toList]).getD (inferRedirectUrl headers slug)

theorem ofOption_some_bind {α β : Type} (e : AppError) (a : α) (f : α → Handler β) :
    Prog.ofOption e (some a) >>= f = f a := rfl

/-- **The checks of the callback** are on what it reads. -/
theorem oauthState_eq (C : Crates) (provider : OAuthProvider) (query : OAuthCallbackQuery)
    (headers : Headers) (cfg : OAuthProviderConfig) :
    oauthState C provider query headers cfg = (do
      let c ← Prog.ofOption AppError.unauthorized (readStateCookie C headers)
      ensure (c.provider == provider.slug && c.state == query.state) .unauthorized
      let now ← Prog.ask .currentUnixSecs
      ensure (now - c.issuedAt ≤ 600) .unauthorized
      pure (c.pkceVerifier,
        if c.redirectUrl.isEmpty then cfg.redirectUrl.getD (inferRedirectUrl headers provider.slug)
        else c.redirectUrl)) := by
  unfold oauthState readStateCookie
  cases parseCookie headers "winkd_oauth_state".toList with
  | none => rfl
  | some cookie =>
    rw [ofOption_some_bind, Option.bind_some]
    cases C.urlDecode cookie with
    | none => rfl
    | some decoded =>
      rw [ofOption_some_bind, Option.bind_some]
      generalize Text.split '|' decoded = parts
      match parts with
      | [cookieProvider, savedState, pkceVerifier, issuedAt, cookieRedirectUrl] =>
        show (ensure (cookieProvider == provider.slug && savedState == query.state) .unauthorized >>= _) =
          (Prog.ofOption .unauthorized ((Text.parseUnsigned (2 ^ 64) issuedAt).map _) >>= _)
        -- both refusals are the same, in whatever order they are made
        cases Text.parseUnsigned (2 ^ 64) issuedAt with
        | some issuedAt => rfl
        | none => cases cookieProvider == provider.slug && savedState == query.state <;> rfl
      | [] | [_] | [_, _] | [_, _, _] | [_, _, _, _] | _ :: _ :: _ :: _ :: _ :: _ :: _ => rfl

/-! ## The browser -/

/-- What `to_str` lets pass. -/
def isVisible (c : Char) : Bool := (32 ≤ c.toNat && c.toNat < 127) || c.toNat = 9

/-- The value of a header as the handlers see it. -/
def headerText (raw : Text) : Text := if raw.all isVisible then raw else []

/-- A cookie with another name. -/
structure OtherCookie where
  name : Text
  value : Text
  name_ne : name.trim ≠ "winkd_oauth_state".toList
  name_chars : ∀ c ∈ name, isVisible c = true ∧ c ≠ ';' ∧ c ≠ '='
  value_chars : ∀ c ∈ value, isVisible c = true ∧ c ≠ ';'

def OtherCookie.pair (c : OtherCookie) : Text := c.name ++ '=' :: c.value

/-- What the browser keeps of a `Set-Cookie` header, and sends back. -/
def cookiePair (setCookie : Text) : Text := setCookie.takeWhile (· != ';')

/-- A `Cookie` header with this pair in it. -/
def cookieHeader (before after : List OtherCookie) (pair : Text) : Text :=
  "; ".toList.intercalate (before.map OtherCookie.pair ++ pair :: after.map OtherCookie.pair)

/-- **Whatever other cookies come with the one that was set, these values are read.** -/
def RoundTrips (C : Crates) (setCookie : Text) (c : StateCookie) : Prop :=
  ∀ (before after : List OtherCookie) (headers : Headers),
    headers.cookie = some (headerText (cookieHeader before after (cookiePair setCookie))) →
      readStateCookie C headers = some c

/-- The callback of a login goes on with these values, for ten minutes and whatever other cookies come
with the one that was set. -/
def Resumes (C : Crates) (setCookie : Text) (c : StateCookie) : Prop :=
  ∀ (before after : List OtherCookie) (provider : OAuthProvider) (query : OAuthCallbackQuery)
    (headers : Headers) (cfg : OAuthProviderConfig) (b : Backend),
    headers.cookie = some (headerText (cookieHeader before after (cookiePair setCookie))) →
    c.provider = provider.slug → c.state = query.state → b.now / 1000000 - c.issuedAt ≤ 600 →
      (oauthState C provider query headers cfg).run answer b = (.ok (c.pkceVerifier, c.redirectUrl), b)

/-! ## The cookies of a header -/

/-- A chunk of the header: its name and its value. -/
def cookieOf (chunk : Text) : Text × Text :=
  let parts := Text.splitOnce '=' chunk.trim
  (parts.1.trim, (parts.2.getD []).trim)

theorem cookieOf_fst {name : Text} (hname : '=' ∉ name) (value : Text) :
    (cookieOf (name ++ '=' :: value)).1 = name.trim := by
  have hfront : '=' ∉ name.dropWhile Text.isWhitespace :=
    fun h => hname ((List.dropWhile_sublist Text.isWhitespace).subset h)
  rw [cookieOf, Text.trim_append_cons (by decide), Text.splitOnce_append hfront]
  exact Text.trim_dropWhile name

theorem cookieOf_of_no_space {name value : Text} (hname : '=' ∉ name)
    (hspace : ∀ c ∈ name ++ '=' :: value, Text.isWhitespace c = false) :
    cookieOf (name ++ '=' :: value) = (name, value) := by
  have hvalue : ∀ c ∈ value, Text.isWhitespace c = false :=
    fun c hc => hspace c (List.mem_append_right _ (List.mem_cons_of_mem _ hc))
  rw [cookieOf, Text.trim_eq_self hspace, Text.splitOnce_append hname]
  show (name.trim, value.trim) = _
  rw [Text.trim_eq_self fun c hc => hspace c (List.mem_append_left _ hc), Text.trim_eq_self hvalue]

/-- The space after a semicolon makes no difference. -/
theorem map_cookieOf_split {x : Text} {xs : List Text} (hx : ';' ∉ x) (hxs : ∀ y ∈ xs, ';' ∉ y) :
    (Text.split ';' ("; ".toList.intercalate (x :: xs))).map cookieOf = (x :: xs).map cookieOf := by
  induction xs generalizing x with
  | nil => rw [List.intercalate_singleton, Text.split, List.splitOn_eq_singleton hx]
  | cons y xs ih =>
    have hy : ';' ∉ ' ' :: y := by
      rw [List.mem_cons, not_or]
      exact ⟨by decide, hxs y List.mem_cons_self⟩
    have hsep : "; ".toList.intercalate (x :: y :: xs) =
        x ++ ';' :: "; ".toList.intercalate ((' ' :: y) :: xs) := by
      rw [List.intercalate_cons_cons, List.intercalate_cons_cons_left, List.append_assoc]
      rfl
    have hrest := ih hy fun z hz => hxs z (List.mem_cons_of_mem _ hz)
    rw [hsep, Text.split, List.splitOn_append_cons_self_of_not_mem hx, List.map_cons]
    exact congrArg (cookieOf x :: ·) hrest

/-- **The cookie is found among the others**. -/
theorem parseCookie_cookieHeader {before after : List OtherCookie} {pair value : Text} {headers : Headers}
    (hpair : ';' ∉ pair) (hcookie : cookieOf pair = ("winkd_oauth_state".toList, value))
    (hheader : headers.cookie = some (cookieHeader before after pair)) :
    parseCookie headers "winkd_oauth_state".toList = some value := by
  -- no other cookie has a semicolon, or this name
  have hother : ∀ c : OtherCookie, ';' ∉ c.pair ∧ (cookieOf c.pair).1 ≠ "winkd_oauth_state".toList := by
    intro c
    have hname : '=' ∉ c.name := fun h => (c.name_chars _ h).2.2 rfl
    constructor
    · rw [OtherCookie.pair, List.mem_append, List.mem_cons, not_or, not_or]
      exact ⟨fun h => (c.name_chars _ h).2.1 rfl, by decide, fun h => (c.value_chars _ h).2 rfl⟩
    · rw [OtherCookie.pair, cookieOf_fst hname]
      exact c.name_ne
  have hsemi : ∀ x ∈ before.map OtherCookie.pair ++ pair :: after.map OtherCookie.pair, ';' ∉ x := by
    intro x hx
    obtain hx | hx := List.mem_append.1 hx
    · obtain ⟨c, -, rfl⟩ := List.mem_map.1 hx
      exact (hother c).1
    · obtain rfl | hx := List.mem_cons.1 hx
      · exact hpair
      · obtain ⟨c, -, rfl⟩ := List.mem_map.1 hx
        exact (hother c).1
  have hmap : (Text.split ';' (cookieHeader before after pair)).map cookieOf =
      (before.map OtherCookie.pair ++ pair :: after.map OtherCookie.pair).map cookieOf := by
    obtain ⟨x, xs, hcons⟩ := List.exists_cons_of_ne_nil
      (List.append_ne_nil_of_right_ne_nil (before.map OtherCookie.pair)
        (List.cons_ne_nil pair (after.map OtherCookie.pair)))
    rw [hcons] at hsemi
    rw [cookieHeader, hcons]
    exact map_cookieOf_split (hsemi x List.mem_cons_self) fun y hy => hsemi y (List.mem_cons_of_mem _ hy)
  -- the last of a name wins, and none after it has it
  have hafter : ((after.map OtherCookie.pair).map cookieOf).reverse.find?
      (fun v => v.1 = "winkd_oauth_state".toList) = none := by
    rw [List.find?_eq_none]
    intro v hv
    obtain ⟨x, hx, rfl⟩ := List.mem_map.1 (List.mem_reverse.1 hv)
    obtain ⟨c, -, rfl⟩ := List.mem_map.1 hx
    rw [decide_eq_true_eq]
    exact (hother c).2
  rw [parseCookie, hheader, Option.bind_some]
  show (((Text.split ';' (cookieHeader before after pair)).map cookieOf).reverse.find?
    fun v => v.1 = "winkd_oauth_state".toList).map Prod.snd = some value
  rw [hmap, List.map_append, List.map_cons, List.reverse_append, List.reverse_cons, List.append_assoc,
    List.find?_append, hafter, Option.none_or, hcookie]
  rfl

/-! ## The values -/

/-- A character that `urlencoding` leaves as it is, as those of the tokens are. -/
def isUnreserved (c : Char) : Bool := c.isAlphanum || c == '-' || c == '_' || c == '.' || c == '~'

/-- `urlencoding`: what it decodes it has encoded, and what it encodes is made of such characters and
percent signs. -/
structure UrlCodec (C : Crates) : Prop where
  decode_encode : ∀ t, C.urlDecode (C.urlEncode t) = some t
  chars : ∀ t, ∀ c ∈ C.urlEncode t, isUnreserved c = true ∨ c = '%'

theorem isUnreserved_iff (c : Char) : isUnreserved c = true ↔
    65 ≤ c.toNat ∧ c.toNat ≤ 90 ∨ 97 ≤ c.toNat ∧ c.toNat ≤ 122 ∨ 48 ≤ c.toNat ∧ c.toNat ≤ 57 ∨
      c.toNat = 45 ∨ c.toNat = 95 ∨ c.toNat = 46 ∨ c.toNat = 126 := by
  have heq : ∀ d : Char, c = d ↔ c.toNat = d.toNat := fun _ => Char.toNat_inj.symm
  simp only [isUnreserved, Char.isAlphanum, Char.isAlpha, Char.isUpper, Char.isLower, Char.isDigit,
    Bool.or_eq_true, Bool.and_eq_true, decide_eq_true_eq, beq_iff_eq, ge_iff_le]
  rw [heq '-', heq '_', heq '.', heq '~', or_assoc, or_assoc, or_assoc, or_assoc, or_assoc]
  exact Iff.rfl

/-- What is encoded can stand in a cookie. -/
theorem cookieChar_of_encoded {c : Char} (hc : isUnreserved c = true ∨ c = '%') :
    isVisible c = true ∧ c ≠ ';' ∧ Text.isWhitespace c = false := by
  obtain hc | rfl := hc
  · rw [isUnreserved_iff] at hc
    refine ⟨?_, ?_, ?_⟩
    · rw [isVisible, Bool.or_eq_true, Bool.and_eq_true, decide_eq_true_eq, decide_eq_true_eq]
      omega
    · rintro rfl
      exact absurd hc (by decide)
    · rw [← Bool.not_eq_true]
      simp only [Text.isWhitespace, Bool.or_eq_true, Bool.and_eq_true, decide_eq_true_eq, beq_iff_eq]
      omega
  · decide

theorem bar_not_mem {t : Text} (ht : ∀ c ∈ t, isUnreserved c = true) : '|' ∉ t := by
  intro h
  exact absurd (ht '|' h) (by decide)

theorem bar_not_mem_slug (p : OAuthProvider) : '|' ∉ p.slug := by
  cases p <;> decide

section
variable {C : Crates} {c : StateCookie}

/-- The pair ends at the first semicolon. -/
theorem cookiePair_append {s : Text} (hs : ';' ∉ s) (t : Text) : cookiePair (s ++ ';' :: t) = s := by
  have hkept : ∀ d ∈ s, (d != ';') = true := by
    intro d hd
    rw [bne_iff_ne]
    rintro rfl
    exact hs hd
  rw [cookiePair, List.takeWhile_append_of_pos hkept]
  exact List.append_nil s

/-- What is read depends on the values alone. -/
theorem readStateCookie_setCookie (hC : UrlCodec C) {before after : List OtherCookie} {headers : Headers}
    (hheader : headers.cookie =
      some (headerText (cookieHeader before after (cookiePair (c.setCookie C))))) :
    readStateCookie C headers = StateCookie.ofParts (Text.split '|' c.value) := by
  have hname : ∀ d ∈ "winkd_oauth_state".toList, isUnreserved d = true := List.all_eq_true.1 (by decide)
  have hchars : ∀ d ∈ "winkd_oauth_state".toList ++ '=' :: C.urlEncode c.value,
      isVisible d = true ∧ d ≠ ';' ∧ Text.isWhitespace d = false := by
    rw [List.forall_mem_append, List.forall_mem_cons]
    exact ⟨fun d hd => cookieChar_of_encoded (.inl (hname d hd)), by decide,
      fun d hd => cookieChar_of_encoded (hC.chars c.value d hd)⟩
  have hpair : cookiePair (c.setCookie C) = "winkd_oauth_state".toList ++ '=' :: C.urlEncode c.value := by
    have hset : c.setCookie C = ("winkd_oauth_state".toList ++ '=' :: C.urlEncode c.value) ++
        ';' :: " Path=/; HttpOnly; SameSite=Lax; Max-Age=600".toList := rfl
    rw [hset]
    exact cookiePair_append (fun h => (hchars _ h).2.1 rfl) _
  have hvisible : (cookieHeader before after (cookiePair (c.setCookie C))).all isVisible = true := by
    have hother : ∀ d : OtherCookie, ∀ e ∈ d.pair, isVisible e = true := by
      intro d
      rw [OtherCookie.pair, List.forall_mem_append, List.forall_mem_cons]
      exact ⟨fun e he => (d.name_chars e he).1, by decide, fun e he => (d.value_chars e he).1⟩
    rw [List.all_eq_true, hpair, cookieHeader]
    apply Text.forall_mem_intercalate
    · exact List.all_eq_true.1 (by decide)
    · rw [List.forall_mem_append, List.forall_mem_cons, List.forall_mem_map, List.forall_mem_map]
      exact ⟨fun d _ => hother d, fun d hd => (hchars d hd).1, fun d _ => hother d⟩
  have hcookie : cookieOf ("winkd_oauth_state".toList ++ '=' :: C.urlEncode c.value) =
      ("winkd_oauth_state".toList, C.urlEncode c.value) :=
    cookieOf_of_no_space (by decide) fun d hd => (hchars d hd).2.2
  rw [headerText, if_pos hvisible, hpair] at hheader
  rw [readStateCookie, parseCookie_cookieHeader (fun h => (hchars _ h).2.1 rfl) hcookie hheader,
    Option.bind_some, hC.decode_encode, Option.bind_some]

/-- **Only the last part can be split further.** -/
theorem ofParts_split_value (hprovider : '|' ∉ c.provider) (hstate : '|' ∉ c.state)
    (hverifier : '|' ∉ c.pkceVerifier) (hissued : c.issuedAt < 2 ^ 64) :
    StateCookie.ofParts (Text.split '|' c.value) = some c ↔ '|' ∉ c.redirectUrl := by
  have hissuedBar : '|' ∉ (toString c.issuedAt).toList :=
    fun h => absurd (Text.isDigit_of_mem_toString h) (by decide)
  have hsplit : Text.split '|' c.value = c.provider :: c.state :: c.pkceVerifier ::
      (toString c.issuedAt).toList :: Text.split '|' c.redirectUrl := by
    rw [Text.split, StateCookie.value, List.splitOn_append_cons_self_of_not_mem hprovider,
      List.splitOn_append_cons_self_of_not_mem hstate, List.splitOn_append_cons_self_of_not_mem hverifier,
      List.splitOn_append_cons_self_of_not_mem hissuedBar]
    rfl
  rw [hsplit]
  constructor
  · intro h
    rw [← Text.length_split_eq_one_iff]
    -- with another part there would be six
    rcases hlast : Text.split '|' c.redirectUrl with _ | ⟨last, _ | ⟨next, rest⟩⟩
    · rw [hlast] at h
      cases h
    · rfl
    · rw [hlast] at h
      cases h
  · intro hlast
    rw [Text.split, List.splitOn_eq_singleton hlast, StateCookie.ofParts,
      Text.parseUnsigned_toString hissued]
    rfl

theorem roundTrips_iff (hC : UrlCodec C) (hprovider : '|' ∉ c.provider) (hstate : '|' ∉ c.state)
    (hverifier : '|' ∉ c.pkceVerifier) (hissued : c.issuedAt < 2 ^ 64) :
    RoundTrips C (c.setCookie C) c ↔ '|' ∉ c.redirectUrl := by
  rw [← ofParts_split_value hprovider hstate hverifier hissued]
  constructor
  · intro h
    let headers : Headers :=
      ⟨"", none, some (headerText (cookieHeader [] [] (cookiePair (c.setCookie C)))), none, none, none⟩
    have hread : readStateCookie C headers = StateCookie.ofParts (Text.split '|' c.value) :=
      readStateCookie_setCookie hC rfl
    exact hread ▸ h [] [] headers rfl
  · intro h before after headers hheader
    rw [readStateCookie_setCookie hC hheader, h]

/-! ## The start of a login -/

/-- **What `oauth_start` sets.** -/
theorem wp_oauthStart (o : Outside) (a : Authorization) (slug : Text) (headers : Headers) (b : Backend) :
    (oauthStart C o a slug headers).wp answer
      (fun response _ => '|' ∉ slug ∧ response.setCookie = StateCookie.setCookie C
        ⟨slug, a.csrfToken, a.pkceVerifier, b.now / 1000000, startRedirectUrl o headers slug⟩)
      (fun _ _ => True) b := by
  simp only [oauthStart, OAuthProvider.loadEnv, Prog.wp_bind, Prog.wp_ofOption, Prog.wp_ask, wp_ensure,
    Prog.wp_pure]
  refine ⟨fun p hp => ?_, fun _ => trivial⟩
  have hslug : p.slug = slug :=
    of_decide_eq_true (List.find?_some (p := fun q => decide (OAuthProvider.slug q = slug)) hp)
  subst hslug
  exact ⟨fun _ _ => ⟨fun _ _ => ⟨fun _ => ⟨fun _ => ⟨bar_not_mem_slug p, rfl⟩, fun _ => trivial⟩,
    fun _ => trivial⟩, fun _ => trivial⟩, fun _ => trivial⟩

/-- **A cookie that is read back resumes its login.** -/
theorem RoundTrips.resumes {setCookie : Text} (h : RoundTrips C setCookie c) (hurl : c.redirectUrl ≠ []) :
    Resumes C setCookie c := by
  intro before after provider query headers cfg b hheader hprovider hstate hfresh
  rw [oauthState_eq, h before after headers hheader, ofOption_some_bind, hprovider, hstate,
    beq_self_eq_true, beq_self_eq_true]
  show (ensure (decide (b.now / 1000000 - c.issuedAt ≤ 600)) .unauthorized >>= _).run answer b = _
  rw [decide_eq_true hfresh, if_neg (by rwa [List.isEmpty_iff])]
  rfl

/-- **The state cookie is read back just if the redirect URL has no `|`**, and then the callback goes on
with the verifier and the URL of the start. -/
theorem state_cookie_iff {o : Outside} {a : Authorization} {slug : Text} {headers : Headers} {b : Backend}
    {response : StartResponse} (hC : UrlCodec C) (hcsrf : ∀ d ∈ a.csrfToken, isUnreserved d = true)
    (hverifier : ∀ d ∈ a.pkceVerifier, isUnreserved d = true) (hnow : b.now / 1000000 < 2 ^ 64)
    (hstart : ((oauthStart C o a slug headers).run answer b).1 = .ok response) :
    (RoundTrips C response.setCookie
        ⟨slug, a.csrfToken, a.pkceVerifier, b.now / 1000000, startRedirectUrl o headers slug⟩ ↔
      '|' ∉ startRedirectUrl o headers slug) ∧
    ('|' ∉ startRedirectUrl o headers slug → startRedirectUrl o headers slug ≠ [] →
      Resumes C response.setCookie
        ⟨slug, a.csrfToken, a.pkceVerifier, b.now / 1000000, startRedirectUrl o headers slug⟩) := by
  obtain ⟨hslug, hset⟩ := ((Prog.wp_iff _ b).1 (wp_oauthStart (C := C) o a slug headers b)).1 response hstart
  rw [hset]
  have hiff := roundTrips_iff (C := C)
    (c := ⟨slug, a.csrfToken, a.pkceVerifier, b.now / 1000000, startRedirectUrl o headers slug⟩)
    hC hslug (bar_not_mem hcsrf) (bar_not_mem hverifier) hnow
  exact ⟨hiff, fun hbar hurl => (hiff.mpr hbar).resumes hurl⟩

end

namespace Sample

/-- `urlencoding`, as far as it decodes what it has encoded. -/
def codecCrates : Crates :=
  { crates with urlEncode := Percent.encode isUnreserved, urlDecode := Percent.decode }

theorem codecCrates_codec : UrlCodec codecCrates where
  decode_encode := Percent.decode_encode (by decide)
  chars t c hc := by
    obtain hkept | rfl | ⟨n, hn, rfl⟩ := Percent.mem_encode hc
    · exact .inl hkept
    · exact .inr rfl
    · have hdigits : ∀ n < 16, isUnreserved (Hex.upperDigit n) = true := by decide
      exact .inl (hdigits n hn)

def authorization : Authorization :=
  ⟨"c5Rf_token".toList, "pk-ce.verifier~".toList, "challenge".toList, fun authUrl _ _ _ _ _ => authUrl⟩

/-- Somebody comes to log in. -/
def visitor : Headers := ⟨"10.0.0.1", none, none, none, none, some "winkd.example".toList⟩

/-- The redirect URL is configured, with a bar in it. -/
def configured : Outside :=
  { outside "" with
    env := fun key =>
      if key = "WINKD_OAUTH_GITHUB_REDIRECT_URL".toList then
        some "https://winkd.example/login?next=a|b".toList
      else (outside "").env key }

/-- The values of the login. -/
def loginCookie (o : Outside) : StateCookie :=
  ⟨"github".toList, authorization.csrfToken, authorization.pkceVerifier, 0,
    startRedirectUrl o visitor "github".toList⟩

set_option maxRecDepth 2000 in
theorem run_oauthStart (o : Outside) (ho : o = outside "" ∨ o = configured) :
    ((oauthStart codecCrates o authorization "github".toList visitor).run answer (.init 0)).1 =
      .ok ⟨OAuthProvider.github.authUrl, (loginCookie o).setCookie codecCrates⟩ := by
  obtain rfl | rfl := ho <;> decide

end Sample

/-- The redirect URL is that of the host. -/
theorem state_cookie_iff_host :
    RoundTrips Sample.codecCrates ((Sample.loginCookie (Sample.outside "")).setCookie Sample.codecCrates)
      (Sample.loginCookie (Sample.outside "")) ∧
    Resumes Sample.codecCrates ((Sample.loginCookie (Sample.outside "")).setCookie Sample.codecCrates)
      (Sample.loginCookie (Sample.outside "")) :=
  have h := state_cookie_iff Sample.codecCrates_codec (List.all_eq_true.1 (by decide))
    (List.all_eq_true.1 (by decide)) (by decide) (Sample.run_oauthStart (Sample.outside "") (.inl rfl))
  ⟨h.1.2 (by decide), h.2 (by decide) (by decide)⟩

/-- The login starts, and its cookie is not read back. -/
theorem state_cookie_split : ((oauthStart Sample.codecCrates Sample.configured Sample.authorization
      "github".toList Sample.visitor).run answer (.init 0)).1 =
        .ok ⟨OAuthProvider.github.authUrl,
          (Sample.loginCookie Sample.configured).setCookie Sample.codecCrates⟩ ∧
    ¬ RoundTrips Sample.codecCrates ((Sample.loginCookie Sample.configured).setCookie Sample.codecCrates)
      (Sample.loginCookie Sample.configured) := by
  refine ⟨Sample.run_oauthStart _ (.inr rfl), ?_⟩
  rw [roundTrips_iff Sample.codecCrates_codec (by decide) (by decide) (by decide) (by decide)]
  decide

end Winkd.Server
