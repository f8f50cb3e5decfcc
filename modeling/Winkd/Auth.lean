import Winkd.Database
import Winkd.Totp

/-!
# The account endpoints

`auth.rs`: login, registration, the OAuth callback, the two-factor endpoints and the
recovery codes.  A handler is a program over the statements of `Database`; what it
draws at random, and what an OAuth provider answers it, is given to it (`Outside`).

Where the source returns early with an error, the handler throws it; what was
written before stays written.
-/

namespace Winkd.Server

/-- `error.rs`. -/
inductive AppError where
  | unauthorized
  | conflict (message : Text)
  | notFound (message : Text)
  | internal (message : Text)
  | tooManyRequests
  deriving DecidableEq

/-- The headers the handlers look at, decoded.  A value that is not visible ASCII counts as empty:
`to_str` fails on it, and the handlers go on as they do with an empty one. -/
structure Headers where
  /-- What `extract_ip` makes of the headers. -/
  ip : IpAddr
  authorization : Option Text
  cookie : Option Text
  forwardedProto : Option Text
  forwardedHost : Option Text
  host : Option Text

/-- `extract_ip`. -/
def extractIp (headers : Headers) : IpAddr := headers.ip

structure LoginRequest where
  username : Text
  password : Text

structure RegisterRequest where
  username : Text
  password : Text
  displayName : Text
  email : Option Text

structure OAuthCallbackQuery where
  code : Text
  state : Text

structure TotpChallengeRequest where
  challengeToken : Text
  code : Text

structure OAuthUserInfo where
  providerUserId : Text
  email : Option Text
  displayName : Option Text
  preferredUsername : Option Text

structure OAuthProviderConfig where
  clientId : Text
  clientSecret : Text
  redirectUrl : Option Text

structure LoginResponse where
  sessionToken : Text
  winkdId : Text
  displayName : Text
  moodMessage : Text
  avatarData : Option Text
  displayNameColor : Option Text
  avColor : Option Text
  deriving DecidableEq

/-- What the handlers answer with. -/
inductive Response where
  | login (r : LoginResponse)
  | totpRequired (challengeToken : Text)
  /-- A redirect that clears the state cookie. -/
  | redirect (location setCookie : Text)
  | totpSetup (secret uri : Text)
  | totpConfirm (backupCodes : List Text)
  | ok
  | regenerated (backupCodes : List Text) (remainingBefore : ℕ)
  deriving DecidableEq

inductive OAuthProvider where
  | discord
  | google
  | apple
  | microsoft
  | facebook
  | github
  | twitter
  | twitch
  | reddit
  | steam
  | spotify
  | linkedin
  deriving DecidableEq

namespace OAuthProvider

def all : List OAuthProvider :=
  [discord, google, apple, microsoft, facebook, github, twitter, twitch, reddit, steam, spotify,
    linkedin]

def slug : OAuthProvider → Text
  | discord => "discord".toList
  | google => "google".toList
  | apple => "apple".toList
  | microsoft => "microsoft".toList
  | facebook => "facebook".toList
  | github => "github".toList
  | twitter => "twitter".toList
  | twitch => "twitch".toList
  | reddit => "reddit".toList
  | steam => "steam".toList
  | spotify => "spotify".toList
  | linkedin => "linkedin".toList

def fromSlug (slug : Text) : Option OAuthProvider := all.find? fun p => p.slug = slug

end OAuthProvider

/-- A digit of a UUID. -/
def isUuidDigit (c : Char) : Bool := c.isDigit || ('a' ≤ c && c ≤ 'f')

/-- `&Uuid::new_v4().simple().to_string()[..4]`: the first four digits of a UUID. -/
structure UuidStart where
  digits : Text
  length_eq : digits.length = 4
  isUuid : digits.all isUuidDigit = true

/-- What a request gets from outside: the random values it draws, and what the OAuth
provider answers to the exchange of the code and to the question who the user is. -/
structure Outside where
  /-- `new_session_token`, for a session or for a challenge. -/
  token : Text
  /-- The bytes of a new TOTP secret. -/
  secretBytes : List UInt8
  /-- The codes of `generate_recovery_codes`. -/
  recoveryCodes : List Text
  salt : Text
  /-- The suffixes `unique_winkd_id` tries. -/
  suffix : ℕ → ℕ
  /-- What `unique_username` falls back on. -/
  usernameUuid : UuidStart
  /-- What `unique_winkd_id` falls back on. -/
  winkdIdUuid : UuidStart
  exchangeCode : (redirectUrl pkceVerifier code : Text) → Except Text Text
  fetchUserinfo : (accessToken : Text) → Except AppError OAuthUserInfo
  /-- The environment variables. -/
  env : Text → Option Text

/-- A handler. -/
abbrev Handler (α : Type) : Type := Prog Op Op.Reply AppError α

/-- `.map_err(|e| AppError::Internal(e.to_string()))?`. -/
def orInternal {α : Type} : Except DbError α → Handler α
  | .ok a => pure a
  | .error e => .throw (.internal e.text.toList)

/-- Throw `e` unless `b`. -/
def ensure (b : Bool) (e : AppError) : Handler Unit := if b then pure () else .throw e

/-! ## Statements, with their errors mapped -/

def findUserByUsername (username : Text) : Handler (Option User) :=
  Prog.ask (.findUserByUsername username) >>= orInternal

def findUserByEmail (email : Text) : Handler (Option User) :=
  Prog.ask (.findUserByEmail email) >>= orInternal

def findUserByOauth (provider providerUserId : Text) : Handler (Option User) :=
  Prog.ask (.findUserByOauth provider providerUserId) >>= orInternal

def findUserById (id : Id) : Handler (Option User) := Prog.ask (.findUserById id) >>= orInternal

def findUserBySession (token : Text) : Handler (Option User) :=
  Prog.ask (.findUserBySession token) >>= orInternal

def createUser (username winkdId displayName : Text) (email passwordHash : Option Text) :
    Handler User :=
  Prog.ask (.createUser username winkdId displayName email passwordHash) >>= orInternal

def linkOauthAccount (userId : Id) (provider providerUserId : Text) : Handler Unit :=
  Prog.ask (.linkOauthAccount userId provider providerUserId) >>= orInternal

/-- The session's token is the one that was drawn. -/
def createSession (userId : Id) (token : Text) : Handler Text := do
  Prog.ask (.createSession userId token) >>= orInternal
  pure token

def createTotpChallenge (userId : Id) (token : Text) : Handler Text := do
  Prog.ask (.createTotpChallenge userId token) >>= orInternal
  pure token

def consumeTotpChallenge (token : Text) : Handler (Option Id) :=
  Prog.ask (.consumeTotpChallenge token) >>= orInternal

def setTotpSecret (userId : Id) (secret : Text) : Handler Unit :=
  Prog.ask (.setTotpSecret userId secret) >>= orInternal

def setTotpEnabled (userId : Id) (enabled : Bool) : Handler Unit :=
  Prog.ask (.setTotpEnabled userId enabled) >>= orInternal

def countRecoveryCodes (userId : Id) : Handler ℕ :=
  Prog.ask (.countRecoveryCodes userId) >>= orInternal

/-- Whether a row was deleted. -/
def consumeRecoveryCode (userId : Id) (codeHash : Text) : Handler Bool := do
  let rows ← Prog.ask (.consumeRecoveryCode userId codeHash) >>= orInternal
  pure (0 < rows.length)

/-- `pool.begin()`. -/
def beginTransaction : Handler ℕ := Prog.ask .beginTransaction >>= orInternal

def deleteRecoveryCodes (tx : ℕ) (userId : Id) : Handler (List RecoveryCode) :=
  Prog.ask (.deleteRecoveryCodes tx userId) >>= orInternal

def insertRecoveryCode (tx : ℕ) (userId : Id) (codeHash : Text) : Handler Unit :=
  Prog.ask (.insertRecoveryCode tx userId codeHash) >>= orInternal

/-- `tx.commit()`. -/
def commit (tx : ℕ) : Handler Unit := Prog.ask (.commit tx) >>= orInternal

/-- The loop of `store_recovery_codes`. -/
def insertRecoveryCodes (tx : ℕ) (userId : Id) : List Text → Handler Unit
  | [] => pure ()
  | hash :: hashes => do
    insertRecoveryCode tx userId hash
    insertRecoveryCodes tx userId hashes

/-- `store_recovery_codes`: in one transaction, the old set is deleted and the new one
inserted. -/
def storeRecoveryCodes (userId : Id) (hashes : List Text) : Handler Unit := do
  let tx ← beginTransaction
  let _ ← deleteRecoveryCodes tx userId
  insertRecoveryCodes tx userId hashes
  commit tx

/-- `audit::log`: a failure is not passed on. -/
def auditLog (userId : Option Id) (action : Action) (ip : IpAddr) (metadata : Metadata) :
    Handler Unit := do
  let _ ← Prog.ask (.insertAuditLog ⟨userId, action, ip, metadata⟩)
  pure ()

/-! ## Names -/

/-- `sanitize_id_part`. -/
def sanitizeIdPart (input : Text) : Text :=
  let filtered := Text.toAsciiLowercase
    ((input.filter fun c => c.isAlphanum || c == '_' || c == '-').take 24)
  if filtered.len < 3 then "winkd".toList else filtered

/-- `unique_winkd_id`: up to twenty suffixes are tried. -/
def uniqueWinkdId (o : Outside) (base : Text) : Handler Text := tryFrom 0 20
where
  tryFrom (i : ℕ) : ℕ → Handler Text
    | 0 => pure (base ++ '#' :: o.winkdIdUuid.digits)
    | n + 1 => do
      let candidate := base ++ '#' :: Text.pad4 (o.suffix i % 10000)
      let taken ← Prog.ask (.winkdIdExists candidate) >>= orInternal
      if taken then tryFrom (i + 1) n else pure candidate

/-- `unique_username`: the base, then the base with 2 to 99 after it. -/
def uniqueUsername (o : Outside) (base : Text) : Handler Text := do
  match ← findUserByUsername base with
  | none => pure base
  | some _ => tryFrom 2 98
where
  tryFrom (i : ℕ) : ℕ → Handler Text
    | 0 => pure (base ++ o.usernameUuid.digits)
    | n + 1 => do
      let candidate := base ++ (toString i).toList
      match ← findUserByUsername candidate with
      | none => pure candidate
      | some _ => tryFrom (i + 1) n

variable (C : Crates) (o : Outside)

/-- `validate_password`. -/
def validatePassword (password : Text) : Handler Unit := do
  ensure (12 ≤ password.len) (.internal "Password must be at least 12 characters".toList)
  ensure (password.any C.isUppercase && password.any C.isLowercase && password.any Char.isDigit)
    (.internal ("Password must contain at least one uppercase letter, one lowercase letter, " ++
      "and one digit").toList)

/-- The body of a login response. -/
def loginResponse (sessionToken : Text) (user : User) : LoginResponse where
  sessionToken := sessionToken
  winkdId := user.winkdId
  displayName := user.displayName
  moodMessage := user.moodMessage
  avatarData := user.avatarData
  displayNameColor := user.displayNameColor
  avColor := user.avColor

/-! ## Login and registration -/

/-- An audited refusal. -/
def loginFailed {α : Type} (userId : Option Id) (ip : IpAddr) (reason : String) : Handler α := do
  auditLog userId .loginFailed ip (.text "reason" reason.toList)
  .throw .unauthorized

/-- The user a login names, by username or by e-mail address. -/
def findLoginUser (input : Text) : Handler (Option User) :=
  if input.contains '@' then findUserByEmail input else findUserByUsername input

/-- The check of `login` on the password.  OAuth-only accounts have none. -/
def checkPassword (ip : IpAddr) (password : Text) : Option User → Handler User
  | none => loginFailed none ip "unknown_user"
  | some user =>
    match user.passwordHash with
    | none => loginFailed (some user.id) ip "oauth_only_account"
    | some hash => do
      ensure (C.isPasswordHash hash) .unauthorized
      if C.verifyPassword password hash then pure user
      else loginFailed (some user.id) ip "wrong_password"

/-- `login` as far as the password: the user it belongs to. -/
def passwordUser (headers : Headers) (body : LoginRequest) : Handler User := do
  let ip := extractIp headers
  let permitted ← Prog.ask (.loginLimiterCheck ip)
  ensure permitted .tooManyRequests
  let input := body.username.trim
  ensure (!input.isEmpty && !body.password.isEmpty) .unauthorized
  let user ← findLoginUser input
  checkPassword C ip body.password user

def login (headers : Headers) (body : LoginRequest) : Handler Response := do
  let user ← passwordUser C headers body
  if user.totpEnabled then do
    let challengeToken ← createTotpChallenge user.id o.token
    auditLog (some user.id) .totpChallengeIssued (extractIp headers) .empty
    pure (.totpRequired challengeToken)
  else do
    let token ← createSession user.id o.token
    auditLog (some user.id) .login (extractIp headers) .empty
    pure (.login (loginResponse token user))

/-- The e-mail address a registration gives, if any. -/
def registerEmail (body : RegisterRequest) : Option Text :=
  (body.email.map Text.trim).filter fun e => !e.isEmpty

/-- The uniqueness check of `register` on the e-mail address. -/
def ensureEmailFree : Option Text → Handler Unit
  | none => pure ()
  | some e => do
    let existing ← findUserByEmail e
    ensure existing.isNone (.conflict "Email already registered".toList)

/-- `register` as far as the new account. -/
def registerUser (headers : Headers) (body : RegisterRequest) : Handler User := do
  let permitted ← Prog.ask (.registerLimiterCheck (extractIp headers))
  ensure permitted .tooManyRequests
  let username := sanitizeIdPart body.username.trim
  ensure (3 ≤ username.len) (.internal "Username must be at least 3 characters".toList)
  validatePassword C body.password
  let existing ← findUserByUsername username
  ensure existing.isNone (.conflict "Username already taken".toList)
  ensureEmailFree (registerEmail body)
  let hash ← Prog.ofExcept <| (C.hashPassword body.password o.salt).mapError
    fun e => .internal ("Password hashing failed: ".toList ++ e)
  let winkdId ← uniqueWinkdId o username
  let displayName := if body.displayName.trim.isEmpty then username else body.displayName.trim
  createUser username winkdId displayName (registerEmail body) (some hash)

def register (headers : Headers) (body : RegisterRequest) : Handler Response := do
  let user ← registerUser C o headers body
  let token ← createSession user.id o.token
  auditLog (some user.id) .register (extractIp headers) (.text "winkd_id" user.winkdId)
  pure (.login (loginResponse token user))

/-! ## OAuth -/

/-- `env_var_first`. -/
def envVarFirst (keys : List Text) : Option Text := keys.findSome? o.env

/-- `OAuthProvider::load_env`. -/
def OAuthProvider.loadEnv (p : OAuthProvider) : Handler OAuthProviderConfig := do
  let upper := p.slug.map Char.toUpper
  let var (suffix : String) : Option Text :=
    envVarFirst o ["WINKD_OAUTH_".toList ++ upper ++ suffix.toList,
      "OAUTH_".toList ++ upper ++ suffix.toList]
  let missing := AppError.internal ("OAuth provider ".toList ++ p.slug ++ " is not configured".toList)
  let clientId ← Prog.ofOption missing (var "_CLIENT_ID")
  let clientSecret ← Prog.ofOption missing (var "_CLIENT_SECRET")
  pure ⟨clientId, clientSecret, var "_REDIRECT_URL"⟩

/-- `parse_cookie`: of two cookies with one name, the later counts. -/
def parseCookie (headers : Headers) (key : Text) : Option Text :=
  headers.cookie.bind fun cookies =>
    let values := (Text.split ';' cookies).map fun chunk =>
      let parts := Text.splitOnce '=' chunk.trim
      (parts.1.trim, (parts.2.getD []).trim)
    (values.reverse.find? fun v => v.1 = key).map Prod.snd

/-- `infer_redirect_url`. -/
def inferRedirectUrl (headers : Headers) (providerSlug : Text) : Text :=
  let forwardedProto := (headers.forwardedProto.map fun v =>
    ((Text.split ',' v).headD []).trim).filter fun v => !v.isEmpty
  let host := ((headers.forwardedHost.or headers.host).filter fun v => !v.isEmpty).getD
    "localhost:8080".toList
  let proto := forwardedProto.getD
    (if "localhost".toList.isPrefixOf host || "127.0.0.1".toList.isPrefixOf host ||
        "[::1]".toList.isPrefixOf host then "http".toList else "https".toList)
  proto ++ "://".toList ++ host ++ "/api/auth/oauth/".toList ++ providerSlug ++ "/callback".toList

/-- The user with the e-mail address the provider gives, if it gives one. -/
def findOauthEmail : Option Text → Handler (Option User)
  | none => pure none
  | some email => findUserByEmail email

/-- The third part of `find_or_create_oauth_user`: a brand-new user. -/
def createOauthUser (provider : OAuthProvider) (info : OAuthUserInfo) : Handler User := do
  let base := (((info.preferredUsername.or info.displayName).map sanitizeIdPart).filter
    fun s => 3 ≤ s.len).getD provider.slug
  let username ← uniqueUsername o base
  let winkdId ← uniqueWinkdId o username
  let displayName := (info.displayName.filter fun s => !s.isEmpty).getD username
  createUser username winkdId displayName info.email none

/-- `find_or_create_oauth_user`: the user the provider's account is linked to; the user
with its e-mail address, who is linked to it; or a new one. -/
def findOrCreateOauthUser (provider : OAuthProvider) (info : OAuthUserInfo) : Handler User := do
  match ← findUserByOauth provider.slug info.providerUserId with
  | some user => pure user
  | none => do
    match ← findOauthEmail info.email with
    | some user => do
      linkOauthAccount user.id provider.slug info.providerUserId
      pure user
    | none => do
      let user ← createOauthUser o provider info
      linkOauthAccount user.id provider.slug info.providerUserId
      pure user

/-- The checks of `oauth_callback` before the provider is asked: the state cookie is of
this provider, carries the state, and is at most ten minutes old.  The result is the
PKCE verifier and the redirect URL. -/
def oauthState (provider : OAuthProvider) (query : OAuthCallbackQuery) (headers : Headers)
    (cfg : OAuthProviderConfig) : Handler (Text × Text) := do
  let cookie ← Prog.ofOption .unauthorized (parseCookie headers "winkd_oauth_state".toList)
  let decoded ← Prog.ofOption .unauthorized (C.urlDecode cookie)
  match Text.split '|' decoded with
  | [cookieProvider, savedState, pkceVerifier, issuedAt, cookieRedirectUrl] =>
    ensure (cookieProvider == provider.slug && savedState == query.state) .unauthorized
    let issuedAt ← Prog.ofOption .unauthorized (Text.parseUnsigned (2 ^ 64) issuedAt)
    let now ← Prog.ask .currentUnixSecs
    ensure (now - issuedAt ≤ 600) .unauthorized
    let redirectUrl :=
      if cookieRedirectUrl.isEmpty then cfg.redirectUrl.getD (inferRedirectUrl headers provider.slug)
      else cookieRedirectUrl
    pure (pkceVerifier, redirectUrl)
  | _ => .throw .unauthorized

/-- The checks of `oauth_callback`, and the provider's answers: who the user is there. -/
def oauthUserinfo (provider : OAuthProvider) (query : OAuthCallbackQuery) (headers : Headers) :
    Handler OAuthUserInfo := do
  let cfg ← provider.loadEnv o
  let (pkceVerifier, redirectUrl) ← oauthState C provider query headers cfg
  ensure (C.isRedirectUrl redirectUrl) (.internal "Invalid redirect URL".toList)
  let accessToken ← Prog.ofExcept <| (o.exchangeCode redirectUrl pkceVerifier query.code).mapError
    fun e => .internal ("Token exchange failed: ".toList ++ e)
  let info ← Prog.ofExcept (o.fetchUserinfo accessToken)
  ensure (!info.providerUserId.isEmpty) (.internal "Provider returned empty user ID".toList)
  pure info

/-- Where `oauth_callback` redirects to. -/
def oauthLocation (sessionToken : Text) (user : User) : Text :=
  "/login.html#oauth=success&session_token=".toList ++ C.urlEncode sessionToken ++
    "&winkd_id=".toList ++ C.urlEncode user.winkdId ++
    "&display_name=".toList ++ C.urlEncode user.displayName ++
    "&mood_message=".toList ++ C.urlEncode user.moodMessage ++
    "&avatar_data=".toList ++ C.urlEncode (user.avatarData.getD []) ++
    "&display_name_color=".toList ++ C.urlEncode (user.displayNameColor.getD []) ++
    "&av_color=".toList ++ C.urlEncode (user.avColor.getD [])

/-- `oauth_callback`. -/
def oauthCallback (provider : Text) (query : OAuthCallbackQuery) (headers : Headers) :
    Handler Response := do
  let provider ← Prog.ofOption (.internal "Unsupported OAuth provider".toList)
    (OAuthProvider.fromSlug provider)
  let info ← oauthUserinfo C o provider query headers
  let user ← findOrCreateOauthUser o provider info
  let sessionToken ← createSession user.id o.token
  pure (.redirect (oauthLocation C sessionToken user)
    "winkd_oauth_state=; Path=/; HttpOnly; SameSite=Lax; Max-Age=0".toList)

/-! ## The second factor -/

/-- `require_auth`. -/
def requireAuth (headers : Headers) : Handler User := do
  let token ← Prog.ofOption .unauthorized
    (headers.authorization.bind (Text.stripPrefix "Bearer ".toList))
  let user ← findUserBySession token
  Prog.ofOption .unauthorized user

/-- `normalize_2fa_code`. -/
def normalize2faCode (input : Text) : Text :=
  Text.toAsciiLowercase (input.trim.filter fun c => !Text.isWhitespace c && c != '-')

/-- `is_totp_code`. -/
def isTotpCode (code : Text) : Bool := code.len == 6 && code.all Char.isDigit

/-- `totp::verify`, at the current time. -/
def totpVerify (secret code : Text) : Handler Bool := do
  let now ← Prog.ask .currentUnixSecs
  pure (Totp.verify C now secret code)

/-- `verify_totp_or_recovery`. -/
def verifyTotpOrRecovery (userId : Id) (secret code : Text) : Handler Bool :=
  let codeClean := normalize2faCode code
  if isTotpCode codeClean then totpVerify C secret codeClean
  else consumeRecoveryCode userId (C.sha256Hex codeClean)

/-- The audit entry of a recovery code that was redeemed. -/
def auditRecoveryCodeUsed (userId : Id) (ip : IpAddr) : Handler Unit := do
  let remaining : Except DbError ℕ ← Prog.ask (Op.countRecoveryCodes userId)
  auditLog (some userId) .recoveryCodeUsed ip
    (.number "remaining" (remaining.toOption.getD 0))

/-- The same, if one was used. -/
def auditIfRecoveryCode (used : Bool) (userId : Id) (ip : IpAddr) : Handler Unit :=
  if used then auditRecoveryCodeUsed userId ip else pure ()

/-- `totp_challenge` as far as the challenge: the user it was issued for, and that user's
secret. -/
def challengedUser (token : Text) : Handler (User × Text) := do
  let userId ← consumeTotpChallenge token
  let userId ← Prog.ofOption .unauthorized userId
  let user ← findUserById userId
  let user ← Prog.ofOption .unauthorized user
  let secret ← Prog.ofOption .unauthorized user.totpSecret
  pure (user, secret)

def totpChallenge (headers : Headers) (body : TotpChallengeRequest) : Handler Response := do
  let ip := extractIp headers
  let (user, secret) ← challengedUser body.challengeToken
  let usingRecoveryCode := !isTotpCode (normalize2faCode body.code)
  let verified ← verifyTotpOrRecovery C user.id secret body.code
  auditIfRecoveryCode (verified && usingRecoveryCode) user.id ip
  if verified then do
    let sessionToken ← createSession user.id o.token
    auditLog (some user.id) .totpChallengePassed ip .empty
    pure (.login (loginResponse sessionToken user))
  else do
    auditLog (some user.id) .totpChallengeFailed ip .empty
    .throw .unauthorized

def totpSetup (headers : Headers) : Handler Response := do
  let user ← requireAuth headers
  let secret := Totp.generateSecret C o.secretBytes
  setTotpSecret user.id secret
  pure (.totpSetup secret (Totp.totpUri C secret user.winkdId "Winkd".toList))

def totpConfirm (headers : Headers) (code : Text) : Handler Response := do
  let user ← requireAuth headers
  let secret ← Prog.ofOption
    (.internal "No pending TOTP secret — call /setup first".toList) user.totpSecret
  let verified ← totpVerify C secret (normalize2faCode code)
  ensure verified .unauthorized
  setTotpEnabled user.id true
  storeRecoveryCodes user.id (o.recoveryCodes.map C.sha256Hex)
  auditLog (some user.id) .totpEnabled (extractIp headers) .empty
  pure (.totpConfirm o.recoveryCodes)

/-- The user of a session, who must have 2FA enabled, and that user's secret. -/
def requireEnabled (headers : Headers) (notEnabled : String) : Handler (User × Text) := do
  let user ← requireAuth headers
  ensure user.totpEnabled (.internal notEnabled.toList)
  let secret ← Prog.ofOption .unauthorized user.totpSecret
  pure (user, secret)

/-- What `totp_disable` and `recovery_codes_generate` begin with: the user has a session
and 2FA, and the code is accepted. -/
def requireSecondFactor (headers : Headers) (code : Text) (notEnabled : String) : Handler User := do
  let (user, secret) ← requireEnabled headers notEnabled
  let usingRecoveryCode := !isTotpCode (normalize2faCode code)
  let verified ← verifyTotpOrRecovery C user.id secret code
  ensure verified .unauthorized
  auditIfRecoveryCode usingRecoveryCode user.id (extractIp headers)
  pure user

def totpDisable (headers : Headers) (code : Text) : Handler Response := do
  let user ← requireSecondFactor C headers code "2FA is not currently enabled"
  setTotpEnabled user.id false
  auditLog (some user.id) .totpDisabled (extractIp headers) .empty
  pure .ok

def recoveryCodesGenerate (headers : Headers) (code : Text) : Handler Response := do
  let user ← requireSecondFactor C headers code "2FA must be enabled to manage recovery codes"
  let remainingBefore ← countRecoveryCodes user.id
  storeRecoveryCodes user.id (o.recoveryCodes.map C.sha256Hex)
  auditLog (some user.id) .recoveryCodesRegenerated (extractIp headers)
    (.number "previous_remaining" remainingBefore)
  pure (.regenerated o.recoveryCodes remainingBefore)

/-! ## Requests -/

/-- A request to one of the endpoints. -/
inductive AuthRequest where
  | login (headers : Headers) (body : LoginRequest)
  | register (headers : Headers) (body : RegisterRequest)
  | oauthCallback (provider : Text) (query : OAuthCallbackQuery) (headers : Headers)
  | totpChallenge (headers : Headers) (body : TotpChallengeRequest)
  | totpSetup (headers : Headers)
  | totpConfirm (headers : Headers) (code : Text)
  | totpDisable (headers : Headers) (code : Text)
  | recoveryCodesGenerate (headers : Headers) (code : Text)

/-- The handler a request is routed to. -/
def handle : AuthRequest → Handler Response
  | .login headers body => login C o headers body
  | .register headers body => register C o headers body
  | .oauthCallback provider query headers => oauthCallback C o provider query headers
  | .totpChallenge headers body => totpChallenge C o headers body
  | .totpSetup headers => totpSetup C o headers
  | .totpConfirm headers code => totpConfirm C o headers code
  | .totpDisable headers code => totpDisable C headers code
  | .recoveryCodesGenerate headers code => recoveryCodesGenerate C o headers code

end Winkd.Server
