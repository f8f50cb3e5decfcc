import Winkd.Auth

/-!
# What the account endpoints do

Runs of the handlers of `Auth` that nothing overlaps, over a database that does not
fail: which accounts and sessions a request leaves (`AuthEffect`), and when a code is
accepted.
-/

namespace Winkd.Server

/-! ## Rules for the parts of a handler -/

section Rules
variable {α : Type} {Q : α → Backend → Prop} {E : AppError → Backend → Prop} {b : Backend}

@[simp] theorem wp_orInternal (r : Except DbError α) : (orInternal r).wp answer Q E b ↔
    (∀ a, r = .ok a → Q a b) ∧ ∀ e, r = .error e → E (.internal e.text.toList) b := by
  cases r with
  | error e =>
    exact ⟨fun he => ⟨fun _ h => (nomatch h), fun _ h => Except.error.inj h ▸ he⟩, fun hq => hq.2 e rfl⟩
  | ok a =>
    exact ⟨fun hq => ⟨fun _ h => Except.ok.inj h ▸ hq, fun _ h => nomatch h⟩, fun hq => hq.1 a rfl⟩

@[simp] theorem wp_ensure {Q : Unit → Backend → Prop} (c : Bool) (e : AppError) :
    (ensure c e).wp answer Q E b ↔ (c = true → Q () b) ∧ (c = false → E e b) := by
  cases c with
  | false => exact ⟨fun he => ⟨fun h => (nomatch h), fun _ => he⟩, fun h => h.2 rfl⟩
  | true => exact ⟨fun hq => ⟨fun _ => hq, fun h => nomatch h⟩, fun h => h.1 rfl⟩

@[simp] theorem wp_auditLog {Q : Unit → Backend → Prop} (u : Option Id) (a : Action) (ip : IpAddr)
    (m : Metadata) : (auditLog u a ip m).wp answer Q E b ↔
      Q () { b with auditLog := b.auditLog ++ [⟨u, a, ip, m⟩] } := Iff.rfl

@[simp] theorem wp_loginFailed (u : Option Id) (ip : IpAddr) (reason : String) :
    (loginFailed u ip reason).wp answer Q E b ↔
      E .unauthorized { b with auditLog := b.auditLog ++
        [⟨u, .loginFailed, ip, .text "reason" reason.toList⟩] } := Iff.rfl

@[simp] theorem wp_findUserByUsername {Q : Option User → Backend → Prop} (username : Text) :
    (findUserByUsername username).wp answer Q E b ↔ Q (b.findUserByUsername username) b := Iff.rfl

@[simp] theorem wp_findUserByEmail {Q : Option User → Backend → Prop} (email : Text) :
    (findUserByEmail email).wp answer Q E b ↔ Q (b.findUserByEmail email) b := Iff.rfl

@[simp] theorem wp_findUserByOauth {Q : Option User → Backend → Prop} (provider id : Text) :
    (findUserByOauth provider id).wp answer Q E b ↔ Q (b.findUserByOauth provider id) b := Iff.rfl

@[simp] theorem wp_findUserById {Q : Option User → Backend → Prop} (id : Id) :
    (findUserById id).wp answer Q E b ↔ Q (b.findUserById id) b := Iff.rfl

@[simp] theorem wp_findUserBySession {Q : Option User → Backend → Prop} (token : Text) :
    (findUserBySession token).wp answer Q E b ↔ Q (b.findUserBySession token) b := Iff.rfl

@[simp] theorem wp_consumeTotpChallenge {Q : Option Id → Backend → Prop} (token : Text) :
    (consumeTotpChallenge token).wp answer Q E b ↔
      Q (b.consumeTotpChallenge token).1 (b.consumeTotpChallenge token).2 := Iff.rfl

@[simp] theorem wp_setTotpSecret {Q : Unit → Backend → Prop} (u : Id) (secret : Text) :
    (setTotpSecret u secret).wp answer Q E b ↔ Q () (b.setTotpSecret u secret) := Iff.rfl

@[simp] theorem wp_setTotpEnabled {Q : Unit → Backend → Prop} (u : Id) (enabled : Bool) :
    (setTotpEnabled u enabled).wp answer Q E b ↔ Q () (b.setTotpEnabled u enabled) := Iff.rfl

@[simp] theorem wp_countRecoveryCodes {Q : ℕ → Backend → Prop} (u : Id) :
    (countRecoveryCodes u).wp answer Q E b ↔ Q (b.countRecoveryCodes u) b := Iff.rfl

@[simp] theorem wp_auditRecoveryCodeUsed {Q : Unit → Backend → Prop} (u : Id) (ip : IpAddr) :
    (auditRecoveryCodeUsed u ip).wp answer Q E b ↔ Q () { b with auditLog := b.auditLog ++
      [⟨some u, .recoveryCodeUsed, ip, .number "remaining" (b.countRecoveryCodes u)⟩] } := Iff.rfl

@[simp] theorem wp_beginTransaction {Q : ℕ → Backend → Prop} :
    beginTransaction.wp answer Q E b ↔ Q b.begun { b with begun := b.begun + 1 } := Iff.rfl

@[simp] theorem wp_deleteRecoveryCodes {Q : List RecoveryCode → Backend → Prop} (tx : ℕ) (u : Id) :
    (deleteRecoveryCodes tx u).wp answer Q E b ↔
      Q (b.deleteRecoveryCodes tx u).1 (b.deleteRecoveryCodes tx u).2 := Iff.rfl

@[simp] theorem wp_insertRecoveryCode {Q : Unit → Backend → Prop} (tx : ℕ) (u : Id) (hash : Text) :
    (insertRecoveryCode tx u hash).wp answer Q E b ↔ Q () (b.insertRecoveryCode tx u hash) := Iff.rfl

@[simp] theorem wp_commit {Q : Unit → Backend → Prop} (tx : ℕ) :
    (commit tx).wp answer Q E b ↔ Q () (b.commit tx) := Iff.rfl

end Rules

/-! ## Codes -/

/-- Whether `verify_totp_or_recovery` accepts a code. -/
def codeAccepted (C : Crates) (b : Backend) (userId : Id) (secret code : Text) : Bool :=
  if isTotpCode (normalize2faCode code) then
    Totp.verify C (b.now / 1000000) secret (normalize2faCode code)
  else 0 < (b.redeemed userId (C.sha256Hex (normalize2faCode code))).length

/-- What it leaves: a recovery code is consumed. -/
def afterCode (C : Crates) (b : Backend) (userId : Id) (code : Text) : Backend :=
  if isTotpCode (normalize2faCode code) then b
  else (b.consumeRecoveryCode userId (C.sha256Hex (normalize2faCode code))).2

@[simp] theorem wp_verifyTotpOrRecovery (C : Crates) {Q : Bool → Backend → Prop}
    {E : AppError → Backend → Prop} {b : Backend} (userId : Id) (secret code : Text) :
    (verifyTotpOrRecovery C userId secret code).wp answer Q E b ↔
      Q (codeAccepted C b userId secret code) (afterCode C b userId code) := by
  rw [verifyTotpOrRecovery, codeAccepted, afterCode]
  split <;> exact Iff.rfl

/-! ## Sessions -/

/-- `create_session` accepts the token. -/
def Backend.TokenFree (b : Backend) (token : Text) : Prop :=
  token.length ≤ 255 ∧ ∀ s ∈ b.sessions, s.token ≠ token

theorem createSession_free {b : Backend} {userId : Id} {token : Text} (h : b.TokenFree token) :
    b.createSession userId token =
      (.ok (), { b with sessions := b.sessions ++ [b.newSession userId token] }) := by
  have hany : (b.sessions.any fun s => s.token = token) = false := by
    rw [List.any_eq_false]
    exact fun s hs => by simpa using h.2 s hs
  rw [Backend.createSession, if_neg (by have := h.1; omega), hany]
  rfl

theorem createSession_taken {b : Backend} {userId : Id} {token : Text} (h : ¬ b.TokenFree token) :
    ∃ e, b.createSession userId token = (.error e, b) := by
  rw [Backend.createSession]
  split
  · exact ⟨_, rfl⟩
  · rename_i hlen
    split
    · exact ⟨_, rfl⟩
    · rename_i hany
      refine absurd ⟨by omega, ?_⟩ h
      intro s hs heq
      exact hany (List.any_eq_true.mpr ⟨s, hs, by simpa using heq⟩)

theorem wp_createSession {Q : Text → Backend → Prop} {E : AppError → Backend → Prop} {b : Backend}
    {userId : Id} {token : Text}
    (hfree : b.TokenFree token →
      Q token { b with sessions := b.sessions ++ [b.newSession userId token] })
    (htaken : ¬ b.TokenFree token → ∀ e, E e b) : (createSession userId token).wp answer Q E b := by
  have hrun : (createSession userId token).wp answer Q E b ↔
      (∀ a, (b.createSession userId token).1 = .ok a →
          Q token (b.createSession userId token).2) ∧
        ∀ e, (b.createSession userId token).1 = .error e →
          E (.internal e.text.toList) (b.createSession userId token).2 := by
    simp only [createSession, Prog.wp_bind, Prog.wp_ask, wp_orInternal, Prog.wp_pure]
    rfl
  rw [hrun]
  by_cases h : b.TokenFree token
  · rw [createSession_free h]
    exact ⟨fun _ _ => hfree h, fun _ he => by cases he⟩
  · obtain ⟨e, he⟩ := @createSession_taken b userId token h
    rw [he]
    exact ⟨fun _ ha => (by cases ha), fun _ _ => htaken h _⟩

/-! ## The parts that only look -/

section Parts
variable {C : Crates} {o : Outside} {b : Backend} {E : AppError → Backend → Prop}

theorem wp_uniqueWinkdId {Q : Text → Backend → Prop} (base : Text) (hq : ∀ t, Q t b)
    (he : ∀ e, E e b) : (uniqueWinkdId o base).wp answer Q E b := by
  have hfrom : ∀ n i, (uniqueWinkdId.tryFrom o base i n).wp answer Q E b := by
    intro n
    induction n with
    | zero => exact fun _ => hq _
    | succ n ih =>
      intro i
      simp only [uniqueWinkdId.tryFrom, Prog.wp_bind, Prog.wp_ask, wp_orInternal, Prog.wp_ite,
        Prog.wp_pure]
      exact ⟨fun _ _ => ⟨fun _ => ih _, fun _ => hq _⟩, fun _ _ => he _⟩
  exact hfrom 20 0

theorem wp_uniqueUsername {Q : Text → Backend → Prop} (base : Text) (hq : ∀ t, Q t b) :
    (uniqueUsername o base).wp answer Q E b := by
  have hfrom : ∀ n i, (uniqueUsername.tryFrom o base i n).wp answer Q E b := by
    intro n
    induction n with
    | zero => exact fun _ => hq _
    | succ n ih =>
      intro i
      simp only [uniqueUsername.tryFrom, Prog.wp_bind, wp_findUserByUsername]
      split
      · exact hq _
      · exact ih _
  simp only [uniqueUsername, Prog.wp_bind, wp_findUserByUsername]
  split
  · exact hq _
  · exact hfrom _ _

/-- What a row of a new account has. -/
structure IsNew (b : Backend) (u : User) : Prop where
  id : u.id = b.drawn
  totpEnabled : u.totpEnabled = false
  totpSecret : u.totpSecret = none

theorem wp_createUser {Q : User → Backend → Prop} (username winkdId displayName : Text)
    (email passwordHash : Option Text)
    (hq : ∀ u, IsNew b u → Q u { b with users := b.users ++ [u], drawn := b.drawn + 1 })
    (he : ∀ e, E e b) :
    (createUser username winkdId displayName email passwordHash).wp answer Q E b := by
  simp only [createUser, Prog.wp_bind, Prog.wp_ask, wp_orInternal, answer, Backend.createUser]
  split
  · exact ⟨fun _ h => (by cases h), fun _ _ => he _⟩
  · exact ⟨fun _ h => Except.ok.inj h ▸ hq _ ⟨rfl, rfl, rfl⟩, fun _ h => by cases h⟩

theorem wp_linkOauthAccount {Q : Unit → Backend → Prop} (userId : Id) (provider id : Text)
    (hq : id.length ≤ 255 → ∀ l, Q () { b with oauthAccounts := l }) (he : ∀ e, E e b) :
    (linkOauthAccount userId provider id).wp answer Q E b := by
  simp only [linkOauthAccount, Prog.wp_bind, Prog.wp_ask, wp_orInternal, answer,
    Backend.linkOauthAccount]
  split
  · exact ⟨fun _ h => (by cases h), fun _ _ => he _⟩
  · split
    · exact ⟨fun _ h => (by cases h), fun _ _ => he _⟩
    · rename_i hlen
      split
      · exact ⟨fun _ _ => hq (by omega) b.oauthAccounts, fun _ h => by cases h⟩
      · exact ⟨fun _ _ => hq (by omega) _, fun _ h => by cases h⟩

/-- The database and the clock as they were, as far as accounts and sessions go. -/
structure Kept (b b' : Backend) : Prop where
  users : b'.users = b.users
  sessions : b'.sessions = b.sessions
  now : b'.now = b.now
  drawn : b.drawn ≤ b'.drawn

theorem Kept.refl (b : Backend) : Kept b b := ⟨rfl, rfl, rfl, Nat.le_refl _⟩

theorem Kept.trans {b b' b'' : Backend} (h : Kept b b') (h' : Kept b' b'') : Kept b b'' where
  users := h'.users.trans h.users
  sessions := h'.sessions.trans h.sessions
  now := h'.now.trans h.now
  drawn := Nat.le_trans h.drawn h'.drawn

theorem wp_insertRecoveryCodes (tx : ℕ) (userId : Id) (hashes : List Text) :
    (insertRecoveryCodes tx userId hashes).wp answer (fun _ b' => Kept b b') E b := by
  induction hashes generalizing b with
  | nil => exact Kept.refl b
  | cons hash hashes ih =>
    simp only [insertRecoveryCodes, Prog.wp_bind, wp_insertRecoveryCode]
    refine Prog.wp_mono ih ?_ fun _ _ h => h
    exact fun _ _ h => ⟨h.users, h.sessions, h.now, Nat.le_trans (Nat.le_succ _) h.drawn⟩

theorem wp_storeRecoveryCodes {Q : Unit → Backend → Prop} (userId : Id) (hashes : List Text)
    (hq : ∀ b', Kept b b' → Q () b') : (storeRecoveryCodes userId hashes).wp answer Q E b := by
  simp only [storeRecoveryCodes, Prog.wp_bind, wp_beginTransaction, wp_deleteRecoveryCodes,
    wp_commit]
  refine Prog.wp_mono (wp_insertRecoveryCodes _ userId hashes) ?_ fun _ _ h => h
  intro _ b' h
  exact hq _ ⟨h.users, h.sessions, h.now, h.drawn⟩

theorem wp_findLoginUser {Q : Option User → Backend → Prop} (input : Text)
    (hq : ∀ user, (∀ u, user = some u → u ∈ b.users) → Q user b) :
    (findLoginUser input).wp answer Q E b := by
  rw [findLoginUser, Prog.wp_ite]
  exact ⟨fun _ => hq _ fun _ h => List.mem_of_find?_eq_some h,
    fun _ => hq _ fun _ h => List.mem_of_find?_eq_some h⟩

theorem wp_checkPassword (ip : IpAddr) (password : Text) (user : Option User) :
    (checkPassword C ip password user).wp answer (fun u b' => user = some u ∧ b' = b)
      (fun _ b' => Kept b b') b := by
  have hfailed : ∀ log, Kept b { b with auditLog := log } := fun _ => ⟨rfl, rfl, rfl, Nat.le_refl _⟩
  cases user with
  | none => exact hfailed _
  | some user =>
    rw [checkPassword]
    split
    · exact hfailed _
    · simp only [Prog.wp_bind, wp_ensure, Prog.wp_ite, Prog.wp_pure, wp_loginFailed]
      exact ⟨fun _ => ⟨fun _ => ⟨trivial, trivial⟩, fun _ => hfailed _⟩, fun _ => Kept.refl b⟩

/-- The user a password belongs to. -/
theorem wp_passwordUser (headers : Headers) (body : LoginRequest) :
    (passwordUser C headers body).wp answer (fun u b' => u ∈ b.users ∧ Kept b b')
      (fun _ b' => Kept b b') b := by
  have hlimited : ∀ l, Kept b { b with loginLimiter := l } := fun _ => ⟨rfl, rfl, rfl, Nat.le_refl _⟩
  simp only [passwordUser, Prog.wp_bind, Prog.wp_ask, wp_ensure]
  refine ⟨fun _ => ⟨fun _ => wp_findLoginUser _ ?_, fun _ => hlimited _⟩, fun _ => hlimited _⟩
  intro user hmem
  refine Prog.wp_mono (wp_checkPassword _ _ user) ?_ fun _ _ h => (hlimited _).trans h
  rintro u _ ⟨hu, rfl⟩
  exact ⟨hmem u hu, hlimited _⟩

theorem wp_ensureEmailFree {Q : Unit → Backend → Prop} {E : AppError → Backend → Prop} (email : Option Text)
    (hq : Q () b) (he : ∀ e, E e b) : (ensureEmailFree email).wp answer Q E b := by
  cases email with
  | none => exact hq
  | some e =>
    simp only [ensureEmailFree, Prog.wp_bind, wp_findUserByEmail, wp_ensure]
    exact ⟨fun _ => hq, fun _ => he _⟩

/-- **The account a registration creates**, or nothing. -/
theorem wp_registerUser (headers : Headers) (body : RegisterRequest) :
    (registerUser C o headers body).wp answer
      (fun u b' => IsNew b u ∧ b'.users = b.users ++ [u] ∧ b'.sessions = b.sessions ∧
        b'.now = b.now ∧ b'.drawn = b.drawn + 1) (fun _ b' => Kept b b') b := by
  have hlimited : ∀ l, Kept b { b with registerLimiter := l } :=
    fun _ => ⟨rfl, rfl, rfl, Nat.le_refl _⟩
  simp only [registerUser, validatePassword, Prog.wp_bind, Prog.wp_ask, wp_ensure,
    wp_findUserByUsername, Prog.wp_ofExcept]
  refine ⟨fun _ => ⟨fun _ => ⟨fun _ => ⟨fun _ => ⟨fun _ => ?_, fun _ => hlimited _⟩,
    fun _ => hlimited _⟩, fun _ => hlimited _⟩, fun _ => hlimited _⟩, fun _ => hlimited _⟩
  refine wp_ensureEmailFree _ ⟨fun hash _ => ?_, fun _ _ => hlimited _⟩ fun _ => hlimited _
  refine wp_uniqueWinkdId _ (fun winkdId => ?_) fun _ => hlimited _
  exact wp_createUser _ _ _ _ _ (fun u hu => ⟨⟨hu.id, hu.totpEnabled, hu.totpSecret⟩, rfl, rfl, rfl, rfl⟩)
    fun _ => hlimited _

end Parts

/-! ## What a request leaves -/

/-- The user an OAuth callback finds: linked to the provider's account, or with its e-mail
address. -/
def oauthUser (b : Backend) (provider : OAuthProvider) (info : OAuthUserInfo) : Option User :=
  (b.findUserByOauth provider.slug info.providerUserId).or (info.email.bind b.findUserByEmail)

theorem mem_of_oauthUser {b : Backend} {provider : OAuthProvider} {info : OAuthUserInfo} {u : User}
    (h : oauthUser b provider info = some u) : u ∈ b.users := by
  rw [oauthUser, Option.or_eq_some_iff] at h
  rcases h with h | ⟨-, h⟩
  · obtain ⟨a, -, hfind⟩ := Option.bind_eq_some_iff.mp h
    exact List.mem_of_find?_eq_some hfind
  · obtain ⟨e, -, hfind⟩ := Option.bind_eq_some_iff.mp h
    exact List.mem_of_find?_eq_some hfind

/-- The provider's account is linked to a user, or can be. -/
def Linkable (b : Backend) (provider : OAuthProvider) (info : OAuthUserInfo) : Prop :=
  (b.findUserByOauth provider.slug info.providerUserId).isSome = true ∨
    info.providerUserId.length ≤ 255

/-- The OAuth callback logs in a user who exists: its checks pass, the provider's account
belongs to the user, and the session's token can be stored. -/
def OauthLogsIn (C : Crates) (o : Outside) (b : Backend) (req : AuthRequest) (u : User) : Prop :=
  b.TokenFree o.token ∧
    ∃ slug query headers provider info, req = .oauthCallback slug query headers ∧
      OAuthProvider.fromSlug slug = some provider ∧
      ((oauthUserinfo C o provider query headers).run answer b).1 = .ok info ∧
      oauthUser b provider info = some u ∧ Linkable b provider info

/-- The user whose session a request names. -/
def Backend.sessionUser (b : Backend) (headers : Headers) : Option User :=
  (headers.authorization.bind (Text.stripPrefix "Bearer ".toList)).bind b.findUserBySession

/-- The user a challenge was issued for, while it can be taken. -/
def Backend.challengedUser (b : Backend) (token : Text) : Option User :=
  (b.consumeTotpChallenge token).1.bind b.findUserById

/-- The request comes to `verify_totp_or_recovery`, for the user with the stored secret and
with the code. -/
def ComesToVerify (b : Backend) : AuthRequest → User → Text → Text → Prop
  | .totpChallenge _ body, u, secret, code =>
      b.challengedUser body.challengeToken = some u ∧ u.totpSecret = some secret ∧ body.code = code
  | .totpDisable headers c, u, secret, code =>
      b.sessionUser headers = some u ∧ u.totpEnabled = true ∧ u.totpSecret = some secret ∧ c = code
  | .recoveryCodesGenerate headers c, u, secret, code =>
      b.sessionUser headers = some u ∧ u.totpEnabled = true ∧ u.totpSecret = some secret ∧ c = code
  | _, _, _, _ => False

/-- **The request verifies the second factor**: a code for the user's stored secret, or one
of the user's unused recovery codes. -/
def FactorVerified (C : Crates) (b : Backend) (req : AuthRequest) (u : User) : Prop :=
  ∃ secret code, ComesToVerify b req u secret code ∧ codeAccepted C b u.id secret code = true

theorem mem_of_findUserById {b : Backend} {id : Id} {u : User} (h : b.findUserById id = some u) :
    u ∈ b.users := List.mem_of_find?_eq_some h

theorem mem_of_sessionUser {b : Backend} {headers : Headers} {u : User}
    (h : b.sessionUser headers = some u) : u ∈ b.users := by
  obtain ⟨token, -, hu⟩ := Option.bind_eq_some_iff.mp h
  obtain ⟨s, -, hfind⟩ := Option.bind_eq_some_iff.mp hu
  exact mem_of_findUserById hfind

/-- Why a session may be created for a user who exists. -/
inductive MayLogIn (C : Crates) (o : Outside) (b : Backend) (req : AuthRequest) (u : User) : Prop where
  | password (headers : Headers) (body : LoginRequest) (request : req = .login headers body)
      (totpEnabled : u.totpEnabled = false)
  | oauth (logsIn : OauthLogsIn C o b req u)
  | factor (verified : FactorVerified C b req u)

/-- **What a request can do** to accounts and sessions. -/
inductive AuthEffect (C : Crates) (o : Outside) (b : Backend) (req : AuthRequest) (b' : Backend) :
    Prop where
  | kept (kept : Kept b b')
  /-- A session of a user who exists. -/
  | session (u : User) (mem : u ∈ b.users) (may : MayLogIn C o b req u) (users : b'.users = b.users)
      (sessions : b'.sessions = b.sessions ++ [b.newSession u.id o.token])
  /-- A new account, with a session or without. -/
  | account (u : User) (new : IsNew b u) (users : b'.users = b.users ++ [u])
      (sessions : b'.sessions = b.sessions ∨ b'.sessions = b.sessions ++ [b.newSession u.id o.token])
  | secretSet (headers : Headers) (request : req = .totpSetup headers) (u : User)
      (user : b.sessionUser headers = some u)
      (users : b'.users = (b.setTotpSecret u.id (Totp.generateSecret C o.secretBytes)).users)
      (sessions : b'.sessions = b.sessions)
  | enabled (headers : Headers) (code : Text) (request : req = .totpConfirm headers code) (u : User)
      (user : b.sessionUser headers = some u) (secret : Text) (stored : u.totpSecret = some secret)
      (verified : Totp.verify C (b.now / 1000000) secret (normalize2faCode code) = true)
      (users : b'.users = (b.setTotpEnabled u.id true).users) (sessions : b'.sessions = b.sessions)
  | disabled (u : User) (verified : FactorVerified C b req u) (mem : u ∈ b.users)
      (users : b'.users = (b.setTotpEnabled u.id false).users) (sessions : b'.sessions = b.sessions)

section Handlers
variable {C : Crates} {o : Outside} {b : Backend}

theorem wp_loadEnv (provider : OAuthProvider) :
    (provider.loadEnv o).wp answer (fun _ b' => b' = b) (fun _ b' => b' = b) b := by
  simp only [OAuthProvider.loadEnv, Prog.wp_bind, Prog.wp_ofOption, Prog.wp_pure]
  exact ⟨fun _ _ => ⟨fun _ _ => trivial, fun _ => trivial⟩, fun _ => trivial⟩

theorem wp_oauthState (provider : OAuthProvider) (query : OAuthCallbackQuery) (headers : Headers)
    (cfg : OAuthProviderConfig) : (oauthState C provider query headers cfg).wp answer
      (fun _ b' => b' = b) (fun _ b' => b' = b) b := by
  simp only [oauthState, Prog.wp_bind, Prog.wp_ofOption]
  refine ⟨fun _ _ => ⟨fun _ _ => ?_, fun _ => trivial⟩, fun _ => trivial⟩
  split
  · simp only [Prog.wp_bind, wp_ensure, Prog.wp_ofOption, Prog.wp_ask, Prog.wp_pure]
    exact ⟨fun _ => ⟨fun _ _ => ⟨fun _ => rfl, fun _ => rfl⟩, fun _ => trivial⟩, fun _ => trivial⟩
  · rfl

/-- `oauth_callback` leaves everything as it is until it looks for the user. -/
theorem wp_oauthUserinfo (provider : OAuthProvider) (query : OAuthCallbackQuery) (headers : Headers) :
    (oauthUserinfo C o provider query headers).wp answer (fun _ b' => b' = b) (fun _ b' => b' = b) b := by
  simp only [oauthUserinfo, Prog.wp_bind]
  refine Prog.wp_mono (wp_loadEnv provider) ?_ fun _ _ h => h
  rintro cfg _ rfl
  refine Prog.wp_mono (wp_oauthState provider query headers cfg) ?_ fun _ _ h => h
  rintro ⟨pkceVerifier, redirectUrl⟩ _ rfl
  simp only [wp_ensure, Prog.wp_ofExcept, Prog.wp_pure]
  exact ⟨fun _ => ⟨fun _ _ => ⟨fun _ _ => ⟨fun _ => trivial, fun _ => trivial⟩, fun _ _ => trivial⟩,
    fun _ _ => trivial⟩, fun _ => trivial⟩

/-- What a session's creation, and what follows it, leaves. -/
theorem wp_logIn {req : AuthRequest} {b₁ : Backend} (hk : Kept b b₁) {u : User} (hmem : u ∈ b.users)
    (hmay : b.TokenFree o.token → MayLogIn C o b req u) {f : Text → Handler Response}
    (hf : ∀ token b₂, (f token).wp answer (fun _ b' => Kept b₂ b') (fun _ b' => Kept b₂ b') b₂) :
    (createSession u.id o.token >>= f).wp answer (fun _ => AuthEffect C o b req)
      (fun _ => AuthEffect C o b req) b₁ := by
  rw [Prog.wp_bind]
  refine wp_createSession (fun hfree => ?_) fun _ _ => .kept hk
  have hfree : b.TokenFree o.token := ⟨hfree.1, hk.sessions ▸ hfree.2⟩
  have hafter : ∀ b', Kept { b₁ with sessions := b₁.sessions ++ [b₁.newSession u.id o.token] } b' →
      AuthEffect C o b req b' := by
    intro b' h
    refine .session u hmem (hmay hfree) (h.users.trans hk.users) ?_
    rw [h.sessions, hk.sessions, Backend.newSession, hk.now]
    rfl
  exact Prog.wp_mono (hf _ _) (fun _ => hafter) fun _ => hafter

/-- The same for a new account. -/
theorem wp_logInNew {req : AuthRequest} {b₁ : Backend} {u : User} (hnew : IsNew b u)
    (husers : b₁.users = b.users ++ [u]) (hsessions : b₁.sessions = b.sessions)
    (hnow : b₁.now = b.now) {f : Text → Handler Response}
    (hf : ∀ token b₂, (f token).wp answer (fun _ b' => Kept b₂ b') (fun _ b' => Kept b₂ b') b₂) :
    (createSession u.id o.token >>= f).wp answer (fun _ => AuthEffect C o b req)
      (fun _ => AuthEffect C o b req) b₁ := by
  rw [Prog.wp_bind]
  refine wp_createSession (fun _ => ?_) fun _ _ => .account u hnew husers (.inl hsessions)
  have hafter : ∀ b', Kept { b₁ with sessions := b₁.sessions ++ [b₁.newSession u.id o.token] } b' →
      AuthEffect C o b req b' := by
    intro b' h
    refine .account u hnew (h.users.trans husers) (.inr ?_)
    rw [h.sessions, hsessions, Backend.newSession, hnow]
    rfl
  exact Prog.wp_mono (hf _ _) (fun _ => hafter) fun _ => hafter

theorem wp_createTotpChallenge {Q : Text → Backend → Prop} {E : AppError → Backend → Prop}
    (userId : Id) (token : Text) (hq : ∀ l, Q token { b with totpChallenges := l })
    (he : ∀ e, E e b) : (createTotpChallenge userId token).wp answer Q E b := by
  simp only [createTotpChallenge, Prog.wp_bind, Prog.wp_ask, wp_orInternal, Prog.wp_pure, answer,
    Backend.createTotpChallenge]
  split
  · exact ⟨fun _ h => (by cases h), fun _ _ => he _⟩
  · split
    · exact ⟨fun _ h => (by cases h), fun _ _ => he _⟩
    · exact ⟨fun _ _ => hq _, fun _ h => by cases h⟩

theorem login_effect (headers : Headers) (body : LoginRequest) :
    (login C o headers body).wp answer (fun _ => AuthEffect C o b (.login headers body))
      (fun _ => AuthEffect C o b (.login headers body)) b := by
  simp only [login, Prog.wp_bind]
  refine Prog.wp_mono (wp_passwordUser headers body) ?_ fun _ _ h => .kept h
  rintro user b₁ ⟨hmem, hk⟩
  rw [Prog.wp_ite]
  constructor
  · intro _
    simp only [Prog.wp_bind]
    exact wp_createTotpChallenge _ _ (fun _ => .kept ⟨hk.users, hk.sessions, hk.now, hk.drawn⟩)
      fun _ => .kept hk
  · intro henabled
    exact wp_logIn hk hmem (fun _ => .password headers body rfl (Bool.not_eq_true _ ▸ henabled))
      fun _ b₂ => ⟨rfl, rfl, rfl, Nat.le_refl _⟩

theorem register_effect (headers : Headers) (body : RegisterRequest) :
    (register C o headers body).wp answer (fun _ => AuthEffect C o b (.register headers body))
      (fun _ => AuthEffect C o b (.register headers body)) b := by
  rw [register, Prog.wp_bind]
  refine Prog.wp_mono (wp_registerUser headers body) ?_ fun _ _ h => .kept h
  rintro user b₁ ⟨hnew, husers, hsessions, hnow, -⟩
  exact wp_logInNew hnew husers hsessions hnow fun _ b₂ => ⟨rfl, rfl, rfl, Nat.le_refl _⟩

/-- **The user an OAuth callback finds, or creates.** -/
theorem wp_findOrCreateOauthUser (provider : OAuthProvider) (info : OAuthUserInfo) :
    (findOrCreateOauthUser o provider info).wp answer
      (fun u b' => oauthUser b provider info = some u ∧ Linkable b provider info ∧ Kept b b' ∨
        IsNew b u ∧ b'.users = b.users ++ [u] ∧ b'.sessions = b.sessions ∧ b'.now = b.now)
      (fun _ b' => Kept b b' ∨ ∃ u, IsNew b u ∧ b'.users = b.users ++ [u] ∧ b'.sessions = b.sessions)
      b := by
  rw [findOrCreateOauthUser, Prog.wp_bind, wp_findUserByOauth]
  cases hlinked : b.findUserByOauth provider.slug info.providerUserId with
  | some u => exact .inl ⟨by rw [oauthUser, hlinked]; rfl, .inl (by rw [hlinked]; rfl), Kept.refl b⟩
  | none =>
    have hemail : (findOauthEmail info.email).wp answer
        (fun u b' => oauthUser b provider info = u ∧ b' = b) (fun _ _ => False) b := by
      rw [oauthUser, hlinked]
      cases info.email with
      | none => exact ⟨rfl, rfl⟩
      | some e => exact ⟨rfl, rfl⟩
    show (findOauthEmail info.email >>= _).wp answer _ _ b
    rw [Prog.wp_bind]
    refine Prog.wp_mono hemail ?_ fun _ _ h => h.elim
    rintro user _ ⟨hu, rfl⟩
    cases user with
    | some u =>
      show (linkOauthAccount u.id provider.slug info.providerUserId >>= _).wp answer _ _ _
      rw [Prog.wp_bind]
      exact wp_linkOauthAccount _ _ _
        (fun hlen _ => .inl ⟨hu, .inr hlen, rfl, rfl, rfl, Nat.le_refl _⟩) fun _ => .inl (Kept.refl _)
    | none =>
      show (createOauthUser o provider info >>= _).wp answer _ _ _
      simp only [createOauthUser, Prog.wp_bind]
      refine wp_uniqueUsername _ fun username => ?_
      refine wp_uniqueWinkdId _ (fun winkdId => ?_) fun _ => .inl (Kept.refl _)
      refine wp_createUser _ _ _ _ _ (fun u hnew => ?_) fun _ => .inl (Kept.refl _)
      exact wp_linkOauthAccount _ _ _ (fun _ _ => .inr ⟨hnew, rfl, rfl, rfl⟩)
        fun _ => .inr ⟨u, hnew, rfl, rfl⟩

theorem oauthCallback_effect (slug : Text) (query : OAuthCallbackQuery) (headers : Headers) :
    (oauthCallback C o slug query headers).wp answer
      (fun _ => AuthEffect C o b (.oauthCallback slug query headers))
      (fun _ => AuthEffect C o b (.oauthCallback slug query headers)) b := by
  rw [oauthCallback, Prog.wp_bind, Prog.wp_ofOption]
  refine ⟨fun provider hprovider => ?_, fun _ => .kept (Kept.refl b)⟩
  rw [Prog.wp_bind]
  refine Prog.wp_mono (Prog.wp_run (wp_oauthUserinfo provider query headers)) ?_
    fun _ _ h => .kept (h.1 ▸ Kept.refl b)
  rintro info _ ⟨rfl, hinfo⟩
  rw [Prog.wp_bind]
  refine Prog.wp_mono (wp_findOrCreateOauthUser provider info) ?_ ?_
  · rintro u b₁ (⟨hu, hlink, hk⟩ | ⟨hnew, husers, hsessions, hnow⟩)
    · refine wp_logIn hk (mem_of_oauthUser hu) (fun hfree => ?_) fun _ b₂ => Kept.refl b₂
      exact .oauth ⟨hfree, slug, query, headers, provider, info, rfl, hprovider,
        congrArg Prod.fst hinfo, hu, hlink⟩
    · exact wp_logInNew hnew husers hsessions hnow fun _ b₂ => Kept.refl b₂
  · rintro _ b₁ (hk | ⟨u, hnew, husers, hsessions⟩)
    · exact .kept hk
    · exact .account u hnew husers (.inl hsessions)

@[simp] theorem wp_requireAuth {Q : User → Backend → Prop} {E : AppError → Backend → Prop}
    (headers : Headers) : (requireAuth headers).wp answer Q E b ↔
      (∀ u, b.sessionUser headers = some u → Q u b) ∧
        (b.sessionUser headers = none → E .unauthorized b) := by
  simp only [requireAuth, Prog.wp_bind, Prog.wp_ofOption, wp_findUserBySession, Backend.sessionUser]
  cases headers.authorization.bind (Text.stripPrefix "Bearer ".toList) with
  | none => exact ⟨fun h => ⟨fun _ hu => (by cases hu), fun _ => h.2 rfl⟩,
      fun h => ⟨fun _ ht => (by cases ht), fun _ => h.2 rfl⟩⟩
  | some token =>
    exact ⟨fun h => h.1 token rfl, fun h => ⟨fun _ ht => Option.some.inj ht ▸ h, fun ht => by cases ht⟩⟩

theorem afterCode_kept (userId : Id) (code : Text) : Kept b (afterCode C b userId code) := by
  rw [afterCode]
  split <;> exact ⟨rfl, rfl, rfl, Nat.le_refl _⟩

theorem wp_auditIf {Q : Unit → Backend → Prop} {E : AppError → Backend → Prop} (used : Bool) (u : Id)
    (ip : IpAddr) (hq : ∀ l, Q () { b with auditLog := l }) :
    (auditIfRecoveryCode used u ip).wp answer Q E b := by
  rw [auditIfRecoveryCode, Prog.wp_ite]
  exact ⟨fun _ => hq _, fun _ => hq b.auditLog⟩

theorem totpSetup_effect (headers : Headers) :
    (totpSetup C o headers).wp answer (fun _ => AuthEffect C o b (.totpSetup headers))
      (fun _ => AuthEffect C o b (.totpSetup headers)) b := by
  simp only [totpSetup, Prog.wp_bind, wp_requireAuth, wp_setTotpSecret, Prog.wp_pure]
  exact ⟨fun u hu => .secretSet headers rfl u hu rfl rfl, fun _ => .kept (Kept.refl b)⟩

theorem totpConfirm_effect (headers : Headers) (code : Text) :
    (totpConfirm C o headers code).wp answer (fun _ => AuthEffect C o b (.totpConfirm headers code))
      (fun _ => AuthEffect C o b (.totpConfirm headers code)) b := by
  simp only [totpConfirm, totpVerify, Prog.wp_bind, wp_requireAuth, Prog.wp_ofOption, Prog.wp_ask,
    Prog.wp_pure, wp_ensure, wp_setTotpEnabled]
  refine ⟨fun u hu => ⟨fun secret hsecret => ⟨fun hverified => ?_, fun _ => .kept (Kept.refl b)⟩,
    fun _ => .kept (Kept.refl b)⟩, fun _ => .kept (Kept.refl b)⟩
  refine wp_storeRecoveryCodes _ _ fun b' hk => ?_
  exact .enabled headers code rfl u hu secret hsecret hverified hk.users hk.sessions

/-- A request that begins by asking for the second factor. -/
theorem wp_requireSecondFactor {Q : User → Backend → Prop} {E : AppError → Backend → Prop}
    (headers : Headers) (code : Text) (notEnabled : String)
    (hq : ∀ u secret, b.sessionUser headers = some u → u.totpEnabled = true →
      u.totpSecret = some secret → codeAccepted C b u.id secret code = true →
      ∀ b', Kept b b' → Q u b')
    (he : ∀ e b', Kept b b' → E e b') :
    (requireSecondFactor C headers code notEnabled).wp answer Q E b := by
  simp only [requireSecondFactor, requireEnabled, Prog.wp_bind, wp_requireAuth, wp_ensure,
    Prog.wp_ofOption, Prog.wp_pure, wp_verifyTotpOrRecovery]
  refine ⟨fun u hu => ⟨fun henabled => ⟨fun secret hsecret => ⟨fun haccepted => ?_,
    fun _ => he _ _ (afterCode_kept _ _)⟩, fun _ => he _ _ (Kept.refl b)⟩,
    fun _ => he _ _ (Kept.refl b)⟩, fun _ => he _ _ (Kept.refl b)⟩
  refine wp_auditIf _ _ _ fun l => hq u secret hu henabled hsecret haccepted _ ?_
  have hk : Kept b (afterCode C b u.id code) := afterCode_kept _ _
  exact ⟨hk.users, hk.sessions, hk.now, hk.drawn⟩

theorem totpDisable_effect (headers : Headers) (code : Text) :
    (totpDisable C headers code).wp answer (fun _ => AuthEffect C o b (.totpDisable headers code))
      (fun _ => AuthEffect C o b (.totpDisable headers code)) b := by
  rw [totpDisable, Prog.wp_bind]
  refine wp_requireSecondFactor headers code _
    (fun u secret hu henabled hsecret haccepted b₁ hk => ?_) fun _ b₁ hk => .kept hk
  have hcomes : ComesToVerify b (.totpDisable headers code) u secret code :=
    ⟨hu, henabled, hsecret, rfl⟩
  refine .disabled u ⟨secret, code, hcomes, haccepted⟩ (mem_of_sessionUser hu) ?_ hk.sessions
  simp only [Backend.setTotpEnabled, Backend.updateUser, ← hk.users]
  rfl

theorem recoveryCodesGenerate_effect (headers : Headers) (code : Text) :
    (recoveryCodesGenerate C o headers code).wp answer
      (fun _ => AuthEffect C o b (.recoveryCodesGenerate headers code))
      (fun _ => AuthEffect C o b (.recoveryCodesGenerate headers code)) b := by
  rw [recoveryCodesGenerate, Prog.wp_bind]
  refine wp_requireSecondFactor headers code _
    (fun u secret hu henabled hsecret haccepted b₁ hk => ?_) fun _ b₁ hk => .kept hk
  simp only [Prog.wp_bind, wp_countRecoveryCodes]
  exact wp_storeRecoveryCodes _ _ fun b' hk' => .kept (hk.trans ⟨hk'.users, hk'.sessions, hk'.now, hk'.drawn⟩)

theorem totpChallenge_effect (headers : Headers) (body : TotpChallengeRequest) :
    (totpChallenge C o headers body).wp answer
      (fun _ => AuthEffect C o b (.totpChallenge headers body))
      (fun _ => AuthEffect C o b (.totpChallenge headers body)) b := by
  have hk : ∀ l, Kept b { b with totpChallenges := l } := fun _ => ⟨rfl, rfl, rfl, Nat.le_refl _⟩
  simp only [totpChallenge, challengedUser, Prog.wp_bind, wp_consumeTotpChallenge, Prog.wp_ofOption,
    wp_findUserById, Prog.wp_pure, wp_verifyTotpOrRecovery]
  refine ⟨fun userId huserId => ⟨fun u hu => ⟨fun secret hsecret => ?_, fun _ => .kept (hk _)⟩,
    fun _ => .kept (hk _)⟩, fun _ => .kept (hk _)⟩
  have hcomes : ComesToVerify b (.totpChallenge headers body) u secret body.code :=
    ⟨Option.bind_eq_some_iff.mpr ⟨userId, huserId, hu⟩, hsecret, rfl⟩
  refine wp_auditIf _ _ _ fun log => ?_
  have hkept : Kept b { afterCode C (b.consumeTotpChallenge body.challengeToken).2 u.id body.code with
      auditLog := log } :=
    have h := (hk _).trans (afterCode_kept u.id body.code)
    ⟨h.users, h.sessions, h.now, h.drawn⟩
  rw [Prog.wp_ite]
  constructor
  · intro haccepted
    exact wp_logIn hkept (mem_of_findUserById hu) (fun _ => .factor ⟨secret, body.code, hcomes, haccepted⟩)
      fun _ b₂ => ⟨rfl, rfl, rfl, Nat.le_refl _⟩
  · intro _
    exact .kept ⟨hkept.users, hkept.sessions, hkept.now, hkept.drawn⟩

/-- **Every request has one of these effects.** -/
theorem handle_effect (req : AuthRequest) :
    AuthEffect C o b req ((handle C o req).run answer b).2 := by
  apply Prog.run_of_wp
  cases req with
  | login headers body => exact login_effect headers body
  | register headers body => exact register_effect headers body
  | oauthCallback slug query headers => exact oauthCallback_effect slug query headers
  | totpChallenge headers body => exact totpChallenge_effect headers body
  | totpSetup headers => exact totpSetup_effect headers
  | totpConfirm headers code => exact totpConfirm_effect headers code
  | totpDisable headers code => exact totpDisable_effect headers code
  | recoveryCodesGenerate headers code => exact recoveryCodesGenerate_effect headers code

end Handlers

end Winkd.Server
