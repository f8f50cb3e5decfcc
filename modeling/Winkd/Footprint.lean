import Winkd.Auth

/-!
# What the handlers ask for

A handler keeps to a rule when every statement it comes to is one the rule allows,
given the row that `require_auth` has read for it (`KeepsTo`).  Three statements are
special: the one that enables 2FA, the one that issues a challenge and the one that
creates an account.  The others are `plain`, and a handler that issues only these keeps
to every rule that allows them.
-/

namespace Winkd.Server

/-- The statement neither enables 2FA nor issues a challenge nor creates an account. -/
def Op.plain : Op → Bool
  | .setTotpEnabled _ true => false
  | .createTotpChallenge _ _ => false
  | .createUser _ _ _ _ _ => false
  | _ => true

/-- The row that `require_auth` has given a handler. -/
def rowRead (d : Option User) : (r : Op) → Op.Reply r → Option User
  | .findUserBySession _ => fun reply => reply.toOption.bind id
  | _ => fun _ => d

/-- Whatever row was read, the program issues only what it may. -/
def KeepsTo (may : Option User → Op → Prop) {α : Type} (p : Handler α) : Prop :=
  ∀ d, p.Along may rowRead (fun _ _ => True) d

section Rules
variable {may : Option User → Op → Prop} {α β : Type}

theorem keepsTo_pure (a : α) : KeepsTo may (pure a : Handler α) := fun _ => trivial

theorem keepsTo_throw (e : AppError) : KeepsTo may (.throw e : Handler α) := fun _ => trivial

theorem keepsTo_ofOption (e : AppError) (o : Option α) :
    KeepsTo may (Prog.ofOption e o : Handler α) := by
  cases o <;> exact fun _ => trivial

theorem keepsTo_ofExcept (r : Except AppError α) : KeepsTo may (Prog.ofExcept r : Handler α) := by
  cases r <;> exact fun _ => trivial

theorem keepsTo_orInternal (r : Except DbError α) : KeepsTo may (orInternal r) := by
  cases r <;> exact fun _ => trivial

theorem keepsTo_ensure (c : Bool) (e : AppError) : KeepsTo may (ensure c e) := by
  cases c <;> exact fun _ => trivial

theorem keepsTo_ask {r : Op} (hr : ∀ d, may d r) : KeepsTo may (Prog.ask r : Handler (Op.Reply r)) :=
  fun d => ⟨hr d, fun _ => trivial⟩

theorem keepsTo_bind {p : Handler α} {f : α → Handler β} (hp : KeepsTo may p)
    (hf : ∀ a, KeepsTo may (f a)) : KeepsTo may (p >>= f) := by
  intro d
  rw [Prog.along_bind]
  exact (hp d).mono (fun _ _ h => h) fun d a _ => hf a d

theorem keepsTo_ite {c : Prop} [Decidable c] {p q : Handler α} (hp : KeepsTo may p)
    (hq : KeepsTo may q) : KeepsTo may (if c then p else q) := by
  split
  · exact hp
  · exact hq

theorem keepsTo_createUser {username winkdId displayName : Text} {email passwordHash : Option Text}
    (hcreate : ∀ d, may d (.createUser username winkdId displayName email passwordHash)) :
    KeepsTo may (createUser username winkdId displayName email passwordHash) :=
  keepsTo_bind (keepsTo_ask hcreate) keepsTo_orInternal

end Rules

/-! ## The handlers -/

section Handlers
variable {may : Option User → Op → Prop} (hm : ∀ d r, r.plain = true → may d r)
variable {C : Crates} {o : Outside}
include hm

theorem keepsTo_statement {α : Type} (r : Op) (hr : r.plain = true) {k : Op.Reply r → Handler α}
    (hk : ∀ x, KeepsTo may (k x)) : KeepsTo may (Prog.ask r >>= k) :=
  keepsTo_bind (keepsTo_ask fun d => hm d r hr) hk

theorem keepsTo_findUserByUsername (username : Text) :
    KeepsTo may (findUserByUsername username) :=
  keepsTo_statement hm (.findUserByUsername username) rfl keepsTo_orInternal

theorem keepsTo_findUserByEmail (email : Text) : KeepsTo may (findUserByEmail email) :=
  keepsTo_statement hm (.findUserByEmail email) rfl keepsTo_orInternal

theorem keepsTo_findUserByOauth (provider id : Text) :
    KeepsTo may (findUserByOauth provider id) :=
  keepsTo_statement hm (.findUserByOauth provider id) rfl keepsTo_orInternal

theorem keepsTo_findUserById (id : Id) : KeepsTo may (findUserById id) :=
  keepsTo_statement hm (.findUserById id) rfl keepsTo_orInternal

theorem keepsTo_linkOauthAccount (userId : Id) (provider id : Text) :
    KeepsTo may (linkOauthAccount userId provider id) :=
  keepsTo_statement hm (.linkOauthAccount userId provider id) rfl keepsTo_orInternal

theorem keepsTo_createSession (userId : Id) (token : Text) :
    KeepsTo may (createSession userId token) :=
  keepsTo_bind (keepsTo_statement hm (.createSession userId token) rfl keepsTo_orInternal)
    fun _ => keepsTo_pure _

theorem keepsTo_consumeTotpChallenge (token : Text) : KeepsTo may (consumeTotpChallenge token) :=
  keepsTo_statement hm (.consumeTotpChallenge token) rfl keepsTo_orInternal

theorem keepsTo_setTotpSecret (userId : Id) (secret : Text) :
    KeepsTo may (setTotpSecret userId secret) :=
  keepsTo_statement hm (.setTotpSecret userId secret) rfl keepsTo_orInternal

theorem keepsTo_disable (userId : Id) : KeepsTo may (setTotpEnabled userId false) :=
  keepsTo_statement hm (.setTotpEnabled userId false) rfl keepsTo_orInternal

theorem keepsTo_countRecoveryCodes (userId : Id) : KeepsTo may (countRecoveryCodes userId) :=
  keepsTo_statement hm (.countRecoveryCodes userId) rfl keepsTo_orInternal

theorem keepsTo_auditLog (u : Option Id) (a : Action) (ip : IpAddr) (m : Metadata) :
    KeepsTo may (auditLog u a ip m) :=
  keepsTo_statement hm (.insertAuditLog ⟨u, a, ip, m⟩) rfl fun _ => keepsTo_pure _

theorem keepsTo_insertRecoveryCodes (tx : ℕ) (userId : Id) (hashes : List Text) :
    KeepsTo may (insertRecoveryCodes tx userId hashes) := by
  induction hashes with
  | nil => exact keepsTo_pure ()
  | cons hash hashes ih =>
    exact keepsTo_bind (keepsTo_statement hm (.insertRecoveryCode tx userId hash) rfl keepsTo_orInternal)
      fun _ => ih

theorem keepsTo_storeRecoveryCodes (userId : Id) (hashes : List Text) :
    KeepsTo may (storeRecoveryCodes userId hashes) := by
  refine keepsTo_bind (keepsTo_statement hm .beginTransaction rfl keepsTo_orInternal) fun tx => ?_
  refine keepsTo_bind (keepsTo_statement hm (.deleteRecoveryCodes tx userId) rfl keepsTo_orInternal)
    fun _ => ?_
  refine keepsTo_bind (keepsTo_insertRecoveryCodes hm tx userId hashes) fun _ => ?_
  exact keepsTo_statement hm (.commit tx) rfl keepsTo_orInternal

theorem keepsTo_uniqueWinkdId (base : Text) : KeepsTo may (uniqueWinkdId o base) := by
  have hfrom : ∀ n i, KeepsTo may (uniqueWinkdId.tryFrom o base i n) := by
    intro n
    induction n with
    | zero => exact fun i => keepsTo_pure _
    | succ n ih =>
      intro i
      refine keepsTo_bind (keepsTo_statement hm (.winkdIdExists _) rfl keepsTo_orInternal) fun taken => ?_
      exact keepsTo_ite (ih _) (keepsTo_pure _)
  exact hfrom 20 0

theorem keepsTo_uniqueUsername (base : Text) : KeepsTo may (uniqueUsername o base) := by
  have hfrom : ∀ n i, KeepsTo may (uniqueUsername.tryFrom o base i n) := by
    intro n
    induction n with
    | zero => exact fun i => keepsTo_pure _
    | succ n ih =>
      intro i
      refine keepsTo_bind (keepsTo_findUserByUsername hm _) fun found => ?_
      cases found with
      | none => exact keepsTo_pure _
      | some _ => exact ih _
  refine keepsTo_bind (keepsTo_findUserByUsername hm _) fun found => ?_
  cases found with
  | none => exact keepsTo_pure _
  | some _ => exact hfrom _ _

theorem keepsTo_login (hchallenge : ∀ d u t, may d (.createTotpChallenge u t)) (headers : Headers)
    (body : LoginRequest) : KeepsTo may (login C o headers body) := by
  have hfailed : ∀ {α : Type} u reason,
      KeepsTo may (loginFailed u (extractIp headers) reason : Handler α) :=
    fun u reason => keepsTo_bind (keepsTo_auditLog hm _ _ _ _) fun _ => keepsTo_throw _
  have hcheck : ∀ user, KeepsTo may (checkPassword C (extractIp headers) body.password user) := by
    intro user
    cases user with
    | none => exact hfailed _ _
    | some user =>
      rw [checkPassword]
      split
      · exact hfailed _ _
      · refine keepsTo_bind (keepsTo_ensure _ _) fun _ => ?_
        exact keepsTo_ite (keepsTo_pure _) (hfailed _ _)
  have huser : KeepsTo may (passwordUser C headers body) := by
    refine keepsTo_statement hm (.loginLimiterCheck _) rfl fun _ => ?_
    refine keepsTo_bind (keepsTo_ensure _ _) fun _ => keepsTo_bind (keepsTo_ensure _ _) fun _ => ?_
    refine keepsTo_bind ?_ hcheck
    exact keepsTo_ite (keepsTo_findUserByEmail hm _) (keepsTo_findUserByUsername hm _)
  refine keepsTo_bind huser fun user => keepsTo_ite ?_ ?_
  · have hcreate : KeepsTo may (createTotpChallenge user.id o.token) :=
      keepsTo_bind (keepsTo_bind (keepsTo_ask fun d => hchallenge d _ _) keepsTo_orInternal)
        fun _ => keepsTo_pure _
    refine keepsTo_bind hcreate fun _ => ?_
    exact keepsTo_bind (keepsTo_auditLog hm _ _ _ _) fun _ => keepsTo_pure _
  · refine keepsTo_bind (keepsTo_createSession hm _ _) fun _ => ?_
    exact keepsTo_bind (keepsTo_auditLog hm _ _ _ _) fun _ => keepsTo_pure _

theorem keepsTo_registerUser (headers : Headers) (body : RegisterRequest)
    (hnew : ∀ displayName email hash, KeepsTo may (do
      let winkdId ← uniqueWinkdId o (sanitizeIdPart body.username.trim)
      createUser (sanitizeIdPart body.username.trim) winkdId displayName email hash)) :
    KeepsTo may (registerUser C o headers body) := by
  have hemail : ∀ email, KeepsTo may (ensureEmailFree email) := by
    intro email
    cases email with
    | none => exact keepsTo_pure _
    | some e => exact keepsTo_bind (keepsTo_findUserByEmail hm e) fun _ => keepsTo_ensure _ _
  have hpassword : KeepsTo may (validatePassword C body.password) :=
    keepsTo_bind (keepsTo_ensure _ _) fun _ => keepsTo_ensure _ _
  refine keepsTo_statement hm (.registerLimiterCheck _) rfl fun _ => ?_
  refine keepsTo_bind (keepsTo_ensure _ _) fun _ => keepsTo_bind (keepsTo_ensure _ _) fun _ => ?_
  refine keepsTo_bind hpassword fun _ => keepsTo_bind (keepsTo_findUserByUsername hm _) fun _ => ?_
  refine keepsTo_bind (keepsTo_ensure _ _) fun _ => keepsTo_bind (hemail _) fun _ => ?_
  exact keepsTo_bind (keepsTo_ofExcept _) fun hash => hnew _ _ _

theorem keepsTo_register {headers : Headers} {body : RegisterRequest}
    (huser : KeepsTo may (registerUser C o headers body)) : KeepsTo may (register C o headers body) := by
  refine keepsTo_bind huser fun user => keepsTo_bind (keepsTo_createSession hm _ _) fun _ => ?_
  exact keepsTo_bind (keepsTo_auditLog hm _ _ _ _) fun _ => keepsTo_pure _

theorem keepsTo_oauthState (provider : OAuthProvider) (query : OAuthCallbackQuery) (headers : Headers)
    (cfg : OAuthProviderConfig) : KeepsTo may (oauthState C provider query headers cfg) := by
  refine keepsTo_bind (keepsTo_ofOption _ _) fun _ => keepsTo_bind (keepsTo_ofOption _ _) fun _ => ?_
  split
  · refine keepsTo_bind (keepsTo_ensure _ _) fun _ => keepsTo_bind (keepsTo_ofOption _ _) fun _ => ?_
    refine keepsTo_statement hm .currentUnixSecs rfl fun _ => ?_
    exact keepsTo_bind (keepsTo_ensure _ _) fun _ => keepsTo_pure _
  · exact keepsTo_throw _

theorem keepsTo_findOrCreateOauthUser {provider : OAuthProvider} {info : OAuthUserInfo}
    (hnew : KeepsTo may (createOauthUser o provider info)) :
    KeepsTo may (findOrCreateOauthUser o provider info) := by
  have hemail : ∀ email, KeepsTo may (findOauthEmail email) := by
    intro email
    cases email with
    | none => exact keepsTo_pure _
    | some e => exact keepsTo_findUserByEmail hm e
  refine keepsTo_bind (keepsTo_findUserByOauth hm _ _) fun linked => ?_
  cases linked with
  | some user => exact keepsTo_pure _
  | none =>
    refine keepsTo_bind (hemail _) fun found => ?_
    cases found with
    | some user => exact keepsTo_bind (keepsTo_linkOauthAccount hm _ _ _) fun _ => keepsTo_pure _
    | none =>
      refine keepsTo_bind hnew fun user => ?_
      exact keepsTo_bind (keepsTo_linkOauthAccount hm _ _ _) fun _ => keepsTo_pure _

theorem keepsTo_oauthCallback (hnew : ∀ provider info, KeepsTo may (createOauthUser o provider info))
    (slug : Text) (query : OAuthCallbackQuery) (headers : Headers) :
    KeepsTo may (oauthCallback C o slug query headers) := by
  have henv : ∀ provider, KeepsTo may (OAuthProvider.loadEnv o provider) := fun provider =>
    keepsTo_bind (keepsTo_ofOption _ _) fun _ => keepsTo_bind (keepsTo_ofOption _ _) fun _ =>
      keepsTo_pure _
  have hinfo : ∀ provider, KeepsTo may (oauthUserinfo C o provider query headers) := by
    intro provider
    refine keepsTo_bind (henv provider) fun cfg => ?_
    refine keepsTo_bind (keepsTo_oauthState hm provider query headers cfg) fun _ => ?_
    refine keepsTo_bind (keepsTo_ensure _ _) fun _ => keepsTo_bind (keepsTo_ofExcept _) fun _ => ?_
    refine keepsTo_bind (keepsTo_ofExcept _) fun _ => ?_
    exact keepsTo_bind (keepsTo_ensure _ _) fun _ => keepsTo_pure _
  refine keepsTo_bind (keepsTo_ofOption _ _) fun provider => keepsTo_bind (hinfo provider) fun _ => ?_
  refine keepsTo_bind (keepsTo_findOrCreateOauthUser hm (hnew _ _)) fun _ => ?_
  exact keepsTo_bind (keepsTo_createSession hm _ _) fun _ => keepsTo_pure _

theorem keepsTo_requireAuth (headers : Headers) : KeepsTo may (requireAuth headers) := by
  refine keepsTo_bind (keepsTo_ofOption _ _) fun token => ?_
  refine keepsTo_bind (keepsTo_statement hm (.findUserBySession token) rfl keepsTo_orInternal) fun user => ?_
  exact keepsTo_ofOption _ _

theorem keepsTo_verify (userId : Id) (secret code : Text) :
    KeepsTo may (verifyTotpOrRecovery C userId secret code) := by
  refine keepsTo_ite (keepsTo_statement hm .currentUnixSecs rfl fun _ => keepsTo_pure _) ?_
  exact keepsTo_bind (keepsTo_statement hm (.consumeRecoveryCode userId _) rfl keepsTo_orInternal)
    fun _ => keepsTo_pure _

theorem keepsTo_auditIfRecoveryCode (used : Bool) (userId : Id) (ip : IpAddr) :
    KeepsTo may (auditIfRecoveryCode used userId ip) :=
  keepsTo_ite
    (keepsTo_statement hm (.countRecoveryCodes userId) rfl fun _ => keepsTo_auditLog hm _ _ _ _)
    (keepsTo_pure _)

theorem keepsTo_requireSecondFactor (headers : Headers) (code : Text) (notEnabled : String) :
    KeepsTo may (requireSecondFactor C headers code notEnabled) := by
  have henabled : KeepsTo may (requireEnabled headers notEnabled) := by
    refine keepsTo_bind (keepsTo_requireAuth hm headers) fun _ => ?_
    refine keepsTo_bind (keepsTo_ensure _ _) fun _ => ?_
    exact keepsTo_bind (keepsTo_ofOption _ _) fun _ => keepsTo_pure _
  refine keepsTo_bind henabled fun _ => keepsTo_bind (keepsTo_verify hm _ _ _) fun _ => ?_
  refine keepsTo_bind (keepsTo_ensure _ _) fun _ => ?_
  exact keepsTo_bind (keepsTo_auditIfRecoveryCode hm _ _ _) fun _ => keepsTo_pure _

theorem keepsTo_totpChallenge (headers : Headers) (body : TotpChallengeRequest) :
    KeepsTo may (totpChallenge C o headers body) := by
  have huser : KeepsTo may (challengedUser body.challengeToken) := by
    refine keepsTo_bind (keepsTo_consumeTotpChallenge hm _) fun _ => ?_
    refine keepsTo_bind (keepsTo_ofOption _ _) fun _ => keepsTo_bind (keepsTo_findUserById hm _) fun _ => ?_
    refine keepsTo_bind (keepsTo_ofOption _ _) fun _ => ?_
    exact keepsTo_bind (keepsTo_ofOption _ _) fun _ => keepsTo_pure _
  refine keepsTo_bind huser fun _ => keepsTo_bind (keepsTo_verify hm _ _ _) fun _ => ?_
  refine keepsTo_bind (keepsTo_auditIfRecoveryCode hm _ _ _) fun _ => keepsTo_ite ?_ ?_
  · refine keepsTo_bind (keepsTo_createSession hm _ _) fun _ => ?_
    exact keepsTo_bind (keepsTo_auditLog hm _ _ _ _) fun _ => keepsTo_pure _
  · exact keepsTo_bind (keepsTo_auditLog hm _ _ _ _) fun _ => keepsTo_throw _

theorem keepsTo_totpSetup (headers : Headers) : KeepsTo may (totpSetup C o headers) := by
  refine keepsTo_bind (keepsTo_requireAuth hm headers) fun _ => ?_
  exact keepsTo_bind (keepsTo_setTotpSecret hm _ _) fun _ => keepsTo_pure _

theorem keepsTo_totpConfirm (henable : ∀ d u, may d (.setTotpEnabled u true)) (headers : Headers)
    (code : Text) : KeepsTo may (totpConfirm C o headers code) := by
  refine keepsTo_bind (keepsTo_requireAuth hm headers) fun _ => keepsTo_bind (keepsTo_ofOption _ _) fun _ => ?_
  refine keepsTo_statement hm .currentUnixSecs rfl fun _ => keepsTo_bind (keepsTo_ensure _ _) fun _ => ?_
  refine keepsTo_bind (keepsTo_bind (keepsTo_ask fun d => henable d _) keepsTo_orInternal) fun _ => ?_
  refine keepsTo_bind (keepsTo_storeRecoveryCodes hm _ _) fun _ => ?_
  exact keepsTo_bind (keepsTo_auditLog hm _ _ _ _) fun _ => keepsTo_pure _

theorem keepsTo_totpDisable (headers : Headers) (code : Text) :
    KeepsTo may (totpDisable C headers code) := by
  refine keepsTo_bind (keepsTo_requireSecondFactor hm headers code _) fun _ => ?_
  refine keepsTo_bind (keepsTo_disable hm _) fun _ => ?_
  exact keepsTo_bind (keepsTo_auditLog hm _ _ _ _) fun _ => keepsTo_pure _

theorem keepsTo_recoveryCodesGenerate (headers : Headers) (code : Text) :
    KeepsTo may (recoveryCodesGenerate C o headers code) := by
  refine keepsTo_bind (keepsTo_requireSecondFactor hm headers code _) fun _ => ?_
  refine keepsTo_bind (keepsTo_countRecoveryCodes hm _) fun _ => ?_
  refine keepsTo_bind (keepsTo_storeRecoveryCodes hm _ _) fun _ => ?_
  exact keepsTo_bind (keepsTo_auditLog hm _ _ _ _) fun _ => keepsTo_pure _

end Handlers

end Winkd.Server
