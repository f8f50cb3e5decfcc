import Winkd.Histories
import Winkd.SingleUse
import Winkd.AccountNames
import Winkd.AccountOwners

/-!
# What a request may do by what it has been told

A handler of an account endpoint looks around before it gives anything: it finds the user and
verifies a password, it takes a challenge and checks a code, it asks the provider.  `May` is the
rule for the statements that give something, as the handlers apply it: each needs that the
request itself was told so, by the tables or by the clock, before.

Every handler abides by it (`handle_abides`).
-/

namespace Winkd.Server
open Threads

/-- What a request has asked and been answered. -/
abbrev Past : Type := History Op Op.Reply

/-- The headers of a request that needs a session. -/
def AuthRequest.bearer : AuthRequest → Option Headers
  | .totpSetup headers => some headers
  | .totpConfirm headers _ => some headers
  | .totpDisable headers _ => some headers
  | .recoveryCodesGenerate headers _ => some headers
  | _ => none

/-- The code for the second factor. -/
def AuthRequest.code : AuthRequest → Option Text
  | .totpChallenge _ body => some body.code
  | .totpConfirm _ code => some code
  | .totpDisable _ code => some code
  | .recoveryCodesGenerate _ code => some code
  | _ => none

/-- The row of `users` that a statement answers. -/
def Op.found : (r : Op) → Op.Reply r → Option User
  | .findUserByUsername _ => fun x => x.toOption.bind id
  | .findUserByEmail _ => fun x => x.toOption.bind id
  | .findUserByOauth _ _ => fun x => x.toOption.bind id
  | .findUserById _ => fun x => x.toOption.bind id
  | .findUserBySession _ => fun x => x.toOption.bind id
  | .createUser _ _ _ _ _ => fun x => x.toOption
  | _ => fun _ => none

namespace Past
variable (C : Crates) (o : Outside) (req : AuthRequest) (past : Past)

/-- The user was found by a login's input. -/
def LookedUp (input : Text) (user : User) : Prop :=
  if input.contains '@' then past.Told (.findUserByEmail input) (.ok (some user))
  else past.Told (.findUserByUsername input) (.ok (some user))

/-- The request is a login with the password of the user that it names. -/
def PasswordShown (user : User) : Prop :=
  ∃ headers body hash, req = .login headers body ∧ past.LookedUp body.username.trim user ∧
    user.passwordHash = some hash ∧ C.verifyPassword body.password hash = true

/-- The request has the token of a session of the user's. -/
def SessionShown (user : User) : Prop :=
  ∃ headers token, req.bearer = some headers ∧
    headers.authorization.bind (Text.stripPrefix "Bearer ".toList) = some token ∧
    past.Told (.findUserBySession token) (.ok (some user))

/-- The request has a code for the user's secret, or an unused recovery code. -/
def FactorShown (user : User) : Prop :=
  ∃ code secret, req.code = some code ∧ user.totpSecret = some secret ∧
    ((∃ now, past.Told .currentUnixSecs now ∧ Totp.verify C now secret (normalize2faCode code) = true) ∨
      ∃ c rows, past.Told (.consumeRecoveryCode user.id (C.sha256Hex (normalize2faCode code)))
        (.ok (c :: rows)))

/-- The callback comes from the browser that began the sign-in: it has the cookie that was made for
this provider, with the state that the callback has, not more than ten minutes before. -/
def StateShown (slug : Text) (query : OAuthCallbackQuery) (headers : Headers) (pkceVerifier : Text) :
    Prop :=
  ∃ cookie decoded issued issuedAt redirectUrl now,
    parseCookie headers "winkd_oauth_state".toList = some cookie ∧ C.urlDecode cookie = some decoded ∧
      Text.split '|' decoded = [slug, query.state, pkceVerifier, issued, redirectUrl] ∧
      Text.parseUnsigned (2 ^ 64) issued = some issuedAt ∧ past.Told .currentUnixSecs now ∧
      now - issuedAt ≤ 600

/-- The request is a sign-in, and this is what the provider gives for its code. -/
def ProviderVouches (slug : Text) (info : OAuthUserInfo) : Prop :=
  ∃ query headers pkceVerifier redirectUrl token, req = .oauthCallback slug query headers ∧
    past.StateShown C slug query headers pkceVerifier ∧
    o.exchangeCode redirectUrl pkceVerifier query.code = .ok token ∧ o.fetchUserinfo token = .ok info

/-- The request has created the account. -/
def Created (email passwordHash : Option Text) (user : User) : Prop :=
  ∃ username winkdId displayName,
    past.Told (.createUser username winkdId displayName email passwordHash) (.ok user)

/-- The account is new, or was found by the e-mail address that the provider gives. -/
def Matched (info : OAuthUserInfo) (user : User) : Prop :=
  past.Created info.email none user ∨
    ∃ email, info.email = some email ∧ past.Told (.findUserByEmail email) (.ok (some user))

/-- Why the request may be given a session of the account. -/
inductive Warrant (id : Id) : Prop
  /-- The password, and the account has no 2FA. -/
  | password (user : User) (shown : past.PasswordShown C req user) (id : user.id = id)
      (off : user.totpEnabled = false)
  /-- The account is the one that the request registers. -/
  | registration (headers : Headers) (body : RegisterRequest) (request : req = .register headers body)
      (hash : Text) (hashed : C.hashPassword body.password o.salt = .ok hash) (user : User)
      (created : past.Created (registerEmail body) (some hash) user) (id : user.id = id)
  /-- The provider's identity is linked to the account, or comes to be. -/
  | identity (slug : Text) (info : OAuthUserInfo) (vouched : past.ProviderVouches C o req slug info) (user : User)
      (matched : past.Told (.findUserByOauth slug info.providerUserId) (.ok (some user)) ∨
        past.Matched info user) (id : user.id = id)
  /-- A challenge that was issued for the account, and the second factor. -/
  | factor (headers : Headers) (body : TotpChallengeRequest)
      (request : req = .totpChallenge headers body)
      (issued : Id) (taken : past.Told (.consumeTotpChallenge body.challengeToken) (.ok (some issued)))
      (user : User) (found : past.Told (.findUserById issued) (.ok (some user)))
      (shown : past.FactorShown C req user) (id : user.id = id)

/-- **The rule for what a handler asks.** -/
def May : Op → Prop
  | .createSession id _ => Warrant C o req past id
  | .createTotpChallenge id _ =>
      ∃ user, past.PasswordShown C req user ∧ user.id = id ∧ user.totpEnabled = true
  | .consumeTotpChallenge token =>
      ∃ headers body, req = .totpChallenge headers body ∧ body.challengeToken = token
  | .linkOauthAccount id provider providerUserId =>
      ∃ info user, past.ProviderVouches C o req provider info ∧ info.providerUserId = providerUserId ∧
        past.Matched info user ∧ user.id = id
  | .setTotpSecret id _ => ∃ user, past.SessionShown req user ∧ user.id = id
  | .setTotpEnabled id _ =>
      ∃ user, past.SessionShown req user ∧ user.id = id ∧ past.FactorShown C req user
  | .deleteRecoveryCodes _ id =>
      ∃ user, past.SessionShown req user ∧ user.id = id ∧ past.FactorShown C req user
  | .insertRecoveryCode _ id _ =>
      ∃ user, past.SessionShown req user ∧ user.id = id ∧ past.FactorShown C req user
  | _ => True

/-- The request was told of the user. -/
def Knows (user : User) : Prop := ∃ x ∈ past, x.request.found x.reply = some user

/-- The request was given a session of a user that it was told of. -/
structure Given (user : User) : Prop where
  knows : past.Knows user
  created : past.Told (.createSession user.id o.token) (.ok ())

/-- What a sign-in answers with is the session that it was given, and its user. -/
def Handed : Response → Prop
  | .login data => ∃ user, data = loginResponse o.token user ∧ past.Given o user
  | .redirect location _ => ∃ user, location = oauthLocation C o.token user ∧ past.Given o user
  | _ => True

end Past

/-! ## What stays told -/

section Kept
variable {C : Crates} {req : AuthRequest} {past later : Past}

theorem Past.SessionShown.mono {user : User} (hs : past.SessionShown req user) (h : past ⊆ later) :
    later.SessionShown req user := by
  obtain ⟨headers, token, hbearer, htoken, htold⟩ := hs
  exact ⟨headers, token, hbearer, htoken, htold.mono h⟩

theorem Past.FactorShown.mono {user : User} (hs : past.FactorShown C req user) (h : past ⊆ later) :
    later.FactorShown C req user := by
  obtain ⟨code, secret, hcode, hsecret, hshown⟩ := hs
  refine ⟨code, secret, hcode, hsecret, hshown.imp ?_ ?_⟩
  · exact fun ⟨now, htold, hverified⟩ => ⟨now, htold.mono h, hverified⟩
  · exact fun ⟨c, rows, htold⟩ => ⟨c, rows, htold.mono h⟩

theorem Past.StateShown.mono {slug pkceVerifier : Text} {query : OAuthCallbackQuery} {headers : Headers}
    (hs : past.StateShown C slug query headers pkceVerifier) (h : past ⊆ later) :
    later.StateShown C slug query headers pkceVerifier := by
  obtain ⟨cookie, decoded, issued, issuedAt, redirectUrl, now, hcookie, hdecoded, hsplit, hissued,
    htold, hage⟩ := hs
  exact ⟨cookie, decoded, issued, issuedAt, redirectUrl, now, hcookie, hdecoded, hsplit, hissued,
    htold.mono h, hage⟩

theorem Past.ProviderVouches.mono {o : Outside} {slug : Text} {info : OAuthUserInfo}
    (hv : past.ProviderVouches C o req slug info) (h : past ⊆ later) :
    later.ProviderVouches C o req slug info := by
  obtain ⟨query, headers, pkceVerifier, redirectUrl, token, hreq, hshown, hrest⟩ := hv
  exact ⟨query, headers, pkceVerifier, redirectUrl, token, hreq, hshown.mono h, hrest⟩

theorem Past.Matched.mono {info : OAuthUserInfo} {user : User} (hm : past.Matched info user)
    (h : past ⊆ later) : later.Matched info user := by
  rcases hm with ⟨username, winkdId, displayName, htold⟩ | ⟨email, hemail, htold⟩
  · exact .inl ⟨username, winkdId, displayName, htold.mono h⟩
  · exact .inr ⟨email, hemail, htold.mono h⟩

theorem Past.Knows.mono {user : User} (hk : past.Knows user) (h : past ⊆ later) : later.Knows user := by
  obtain ⟨x, hx, hfound⟩ := hk
  exact ⟨x, h hx, hfound⟩

theorem Past.Told.knows {r : Op} {x : Op.Reply r} (h : past.Told r x) {user : User} (hx : r.found x = some user) :
    past.Knows user := ⟨_, h, hx⟩

theorem Past.PasswordShown.knows {user : User} (hs : past.PasswordShown C req user) : past.Knows user := by
  obtain ⟨headers, body, hash, -, hlooked, -⟩ := hs
  unfold Past.LookedUp at hlooked
  split at hlooked
  · exact Past.Told.knows hlooked rfl
  · exact Past.Told.knows hlooked rfl

theorem Past.Created.knows {email passwordHash : Option Text} {user : User}
    (hc : past.Created email passwordHash user) : past.Knows user := by
  obtain ⟨username, winkdId, displayName, htold⟩ := hc
  exact Past.Told.knows htold rfl

theorem Past.Matched.knows {info : OAuthUserInfo} {user : User} (hm : past.Matched info user) :
    past.Knows user := by
  rcases hm with hcreated | ⟨email, -, htold⟩
  · exact hcreated.knows
  · exact Past.Told.knows htold rfl

/-- A session that is created is given. -/
theorem Past.Knows.given {o : Outside} {user : User} (hk : past.Knows user) :
    Past.Given o (past.seen (.createSession user.id o.token) (.ok ())) user :=
  ⟨hk.mono (past.subset_seen _ _), past.told_seen _ _⟩

theorem Past.Given.mono {o : Outside} {user : User} (hg : past.Given o user) (h : past ⊆ later) :
    later.Given o user := ⟨hg.knows.mono h, hg.created.mono h⟩

end Kept

/-! ## The handlers -/

/-- The statement may be asked at any time. -/
def Op.free : Op → Bool
  | .createSession _ _ => false
  | .createTotpChallenge _ _ => false
  | .consumeTotpChallenge _ => false
  | .linkOauthAccount _ _ _ => false
  | .setTotpSecret _ _ => false
  | .setTotpEnabled _ _ => false
  | .deleteRecoveryCodes _ _ => false
  | .insertRecoveryCode _ _ _ => false
  | _ => true

/-- The statement only reads. -/
def Op.reads : Op → Bool
  | .findUserByUsername _ => true
  | .findUserByEmail _ => true
  | .findUserByOauth _ _ => true
  | .findUserById _ => true
  | .findUserBySession _ => true
  | .winkdIdExists _ => true
  | .countRecoveryCodes _ => true
  | .currentUnixSecs => true
  | _ => false

theorem Op.free_of_reads {r : Op} (hr : r.reads = true) : r.free = true := by
  cases r <;> first | rfl | cases hr

/-! ### What only reads -/

section Reading
variable {Q : Op → Prop} (hQ : ∀ r : Op, r.reads = true → Q r)
include hQ

theorem reads_findUserByUsername (username : Text) : (findUserByUsername username).Asks Q :=
  asks_op (hQ _ rfl) fun _ => asks_orInternal _

theorem reads_findUserByEmail (email : Text) : (findUserByEmail email).Asks Q :=
  asks_op (hQ _ rfl) fun _ => asks_orInternal _

theorem reads_ensureEmailFree (email : Option Text) : (ensureEmailFree email).Asks Q := by
  cases email with
  | none => exact trivial
  | some e => exact Prog.asks_bind (reads_findUserByEmail hQ e) fun _ => asks_ensure _ _

theorem reads_uniqueWinkdId (o : Outside) (base : Text) : (uniqueWinkdId o base).Asks Q := by
  have hfrom : ∀ n i, (uniqueWinkdId.tryFrom o base i n).Asks Q := by
    intro n
    induction n with
    | zero => exact fun _ => trivial
    | succ n ih =>
      intro i
      refine Prog.asks_bind (asks_op (hQ _ rfl) fun _ => asks_orInternal _) fun taken => ?_
      split
      · exact ih _
      · exact trivial
  exact hfrom 20 0

theorem reads_uniqueUsername (o : Outside) (base : Text) : (uniqueUsername o base).Asks Q := by
  have hfrom : ∀ n i, (uniqueUsername.tryFrom o base i n).Asks Q := by
    intro n
    induction n with
    | zero => exact fun _ => trivial
    | succ n ih =>
      intro i
      refine Prog.asks_bind (reads_findUserByUsername hQ _) fun found => ?_
      cases found with
      | none => exact trivial
      | some _ => exact ih _
  refine Prog.asks_bind (reads_findUserByUsername hQ _) fun found => ?_
  cases found with
  | none => exact trivial
  | some _ => exact hfrom _ _

end Reading

theorem asks_validatePassword {Q : Op → Prop} (C : Crates) (password : Text) :
    (validatePassword C password).Asks Q :=
  Prog.asks_bind (asks_ensure _ _) fun _ => asks_ensure _ _

theorem asks_loadEnv {Q : Op → Prop} (o : Outside) (provider : OAuthProvider) :
    (OAuthProvider.loadEnv o provider).Asks Q :=
  Prog.asks_bind (asks_orThrow _ _) fun _ => Prog.asks_bind (asks_orThrow _ _) fun _ => trivial

section Rules
variable {α : Type} {rule : Past → Op → Prop} {Q : Past → α → Prop} {E : Past → AppError → Prop}
  {past : Past}

@[simp] theorem abides_orInternal (r : Except DbError α) : (orInternal r).Abides rule Q E past ↔
    (∀ a, r = .ok a → Q past a) ∧ ∀ e, r = .error e → E past (.internal e.text.toList) := by
  cases r with
  | error e => simp [orInternal]
  | ok a => simp [orInternal]

@[simp] theorem abides_ensure {Q : Past → Unit → Prop} (c : Bool) (e : AppError) :
    (ensure c e).Abides rule Q E past ↔ (c = true → Q past ()) ∧ (c = false → E past e) := by
  cases c with
  | false => simp [ensure]
  | true => simp [ensure]

end Rules

section Handlers
variable {C : Crates} {o : Outside} {req : AuthRequest} {past : Past} {α β : Type}

/-- The program abides by the request's rule, and what it returns satisfies `Q`. -/
abbrev Abides (C : Crates) (o : Outside) (req : AuthRequest) (past : Past) (p : Handler α)
    (Q : Past → α → Prop) : Prop := p.Abides (Past.May C o req) Q (fun _ _ => True) past

/-- The program asks only what it may ask at any time. -/
abbrev AsksFreely (p : Handler α) : Prop := p.Asks fun r => r.free = true

theorem asksFreely_op {r : Op} (hr : r.free = true) {f : Op.Reply r → Handler α}
    (hf : ∀ x, AsksFreely (f x)) : AsksFreely (Prog.ask r >>= f) := asks_op hr hf

theorem AsksFreely.abides {prog : Handler α} (hprog : AsksFreely prog) :
    Abides C o req past prog fun _ _ => True := by
  have hfree : ∀ (past : Past) (r : Op), r.free = true → past.May C o req r := by
    intro past r hr
    cases r <;> trivial
  exact Prog.Asks.abides (I := fun _ => True) hprog (fun past r _ hr => ⟨hfree past r hr, fun _ => trivial⟩)
    trivial

/-- What only looks abides, and goes on. -/
theorem abides_then {prog : Handler α} {f : α → Handler β} {Q : Past → β → Prop}
    (hprog : AsksFreely prog) (hf : ∀ later a, past ⊆ later → Abides C o req later (f a) Q) :
    Abides C o req past (prog >>= f) Q :=
  (AsksFreely.abides hprog).bind fun later a hsub _ => hf later a hsub

theorem asksFreely_auditLog (u : Option Id) (a : Action) (ip : IpAddr) (m : Metadata) :
    AsksFreely (auditLog u a ip m) := asksFreely_op rfl fun _ => Prog.asks_pure _

theorem asksFreely_auditIf (used : Bool) (u : Id) (ip : IpAddr) :
    AsksFreely (auditIfRecoveryCode used u ip) := by
  rw [auditIfRecoveryCode]
  split
  · exact asksFreely_op rfl fun _ => asksFreely_auditLog _ _ _ _
  · exact trivial

/-- **A login has the password** of the user that it goes on for. -/
theorem abides_passwordUser (headers : Headers) (body : LoginRequest) :
    Abides C o (.login headers body) past (passwordUser C headers body)
      fun later user => later.PasswordShown C (.login headers body) user := by
  have hfailed : ∀ (u : Option Id) (reason : String) (past : Past),
      Abides C o (.login headers body) past (loginFailed u (extractIp headers) reason)
        fun later user => later.PasswordShown C (.login headers body) user :=
    fun _ _ _ => ⟨trivial, fun _ => trivial⟩
  have hcheck : ∀ (found : Option User) (past : Past),
      (∀ user, found = some user → past.LookedUp body.username.trim user) →
        Abides C o (.login headers body) past (checkPassword C (extractIp headers) body.password found)
          fun later user => later.PasswordShown C (.login headers body) user := by
    intro found past hfound
    cases found with
    | none => exact hfailed _ _ _
    | some user =>
      rw [checkPassword]
      split
      · exact hfailed _ _ _
      · rename_i hash hstored
        rw [Abides, Prog.abides_bind, abides_ensure]
        refine ⟨fun _ => ?_, fun _ => trivial⟩
        split
        · rename_i hverified
          exact ⟨headers, body, hash, rfl, hfound user rfl, hstored, hverified⟩
        · exact hfailed _ _ _
  refine abides_then (Prog.asks_ask rfl) fun _ _ _ => abides_then (asks_ensure _ _) fun _ _ _ => ?_
  refine abides_then (asks_ensure _ _) fun past₂ _ _ => ?_
  rw [Abides, Prog.abides_bind, findLoginUser]
  split
  · rename_i hat
    refine ⟨trivial, fun found => ?_⟩
    cases found with
    | error e => exact trivial
    | ok found =>
      refine hcheck found _ fun user huser => ?_
      rw [Past.LookedUp, if_pos hat, ← huser]
      exact List.mem_cons_self
  · rename_i hat
    refine ⟨trivial, fun found => ?_⟩
    cases found with
    | error e => exact trivial
    | ok found =>
      refine hcheck found _ fun user huser => ?_
      rw [Past.LookedUp, if_neg hat, ← huser]
      exact List.mem_cons_self

theorem abides_login (headers : Headers) (body : LoginRequest) :
    Abides C o (.login headers body) past (login C o headers body) fun later r => later.Handed C o r := by
  refine (abides_passwordUser headers body).bind fun later user _ hshown => ?_
  split
  · rename_i hon
    refine ⟨⟨user, hshown, rfl, hon⟩, fun created => ?_⟩
    cases created with
    | error e => exact trivial
    | ok _ => exact ⟨trivial, fun _ => trivial⟩
  · rename_i hoff
    refine ⟨.password user hshown rfl (Bool.not_eq_true _ ▸ hoff), fun created => ?_⟩
    cases created with
    | error e => exact trivial
    | ok _ => exact ⟨trivial, fun _ => ⟨user, rfl, hshown.knows.given.mono (History.subset_seen _ _ _)⟩⟩

theorem abides_createUser (username winkdId displayName : Text) (email passwordHash : Option Text) :
    Abides C o req past (createUser username winkdId displayName email passwordHash)
      fun later user => later.Created email passwordHash user := by
  refine ⟨trivial, fun created => ?_⟩
  cases created with
  | error e => exact trivial
  | ok user => exact ⟨username, winkdId, displayName, List.mem_cons_self⟩

/-- **A registration goes on for the account that it has created**, with the hash of its password. -/
theorem abides_registerUser (headers : Headers) (body : RegisterRequest) :
    Abides C o (.register headers body) past (registerUser C o headers body) fun later user =>
      ∃ hash, C.hashPassword body.password o.salt = .ok hash ∧
        later.Created (registerEmail body) (some hash) user := by
  have hread : ∀ r : Op, r.reads = true → r.free = true := fun _ hr => Op.free_of_reads hr
  refine abides_then (Prog.asks_ask rfl) fun _ _ _ => abides_then (asks_ensure _ _) fun _ _ _ => ?_
  refine abides_then (asks_ensure _ _) fun _ _ _ => abides_then (asks_validatePassword C _) fun _ _ _ => ?_
  refine abides_then (reads_findUserByUsername hread _) fun _ _ _ => ?_
  refine abides_then (asks_ensure _ _) fun _ _ _ => abides_then (reads_ensureEmailFree hread _) fun _ _ _ => ?_
  rw [Abides, Prog.abides_bind, Prog.abides_ofExcept]
  refine ⟨fun hash hhash => ?_, fun _ _ => trivial⟩
  have hhashed : C.hashPassword body.password o.salt = .ok hash := by
    cases hresult : C.hashPassword body.password o.salt with
    | error e => rw [hresult] at hhash; cases hhash
    | ok h => rw [hresult] at hhash; cases hhash; rfl
  refine abides_then (reads_uniqueWinkdId hread o _) fun _ _ _ => ?_
  exact (abides_createUser _ _ _ _ _).mono (fun _ _ h => h) (fun _ _ h => ⟨hash, hhashed, h⟩)
    fun _ _ h => h

theorem abides_register (headers : Headers) (body : RegisterRequest) :
    Abides C o (.register headers body) past (register C o headers body)
      fun later r => later.Handed C o r := by
  refine (abides_registerUser headers body).bind ?_
  rintro later user - ⟨hash, hhashed, hcreated⟩
  refine ⟨.registration headers body rfl hash hhashed user hcreated rfl, fun created => ?_⟩
  cases created with
  | error e => exact trivial
  | ok _ => exact ⟨trivial, fun _ => ⟨user, rfl, hcreated.knows.given.mono (History.subset_seen _ _ _)⟩⟩

/-! ### Signing in with a provider -/

/-- A callback goes on when it has shown the state of its sign-in. -/
theorem abides_oauthState {provider : OAuthProvider} {query : OAuthCallbackQuery} {headers : Headers}
    (cfg : OAuthProviderConfig) :
    Abides C o req past (oauthState C provider query headers cfg) fun later pair =>
      later.StateShown C provider.slug query headers pair.1 := by
  rw [Abides, oauthState, Prog.abides_bind, Prog.abides_ofOption]
  refine ⟨fun cookie hcookie => ?_, fun _ => trivial⟩
  rw [Prog.abides_bind, Prog.abides_ofOption]
  refine ⟨fun decoded hdecoded => ?_, fun _ => trivial⟩
  split
  · rename_i cookieProvider savedState pkceVerifier issued redirectUrl hsplit
    rw [Prog.abides_bind, abides_ensure]
    refine ⟨fun hstate => ?_, fun _ => trivial⟩
    rw [Bool.and_eq_true, beq_iff_eq, beq_iff_eq] at hstate
    rw [Prog.abides_bind, Prog.abides_ofOption]
    refine ⟨fun issuedAt hissued => ⟨trivial, fun now => ?_⟩, fun _ => trivial⟩
    show Abides C o req _ (ensure _ _ >>= _) _
    rw [Abides, Prog.abides_bind, abides_ensure]
    refine ⟨fun hage => ?_, fun _ => trivial⟩
    exact ⟨cookie, decoded, issued, issuedAt, redirectUrl, now, hcookie, hdecoded,
      hstate.1 ▸ hstate.2 ▸ hsplit, hissued, List.mem_cons_self, of_decide_eq_true hage⟩
  · exact trivial

/-- A callback goes on with what the provider says of the user. -/
theorem abides_oauthUserinfo (provider : OAuthProvider) (query : OAuthCallbackQuery)
    (headers : Headers) :
    Abides C o (.oauthCallback provider.slug query headers) past
      (oauthUserinfo C o provider query headers) fun later info =>
        later.ProviderVouches C o (.oauthCallback provider.slug query headers) provider.slug info := by
  refine abides_then (asks_loadEnv o provider) fun _ cfg _ => (abides_oauthState cfg).bind ?_
  rintro later ⟨pkceVerifier, redirectUrl⟩ - hshown
  rw [Prog.abides_bind, abides_ensure]
  refine ⟨fun _ => ?_, fun _ => trivial⟩
  rw [Prog.abides_bind, Prog.abides_ofExcept]
  refine ⟨fun token htoken => ?_, fun _ _ => trivial⟩
  have hexchanged : o.exchangeCode redirectUrl pkceVerifier query.code = .ok token := by
    cases hresult : o.exchangeCode redirectUrl pkceVerifier query.code with
    | error e => rw [hresult] at htoken; cases htoken
    | ok t => rw [hresult] at htoken; cases htoken; rfl
  rw [Prog.abides_bind, Prog.abides_ofExcept]
  refine ⟨fun info hinfo => ?_, fun _ _ => trivial⟩
  rw [Prog.abides_bind, abides_ensure]
  exact ⟨fun _ => ⟨query, headers, pkceVerifier, redirectUrl, token, rfl, hshown, hexchanged, hinfo⟩,
    fun _ => trivial⟩

/-- **The account is the one linked to the identity**, the one with the provider's e-mail address,
or new; only in the last two cases the identity gets linked. -/
theorem abides_findOrCreateOauthUser {provider : OAuthProvider} {info : OAuthUserInfo}
    (hvouched : past.ProviderVouches C o req provider.slug info) :
    Abides C o req past (findOrCreateOauthUser o provider info) fun later user =>
      later.Told (.findUserByOauth provider.slug info.providerUserId) (.ok (some user)) ∨
        later.Matched info user := by
  have hlink : ∀ (user : User) (later : Past), past ⊆ later → later.Matched info user →
      Abides C o req later (linkOauthAccount user.id provider.slug info.providerUserId >>= fun _ =>
        (pure user : Handler User)) fun later user =>
          later.Told (.findUserByOauth provider.slug info.providerUserId) (.ok (some user)) ∨
            later.Matched info user := by
    intro user later hsub hmatched
    refine ⟨⟨info, user, hvouched.mono hsub, rfl, hmatched, rfl⟩, fun linked => ?_⟩
    cases linked with
    | error e => exact trivial
    | ok _ => exact .inr (hmatched.mono (History.subset_seen _ _ _))
  have hfound : ∀ later : Past, Abides C o req later (findOauthEmail info.email) fun later found =>
      ∀ user, found = some user → later.Matched info user := by
    intro later
    cases hemail : info.email with
    | none => exact fun _ h => by cases h
    | some email =>
      refine ⟨trivial, fun found => ?_⟩
      cases found with
      | error e => exact trivial
      | ok found =>
        rintro user rfl
        exact .inr ⟨email, hemail, List.mem_cons_self⟩
  have hcreate : ∀ later : Past, Abides C o req later (createOauthUser o provider info)
      fun later user => later.Created info.email none user := fun later =>
    abides_then (reads_uniqueUsername (fun _ hr => Op.free_of_reads hr) o _) fun _ _ _ =>
      abides_then (reads_uniqueWinkdId (fun _ hr => Op.free_of_reads hr) o _) fun _ _ _ =>
        abides_createUser _ _ _ _ _
  refine ⟨trivial, fun linked => ?_⟩
  have hsub := past.subset_seen (.findUserByOauth provider.slug info.providerUserId) linked
  cases linked with
  | error e => exact trivial
  | ok linked =>
    cases linked with
    | some user => exact .inl List.mem_cons_self
    | none =>
      refine (hfound _).bind fun later found hsub₁ hmatched => ?_
      cases found with
      | some user => exact hlink user later (List.Subset.trans hsub hsub₁) (hmatched user rfl)
      | none =>
        refine (hcreate later).bind fun later₁ user hsub₂ hcreated => ?_
        exact hlink user later₁ (List.Subset.trans hsub (List.Subset.trans hsub₁ hsub₂)) (.inl hcreated)

theorem abides_oauthCallback (slug : Text) (query : OAuthCallbackQuery) (headers : Headers) :
    Abides C o (.oauthCallback slug query headers) past (oauthCallback C o slug query headers)
      fun later r => later.Handed C o r := by
  rw [Abides, oauthCallback, Prog.abides_bind, Prog.abides_ofOption]
  refine ⟨fun provider hprovider => ?_, fun _ => trivial⟩
  have hslug : provider.slug = slug := by
    have hfound := List.find?_some hprovider
    exact of_decide_eq_true hfound
  subst hslug
  refine (abides_oauthUserinfo provider query headers).bind fun past₁ info _ hvouched => ?_
  refine (abides_findOrCreateOauthUser hvouched).bind fun later user hsub hmatched => ?_
  have hknows : Past.Knows later user := hmatched.elim (fun h => Past.Told.knows h rfl) Past.Matched.knows
  refine ⟨.identity provider.slug info (hvouched.mono hsub) user hmatched rfl, fun created => ?_⟩
  cases created with
  | error e => exact trivial
  | ok _ => exact ⟨user, rfl, hknows.given⟩

/-! ### The second factor -/

theorem abides_requireAuth {headers : Headers} (hreq : req.bearer = some headers) :
    Abides C o req past (requireAuth headers) fun later user => later.SessionShown req user := by
  rw [Abides, requireAuth, Prog.abides_bind, Prog.abides_ofOption]
  refine ⟨fun token htoken => ⟨trivial, fun found => ?_⟩, fun _ => trivial⟩
  cases found with
  | error e => exact trivial
  | ok found =>
    cases found with
    | none => exact trivial
    | some user => exact ⟨headers, token, hreq, htoken, List.mem_cons_self⟩

/-- **A code that is accepted is the user's second factor.** -/
theorem abides_verifyTotpOrRecovery {user : User} {secret code : Text} (hcode : req.code = some code)
    (hsecret : user.totpSecret = some secret) :
    Abides C o req past (verifyTotpOrRecovery C user.id secret code) fun later verified =>
      verified = true → later.FactorShown C req user := by
  rw [verifyTotpOrRecovery]
  split
  · refine ⟨trivial, fun now hverified => ?_⟩
    exact ⟨code, secret, hcode, hsecret, .inl ⟨now, List.mem_cons_self, hverified⟩⟩
  · refine ⟨trivial, fun rows => ?_⟩
    cases rows with
    | error e => exact trivial
    | ok rows =>
      intro hsome
      cases rows with
      | nil => cases hsome
      | cons c rows => exact ⟨code, secret, hcode, hsecret, .inr ⟨c, rows, List.mem_cons_self⟩⟩

/-- What `totp_disable` and `recovery_codes_generate` begin with. -/
theorem abides_requireSecondFactor {headers : Headers} {code : Text} (notEnabled : String)
    (hreq : req.bearer = some headers) (hcode : req.code = some code) :
    Abides C o req past (requireSecondFactor C headers code notEnabled) fun later user =>
      later.SessionShown req user ∧ later.FactorShown C req user := by
  have henabled : Abides C o req past (requireEnabled headers notEnabled) fun later pair =>
      later.SessionShown req pair.1 ∧ pair.1.totpSecret = some pair.2 := by
    refine (abides_requireAuth hreq).bind fun past₁ user _ hshown => ?_
    refine abides_then (asks_ensure _ _) fun later _ hsub => ?_
    rw [Abides, Prog.abides_bind, Prog.abides_ofOption]
    exact ⟨fun secret hsecret => ⟨hshown.mono hsub, hsecret⟩, fun _ => trivial⟩
  refine henabled.bind ?_
  rintro past ⟨user, secret⟩ - ⟨hshown, hsecret⟩
  refine (abides_verifyTotpOrRecovery hcode hsecret).bind fun past₁ verified hsub hverified => ?_
  rw [Prog.abides_bind, abides_ensure]
  refine ⟨fun hok => ?_, fun _ => trivial⟩
  refine abides_then (asksFreely_auditIf _ _ _) fun past₂ _ hsub₂ => ?_
  exact ⟨(hshown.mono hsub).mono hsub₂, (hverified hok).mono hsub₂⟩

/-- Recovery codes are stored for a user who has shown a session and the second factor. -/
theorem abides_storeRecoveryCodes {user : User} (hashes : List Text)
    (hsession : past.SessionShown req user) (hfactor : past.FactorShown C req user) :
    Abides C o req past (storeRecoveryCodes user.id hashes) fun _ _ => True := by
  have hinsert : ∀ (hashes : List Text) (later : Past) (tx : ℕ), past ⊆ later →
      Abides C o req later (insertRecoveryCodes tx user.id hashes) fun _ _ => True := by
    intro hashes
    induction hashes with
    | nil => exact fun _ _ _ => trivial
    | cons hash hashes ih =>
      intro later tx hsub
      refine ⟨⟨user, hsession.mono hsub, rfl, hfactor.mono hsub⟩, fun inserted => ?_⟩
      cases inserted with
      | error e => exact trivial
      | ok _ => exact ih _ tx (List.Subset.trans hsub (History.subset_seen _ _ _))
  refine abides_then (asksFreely_op rfl fun _ => asks_orInternal _) fun past₁ tx hsub₁ => ?_
  refine ⟨⟨user, hsession.mono hsub₁, rfl, hfactor.mono hsub₁⟩, fun deleted => ?_⟩
  cases deleted with
  | error e => exact trivial
  | ok rows =>
    have hsub₂ := past₁.subset_seen (.deleteRecoveryCodes tx user.id) (.ok rows)
    refine (hinsert hashes _ tx (List.Subset.trans hsub₁ hsub₂)).bind fun _ _ _ _ => ?_
    exact ⟨trivial, fun committed => by cases committed <;> exact trivial⟩

theorem abides_totpSetup (headers : Headers) :
    Abides C o (.totpSetup headers) past (totpSetup C o headers) fun later r => later.Handed C o r := by
  refine (abides_requireAuth rfl).bind fun past user _ hshown => ?_
  refine ⟨⟨user, hshown, rfl⟩, fun set => ?_⟩
  cases set with
  | error e => exact trivial
  | ok _ => exact trivial

theorem abides_totpConfirm (headers : Headers) (code : Text) :
    Abides C o (.totpConfirm headers code) past (totpConfirm C o headers code) fun later r => later.Handed C o r := by
  refine (abides_requireAuth rfl).bind fun past user _ hshown => ?_
  rw [Prog.abides_bind, Prog.abides_ofOption]
  refine ⟨fun secret hsecret => ?_, fun _ => trivial⟩
  refine ⟨trivial, fun now => ?_⟩
  have hsub₁ := past.subset_seen .currentUnixSecs now
  show Abides C o _ _ (ensure _ _ >>= _) _
  rw [Abides, Prog.abides_bind, abides_ensure]
  refine ⟨fun hverified => ?_, fun _ => trivial⟩
  have hfactor : Past.FactorShown C (.totpConfirm headers code) (past.seen .currentUnixSecs now) user :=
    ⟨code, secret, rfl, hsecret, .inl ⟨now, List.mem_cons_self, hverified⟩⟩
  refine ⟨⟨user, hshown.mono hsub₁, rfl, hfactor⟩, fun set => ?_⟩
  have hsub₂ := (past.seen .currentUnixSecs now).subset_seen (.setTotpEnabled user.id true) set
  cases set with
  | error e => exact trivial
  | ok _ =>
    refine (abides_storeRecoveryCodes _ ((hshown.mono hsub₁).mono hsub₂) (hfactor.mono hsub₂)).bind
      fun _ _ _ _ => ?_
    exact abides_then (asksFreely_auditLog _ _ _ _) fun _ _ _ => trivial

theorem abides_totpDisable (headers : Headers) (code : Text) :
    Abides C o (.totpDisable headers code) past (totpDisable C headers code) fun later r => later.Handed C o r := by
  refine (abides_requireSecondFactor _ rfl rfl).bind ?_
  rintro past user - ⟨hsession, hfactor⟩
  refine ⟨⟨user, hsession, rfl, hfactor⟩, fun set => ?_⟩
  cases set with
  | error e => exact trivial
  | ok _ => exact ⟨trivial, fun _ => trivial⟩

theorem abides_recoveryCodesGenerate (headers : Headers) (code : Text) :
    Abides C o (.recoveryCodesGenerate headers code) past (recoveryCodesGenerate C o headers code)
      fun later r => later.Handed C o r := by
  refine (abides_requireSecondFactor _ rfl rfl).bind ?_
  rintro past user - ⟨hsession, hfactor⟩
  refine abides_then (asksFreely_op rfl fun _ => asks_orInternal _) fun later n hsub => ?_
  refine (abides_storeRecoveryCodes _ (hsession.mono hsub) (hfactor.mono hsub)).bind fun _ _ _ _ => ?_
  exact abides_then (asksFreely_auditLog _ _ _ _) fun _ _ _ => trivial

theorem abides_totpChallenge (headers : Headers) (body : TotpChallengeRequest) :
    Abides C o (.totpChallenge headers body) past (totpChallenge C o headers body)
      fun later r => later.Handed C o r := by
  have huser : Abides C o (.totpChallenge headers body) past (challengedUser body.challengeToken)
      fun later pair => pair.1.totpSecret = some pair.2 ∧ ∃ id,
        later.Told (.consumeTotpChallenge body.challengeToken) (.ok (some id)) ∧
          later.Told (.findUserById id) (.ok (some pair.1)) := by
    refine ⟨⟨headers, body, rfl, rfl⟩, fun taken => ?_⟩
    cases taken with
    | error e => exact trivial
    | ok taken =>
      cases taken with
      | none => exact trivial
      | some id =>
        refine ⟨trivial, fun found => ?_⟩
        cases found with
        | error e => exact trivial
        | ok found =>
          cases found with
          | none => exact trivial
          | some user =>
            show Abides C o _ _ (Prog.ofOption _ user.totpSecret >>= _) _
            rw [Abides, Prog.abides_bind, Prog.abides_ofOption]
            refine ⟨fun secret hsecret => ⟨hsecret, id, ?_, List.mem_cons_self⟩, fun _ => trivial⟩
            exact List.mem_cons_of_mem _ List.mem_cons_self
  refine huser.bind ?_
  rintro past ⟨user, secret⟩ - ⟨hsecret, id, htaken, hfound⟩
  refine (abides_verifyTotpOrRecovery rfl hsecret).bind fun past₁ verified hsub₁ hverified => ?_
  refine abides_then (asksFreely_auditIf _ _ _) fun past₂ _ hsub₂ => ?_
  split
  · rename_i hok
    have hknown := (hfound.mono hsub₁).mono hsub₂
    refine ⟨.factor headers body rfl id ((htaken.mono hsub₁).mono hsub₂) user hknown
      ((hverified hok).mono hsub₂) rfl, fun created => ?_⟩
    cases created with
    | error e => exact trivial
    | ok _ =>
      have hknows : Past.Knows past₂ user := Past.Told.knows hknown rfl
      exact ⟨trivial, fun _ => ⟨user, rfl, hknows.given.mono (History.subset_seen _ _ _)⟩⟩
  · exact ⟨trivial, fun _ => trivial⟩

end Handlers

/-- **Every handler abides by the rule**, and hands over what it was given. -/
theorem handle_abides (C : Crates) (o : Outside) (req : AuthRequest) :
    Abides C o req [] (handle C o req) fun later r => later.Handed C o r := by
  cases req with
  | login headers body => exact abides_login headers body
  | register headers body => exact abides_register headers body
  | oauthCallback provider query headers => exact abides_oauthCallback provider query headers
  | totpChallenge headers body => exact abides_totpChallenge headers body
  | totpSetup headers => exact abides_totpSetup headers
  | totpConfirm headers code => exact abides_totpConfirm headers code
  | totpDisable headers code => exact abides_totpDisable headers code
  | recoveryCodesGenerate headers code => exact abides_recoveryCodesGenerate headers code

end Winkd.Server
