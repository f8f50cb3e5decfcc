import Winkd.OauthAccounts
import Mathlib.Data.List.Pairwise

/-!
# Whose an account is

Each request is a person's.  `register` takes the e-mail address as given, and
`find_or_create_oauth_user` links an identity to the account that has its e-mail address:
an account that a stranger has registered with somebody's address gets that person's
identity, next to the stranger's password.

All the same an account is nobody's but its creator's and the owner's of its address
(`Service.Owned`): so an account without an address, or with its creator's own, has
credentials of one person only.
-/

namespace Winkd.Server

/-- Whose the identities at the providers are, and the e-mail addresses. -/
structure Persons (P : Type) where
  identity : (provider providerUserId : Text) → P
  email : Text → P

abbrev AuthEntry : Type := Threads.Entry Op Op.Reply Backend

namespace AuthEntry

/-- The account that was created, with its e-mail address and its password. -/
def created : AuthEntry → Option (Id × Option Text × Option Text)
  | ⟨_, _, .createUser _ _ _ email passwordHash, .ok user⟩ => some (user.id, email, passwordHash)
  | _ => none

/-- The account that was found by an e-mail address. -/
def found : AuthEntry → Option (Id × Text)
  | ⟨_, _, .findUserByEmail email, .ok (some user)⟩ => some (user.id, email)
  | _ => none

/-- The account that was found by an identity. -/
def linked : AuthEntry → Option (Id × Text × Text)
  | ⟨_, _, .findUserByOauth provider providerUserId, .ok (some user)⟩ =>
      some (user.id, provider, providerUserId)
  | _ => none

/-- The account a session was asked for. -/
def session (e : AuthEntry) : Option Id :=
  match e.request with
  | .createSession userId _ => some userId
  | _ => none

/-- A login has begun. -/
def login (e : AuthEntry) : Bool :=
  match e.request with
  | .loginLimiterCheck _ => true
  | _ => false

end AuthEntry

namespace Service
variable {P : Type} (who : ℕ → P) (own : Persons P)

/-- Request `i` is of person `who i`.  Requests are `register`, `login` and
`oauth_callback`, and a provider's answer is about the person who has authenticated: it
names an identity of this person, and an e-mail address only if it is this person's. -/
def Truthful (s : Service) : Event → Prop
  | .request o (.oauthCallback provider _ _) => ∀ token info, o.fetchUserinfo token = .ok info →
      own.identity provider info.providerUserId = who s.tasks.length ∧
        ∀ email ∈ info.email, own.email email = who s.tasks.length
  | .request _ (.login _ _) => True
  | .request _ (.register _ _) => True
  | .request _ _ => False
  | .statement _ => True
  | .clock now => s.state.now ≤ now

/-- The states the service can come to by such requests. -/
def ReachedTruly (C : Crates) (s : Service) : Prop :=
  ∃ now, Transitions.Reaches (next C) (Truthful who own) (Threads.Pool.idle (.init now)) s

/-- Person `p` has created the account. -/
def Creator (s : Service) (id : Id) (p : P) : Prop :=
  ∃ e : AuthEntry, e ∈ s.trace ∧ who e.task = p ∧ ∃ email hash, e.created = some (id, email, hash)

/-- The account's e-mail address is `p`'s. -/
def EmailOf (s : Service) (id : Id) (p : P) : Prop :=
  ∃ u ∈ s.state.users, u.id = id ∧ ∃ email, u.email = some email ∧ own.email email = p

/-- Person `p` has given the account its password. -/
def PasswordOf (s : Service) (id : Id) (p : P) : Prop :=
  ∃ e : AuthEntry, e ∈ s.trace ∧ who e.task = p ∧ ∃ email hash, e.created = some (id, email, some hash)

/-- An identity of `p`'s is linked to the account. -/
def IdentityOf (s : Service) (id : Id) (p : P) : Prop :=
  ∃ a ∈ s.state.oauthAccounts, a.userId = id ∧ own.identity a.provider a.providerUserId = p

/-- The account has a credential of `p`'s. -/
def CredentialOf (s : Service) (id : Id) (p : P) : Prop :=
  s.PasswordOf who id p ∨ s.IdentityOf own id p

/-- No account has credentials of two persons. -/
def Exclusive (s : Service) : Prop :=
  ∀ id p q, s.CredentialOf who own id p → s.CredentialOf who own id q → p = q

/-- An account's credentials are its creator's or the owner's of its e-mail address, and so
are the sessions that are not given by a login; and if that is one person, the account has
credentials of one person only. -/
structure Owned (s : Service) : Prop where
  credentials : ∀ id p, s.CredentialOf who own id p → s.Creator who id p ∨ s.EmailOf own id p
  sessions : ∀ e : AuthEntry, e ∈ s.trace → ∀ id, e.session = some id →
    (∃ e' : AuthEntry, e' ∈ s.trace ∧ e'.task = e.task ∧ e'.login = true) ∨
      s.Creator who id (who e.task) ∨ s.EmailOf own id (who e.task)
  exclusive : ∀ id, (∀ p q, s.Creator who id p → s.EmailOf own id q → p = q) →
    ∀ p q, s.CredentialOf who own id p → s.CredentialOf who own id q → p = q

end Service

/-! ## What a request knows -/

/-- What the replies have told a request about accounts. -/
structure SignInFacts where
  login : Bool
  created : Option Id
  found : Option (Id × Text)
  linked : Option (Id × Text × Text)

namespace SignInFacts

def nothing : SignInFacts := ⟨false, none, none, none⟩

def seen (d : SignInFacts) : (r : Op) → Op.Reply r → SignInFacts
  | .loginLimiterCheck _, _ => { d with login := true }
  | .createUser _ _ _ _ _, .ok user => { d with created := some user.id }
  | .findUserByEmail email, .ok (some user) => { d with found := some (user.id, email) }
  | .findUserByOauth provider providerUserId, .ok (some user) =>
      { d with linked := some (user.id, provider, providerUserId) }
  | _, _ => d

variable {P : Type} (own : Persons P)

/-- The request has created the account, or found it by an e-mail address of person `p`. -/
def Entitled (p : P) (d : SignInFacts) (id : Id) : Prop :=
  d.created = some id ∨ ∃ email, d.found = some (id, email) ∧ own.email email = p

/-- Links and sessions are for accounts that the person is entitled to; a session also for one
that an identity of the person was linked to, and a login's for one that has a password. -/
def may (p : P) (d : SignInFacts) : Op → Prop
  | .linkOauthAccount id provider providerUserId =>
      own.identity provider providerUserId = p ∧ Entitled own p d id
  | .createSession id _ => d.login = true ∨ Entitled own p d id ∨
      ∃ provider providerUserId, d.linked = some (id, provider, providerUserId) ∧
        own.identity provider providerUserId = p
  | _ => True

end SignInFacts

/-- The statement links an identity or creates a session. -/
def Op.gives : Op → Bool
  | .linkOauthAccount _ _ _ => true
  | .createSession _ _ => true
  | _ => false

/-- The statement gives something or creates an account. -/
def Op.grants : Op → Bool
  | .createUser _ _ _ _ _ => true
  | r => r.gives

theorem Op.gives_of_grants {r : Op} (hr : r.grants = false) : r.gives = false := by
  cases r <;> first | rfl | cases hr

/-! ### The parts of the handlers -/

section Parts
variable {Q : Op → Prop}

theorem asks_orInternal {α : Type} (r : Except DbError α) : (orInternal r).Asks Q := by
  cases r with
  | error e => exact trivial
  | ok a => exact trivial

theorem asks_ensure (c : Bool) (e : AppError) : (ensure c e).Asks Q := by
  cases c with
  | false => exact trivial
  | true => exact trivial

theorem asks_orThrow {α : Type} (e : AppError) (o : Option α) :
    (Prog.ofOption e o : Handler α).Asks Q := by
  cases o with
  | none => exact trivial
  | some a => exact trivial

theorem asks_ofExcept {α : Type} (r : Except AppError α) :
    (Prog.ofExcept r : Handler α).Asks Q := by
  cases r with
  | error e => exact trivial
  | ok a => exact trivial

/-- A statement with its errors mapped. -/
theorem asks_op {α : Type} {r : Op} (hr : Q r) {f : Op.Reply r → Handler α} (hf : ∀ x, (f x).Asks Q) :
    (Prog.ask r >>= f).Asks Q := Prog.asks_bind (Prog.asks_ask hr) hf

variable (hQ : ∀ r : Op, r.grants = false → Q r)
include hQ

theorem asks_auditLog (u : Option Id) (a : Action) (ip : IpAddr) (m : Metadata) :
    (auditLog u a ip m).Asks Q := asks_op (hQ _ rfl) fun _ => Prog.asks_pure _

theorem asks_findUserByUsername (username : Text) : (findUserByUsername username).Asks Q :=
  asks_op (hQ _ rfl) fun _ => asks_orInternal _

theorem asks_findUserByEmail (email : Text) : (findUserByEmail email).Asks Q :=
  asks_op (hQ _ rfl) fun _ => asks_orInternal _

theorem asks_uniqueWinkdId (o : Outside) (base : Text) : (uniqueWinkdId o base).Asks Q := by
  have hfrom : ∀ n i, (uniqueWinkdId.tryFrom o base i n).Asks Q := by
    intro n
    induction n with
    | zero => exact fun _ => trivial
    | succ n ih =>
      intro i
      refine Prog.asks_bind (asks_op (hQ _ rfl) fun _ => asks_orInternal _) fun taken => ?_
      split
      · exact ih _
      · exact trivial
  exact hfrom 20 0

theorem asks_uniqueUsername (o : Outside) (base : Text) : (uniqueUsername o base).Asks Q := by
  have hfrom : ∀ n i, (uniqueUsername.tryFrom o base i n).Asks Q := by
    intro n
    induction n with
    | zero => exact fun _ => trivial
    | succ n ih =>
      intro i
      refine Prog.asks_bind (asks_findUserByUsername hQ _) fun found => ?_
      cases found with
      | none => exact trivial
      | some _ => exact ih _
  refine Prog.asks_bind (asks_findUserByUsername hQ _) fun found => ?_
  cases found with
  | none => exact trivial
  | some _ => exact hfrom _ _

/-- A login gives nothing until it knows the user. -/
theorem asks_passwordUser (C : Crates) (headers : Headers) (body : LoginRequest) :
    (passwordUser C headers body).Asks Q := by
  have hfailed : ∀ {α : Type} u reason, (loginFailed u (extractIp headers) reason : Handler α).Asks Q :=
    fun u reason => Prog.asks_bind (asks_auditLog hQ _ _ _ _) fun _ => trivial
  have hcheck : ∀ user, (checkPassword C (extractIp headers) body.password user).Asks Q := by
    intro user
    cases user with
    | none => exact hfailed _ _
    | some user =>
      rw [checkPassword]
      split
      · exact hfailed _ _
      · refine Prog.asks_bind (asks_ensure _ _) fun _ => ?_
        split
        · exact trivial
        · exact hfailed _ _
  refine asks_op (hQ _ rfl) fun _ => ?_
  refine Prog.asks_bind (asks_ensure _ _) fun _ => Prog.asks_bind (asks_ensure _ _) fun _ => ?_
  refine Prog.asks_bind ?_ hcheck
  rw [findLoginUser]
  split
  · exact asks_findUserByEmail hQ _
  · exact asks_findUserByUsername hQ _

end Parts
/-! ### The handlers -/

section Handlers
variable {P : Type} {own : Persons P} {p : P} {C : Crates} {o : Outside}

/-- What gives nothing may be asked at any time. -/
theorem along_free {α : Type} {prog : Handler α} (hprog : prog.Asks fun r => r.gives = false)
    {Q : SignInFacts → α → Prop} (hQ : ∀ d a, Q d a) {d : SignInFacts} :
    prog.Along (SignInFacts.may own p) SignInFacts.seen Q d := by
  refine (hprog.along_while (I := fun _ => True) ?_ trivial).mono (fun _ _ h => h) fun d a _ => hQ d a
  intro d r _ hr
  refine ⟨?_, fun _ => trivial⟩
  cases r <;> trivial

theorem along_then {α β : Type} {prog : Handler α} {f : α → Handler β} {Q : SignInFacts → β → Prop}
    (hprog : prog.Asks fun r => r.gives = false)
    (hf : ∀ d a, (f a).Along (SignInFacts.may own p) SignInFacts.seen Q d) {d : SignInFacts} :
    (prog >>= f).Along (SignInFacts.may own p) SignInFacts.seen Q d := by
  rw [Prog.along_bind]
  exact along_free hprog hf

/-- An account that is created is the request's own. -/
theorem along_createUser (username winkdId displayName : Text) (email passwordHash : Option Text)
    (d : SignInFacts) :
    (createUser username winkdId displayName email passwordHash).Along (SignInFacts.may own p)
      SignInFacts.seen (fun d u => d.created = some u.id) d := by
  refine ⟨trivial, ?_⟩
  intro created
  cases created with
  | error e => trivial
  | ok u => exact rfl

theorem along_createSession {d : SignInFacts} {id : Id} {token : Text}
    (hd : SignInFacts.may own p d (.createSession id token)) {Q : SignInFacts → Text → Prop}
    (hQ : ∀ d a, Q d a) :
    (createSession id token).Along (SignInFacts.may own p) SignInFacts.seen Q d := by
  refine ⟨hd, ?_⟩
  intro created
  cases created with
  | error e => trivial
  | ok x => exact hQ _ _

/-- Once a login has begun, only links are not for it. -/
theorem along_begun {α : Type} {prog : Handler α} (hprog : prog.Asks fun r => r.links = none)
    {d : SignInFacts} (hd : d.login = true) :
    prog.Along (SignInFacts.may own p) SignInFacts.seen (fun _ _ => True) d := by
  refine (hprog.along_while (I := fun d => d.login = true) ?_ hd).mono (fun _ _ h => h) fun _ _ _ => trivial
  intro d r hd hr
  constructor
  · cases r <;> first | trivial | exact .inl hd
  · intro x
    cases r with
    | createUser _ _ _ _ _ => cases x <;> exact hd
    | findUserByEmail _ =>
      cases x with
      | error e => exact hd
      | ok found => cases found <;> exact hd
    | findUserByOauth _ _ =>
      cases x with
      | error e => exact hd
      | ok found => cases found <;> exact hd
    | loginLimiterCheck _ => exact rfl
    | _ => exact hd

theorem Op.links_of_gives {r : Op} (hr : r.gives = false) : r.links = none := by
  cases r <;> first | rfl | cases hr

theorem along_login (headers : Headers) (body : LoginRequest) :
    (login C o headers body).Along (SignInFacts.may own p) SignInFacts.seen (fun _ _ => True)
      .nothing := by
  have hQ : ∀ r : Op, r.grants = false → r.links = none := fun _ hr =>
    Op.links_of_gives (Op.gives_of_grants hr)
  have hasks : (login C o headers body).Asks fun r => r.links = none := by
    refine Prog.asks_bind (asks_passwordUser hQ C headers body) fun user => ?_
    have hchallenge : (createTotpChallenge user.id o.token).Asks fun r => r.links = none :=
      Prog.asks_bind (asks_op (Q := fun r => r.links = none) rfl asks_orInternal) fun _ => trivial
    have hsession : (createSession user.id o.token).Asks fun r => r.links = none :=
      Prog.asks_bind (asks_op (Q := fun r => r.links = none) rfl asks_orInternal) fun _ => trivial
    split
    · refine Prog.asks_bind hchallenge fun _ => ?_
      exact Prog.asks_bind (asks_auditLog hQ _ _ _ _) fun _ => trivial
    · refine Prog.asks_bind hsession fun _ => ?_
      exact Prog.asks_bind (asks_auditLog hQ _ _ _ _) fun _ => trivial
  -- its first statement says that it is a login
  exact ⟨trivial, fun x => along_begun (hasks.2 x) rfl⟩

/-- A registration gives a session for the account it has created. -/
theorem along_register (headers : Headers) (body : RegisterRequest) :
    (register C o headers body).Along (SignInFacts.may own p) SignInFacts.seen (fun _ _ => True)
      .nothing := by
  have hQ : ∀ r : Op, r.grants = false → r.gives = false := fun _ => Op.gives_of_grants
  have hemail : ∀ email, (ensureEmailFree email).Asks fun r => r.gives = false := by
    intro email
    cases email with
    | none => exact trivial
    | some e => exact Prog.asks_bind (asks_findUserByEmail hQ e) fun _ => asks_ensure _ _
  have hpassword : (validatePassword C body.password).Asks fun r => r.gives = false :=
    Prog.asks_bind (asks_ensure _ _) fun _ => asks_ensure _ _
  have huser : (registerUser C o headers body).Along (SignInFacts.may own p) SignInFacts.seen
      (fun d u => d.created = some u.id) .nothing := by
    refine along_then (Prog.asks_ask rfl) fun _ _ => along_then (asks_ensure _ _) fun _ _ => ?_
    refine along_then (asks_ensure _ _) fun _ _ => along_then hpassword fun _ _ => ?_
    refine along_then (asks_findUserByUsername hQ _) fun _ _ => along_then (asks_ensure _ _) fun _ _ => ?_
    refine along_then (hemail _) fun _ _ => along_then (asks_ofExcept _) fun _ _ => ?_
    exact along_then (asks_uniqueWinkdId hQ o _) fun _ _ => along_createUser _ _ _ _ _ _
  rw [register, Prog.along_bind]
  refine huser.mono (fun _ _ h => h) fun d user hd => ?_
  rw [Prog.along_bind]
  refine along_createSession (.inr (.inl (.inl hd))) fun _ _ => ?_
  refine along_then (asks_auditLog hQ _ _ _ _) fun _ _ => ?_
  exact trivial

/-- What the provider answers, is what a callback goes on with. -/
theorem along_oauthUserinfo (provider : OAuthProvider) (query : OAuthCallbackQuery)
    (headers : Headers) (d : SignInFacts) :
    (oauthUserinfo C o provider query headers).Along (SignInFacts.may own p) SignInFacts.seen
      (fun _ info => ∃ token, o.fetchUserinfo token = .ok info) d := by
  have henv : (OAuthProvider.loadEnv o provider).Asks fun r => r.gives = false :=
    Prog.asks_bind (asks_orThrow _ _) fun _ => Prog.asks_bind (asks_orThrow _ _) fun _ => trivial
  have hstate : ∀ cfg, (oauthState C provider query headers cfg).Asks fun r => r.gives = false := by
    intro cfg
    refine Prog.asks_bind (asks_orThrow _ _) fun _ => Prog.asks_bind (asks_orThrow _ _) fun _ => ?_
    split
    · refine Prog.asks_bind (asks_ensure _ _) fun _ => Prog.asks_bind (asks_orThrow _ _) fun _ => ?_
      refine Prog.asks_bind (Prog.asks_ask rfl) fun _ => Prog.asks_bind (asks_ensure _ _) fun _ => ?_
      exact trivial
    · exact trivial
  refine along_then henv fun _ cfg => along_then (hstate cfg) fun _ _ => ?_
  refine along_then (asks_ensure _ _) fun _ _ => along_then (asks_ofExcept _) fun _ token => ?_
  rw [Prog.along_bind, Prog.along_ofExcept]
  intro info hinfo
  refine along_then (asks_ensure _ _) fun _ _ => ?_
  exact ⟨token, hinfo⟩

/-- A callback links an identity of the person to an account that it has created, or found by
the person's e-mail address. -/
theorem along_findOrCreateOauthUser (provider : OAuthProvider) (info : OAuthUserInfo)
    (hidentity : own.identity provider.slug info.providerUserId = p)
    (hemail : ∀ email ∈ info.email, own.email email = p) (d : SignInFacts) :
    (findOrCreateOauthUser o provider info).Along (SignInFacts.may own p) SignInFacts.seen
      (fun d u => ∀ token, SignInFacts.may own p d (.createSession u.id token)) d := by
  -- whoever the account belongs to, the identity is linked and a session can follow
  have hlink : ∀ (user : User) (d : SignInFacts), SignInFacts.Entitled own p d user.id →
      (linkOauthAccount user.id provider.slug info.providerUserId >>= fun _ =>
        (pure user : Handler User)).Along (SignInFacts.may own p) SignInFacts.seen
          (fun d u => ∀ token, SignInFacts.may own p d (.createSession u.id token)) d := by
    intro user d hd
    refine ⟨⟨hidentity, hd⟩, ?_⟩
    intro linked
    cases linked with
    | error e => trivial
    | ok x => exact fun _ => .inr (.inl hd)
  have hQ : ∀ r : Op, r.grants = false → r.gives = false := fun _ => Op.gives_of_grants
  have hfound : ∀ d, (findOauthEmail info.email).Along (SignInFacts.may own p) SignInFacts.seen
      (fun d found => ∀ user, found = some user → SignInFacts.Entitled own p d user.id) d := by
    intro d
    cases hinfo : info.email with
    | none => exact fun _ h => nomatch h
    | some email =>
      refine ⟨trivial, ?_⟩
      intro found
      cases found with
      | error e => trivial
      | ok found =>
        rintro user hfound
        cases hfound
        exact .inr ⟨email, rfl, hemail email hinfo⟩
  have hcreate : ∀ d, (createOauthUser o provider info).Along (SignInFacts.may own p)
      SignInFacts.seen (fun d u => d.created = some u.id) d := by
    intro d
    refine along_then (asks_uniqueUsername hQ o _) fun _ _ => ?_
    exact along_then (asks_uniqueWinkdId hQ o _) fun _ _ => along_createUser _ _ _ _ _ _
  refine ⟨trivial, ?_⟩
  intro linked
  cases linked with
  | error e => trivial
  | ok linked =>
    cases linked with
    | some user => exact fun _ => .inr (.inr ⟨_, _, rfl, hidentity⟩)
    | none =>
      show Prog.Along _ SignInFacts.seen _ _ (findOauthEmail info.email >>= _)
      rw [Prog.along_bind]
      refine (hfound _).mono (fun _ _ h => h) fun d found hd => ?_
      cases found with
      | some user => exact hlink user d (hd user rfl)
      | none =>
        show Prog.Along _ SignInFacts.seen _ _ (createOauthUser o provider info >>= _)
        rw [Prog.along_bind]
        exact (hcreate d).mono (fun _ _ h => h) fun d user hd => hlink user d (.inl hd)

theorem along_oauthCallback {slug : Text} {query : OAuthCallbackQuery} {headers : Headers}
    (htrue : ∀ token info, o.fetchUserinfo token = .ok info →
      own.identity slug info.providerUserId = p ∧ ∀ email ∈ info.email, own.email email = p) :
    (oauthCallback C o slug query headers).Along (SignInFacts.may own p) SignInFacts.seen
      (fun _ _ => True) .nothing := by
  rw [oauthCallback, Prog.along_bind, Prog.along_ofOption]
  intro provider hprovider
  have hslug : provider.slug = slug := by
    have hfound := List.find?_some hprovider
    exact of_decide_eq_true hfound
  rw [Prog.along_bind]
  refine (along_oauthUserinfo provider query headers _).mono (fun _ _ h => h) fun d info hinfo => ?_
  obtain ⟨token, hinfo⟩ := hinfo
  obtain ⟨hidentity, hemail⟩ := htrue token info hinfo
  rw [Prog.along_bind]
  refine (along_findOrCreateOauthUser provider info (hslug ▸ hidentity) hemail d).mono
    (fun _ _ h => h) fun d user hd => ?_
  rw [Prog.along_bind]
  exact along_createSession (hd _) fun _ _ => trivial

end Handlers
/-! ## What is in the trace and in the tables -/

/-- What a request knows it was told. -/
structure SignInFacts.ToldBy (d : SignInFacts) (i : ℕ) (l : List AuthEntry) : Prop where
  login : d.login = true → ∃ e ∈ l, e.task = i ∧ e.login = true
  created : ∀ id, d.created = some id → ∃ e ∈ l, e.task = i ∧ ∃ email hash, e.created = some (id, email, hash)
  found : ∀ x, d.found = some x → ∃ e ∈ l, e.task = i ∧ e.found = some x
  linked : ∀ x, d.linked = some x → ∃ e ∈ l, e.task = i ∧ e.linked = some x

theorem SignInFacts.ToldBy.cons {d : SignInFacts} {i : ℕ} {l : List AuthEntry} (h : d.ToldBy i l)
    (e : AuthEntry) : d.ToldBy i (e :: l) where
  login hd := (h.login hd).imp fun _ ⟨he, h⟩ => ⟨List.mem_cons_of_mem _ he, h⟩
  created id hd := (h.created id hd).imp fun _ ⟨he, h⟩ => ⟨List.mem_cons_of_mem _ he, h⟩
  found x hd := (h.found x hd).imp fun _ ⟨he, h⟩ => ⟨List.mem_cons_of_mem _ he, h⟩
  linked x hd := (h.linked x hd).imp fun _ ⟨he, h⟩ => ⟨List.mem_cons_of_mem _ he, h⟩

/-- An entry of the request's own tells what `seen` says it does. -/
theorem SignInFacts.ToldBy.seen {d : SignInFacts} {i : ℕ} {l : List AuthEntry} (h : d.ToldBy i l)
    (b : Backend) (r : Op) (x : Op.Reply r) : (d.seen r x).ToldBy i (⟨i, b, r, x⟩ :: l) := by
  have hcons := h.cons ⟨i, b, r, x⟩
  cases r with
  | loginLimiterCheck ip =>
    exact ⟨fun _ => ⟨_, List.mem_cons_self, rfl, rfl⟩, hcons.created, hcons.found, hcons.linked⟩
  | createUser username winkdId displayName email hash =>
    cases x with
    | error e => exact hcons
    | ok user =>
      refine ⟨hcons.login, ?_, hcons.found, hcons.linked⟩
      intro id hid
      cases hid
      exact ⟨_, List.mem_cons_self, rfl, email, hash, rfl⟩
  | findUserByEmail email =>
    cases x with
    | error e => exact hcons
    | ok found =>
      cases found with
      | none => exact hcons
      | some user =>
        refine ⟨hcons.login, hcons.created, ?_, hcons.linked⟩
        intro x hx
        cases hx
        exact ⟨_, List.mem_cons_self, rfl, rfl⟩
  | findUserByOauth provider providerUserId =>
    cases x with
    | error e => exact hcons
    | ok found =>
      cases found with
      | none => exact hcons
      | some user =>
        refine ⟨hcons.login, hcons.created, hcons.found, ?_⟩
        intro x hx
        cases hx
        exact ⟨_, List.mem_cons_self, rfl, rfl⟩
  | _ => exact hcons

/-- **What a request has learned is in the trace.** -/
theorem SignInFacts.toldBy (i : ℕ) (l : List AuthEntry) :
    (Threads.Pool.learned SignInFacts.seen .nothing i l).ToldBy i l := by
  induction l with
  | nil => exact ⟨nofun, nofun, nofun, nofun⟩
  | cons e l ih =>
    by_cases he : e.task = i
    · subst he
      rw [Threads.Pool.learned_own rfl]
      exact ih.seen e.before e.request e.reply
    · rw [Threads.Pool.learned_other he]
      exact ih.cons e

/-- Accounts keep their ids and e-mail addresses. -/
theorem email_kept (r : Op) (b : Backend) {u : User} (hu : u ∈ b.users) :
    ∃ u' ∈ (answer r b).2.users, u'.id = u.id ∧ u'.email = u.email := by
  have hupdate : ∀ (id : Id) (f : User → User), (∀ v, (f v).id = v.id ∧ (f v).email = v.email) →
      ∃ u' ∈ (b.updateUser id f).users, u'.id = u.id ∧ u'.email = u.email := by
    intro id f hf
    refine ⟨if u.id = id then f u else u, mem_updateUser.mpr ⟨u, hu, rfl⟩, ?_⟩
    split
    · exact hf u
    · exact ⟨rfl, rfl⟩
  cases answer_users r b with
  | kept _ husers _ => exact ⟨u, husers ▸ hu, rfl, rfl⟩
  | created _ v _ husers _ => exact ⟨u, husers ▸ List.mem_append_left _ hu, rfl, rfl⟩
  | secretSet id secret _ hstate => exact hstate ▸ hupdate id _ fun _ => ⟨rfl, rfl⟩
  | enabledSet id enabled _ hstate =>
    rw [hstate]
    cases enabled with
    | false => exact hupdate id _ fun _ => ⟨rfl, rfl⟩
    | true => exact hupdate id _ fun _ => ⟨rfl, rfl⟩

theorem drawn_le_answer (r : Op) (b : Backend) : b.drawn ≤ (answer r b).2.drawn := by
  cases answer_users r b with
  | kept _ _ hdrawn => exact hdrawn
  | created _ _ _ _ hdrawn => omega
  | secretSet id secret _ hstate => exact hstate ▸ Nat.le_refl _
  | enabledSet id enabled _ hstate =>
    rw [hstate]
    cases enabled <;> exact Nat.le_refl _

/-- An account that is created gets a new id. -/
theorem created_answer {i : ℕ} {r : Op} {b : Backend} {x : Id × Option Text × Option Text}
    (h : AuthEntry.created ⟨i, b, r, (answer r b).1⟩ = some x) :
    x.1 = b.drawn ∧ (answer r b).2.drawn = b.drawn + 1 := by
  cases r with
  | createUser username winkdId displayName email hash =>
    simp only [answer, Backend.createUser] at h ⊢
    split at h
    · cases h
    · cases h
      exact ⟨rfl, rfl⟩
  | _ => cases h

/-- An account that was found by an e-mail address has it. -/
theorem found_answer {i : ℕ} {r : Op} {b : Backend} {id : Id} {email : Text}
    (h : AuthEntry.found ⟨i, b, r, (answer r b).1⟩ = some (id, email)) :
    ∃ u ∈ b.users, u.id = id ∧ u.email = some email := by
  cases r with
  | findUserByEmail email' =>
    simp only [answer] at h
    cases hfound : b.findUserByEmail email' with
    | none => rw [hfound] at h; cases h
    | some u =>
      rw [hfound] at h
      cases h
      have hemail := List.find?_some hfound
      exact ⟨u, List.mem_of_find?_eq_some hfound, rfl, of_decide_eq_true hemail⟩
  | _ => cases h

theorem linked_answer {i : ℕ} {r : Op} {b : Backend} {id : Id} {provider providerUserId : Text}
    (h : AuthEntry.linked ⟨i, b, r, (answer r b).1⟩ = some (id, provider, providerUserId)) :
    ⟨id, provider, providerUserId⟩ ∈ (answer r b).2.oauthAccounts := by
  have htold : r.told (answer r b).1 = some ((provider, providerUserId), id) := by
    cases r with
    | findUserByOauth provider' providerUserId' =>
      simp only [answer] at h ⊢
      cases hfound : b.findUserByOauth provider' providerUserId' with
      | none => rw [hfound] at h; cases h
      | some u =>
        rw [hfound] at h
        cases h
        rfl
    | _ => cases h
  refine told_answer (fun x hx => ?_) htold
  cases r <;> first | cases h | cases hx

namespace Service

section Runs
variable {P : Type} {who : ℕ → P} {own : Persons P} {C : Crates} {s : Service}

/-- Every request keeps to its person's. -/
theorem ReachedTruly.assigned (hs : s.ReachedTruly who own C) :
    Threads.Pool.Assigned (fun i => SignInFacts.may own (who i)) SignInFacts.seen .nothing
      (fun _ _ _ => True) s := by
  obtain ⟨now, hreach⟩ := hs
  refine hreach.invariant (Threads.Pool.Assigned.idle _) ?_
  intro s e hs htrue
  cases e with
  | statement i => exact Threads.Pool.Assigned.next (h := answer) hs (a := .answer i) nofun
  | clock now => exact Threads.Pool.Assigned.next (h := answer) hs (a := .outside _) nofun
  | request o req =>
    refine Threads.Pool.Assigned.next (h := answer) hs (a := .start (handle C o req)) ?_
    intro p hp
    cases hp
    cases req with
    | login headers body => exact along_login headers body
    | register headers body => exact along_register headers body
    | oauthCallback slug query headers => exact along_oauthCallback htrue
    | totpChallenge headers body => exact htrue.elim
    | totpSetup headers => exact htrue.elim
    | totpConfirm headers code => exact htrue.elim
    | totpDisable headers code => exact htrue.elim
    | recoveryCodesGenerate headers code => exact htrue.elim

/-- What a service has gone on to has all that it had. -/
structure GrowsTo (s t : Service) : Prop where
  trace : ∀ e ∈ s.trace, e ∈ t.trace
  emails : ∀ u ∈ s.state.users, ∃ u' ∈ t.state.users, u'.id = u.id ∧ u'.email = u.email

theorem Creator.mono {t : Service} (h : GrowsTo s t) {id : Id} {p : P} (hc : s.Creator who id p) :
    t.Creator who id p := by
  obtain ⟨e, he, hc⟩ := hc
  exact ⟨e, h.trace e he, hc⟩

theorem EmailOf.mono {t : Service} (h : GrowsTo s t) {id : Id} {p : P} (he : s.EmailOf own id p) :
    t.EmailOf own id p := by
  obtain ⟨u, hu, hid, email, hemail, hp⟩ := he
  obtain ⟨u', hu', hid', hemail'⟩ := h.emails u hu
  exact ⟨u', hu', hid'.trans hid, email, hemail'.trans hemail, hp⟩

/-- Who has come to hold what. -/
structure Holdings (who : ℕ → P) (own : Persons P) (s : Service) : Prop where
  drawn : ∀ e : AuthEntry, e ∈ s.trace → ∀ x, e.created = some x → x.1 < s.state.drawn
  once : s.trace.Pairwise fun e e' : AuthEntry => ∀ x, e.created = some x → ∀ y,
    e'.created = some y → x.1 ≠ y.1
  found : ∀ e : AuthEntry, e ∈ s.trace → ∀ x, e.found = some x →
    ∃ u ∈ s.state.users, u.id = x.1 ∧ u.email = some x.2
  linked : ∀ e : AuthEntry, e ∈ s.trace → ∀ x, e.linked = some x →
    ⟨x.1, x.2.1, x.2.2⟩ ∈ s.state.oauthAccounts
  links : ∀ id p, s.IdentityOf own id p → s.Creator who id p ∨ s.EmailOf own id p
  sessions : ∀ e : AuthEntry, e ∈ s.trace → ∀ id, e.session = some id →
    (∃ e' : AuthEntry, e' ∈ s.trace ∧ e'.task = e.task ∧ e'.login = true) ∨
      s.Creator who id (who e.task) ∨ s.EmailOf own id (who e.task)

/-- A person who is entitled to an account has created it or has its e-mail address. -/
theorem Holdings.entitled (h : Holdings who own s) {i : ℕ} {d : SignInFacts}
    (hd : d.ToldBy i s.trace) {id : Id} (he : SignInFacts.Entitled own (who i) d id) :
    s.Creator who id (who i) ∨ s.EmailOf own id (who i) := by
  rcases he with hcreated | ⟨email, hfound, howner⟩
  · obtain ⟨e, he, htask, hcreated⟩ := hd.created id hcreated
    exact .inl ⟨e, he, by rw [htask], hcreated⟩
  · obtain ⟨e, he, -, hfound⟩ := hd.found _ hfound
    obtain ⟨u, hu, hid, hemail⟩ := h.found e he _ hfound
    exact .inr ⟨u, hu, hid, email, hemail, howner⟩

/-- **A statement keeps the holdings**, if its request keeps to its person's. -/
theorem Holdings.statement (h : Holdings who own s) {i : ℕ} {r : Op}
    {k : Op.Reply r → Handler Response}
    (hmay : SignInFacts.may own (who i) (Threads.Pool.learned SignInFacts.seen .nothing i s.trace) r) :
    Holdings who own (s.answered answer i r k) := by
  have hgrows : GrowsTo s (s.answered answer i r k) :=
    ⟨fun _ he => List.mem_cons_of_mem _ he, fun _ hu => email_kept r s.state hu⟩
  have htold := SignInFacts.toldBy i s.trace
  refine ⟨?_, ?_, ?_, ?_, ?_, ?_⟩
  · intro e he x hx
    rcases List.mem_cons.mp he with rfl | he
    · obtain ⟨hid, hdrawn⟩ := created_answer hx
      rw [hid]
      show s.state.drawn < (answer r s.state).2.drawn
      omega
    · exact Nat.lt_of_lt_of_le (h.drawn e he x hx) (drawn_le_answer r s.state)
  · refine List.pairwise_cons.mpr ⟨?_, h.once⟩
    intro e' he' x hx y hy
    have hlt := h.drawn e' he' y hy
    rw [(created_answer hx).1]
    exact Nat.ne_of_gt hlt
  · intro e he x hx
    rcases List.mem_cons.mp he with rfl | he
    · obtain ⟨u, hu, hid, hemail⟩ := found_answer hx
      obtain ⟨u', hu', hid', hemail'⟩ := email_kept r s.state hu
      exact ⟨u', hu', hid'.trans hid, hemail'.trans hemail⟩
    · obtain ⟨u, hu, hid, hemail⟩ := h.found e he x hx
      obtain ⟨u', hu', hid', hemail'⟩ := email_kept r s.state hu
      exact ⟨u', hu', hid'.trans hid, hemail'.trans hemail⟩
  · intro e he x hx
    rcases List.mem_cons.mp he with rfl | he
    · exact linked_answer hx
    · exact mem_links_answer r (h.linked e he x hx)
  · rintro id p ⟨a, ha, rfl, rfl⟩
    have hheld : s.Creator who a.userId (own.identity a.provider a.providerUserId) ∨
        s.EmailOf own a.userId (own.identity a.provider a.providerUserId) := by
      rcases answer_links r s.state with heq | ⟨id, key, hlinks, -, heq⟩
      · exact h.links _ _ ⟨a, heq ▸ ha, rfl, rfl⟩
      · have ha : a ∈ (answer r s.state).2.oauthAccounts := ha
        rw [heq, List.mem_append, List.mem_singleton] at ha
        rcases ha with ha | rfl
        · exact h.links _ _ ⟨a, ha, rfl, rfl⟩
        · -- the request that links is of the identity's person
          cases r with
          | linkOauthAccount userId provider providerUserId =>
            cases hlinks
            obtain ⟨hidentity, hentitled⟩ := hmay
            rw [hidentity]
            exact h.entitled htold hentitled
          | _ => cases hlinks
    exact hheld.imp (Creator.mono hgrows) (EmailOf.mono hgrows)
  · intro e he id hsession
    rcases List.mem_cons.mp he with rfl | he
    · cases r with
      | createSession userId token =>
        cases hsession
        rcases hmay with hlogin | hentitled | ⟨provider, providerUserId, hlinked, hidentity⟩
        · obtain ⟨e', he', htask, hlogin⟩ := htold.login hlogin
          exact .inl ⟨e', hgrows.trace e' he', htask, hlogin⟩
        · exact .inr ((h.entitled htold hentitled).imp (Creator.mono hgrows) (EmailOf.mono hgrows))
        · obtain ⟨e', he', -, hlinked⟩ := htold.linked _ hlinked
          have hheld := h.links id (who i) ⟨_, h.linked e' he' _ hlinked, rfl, hidentity⟩
          exact .inr (hheld.imp (Creator.mono hgrows) (EmailOf.mono hgrows))
      | _ => cases hsession
    · refine (h.sessions e he id hsession).imp ?_ (Or.imp (Creator.mono hgrows) (EmailOf.mono hgrows))
      exact fun ⟨e', he', h⟩ => ⟨e', hgrows.trace e' he', h⟩

theorem ReachedTruly.holdings (hs : s.ReachedTruly who own C) : Holdings who own s := by
  obtain ⟨now, hreach⟩ := hs
  induction hreach with
  | refl =>
    exact ⟨fun _ h => (nomatch h), List.Pairwise.nil, fun _ h => (nomatch h), fun _ h => (nomatch h),
      fun _ _ ⟨_, h, _⟩ => (nomatch h), fun _ h => nomatch h⟩
  | tail hprev hstep ih =>
    rename_i s t
    obtain ⟨e, he, rfl⟩ := hstep
    cases e with
    | request o req => exact ⟨ih.drawn, ih.once, ih.found, ih.linked, ih.links, ih.sessions⟩
    | clock now => exact ⟨ih.drawn, ih.once, ih.found, ih.linked, ih.links, ih.sessions⟩
    | statement i =>
      rcases Threads.Pool.next_answer_cases (h := answer) s i with heq | ⟨r, k, hp, heq⟩
      · show Holdings who own (Threads.Pool.next answer s (.answer i))
        rw [heq]
        exact ih
      · show Holdings who own (Threads.Pool.next answer s (.answer i))
        rw [heq]
        exact ih.statement ((ReachedTruly.assigned ⟨now, hprev⟩).may_issue hp)

/-- One person has created an account. -/
theorem Holdings.creator_unique (h : Holdings who own s) {id : Id} {p q : P}
    (hp : s.Creator who id p) (hq : s.Creator who id q) : p = q := by
  obtain ⟨e, he, rfl, _, _, hcreated⟩ := hp
  obtain ⟨e', he', rfl, _, _, hcreated'⟩ := hq
  by_cases heq : e = e'
  · rw [heq]
  · have hsymm : Std.Symm fun e e' : AuthEntry => ∀ x, e.created = some x → ∀ y,
        e'.created = some y → x.1 ≠ y.1 := ⟨fun _ _ h y hy x hx => (h x hx y hy).symm⟩
    have hne : id ≠ id := h.once.forall he he' heq _ hcreated _ hcreated'
    exact absurd rfl hne

/-- One person has an account's e-mail address. -/
theorem ReachedTruly.email_unique (hs : s.ReachedTruly who own C) {id : Id} {p q : P}
    (hp : s.EmailOf own id p) (hq : s.EmailOf own id q) : p = q := by
  have hreached : s.Reached C := by
    obtain ⟨now, hreach⟩ := hs
    refine ⟨now, hreach.mono fun s e he => ?_⟩
    cases e with
    | request o req => trivial
    | statement i => trivial
    | clock now => exact he
  obtain ⟨u, hu, hid, email, hemail, rfl⟩ := hp
  obtain ⟨v, hv, hid', email', hemail', rfl⟩ := hq
  obtain rfl := hreached.accounts.eq_of_id hu hv (hid.trans hid'.symm)
  rw [Option.some.inj (hemail.symm.trans hemail')]

/-- **An account is its creator's and the owner's of its e-mail address**, and nobody
else's. -/
theorem accounts_owned (hs : s.ReachedTruly who own C) : s.Owned who own := by
  have h := hs.holdings
  have hheld : ∀ id p, s.CredentialOf who own id p → s.Creator who id p ∨ s.EmailOf own id p := by
    rintro id p (⟨e, he, hp, email, hash, hcreated⟩ | hidentity)
    · exact .inl ⟨e, he, hp, email, some hash, hcreated⟩
    · exact h.links id p hidentity
  refine ⟨hheld, h.sessions, ?_⟩
  intro id hone p q hp hq
  rcases hheld id p hp with hcreator | hemail
  · rcases hheld id q hq with hcreator' | hemail'
    · exact h.creator_unique hcreator hcreator'
    · exact hone p q hcreator hemail'
  · rcases hheld id q hq with hcreator' | hemail'
    · exact (hone q p hcreator' hemail).symm
    · exact hs.email_unique hemail hemail'

end Runs
end Service

namespace Sample

/-- The identity at GitHub and the e-mail address are Ada's, person 1. -/
def persons : Persons ℕ := ⟨fun _ _ => 1, fun _ => 1⟩

/-- The hash of the stranger's password. -/
def argon2Hash : Text :=
  "$argon2id$v=19$m=131072,t=4,p=4$MDEyMzQ1Njc4OWFiY2RlZg$7l24wbqKYzLwqdQxfTZ5+019Y/AdJnHkObc2sFzJzlc".toList

def hashingCrates : Crates := { crates with hashPassword := fun _ _ => .ok argon2Hash }

/-- A stranger registers with Ada's e-mail address. -/
def strangersRegistration : AuthRequest :=
  .register ⟨"10.0.0.9", none, none, none, none, none⟩
    ⟨"stranger".toList, "Correct horse 1".toList, "Stranger".toList, some "ada@example.org".toList⟩

/-- Then Ada signs in with GitHub. -/
def afterOwners : Service :=
  (served 0 8 "stranger" strangersRegistration ++ served 1 5 "ada" callback).foldl
    (Service.next hashingCrates) (Threads.Pool.idle (.init 0))

end Sample

namespace Service

/-- A request is taken, and then its statements. -/
theorem ReachedTruly.served {P : Type} {who : ℕ → P} {own : Persons P} {C : Crates} {s : Service}
    (hs : s.ReachedTruly who own C) (i n : ℕ) (token : String) (req : AuthRequest)
    (htrue : s.Truthful who own (.request (Sample.outside token) req)) :
    ((Sample.served i n token req).foldl (next C) s).ReachedTruly who own C := by
  obtain ⟨now, hs⟩ := hs
  have hstatements : Transitions.Admits (next C) (Truthful who own)
      (next C s (.request (Sample.outside token) req)) (List.replicate n (.statement i)) := by
    generalize next C s _ = t
    induction n generalizing t with
    | zero => exact trivial
    | succ n ih => exact ⟨trivial, ih _⟩
  exact ⟨now, (hs.tail htrue).trans hstatements.reaches⟩

end Service

theorem Sample.afterOwners_reached : afterOwners.ReachedTruly id persons hashingCrates := by
  have hidle : Service.ReachedTruly id persons hashingCrates (Threads.Pool.idle (.init 0)) :=
    ⟨0, Transitions.Reaches.refl _⟩
  have hregistered := hidle.served 0 8 "stranger" strangersRegistration trivial
  rw [afterOwners, List.foldl_append]
  refine hregistered.served 1 5 "ada" callback ?_
  have htask : ((served 0 8 "stranger" strangersRegistration).foldl (Service.next hashingCrates)
      (Threads.Pool.idle (.init 0))).tasks.length = 1 := by decide +kernel
  rintro token info ⟨⟩
  rw [htask]
  exact ⟨rfl, fun _ _ => rfl⟩

namespace Service

theorem strangers_account_owned : Sample.afterOwners.Owned id Sample.persons :=
  accounts_owned Sample.afterOwners_reached

/-- Ada's identity is linked to the account that has the stranger's password. -/
theorem strangers_account_shared :
    ¬ ∀ s : Service, s.ReachedTruly id Sample.persons Sample.hashingCrates →
      s.Exclusive id Sample.persons := by
  intro h
  have hpassword : ∃ e ∈ Sample.afterOwners.trace, e.task = 0 ∧
      AuthEntry.created e = some (0, some "ada@example.org".toList, some Sample.argon2Hash) := by
    decide +kernel
  obtain ⟨e, he, htask, hcreated⟩ := hpassword
  have hpassword : Sample.afterOwners.PasswordOf id 0 0 := ⟨e, he, htask, _, _, hcreated⟩
  have hidentity : ∃ a ∈ Sample.afterOwners.state.oauthAccounts, a.userId = 0 := by decide +kernel
  obtain ⟨a, ha, hid⟩ := hidentity
  have hidentity : Sample.afterOwners.IdentityOf Sample.persons 0 1 := ⟨a, ha, hid, rfl⟩
  exact absurd (h _ Sample.afterOwners_reached 0 0 1 (.inl hpassword) (.inr hidentity)) (by decide)

end Service
end Winkd.Server
