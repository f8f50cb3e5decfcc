import Winkd.Effects
import Winkd.Strings
import Winkd.RateLimiter

/-!
# The tables behind the account endpoints

`db.rs` and the migrations, as `auth.rs` uses them.  A table is the list of its rows,
in the order in which they were inserted; each `Op` is one SQL statement, carried out
at once, or one look at the clock or at a rate limiter.  A statement that affects
rows answers with them — the driver reports how many there are.

Ids are drawn from a counter where PostgreSQL draws a UUID; random tokens and codes
are chosen by the handlers.  A transaction keeps what it has deleted and inserted to
itself until it commits.  NOW() and the server's clock are the same, in microseconds.
-/

namespace Winkd.Server

/-- A UUID. -/
abbrev Id : Type := ℕ

/-- A row of `users`, without the columns the account endpoints do not touch. -/
structure User where
  id : Id
  username : Text
  winkdId : Text
  displayName : Text
  moodMessage : Text
  avatarData : Option Text
  displayNameColor : Option Text
  avColor : Option Text
  email : Option Text
  /-- NULL for OAuth-only users. -/
  passwordHash : Option Text
  totpEnabled : Bool
  totpSecret : Option Text
  deriving DecidableEq

structure OAuthAccount where
  userId : Id
  provider : Text
  providerUserId : Text
  deriving DecidableEq

structure SessionRow where
  userId : Id
  token : Text
  expiresAt : ℕ
  deriving DecidableEq

structure TotpChallenge where
  userId : Id
  token : Text
  expiresAt : ℕ
  deriving DecidableEq

structure RecoveryCode where
  id : Id
  userId : Id
  codeHash : Text
  deriving DecidableEq

/-- The actions the account endpoints write to the audit log. -/
inductive Action where
  | login
  | loginFailed
  | register
  | totpEnabled
  | totpDisabled
  | totpChallengeIssued
  | totpChallengePassed
  | totpChallengeFailed
  | recoveryCodeUsed
  | recoveryCodesRegenerated
  deriving DecidableEq

/-- The metadata of an audit entry: a field and its value, if there is one. -/
inductive Metadata where
  | empty
  | text (field : String) (value : Text)
  | number (field : String) (value : ℕ)
  deriving DecidableEq

structure AuditEntry where
  userId : Option Id
  action : Action
  ip : IpAddr
  metadata : Metadata
  deriving DecidableEq

/-- What a transaction has done so far: the rows it has deleted, by their ids, and the
rows it has inserted. -/
structure Transaction where
  deleted : List Id
  inserted : List RecoveryCode
  deriving DecidableEq

/-- A transaction that has done nothing. -/
def Transaction.begun : Transaction := ⟨[], []⟩

/-- Everything the handlers share. -/
structure Backend where
  /-- Microseconds since the epoch. -/
  now : ℕ
  users : List User
  oauthAccounts : List OAuthAccount
  sessions : List SessionRow
  totpChallenges : List TotpChallenge
  recoveryCodes : List RecoveryCode
  auditLog : List AuditEntry
  transactions : ℕ → Transaction
  /-- How many transactions were begun. -/
  begun : ℕ
  /-- How many ids were drawn. -/
  drawn : ℕ
  loginLimiter : RateLimiter
  registerLimiter : RateLimiter

/-- An error of the driver, by its text. -/
structure DbError where
  text : String
  deriving DecidableEq

/-- A violated UNIQUE constraint. -/
def DbError.unique (constraint : String) : DbError :=
  ⟨"error returned from database: duplicate key value violates unique constraint \"" ++
    constraint ++ "\""⟩

/-- A value longer than its VARCHAR column. -/
def DbError.tooLong (n : ℕ) : DbError :=
  ⟨"error returned from database: value too long for type character varying(" ++ toString n ++ ")"⟩

/-- The points at which a handler touches what it shares with others. -/
inductive Op where
  | findUserByUsername (username : Text)
  | findUserByEmail (email : Text)
  | findUserByOauth (provider providerUserId : Text)
  | findUserById (id : Id)
  | findUserBySession (token : Text)
  | createUser (username winkdId displayName : Text) (email passwordHash : Option Text)
  | linkOauthAccount (userId : Id) (provider providerUserId : Text)
  /-- The existence test of `unique_winkd_id`. -/
  | winkdIdExists (winkdId : Text)
  | createSession (userId : Id) (token : Text)
  | createTotpChallenge (userId : Id) (token : Text)
  | consumeTotpChallenge (token : Text)
  | setTotpSecret (userId : Id) (secret : Text)
  | setTotpEnabled (userId : Id) (enabled : Bool)
  | countRecoveryCodes (userId : Id)
  | consumeRecoveryCode (userId : Id) (codeHash : Text)
  /-- The statements of `store_recovery_codes`. -/
  | beginTransaction
  | deleteRecoveryCodes (tx : ℕ) (userId : Id)
  | insertRecoveryCode (tx : ℕ) (userId : Id) (codeHash : Text)
  | commit (tx : ℕ)
  | insertAuditLog (entry : AuditEntry)
  | loginLimiterCheck (ip : IpAddr)
  | registerLimiterCheck (ip : IpAddr)
  | currentUnixSecs
  deriving DecidableEq

/-- The type of each reply. -/
@[reducible] def Op.Reply : Op → Type
  | .findUserByUsername _ => Except DbError (Option User)
  | .findUserByEmail _ => Except DbError (Option User)
  | .findUserByOauth _ _ => Except DbError (Option User)
  | .findUserById _ => Except DbError (Option User)
  | .findUserBySession _ => Except DbError (Option User)
  | .createUser _ _ _ _ _ => Except DbError User
  | .linkOauthAccount _ _ _ => Except DbError Unit
  | .winkdIdExists _ => Except DbError Bool
  | .createSession _ _ => Except DbError Unit
  | .createTotpChallenge _ _ => Except DbError Unit
  | .consumeTotpChallenge _ => Except DbError (Option Id)
  | .setTotpSecret _ _ => Except DbError Unit
  | .setTotpEnabled _ _ => Except DbError Unit
  | .countRecoveryCodes _ => Except DbError ℕ
  | .consumeRecoveryCode _ _ => Except DbError (List RecoveryCode)
  | .beginTransaction => Except DbError ℕ
  | .deleteRecoveryCodes _ _ => Except DbError (List RecoveryCode)
  | .insertRecoveryCode _ _ _ => Except DbError Unit
  | .commit _ => Except DbError Unit
  | .insertAuditLog _ => Except DbError Unit
  | .loginLimiterCheck _ => Bool
  | .registerLimiterCheck _ => Bool
  | .currentUnixSecs => ℕ

namespace Backend

/-! ## Statements -/

def findUserByUsername (b : Backend) (username : Text) : Option User :=
  b.users.find? fun u => u.username = username

def findUserByEmail (b : Backend) (email : Text) : Option User :=
  b.users.find? fun u => u.email = some email

def findUserById (b : Backend) (id : Id) : Option User := b.users.find? fun u => u.id = id

def findUserByOauth (b : Backend) (provider providerUserId : Text) : Option User :=
  (b.oauthAccounts.find? fun a => a.provider = provider ∧ a.providerUserId = providerUserId).bind
    fun a => b.findUserById a.userId

def findUserBySession (b : Backend) (token : Text) : Option User :=
  (b.sessions.find? fun s => s.token = token ∧ b.now < s.expiresAt).bind
    fun s => b.findUserById s.userId

/-- The constraints of `users` on a new row. -/
def newUserError (b : Backend) (username winkdId displayName : Text)
    (email passwordHash : Option Text) : Option DbError :=
  if 32 < username.length then some (.tooLong 32)
  else if 40 < winkdId.length then some (.tooLong 40)
  else if 64 < displayName.length then some (.tooLong 64)
  else if 255 < (email.getD []).length then some (.tooLong 255)
  else if 255 < (passwordHash.getD []).length then some (.tooLong 255)
  else if b.users.any fun u => u.username = username then some (.unique "users_username_key")
  else if b.users.any fun u => u.winkdId = winkdId then some (.unique "users_winkd_id_key")
  else if email.isSome ∧ b.users.any fun u => u.email = email then some (.unique "users_email_key")
  else none

/-- The row `create_user` inserts, with the defaults of the columns it leaves out. -/
def newUser (b : Backend) (username winkdId displayName : Text) (email passwordHash : Option Text) :
    User :=
  { id := b.drawn, username := username, winkdId := winkdId, displayName := displayName
    moodMessage := [], avatarData := none, displayNameColor := none, avColor := none
    email := email, passwordHash := passwordHash, totpEnabled := false, totpSecret := none }

def createUser (b : Backend) (username winkdId displayName : Text)
    (email passwordHash : Option Text) : Except DbError User × Backend :=
  match b.newUserError username winkdId displayName email passwordHash with
  | some e => (.error e, b)
  | none =>
    let u := b.newUser username winkdId displayName email passwordHash
    (.ok u, { b with users := b.users ++ [u], drawn := b.drawn + 1 })

/-- `ON CONFLICT (provider, provider_user_id) DO NOTHING`. -/
def linkOauthAccount (b : Backend) (userId : Id) (provider providerUserId : Text) :
    Except DbError Unit × Backend :=
  if 32 < provider.length then (.error (.tooLong 32), b)
  else if 255 < providerUserId.length then (.error (.tooLong 255), b)
  else if b.oauthAccounts.any fun a => a.provider = provider ∧ a.providerUserId = providerUserId then
    (.ok (), b)
  else
    (.ok (), { b with oauthAccounts := b.oauthAccounts ++ [⟨userId, provider, providerUserId⟩] })

/-- The row `create_session` inserts.  Sessions last 30 days. -/
def newSession (b : Backend) (userId : Id) (token : Text) : SessionRow :=
  ⟨userId, token, b.now + 30 * 24 * 60 * 60 * 1000000⟩

def createSession (b : Backend) (userId : Id) (token : Text) : Except DbError Unit × Backend :=
  if 255 < token.length then (.error (.tooLong 255), b)
  else if b.sessions.any fun s => s.token = token then (.error (.unique "sessions_token_key"), b)
  else (.ok (), { b with sessions := b.sessions ++ [b.newSession userId token] })

/-- Challenges last 5 minutes. -/
def createTotpChallenge (b : Backend) (userId : Id) (token : Text) : Except DbError Unit × Backend :=
  if 64 < token.length then (.error (.tooLong 64), b)
  else if b.totpChallenges.any fun c => c.token = token then
    (.error (.unique "totp_challenges_token_key"), b)
  else
    (.ok (), { b with totpChallenges :=
      b.totpChallenges ++ [⟨userId, token, b.now + 5 * 60 * 1000000⟩] })

/-- Whether `consume_totp_challenge` takes the row. -/
def LiveChallenge (b : Backend) (token : Text) (c : TotpChallenge) : Bool :=
  c.token = token ∧ b.now < c.expiresAt

def consumeTotpChallenge (b : Backend) (token : Text) : Option Id × Backend :=
  ((b.totpChallenges.find? (b.LiveChallenge token)).map TotpChallenge.userId,
    { b with totpChallenges := b.totpChallenges.filter fun c => !b.LiveChallenge token c })

/-- `UPDATE users … WHERE id = $1`. -/
def updateUser (b : Backend) (id : Id) (f : User → User) : Backend :=
  { b with users := b.users.map fun u => if u.id = id then f u else u }

def setTotpSecret (b : Backend) (userId : Id) (secret : Text) : Backend :=
  b.updateUser userId fun u => { u with totpSecret := some secret }

/-- Disabling also clears the stored secret. -/
def setTotpEnabled (b : Backend) (userId : Id) (enabled : Bool) : Backend :=
  if enabled then b.updateUser userId fun u => { u with totpEnabled := true }
  else b.updateUser userId fun u => { u with totpEnabled := false, totpSecret := none }

def countRecoveryCodes (b : Backend) (userId : Id) : ℕ :=
  (b.recoveryCodes.filter fun c => c.userId = userId).length

/-- The rows `consume_recovery_code` deletes: the first with the hash, if there is
one. -/
def redeemed (b : Backend) (userId : Id) (codeHash : Text) : List RecoveryCode :=
  (b.recoveryCodes.find? fun c => c.userId = userId ∧ c.codeHash = codeHash).toList

def consumeRecoveryCode (b : Backend) (userId : Id) (codeHash : Text) :
    List RecoveryCode × Backend :=
  (b.redeemed userId codeHash,
    { b with recoveryCodes := b.recoveryCodes.filter fun c =>
        !(b.redeemed userId codeHash).any fun r => r.id = c.id })

/-- The user's codes that a transaction sees among those of the table. -/
def visibleCodes (b : Backend) (tx : ℕ) (userId : Id) : List RecoveryCode :=
  b.recoveryCodes.filter fun c => c.userId = userId ∧ c.id ∉ (b.transactions tx).deleted

def deleteRecoveryCodes (b : Backend) (tx : ℕ) (userId : Id) : List RecoveryCode × Backend :=
  let t := b.transactions tx
  let t' : Transaction :=
    { deleted := t.deleted ++ (b.visibleCodes tx userId).map RecoveryCode.id
      inserted := t.inserted.filter fun c => c.userId ≠ userId }
  (b.visibleCodes tx userId ++ (t.inserted.filter fun c => c.userId = userId),
    { b with transactions := Function.update b.transactions tx t' })

def insertRecoveryCode (b : Backend) (tx : ℕ) (userId : Id) (codeHash : Text) : Backend :=
  let t := b.transactions tx
  let t' : Transaction := { t with inserted := t.inserted ++ [⟨b.drawn, userId, codeHash⟩] }
  { b with transactions := Function.update b.transactions tx t', drawn := b.drawn + 1 }

def commit (b : Backend) (tx : ℕ) : Backend :=
  let t := b.transactions tx
  { b with
    recoveryCodes := (b.recoveryCodes.filter fun c => c.id ∉ t.deleted) ++ t.inserted
    transactions := Function.update b.transactions tx .begun }

end Backend

/-- How each statement is answered when the database does not fail. -/
def answer : Prog.Handler Op Op.Reply Backend
  | .findUserByUsername username, b => (.ok (b.findUserByUsername username), b)
  | .findUserByEmail email, b => (.ok (b.findUserByEmail email), b)
  | .findUserByOauth provider providerUserId, b =>
      (.ok (b.findUserByOauth provider providerUserId), b)
  | .findUserById id, b => (.ok (b.findUserById id), b)
  | .findUserBySession token, b => (.ok (b.findUserBySession token), b)
  | .createUser username winkdId displayName email passwordHash, b =>
      b.createUser username winkdId displayName email passwordHash
  | .linkOauthAccount userId provider providerUserId, b =>
      b.linkOauthAccount userId provider providerUserId
  | .winkdIdExists winkdId, b => (.ok (b.users.any fun u => u.winkdId = winkdId), b)
  | .createSession userId token, b => b.createSession userId token
  | .createTotpChallenge userId token, b => b.createTotpChallenge userId token
  | .consumeTotpChallenge token, b =>
      (.ok (b.consumeTotpChallenge token).1, (b.consumeTotpChallenge token).2)
  | .setTotpSecret userId secret, b => (.ok (), b.setTotpSecret userId secret)
  | .setTotpEnabled userId enabled, b => (.ok (), b.setTotpEnabled userId enabled)
  | .countRecoveryCodes userId, b => (.ok (b.countRecoveryCodes userId), b)
  | .consumeRecoveryCode userId codeHash, b =>
      (.ok (b.consumeRecoveryCode userId codeHash).1, (b.consumeRecoveryCode userId codeHash).2)
  | .beginTransaction, b => (.ok b.begun, { b with begun := b.begun + 1 })
  | .deleteRecoveryCodes tx userId, b =>
      (.ok (b.deleteRecoveryCodes tx userId).1, (b.deleteRecoveryCodes tx userId).2)
  | .insertRecoveryCode tx userId codeHash, b => (.ok (), b.insertRecoveryCode tx userId codeHash)
  | .commit tx, b => (.ok (), b.commit tx)
  | .insertAuditLog entry, b => (.ok (), { b with auditLog := b.auditLog ++ [entry] })
  | .loginLimiterCheck ip, b =>
      ((b.loginLimiter.check b.now ip).1,
        { b with loginLimiter := (b.loginLimiter.check b.now ip).2 })
  | .registerLimiterCheck ip, b =>
      ((b.registerLimiter.check b.now ip).1,
        { b with registerLimiter := (b.registerLimiter.check b.now ip).2 })
  | .currentUnixSecs, b => (b.now / 1000000, b)

end Winkd.Server
