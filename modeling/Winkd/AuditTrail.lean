import Winkd.Origins
import Mathlib.Algebra.Order.BigOperators.Group.Finset

/-!
# What the audit log tells

The audit log is written after the fact, by a statement of its own.  Once no request is mid-way it
is complete for passwords and codes: for every session that a login, a registration or a second
factor has given it has one entry, and one for every challenge that was issued and for every time that
2FA was switched off (`audit_complete`).  A sign-in with a provider gives a session and leaves no
entry, so the sessions of an account are those of the log and those of its sign-ins
(`Audited.sessions`).
-/

namespace Winkd.Server
open Threads

/-- What an account's owner should find in the log. -/
inductive Notable where
  | session
  | challenge
  | disabled
  deriving DecidableEq

/-- What is notable in a statement that has succeeded. -/
def Op.deed : (r : Op) → r.Reply → Option (Notable × Id)
  | .createSession id _, .ok _ => some (.session, id)
  | .createTotpChallenge id _, .ok _ => some (.challenge, id)
  | .setTotpEnabled id false, .ok _ => some (.disabled, id)
  | _, _ => none

/-- What an action of the log is the note of. -/
def Action.notes : Action → Option Notable
  | .login => some .session
  | .register => some .session
  | .totpChallengePassed => some .session
  | .totpChallengeIssued => some .challenge
  | .totpDisabled => some .disabled
  | _ => none

/-- What an entry of the log is the note of. -/
def AuditEntry.notes (entry : AuditEntry) : Option (Notable × Id) :=
  entry.action.notes.bind fun n => entry.userId.map fun id => (n, id)

/-- The note that a statement makes. -/
def Op.note : Op → Option (Notable × Id)
  | .insertAuditLog entry => entry.notes
  | _ => none

/-- The request is a sign-in with a provider. -/
def AuthRequest.isSignIn : AuthRequest → Bool
  | .oauthCallback _ _ _ => true
  | _ => false

namespace Past

/-- What a request has done. -/
def deeds (past : Past) : List (Notable × Id) := past.filterMap fun x => x.request.deed x.reply

/-- What it has noted of it. -/
def notes (past : Past) : List (Notable × Id) := past.filterMap fun x => x.request.note

/-- What it has done is in the log; a sign-in has noted nothing, and issued and disabled nothing. -/
def Balanced (req : AuthRequest) (past : Past) : Prop :=
  if req.isSignIn then past.notes = [] ∧ ∀ d ∈ past.deeds, d.1 = .session else past.notes = past.deeds

/-- Nothing in the log is without its deed; a sign-in has noted nothing, and issued and disabled nothing. -/
def Covered (req : AuthRequest) (past : Past) : Prop :=
  past.notes <:+ past.deeds ∧
    (req.isSignIn = true → past.notes = [] ∧ ∀ d ∈ past.deeds, d.1 = .session)

end Past

/-- The statement neither does nor notes anything of the kind. -/
def Op.quiet : Op → Bool
  | .createSession _ _ => false
  | .createTotpChallenge _ _ => false
  | .setTotpEnabled _ enabled => enabled
  | .insertAuditLog entry => entry.notes.isNone
  | _ => true

theorem deed_quiet {r : Op} (hr : r.quiet = true) (x : r.Reply) : r.deed x = none := by
  cases r with
  | createSession id token => cases hr
  | createTotpChallenge id token => cases hr
  | setTotpEnabled id enabled =>
    obtain rfl : enabled = true := hr
    rfl
  | _ => rfl

theorem note_quiet {r : Op} (hr : r.quiet = true) : r.note = none := by
  cases r with
  | insertAuditLog entry => exact Option.isNone_iff_eq_none.mp hr
  | _ => rfl

theorem Past.notes_count (past : Past) (d : Notable × Id) :
    past.notes.count d = past.countP fun x => x.request.note = some d := by
  rw [Past.notes, List.count, List.countP_filterMap]
  refine List.countP_congr fun x _ => ?_
  cases x.request.note <;> simp

theorem Past.deeds_count (past : Past) (d : Notable × Id) :
    past.deeds.count d = past.countP fun x => x.request.deed x.reply = some d := by
  rw [Past.deeds, List.count, List.countP_filterMap]
  refine List.countP_congr fun x _ => ?_
  cases x.request.deed x.reply <;> simp

section Balanced
variable {req : AuthRequest} {past : Past} {r : Op} {x : r.Reply}

theorem deeds_seen (past : Past) (r : Op) (x : r.Reply) :
    Past.deeds (past.seen r x) = (r.deed x).toList ++ past.deeds := by
  show List.filterMap _ (_ :: past) = _
  cases h : r.deed x with
  | none => exact List.filterMap_cons_none h
  | some d => exact List.filterMap_cons_some h

theorem notes_seen (past : Past) (r : Op) (x : r.Reply) :
    Past.notes (past.seen r x) = r.note.toList ++ past.notes := by
  show List.filterMap _ (_ :: past) = _
  cases h : r.note with
  | none => exact List.filterMap_cons_none h
  | some d => exact List.filterMap_cons_some h

theorem Past.Balanced.of_not_signIn (h : past.Balanced req) (hreq : req.isSignIn = false) :
    past.notes = past.deeds := by
  rw [Past.Balanced, hreq] at h
  exact h

theorem Past.Balanced.covered (h : past.Balanced req) : past.Covered req := by
  rw [Past.Balanced] at h
  split at h
  · rename_i hreq
    exact ⟨h.1 ▸ List.nil_suffix, fun _ => h⟩
  · rename_i hreq
    exact ⟨h ▸ List.suffix_rfl, fun hsign => absurd hsign hreq⟩

theorem Past.Balanced.quiet (h : past.Balanced req) (hr : r.quiet = true) :
    Past.Balanced req (past.seen r x) := by
  rw [Past.Balanced, deeds_seen, notes_seen, deed_quiet hr, note_quiet hr]
  exact h

/-- Between a deed and its note, the note is missing. -/
theorem Past.Balanced.done (h : past.Balanced req) (hreq : req.isSignIn = false) {d : Notable × Id}
    (hd : r.deed x = some d) (hr : r.note = none) : Past.Covered req (past.seen r x) := by
  refine ⟨?_, fun hsign => absurd hsign (by rw [hreq]; exact Bool.false_ne_true)⟩
  rw [deeds_seen, notes_seen, hd, hr, h.of_not_signIn hreq]
  exact List.suffix_append _ _

/-- A deed and its note, one after the other. -/
theorem Past.Balanced.noted (h : past.Balanced req) (hreq : req.isSignIn = false) {d : Notable × Id}
    (hd : r.deed x = some d) (hr : r.note = none) {entry : AuditEntry} (hentry : entry.notes = some d)
    (y : Except DbError Unit) : Past.Balanced req ((past.seen r x).seen (.insertAuditLog entry) y) := by
  rw [Past.Balanced, hreq]
  show Past.notes _ = Past.deeds _
  rw [deeds_seen, notes_seen, deeds_seen, notes_seen, hd, hr, h.of_not_signIn hreq,
    show (Op.insertAuditLog entry).note = some d from hentry]
  rfl

/-- A sign-in gives a session. -/
theorem Past.Balanced.signedIn (h : past.Balanced req) (hreq : req.isSignIn = true) {id : Id} {token : Text}
    (y : Except DbError Unit) : Past.Balanced req (past.seen (.createSession id token) y) := by
  rw [Past.Balanced, hreq] at h ⊢
  refine ⟨by rw [notes_seen]; exact h.1, fun d hd => ?_⟩
  rw [deeds_seen] at hd
  rcases List.mem_append.mp hd with hd | hd
  · cases y with
    | error e => cases hd
    | ok t =>
      obtain rfl := List.mem_singleton.mp hd
      rfl
  · exact h.2 d hd

/-- A statement that fails does nothing of the kind. -/
theorem Past.Balanced.failed (h : past.Balanced req) (hd : r.deed x = none) (hn : r.note = none) :
    Past.Balanced req (past.seen r x) := by
  rw [Past.Balanced, deeds_seen, notes_seen, hd, hn]
  exact h

end Balanced

/-! ## The handlers -/

section Handlers
variable {C : Crates} {o : Outside} {req : AuthRequest} {past : Past} {α β : Type}

/-- From this history on the program writes nothing in the log that it has not done, and when it ends
everything that it has done is there. -/
abbrev Audits (req : AuthRequest) (past : Past) (p : Handler α) : Prop :=
  p.Abides (fun past _ => Past.Covered req past) (fun past _ => Past.Balanced req past)
    (fun past _ => Past.Balanced req past) past

/-- The program does nothing of the kind. -/
abbrev Quiet (p : Handler α) : Prop := p.Asks fun r => r.quiet = true

theorem Op.quiet_of_reads {r : Op} (hr : r.reads = true) : r.quiet = true := by
  cases r <;> first | rfl | cases hr

/-- What is quiet keeps the balance. -/
theorem audits_quiet {prog : Handler α} (hprog : Quiet prog) (hpast : past.Balanced req) :
    Audits req past prog := by
  have hkept : prog.Abides (fun past _ => Past.Balanced req past) (fun past _ => Past.Balanced req past)
      (fun past _ => Past.Balanced req past) past :=
    Prog.Asks.abides hprog (fun past r h hr => ⟨h, fun x => h.quiet hr⟩) hpast
  exact hkept.mono (fun _ _ h => h.covered) (fun _ _ h => h) fun _ _ h => h

theorem audits_then {prog : Handler α} {f : α → Handler β} (hprog : Quiet prog)
    (hpast : past.Balanced req) (hf : ∀ later a, Past.Balanced req later → Audits req later (f a)) :
    Audits req past (prog >>= f) :=
  (audits_quiet hprog hpast).bind fun later a _ hlater => hf later a hlater

theorem quiet_op {r : Op} (hr : r.quiet = true) {f : Op.Reply r → Handler α} (hf : ∀ x, Quiet (f x)) :
    Quiet (Prog.ask r >>= f) := asks_op hr hf

theorem quiet_auditLog {a : Action} (ha : a.notes = none) (u : Option Id) (ip : IpAddr) (m : Metadata) :
    Quiet (auditLog u a ip m) := by
  have hentry : (AuditEntry.mk u a ip m).notes = none := by rw [AuditEntry.notes, ha]; rfl
  exact quiet_op (by rw [Op.quiet, hentry]; rfl) fun _ => Prog.asks_pure _

theorem quiet_auditIf (used : Bool) (u : Id) (ip : IpAddr) : Quiet (auditIfRecoveryCode used u ip) := by
  rw [auditIfRecoveryCode]
  split
  · exact quiet_op rfl fun _ => quiet_auditLog rfl _ _ _
  · exact trivial

theorem quiet_passwordUser (headers : Headers) (body : LoginRequest) :
    Quiet (passwordUser C headers body) := by
  have hfailed : ∀ (u : Option Id) (reason : String),
      Quiet (loginFailed u (extractIp headers) reason : Handler User) :=
    fun u reason => Prog.asks_bind (quiet_auditLog rfl _ _ _) fun _ => trivial
  have hcheck : ∀ user, Quiet (checkPassword C (extractIp headers) body.password user) := by
    intro user
    cases user with
    | none => exact hfailed _ _
    | some user =>
      rw [checkPassword]
      split
      · exact hfailed _ _
      · refine Prog.asks_bind (asks_ensure _ _) fun _ => ?_
        split
        · exact trivial
        · exact hfailed _ _
  have hread : ∀ r : Op, r.reads = true → r.quiet = true := fun _ hr => Op.quiet_of_reads hr
  refine quiet_op rfl fun _ => ?_
  refine Prog.asks_bind (asks_ensure _ _) fun _ => Prog.asks_bind (asks_ensure _ _) fun _ => ?_
  refine Prog.asks_bind ?_ hcheck
  rw [findLoginUser]
  split
  · exact reads_findUserByEmail hread _
  · exact reads_findUserByUsername hread _

theorem quiet_registerUser (headers : Headers) (body : RegisterRequest) :
    Quiet (registerUser C o headers body) := by
  have hread : ∀ r : Op, r.reads = true → r.quiet = true := fun _ hr => Op.quiet_of_reads hr
  refine quiet_op rfl fun _ => Prog.asks_bind (asks_ensure _ _) fun _ => ?_
  refine Prog.asks_bind (asks_ensure _ _) fun _ => Prog.asks_bind (asks_validatePassword C _) fun _ => ?_
  refine Prog.asks_bind (reads_findUserByUsername hread _) fun _ => ?_
  refine Prog.asks_bind (asks_ensure _ _) fun _ => ?_
  refine Prog.asks_bind (reads_ensureEmailFree hread _) fun _ => ?_
  refine Prog.asks_bind (asks_ofExcept _) fun _ => ?_
  refine Prog.asks_bind (reads_uniqueWinkdId hread o _) fun _ => ?_
  exact quiet_op rfl fun _ => asks_orInternal _

theorem quiet_oauthUserinfo (provider : OAuthProvider) (query : OAuthCallbackQuery) (headers : Headers) :
    Quiet (oauthUserinfo C o provider query headers) := by
  have hstate : ∀ cfg, Quiet (oauthState C provider query headers cfg) := by
    intro cfg
    refine Prog.asks_bind (asks_orThrow _ _) fun _ => Prog.asks_bind (asks_orThrow _ _) fun _ => ?_
    split
    · refine Prog.asks_bind (asks_ensure _ _) fun _ => Prog.asks_bind (asks_orThrow _ _) fun _ => ?_
      refine Prog.asks_bind (Prog.asks_ask rfl) fun _ => Prog.asks_bind (asks_ensure _ _) fun _ => ?_
      exact trivial
    · exact trivial
  refine Prog.asks_bind (asks_loadEnv o provider) fun _ => Prog.asks_bind (hstate _) fun _ => ?_
  refine Prog.asks_bind (asks_ensure _ _) fun _ => Prog.asks_bind (asks_ofExcept _) fun _ => ?_
  exact Prog.asks_bind (asks_ofExcept _) fun _ => Prog.asks_bind (asks_ensure _ _) fun _ => trivial

theorem quiet_findOrCreateOauthUser (provider : OAuthProvider) (info : OAuthUserInfo) :
    Quiet (findOrCreateOauthUser o provider info) := by
  have hread : ∀ r : Op, r.reads = true → r.quiet = true := fun _ hr => Op.quiet_of_reads hr
  have hlink : ∀ user : User, Quiet (linkOauthAccount user.id provider.slug info.providerUserId >>= fun _ =>
      (pure user : Handler User)) :=
    fun user => Prog.asks_bind (quiet_op rfl fun _ => asks_orInternal _) fun _ => trivial
  have hemail : Quiet (findOauthEmail info.email) := by
    cases info.email with
    | none => exact trivial
    | some email => exact reads_findUserByEmail hread email
  refine Prog.asks_bind (quiet_op rfl fun _ => asks_orInternal _) fun linked => ?_
  cases linked with
  | some user => exact trivial
  | none =>
    refine Prog.asks_bind hemail fun found => ?_
    cases found with
    | some user => exact hlink user
    | none =>
      refine Prog.asks_bind ?_ hlink
      refine Prog.asks_bind (reads_uniqueUsername hread o _) fun _ => ?_
      refine Prog.asks_bind (reads_uniqueWinkdId hread o _) fun _ => ?_
      exact quiet_op rfl fun _ => asks_orInternal _

theorem quiet_requireAuth (headers : Headers) : Quiet (requireAuth headers) :=
  Prog.asks_bind (asks_orThrow _ _) fun _ =>
    Prog.asks_bind (quiet_op rfl fun _ => asks_orInternal _) fun _ => asks_orThrow _ _

theorem quiet_verifyTotpOrRecovery (id : Id) (secret code : Text) :
    Quiet (verifyTotpOrRecovery C id secret code) := by
  rw [verifyTotpOrRecovery]
  split
  · exact quiet_op rfl fun _ => trivial
  · exact Prog.asks_bind (quiet_op rfl fun _ => asks_orInternal _) fun _ => trivial

theorem quiet_requireSecondFactor (headers : Headers) (code : Text) (notEnabled : String) :
    Quiet (requireSecondFactor C headers code notEnabled) := by
  refine Prog.asks_bind ?_ fun _ => Prog.asks_bind (quiet_verifyTotpOrRecovery _ _ _) fun _ => ?_
  · refine Prog.asks_bind (quiet_requireAuth headers) fun _ => Prog.asks_bind (asks_ensure _ _) fun _ => ?_
    exact Prog.asks_bind (asks_orThrow _ _) fun _ => trivial
  · exact Prog.asks_bind (asks_ensure _ _) fun _ => Prog.asks_bind (quiet_auditIf _ _ _) fun _ => trivial

theorem quiet_storeRecoveryCodes (id : Id) (hashes : List Text) : Quiet (storeRecoveryCodes id hashes) := by
  have hinsert : ∀ (tx : ℕ) (hashes : List Text), Quiet (insertRecoveryCodes tx id hashes) := by
    intro tx hashes
    induction hashes with
    | nil => exact trivial
    | cons hash hashes ih => exact Prog.asks_bind (quiet_op rfl fun _ => asks_orInternal _) fun _ => ih
  refine Prog.asks_bind (quiet_op rfl fun _ => asks_orInternal _) fun tx => ?_
  refine Prog.asks_bind (quiet_op rfl fun _ => asks_orInternal _) fun _ => ?_
  exact Prog.asks_bind (hinsert tx hashes) fun _ => quiet_op rfl fun _ => asks_orInternal _

theorem quiet_challengedUser (token : Text) : Quiet (challengedUser token) := by
  refine Prog.asks_bind (quiet_op rfl fun _ => asks_orInternal _) fun _ => ?_
  refine Prog.asks_bind (asks_orThrow _ _) fun _ => ?_
  refine Prog.asks_bind (quiet_op rfl fun _ => asks_orInternal _) fun _ => ?_
  exact Prog.asks_bind (asks_orThrow _ _) fun _ => Prog.asks_bind (asks_orThrow _ _) fun _ => trivial

/-- A session is given, and then noted. -/
theorem audits_session (hreq : req.isSignIn = false) (hpast : past.Balanced req) {a : Action}
    (ha : a.notes = some .session) (id : Id) (token : Text) (ip : IpAddr) (m : Metadata) (f : Text → Handler β)
    (hf : ∀ later t, Past.Balanced req later → Audits req later (f t)) :
    Audits req past (createSession id token >>= fun t => auditLog (some id) a ip m >>= fun _ => f t) := by
  have hentry : (AuditEntry.mk (some id) a ip m).notes = some (.session, id) := by
    rw [AuditEntry.notes, ha]; rfl
  refine ⟨hpast.covered, fun created => ?_⟩
  cases created with
  | error e => exact hpast.failed rfl rfl
  | ok _ => exact ⟨hpast.done hreq rfl rfl, fun y => hf _ _ (hpast.noted hreq rfl rfl hentry y)⟩

theorem audits_login (headers : Headers) (body : LoginRequest) :
    Audits (.login headers body) [] (login C o headers body) := by
  refine audits_then (quiet_passwordUser headers body) rfl fun past user hpast => ?_
  split
  · refine ⟨hpast.covered, fun created => ?_⟩
    cases created with
    | error e => exact hpast.failed rfl rfl
    | ok _ => exact ⟨hpast.done rfl rfl rfl, fun y => hpast.noted rfl rfl rfl rfl y⟩
  · exact audits_session rfl hpast rfl _ _ _ _ _ fun _ _ h => h

theorem audits_register (headers : Headers) (body : RegisterRequest) :
    Audits (.register headers body) [] (register C o headers body) := by
  refine audits_then (quiet_registerUser headers body) rfl fun past user hpast => ?_
  exact audits_session rfl hpast rfl _ _ _ _ _ fun _ _ h => h

theorem audits_oauthCallback (slug : Text) (query : OAuthCallbackQuery) (headers : Headers) :
    Audits (.oauthCallback slug query headers) [] (oauthCallback C o slug query headers) := by
  refine audits_then (asks_orThrow _ _) ⟨rfl, fun _ h => absurd h List.not_mem_nil⟩ fun past₁ _ hpast₁ => ?_
  refine audits_then (quiet_oauthUserinfo _ _ _) hpast₁ fun past₂ _ hpast₂ => ?_
  refine audits_then (quiet_findOrCreateOauthUser _ _) hpast₂ fun past user hpast => ?_
  refine ⟨hpast.covered, fun created => ?_⟩
  cases created with
  | error e => exact hpast.signedIn rfl _
  | ok _ => exact hpast.signedIn rfl _

theorem audits_totpChallenge (headers : Headers) (body : TotpChallengeRequest) :
    Audits (.totpChallenge headers body) [] (totpChallenge C o headers body) := by
  refine audits_then (quiet_challengedUser _) rfl fun past₁ pair hpast₁ => ?_
  refine audits_then (quiet_verifyTotpOrRecovery _ _ _) hpast₁ fun past₂ verified hpast₂ => ?_
  refine audits_then (quiet_auditIf _ _ _) hpast₂ fun past _ hpast => ?_
  split
  · exact audits_session rfl hpast rfl _ _ _ _ _ fun _ _ h => h
  · exact audits_quiet (Prog.asks_bind (quiet_auditLog rfl _ _ _) fun _ => trivial) hpast

theorem audits_totpDisable (headers : Headers) (code : Text) :
    Audits (.totpDisable headers code) [] (totpDisable C headers code) := by
  refine audits_then (quiet_requireSecondFactor _ _ _) rfl fun past user hpast => ?_
  refine ⟨hpast.covered, fun set => ?_⟩
  cases set with
  | error e => exact hpast.failed rfl rfl
  | ok _ => exact ⟨hpast.done rfl rfl rfl, fun y => hpast.noted rfl rfl rfl rfl y⟩

theorem quiet_totpConfirm (headers : Headers) (code : Text) : Quiet (totpConfirm C o headers code) := by
  refine Prog.asks_bind (quiet_requireAuth headers) fun _ => Prog.asks_bind (asks_orThrow _ _) fun _ => ?_
  refine Prog.asks_bind (quiet_op rfl fun _ => trivial) fun _ => Prog.asks_bind (asks_ensure _ _) fun _ => ?_
  refine Prog.asks_bind (quiet_op rfl fun _ => asks_orInternal _) fun _ => ?_
  refine Prog.asks_bind (quiet_storeRecoveryCodes _ _) fun _ => ?_
  exact Prog.asks_bind (quiet_auditLog rfl _ _ _) fun _ => trivial

theorem quiet_recoveryCodesGenerate (headers : Headers) (code : Text) :
    Quiet (recoveryCodesGenerate C o headers code) := by
  refine Prog.asks_bind (quiet_requireSecondFactor _ _ _) fun _ => ?_
  refine Prog.asks_bind (quiet_op rfl fun _ => asks_orInternal _) fun _ => ?_
  refine Prog.asks_bind (quiet_storeRecoveryCodes _ _) fun _ => ?_
  exact Prog.asks_bind (quiet_auditLog rfl _ _ _) fun _ => trivial

end Handlers

/-- **Every handler keeps its log**: it notes nothing that it has not done, and does not end before it has
noted what it has done. -/
theorem handle_audits (C : Crates) (o : Outside) (req : AuthRequest) :
    Audits req [] (handle C o req) := by
  cases req with
  | login headers body => exact audits_login headers body
  | register headers body => exact audits_register headers body
  | oauthCallback provider query headers => exact audits_oauthCallback provider query headers
  | totpChallenge headers body => exact audits_totpChallenge headers body
  | totpSetup headers =>
    refine audits_quiet (Prog.asks_bind (quiet_requireAuth headers) fun _ => ?_) rfl
    exact Prog.asks_bind (quiet_op rfl fun _ => asks_orInternal _) fun _ => trivial
  | totpConfirm headers code => exact audits_quiet (quiet_totpConfirm headers code) rfl
  | totpDisable headers code => exact audits_totpDisable headers code
  | recoveryCodesGenerate headers code =>
    exact audits_quiet (quiet_recoveryCodesGenerate headers code) rfl

/-! ## The service -/

/-- How often the log notes this of this account. -/
def Backend.logged (b : Backend) (d : Notable × Id) : ℕ := b.auditLog.countP fun e => e.notes = some d

/-- How often it was done: by sign-ins with a provider, or by the other requests. -/
def done (reqs : ℕ → Outside × AuthRequest) (l : Trace) (signIns : Bool) (d : Notable × Id) : ℕ :=
  l.countP fun e => e.request.deed e.reply = some d ∧ (reqs e.task).2.isSignIn = signIns

theorem logged_answer (d : Notable × Id) (r : Op) (b : Backend) :
    (answer r b).2.logged d = b.logged d + if r.note = some d then 1 else 0 := by
  have hsame : r.records = false → (answer r b).2.logged d = b.logged d := fun hr => by
    rw [Backend.logged, (sameRecords_answer hr b).auditLog, Backend.logged]
  cases r with
  | insertAuditLog entry =>
    show List.countP _ (b.auditLog ++ [entry]) = _
    rw [List.countP_append, List.countP_singleton]
    simp only [decide_eq_true_eq]
    rfl
  | createSession id token =>
    rcases createSession_cases id token b with ⟨e, heq⟩ | ⟨-, heq⟩ <;> rw [heq] <;> rfl
  | createTotpChallenge id token =>
    rcases createTotpChallenge_cases id token b with ⟨e, heq⟩ | heq <;> rw [heq] <;> rfl
  | consumeTotpChallenge token => rfl
  | _ => exact hsame rfl

/-- The sessions of an account. -/
def Backend.sessionsOf (b : Backend) (id : Id) : ℕ := b.sessions.countP fun row => row.userId = id

theorem sessionsOf_answer (id : Id) (r : Op) (b : Backend) :
    (answer r b).2.sessionsOf id =
      b.sessionsOf id + if r.deed (answer r b).1 = some (.session, id) then 1 else 0 := by
  have hsame : r.records = false → (answer r b).2.sessionsOf id = b.sessionsOf id := fun hr => by
    rw [Backend.sessionsOf, (sameRecords_answer hr b).sessions, Backend.sessionsOf]
  cases r with
  | createSession u token =>
    rcases createSession_cases u token b with ⟨e, heq⟩ | ⟨-, heq⟩
    · rw [heq]
      rfl
    · rw [heq]
      show List.countP _ (b.sessions ++ [_]) = _
      rw [List.countP_append, List.countP_singleton]
      by_cases hu : u = id
      · simp [Op.deed, Backend.newSession, Backend.sessionsOf, hu]
      · simp [Op.deed, Backend.newSession, Backend.sessionsOf, hu]
  | createTotpChallenge u token =>
    rcases createTotpChallenge_cases u token b with ⟨e, heq⟩ | heq
    · rw [heq]
      rfl
    · rw [heq]
      simp [Op.deed, Backend.sessionsOf]
  | setTotpEnabled u enabled => cases enabled <;> rfl
  | consumeTotpChallenge token => rfl
  | insertAuditLog entry => rfl
  | _ => exact hsame rfl

/-- The log tells what was done. -/
structure Audited (reqs : ℕ → Outside × AuthRequest) (s : Service) : Prop where
  /-- Nothing else is in it. -/
  done : ∀ d, s.state.logged d ≤ done reqs s.trace false d
  /-- Nothing is missing once no request is mid-way. -/
  complete : s.Ended → ∀ d, s.state.logged d = Server.done reqs s.trace false d
  /-- A sign-in only gives sessions. -/
  signIns : ∀ d, d.1 ≠ .session → Server.done reqs s.trace true d = 0
  /-- The sessions are those in the log and those of the sign-ins. -/
  sessions : s.Ended → ∀ id, s.state.sessionsOf id =
    s.state.logged (.session, id) + Server.done reqs s.trace true (.session, id)

namespace Service
variable {C : Crates} {reqs : ℕ → Outside × AuthRequest} {s : Service}

/-- A measure of the tables that only statements raise. -/
theorem ReachedServing.counted (hs : s.ReachedServing C reqs) {f : Backend → ℕ}
    {P : Entry Op Op.Reply Backend → Bool}
    (hanswer : ∀ i r b, f (answer r b).2 = f b + if P ⟨i, b, r, (answer r b).1⟩ then 1 else 0)
    (hclock : ∀ b now, f { b with now := now } = f b) (hinit : ∀ now, f (.init now) = 0) :
    f s.state = s.trace.countP P := by
  obtain ⟨now, hreach⟩ := hs
  refine Pool.counted (h := answer) hanswer ?_ hreach (hinit now)
  intro s e _
  cases e with
  | request o req => exact .inr ⟨rfl, rfl⟩
  | statement i => exact .inl ⟨i, rfl⟩
  | clock now => exact .inr ⟨rfl, hclock s.state now⟩

theorem ReachedServing.logged_eq (hs : s.ReachedServing C reqs) (d : Notable × Id) :
    s.state.logged d = s.trace.countP fun e => e.request.note = some d := by
  refine hs.counted (f := fun b => b.logged d) (fun i r b => ?_) (fun _ _ => rfl) fun _ => rfl
  rw [logged_answer]
  simp only [decide_eq_true_eq]

theorem ReachedServing.sessionsOf_eq (hs : s.ReachedServing C reqs) (id : Id) :
    s.state.sessionsOf id = s.trace.countP fun e => e.request.deed e.reply = some (.session, id) := by
  refine hs.counted (f := fun b => b.sessionsOf id) (fun i r b => ?_) (fun _ _ => rfl) fun _ => rfl
  rw [sessionsOf_answer]
  simp only [decide_eq_true_eq]

/-- Every request keeps its log. -/
theorem ReachedServing.auditing (hs : s.ReachedServing C reqs) :
    s.Abiding (fun i past _ => Past.Covered (reqs i).2 past) (fun i past _ => Past.Balanced (reqs i).2 past)
      fun i past _ => Past.Balanced (reqs i).2 past :=
  hs.abiding fun i => handle_audits C (reqs i).1 (reqs i).2

theorem ReachedServing.logged_sum (hs : s.ReachedServing C reqs) (d : Notable × Id) :
    s.state.logged d =
      ∑ i ∈ Finset.range s.tasks.length, (Past.notes (Pool.history i s.trace)).count d := by
  rw [hs.logged_eq]
  refine (Pool.countP_eq_sum (fun _ x => x.request.note = some d) hs.auditing.started).trans ?_
  exact Finset.sum_congr rfl fun i _ => (Past.notes_count _ d).symm

theorem ReachedServing.done_sum (hs : s.ReachedServing C reqs) (signIns : Bool) (d : Notable × Id) :
    done reqs s.trace signIns d = ∑ i ∈ Finset.range s.tasks.length,
      if (reqs i).2.isSignIn = signIns then (Past.deeds (Pool.history i s.trace)).count d else 0 := by
  refine (Pool.countP_eq_sum (fun i x => x.request.deed x.reply = some d ∧
    (reqs i).2.isSignIn = signIns) hs.auditing.started).trans ?_
  refine Finset.sum_congr rfl fun i _ => ?_
  split
  · rename_i hreq
    simp only [hreq, and_true, Past.deeds_count]
  · rename_i hreq
    refine List.countP_eq_zero.mpr fun x _ hx => hreq ?_
    exact (of_decide_eq_true hx).2

/-- **The audit log tells what was done.** -/
theorem audit_complete (hs : s.ReachedServing C reqs) : Audited reqs s := by
  have hkept : ∀ i < s.tasks.length, Past.Covered (reqs i).2 (Pool.history i s.trace) := fun i hi =>
    hs.auditing.kept (fun _ _ _ h => h.covered) (fun _ _ _ h => h.covered) hi
  have hcomplete : s.Ended → ∀ d, s.state.logged d = done reqs s.trace false d := by
    intro hended d
    rw [hs.logged_sum, hs.done_sum]
    refine Finset.sum_congr rfl fun i hi => ?_
    have hbalanced : Past.Balanced (reqs i).2 (Pool.history i s.trace) :=
      hs.auditing.ended (fun _ _ _ h => h) (fun _ _ _ h => h) hended (Finset.mem_range.mp hi)
    split
    · rename_i hreq
      rw [hbalanced.of_not_signIn hreq]
    · rename_i hreq
      rw [((hkept i (Finset.mem_range.mp hi)).2 (Bool.not_eq_false _ ▸ hreq)).1, List.count_nil]
  refine ⟨fun d => ?_, hcomplete, fun d hd => ?_, fun hended id => ?_⟩
  · rw [hs.logged_sum, hs.done_sum]
    refine Finset.sum_le_sum fun i hi => ?_
    obtain ⟨hsuffix, hsign⟩ := hkept i (Finset.mem_range.mp hi)
    split
    · exact hsuffix.sublist.count_le d
    · rename_i hreq
      rw [(hsign (Bool.not_eq_false _ ▸ hreq)).1, List.count_nil]
  · rw [hs.done_sum]
    refine Finset.sum_eq_zero fun i hi => ?_
    split
    · rename_i hreq
      refine List.count_eq_zero.mpr fun hmem => hd ?_
      exact ((hkept i (Finset.mem_range.mp hi)).2 hreq).2 d hmem
    · rfl
  · rw [hcomplete hended, hs.sessionsOf_eq]
    -- each was given to a sign-in or to another request
    have hsplit : ∀ l : Trace, (l.countP fun e => e.request.deed e.reply = some (.session, id)) =
        done reqs l false (.session, id) + done reqs l true (.session, id) := by
      intro l
      induction l with
      | nil => rfl
      | cons e l ih =>
        simp only [done, List.countP_cons] at ih ⊢
        rw [ih]
        cases (reqs e.task).2.isSignIn <;> simp <;> omega
    exact hsplit s.trace

end Service

namespace Sample

/-- The requests of `afterOwners`. -/
def ownersRequests (i : ℕ) : Outside × AuthRequest :=
  if i = 0 then (outside "stranger", strangersRegistration) else (outside "ada", callback)

theorem afterOwners_served : Service.ReachedServing hashingCrates ownersRequests afterOwners := by
  have hidle : Service.ReachedServing hashingCrates ownersRequests (Pool.idle (.init 0)) := ⟨0, .refl _⟩
  have hregistered := hidle.served 0 8 "stranger" strangersRegistration rfl
  have hsigned := hregistered.served 1 5 "ada" callback (by
    rw [show List.length _ = 1 by decide +kernel]
    rfl)
  rw [afterOwners, List.foldl_append]
  exact hsigned

end Sample

theorem Service.audit_complete_afterOwners : Audited Sample.ownersRequests Sample.afterOwners :=
  audit_complete Sample.afterOwners_served

end Winkd.Server
