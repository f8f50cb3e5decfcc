import Winkd.Service
import Winkd.Footprint
import Winkd.Hex

/-!
# Challenges and recovery codes are used once

A challenge is taken by the DELETE that finds it, and so is a recovery code.  So, however
the statements of the requests interleave, no challenge lets two requests past, and no
recovery code is accepted twice.

The new set of recovery codes replaces the old one when its transaction commits; but what
it takes away is what its DELETE has seen.  Where another transaction stores codes for the
user between the DELETE and the COMMIT, these stay, and are accepted after it
(`replaced_accepted`).  Where no transaction is overtaken in this way, none of a replaced
set is (`single_use`).

A row is `Gone` when it is neither in the table nor about to be inserted by a
transaction: no statement brings it back.
-/

namespace Winkd.Server
open Threads

/-- What was carried out. -/
abbrev Trace : Type := List (Entry Op Op.Reply Backend)

/-! ## What the trace says -/

/-- The token with which a statement lets a request past. -/
def passedToken : (r : Op) → Op.Reply r → Option Text
  | .consumeTotpChallenge token => fun reply => (reply.toOption.bind id).map fun _ => token
  | _ => fun _ => none

/-- The rows by which a statement accepts a recovery code. -/
def acceptedRows : (r : Op) → Op.Reply r → List RecoveryCode
  | .consumeRecoveryCode _ _ => fun reply => reply.toOption.getD []
  | _ => fun _ => []

/-- The rows a statement deletes in the transaction `tx`. -/
def deletedRows (tx : ℕ) : (r : Op) → Op.Reply r → List RecoveryCode
  | .deleteRecoveryCodes tx' _ => fun reply => if tx' = tx then reply.toOption.getD [] else []
  | _ => fun _ => []

/-- The row a statement inserts. -/
def insertedRow (b : Backend) : Op → List RecoveryCode
  | .insertRecoveryCode _ userId codeHash => [⟨b.drawn, userId, codeHash⟩]
  | _ => []

/-- The tokens that have let requests past. -/
def passedTokens (l : Trace) : List Text := l.filterMap fun e => passedToken e.request e.reply

/-- The rows by which recovery codes were accepted. -/
def acceptedCodes (l : Trace) : List RecoveryCode := l.flatMap fun e => acceptedRows e.request e.reply

/-- The set that the transaction `tx` replaces. -/
def replacedBy (tx : ℕ) (l : Trace) : List RecoveryCode :=
  l.flatMap fun e => deletedRows tx e.request e.reply

/-- Every row that was ever stored, or is about to be. -/
def storedCodes (b₀ : Backend) (l : Trace) : List RecoveryCode :=
  (l.flatMap fun e => insertedRow e.before e.request) ++ b₀.recoveryCodes

/-- The codes that a user has, when the entry's statement is carried out, for whom the
transaction `tx` has deleted the codes. -/
def heldAt (e : Entry Op Op.Reply Backend) (tx : ℕ) (earlier : Trace) : List RecoveryCode :=
  e.before.recoveryCodes.filter fun c =>
    earlier.any fun d => d.request = .deleteRecoveryCodes tx c.userId

/-- The transaction that a statement commits. -/
def committed : Op → Option ℕ
  | .commit tx => some tx
  | _ => none

/-- The users for whom a statement, a COMMIT, stores codes. -/
def storedFor (e : Entry Op Op.Reply Backend) : List Id :=
  match e.request with
  | .commit tx => (e.before.transactions tx).inserted.map RecoveryCode.userId
  | _ => []

/-- Codes were stored for a user after the transaction `tx` had deleted the user's. -/
def Overtaken (tx : ℕ) : Trace → Prop
  | [] => False
  | e :: earlier =>
    (∃ u ∈ storedFor e, ∃ d ∈ earlier, d.request = .deleteRecoveryCodes tx u) ∨ Overtaken tx earlier

/-- No transaction was overtaken when it committed. -/
def Unovertaken : Trace → Prop
  | [] => True
  | e :: earlier => (∀ tx ∈ committed e.request, ¬ Overtaken tx earlier) ∧ Unovertaken earlier

/-- What the statements themselves see to, in a run from the tables `b₀`. -/
structure UsedOnce (b₀ : Backend) (l : Trace) : Prop where
  /-- No token lets two requests past. -/
  challenges : (passedTokens l).Nodup
  /-- None lets a request past at or after its expiry. -/
  expiry : ∀ e ∈ l, ∀ token ∈ passedToken e.request e.reply, ∀ c ∈ b₀.totpChallenges,
    c.token = token → e.before.now < c.expiresAt
  /-- No row is accepted twice. -/
  codes : ((acceptedCodes l).map RecoveryCode.id).Nodup
  /-- After a commit, no code that its transaction had deleted is accepted. -/
  deleted : ∀ later e earlier tx, l = later ++ e :: earlier → e.request = .commit tx →
    ∀ r ∈ replacedBy tx earlier, ∀ c ∈ acceptedCodes later, c.codeHash ≠ r.codeHash

/-- **Challenges and recovery codes are used once.** -/
structure SingleUse (b₀ : Backend) (l : Trace) : Prop extends UsedOnce b₀ l where
  /-- After `store_recovery_codes` commits, no code that the user had then is accepted. -/
  replaced : ∀ later e earlier tx, l = later ++ e :: earlier → e.request = .commit tx →
    ∀ r ∈ heldAt e tx earlier, ∀ c ∈ acceptedCodes later, c.codeHash ≠ r.codeHash

instance decidableOvertaken (tx : ℕ) : ∀ l, Decidable (Overtaken tx l)
  | [] => isFalse id
  | _ :: earlier =>
    have := decidableOvertaken tx earlier
    inferInstanceAs (Decidable (_ ∨ _))

instance decidableUnovertaken : ∀ l, Decidable (Unovertaken l)
  | [] => isTrue trivial
  | _ :: earlier =>
    have := decidableUnovertaken earlier
    inferInstanceAs (Decidable (_ ∧ _))

/-! ## What a statement does to the recovery codes -/

/-- The statement writes recovery codes, or to a transaction. -/
def Op.writesCodes : Op → Bool
  | .consumeRecoveryCode _ _ => true
  | .deleteRecoveryCodes _ _ => true
  | .insertRecoveryCode _ _ _ => true
  | .commit _ => true
  | _ => false

/-- What a statement can do to the recovery codes. -/
inductive CodesEffect (b : Backend) (r : Op) (b' : Backend) : Prop where
  | kept (other : r.writesCodes = false) (codes : b'.recoveryCodes = b.recoveryCodes)
      (transactions : b'.transactions = b.transactions) (drawn : b.drawn ≤ b'.drawn)
  | consumed (userId : Id) (codeHash : Text) (request : r = .consumeRecoveryCode userId codeHash)
      (state : b' = (b.consumeRecoveryCode userId codeHash).2)
  | deleted (tx : ℕ) (userId : Id) (request : r = .deleteRecoveryCodes tx userId)
      (state : b' = (b.deleteRecoveryCodes tx userId).2)
  | inserted (tx : ℕ) (userId : Id) (codeHash : Text)
      (request : r = .insertRecoveryCode tx userId codeHash)
      (state : b' = b.insertRecoveryCode tx userId codeHash)
  | committed (tx : ℕ) (request : r = .commit tx) (state : b' = b.commit tx)

theorem answer_codes (r : Op) (b : Backend) : CodesEffect b r (answer r b).2 := by
  cases r with
  | consumeRecoveryCode u h => exact .consumed u h rfl rfl
  | deleteRecoveryCodes tx u => exact .deleted tx u rfl rfl
  | insertRecoveryCode tx u h => exact .inserted tx u h rfl rfl
  | commit tx => exact .committed tx rfl rfl
  | createUser username winkdId displayName email passwordHash =>
    simp only [answer, Backend.createUser]
    split
    · exact .kept rfl rfl rfl (Nat.le_refl _)
    · exact .kept rfl rfl rfl (Nat.le_succ _)
  | setTotpEnabled u enabled => cases enabled <;> exact .kept rfl rfl rfl (Nat.le_refl _)
  | linkOauthAccount u provider providerUserId =>
    simp only [answer, Backend.linkOauthAccount]
    split
    · exact .kept rfl rfl rfl (Nat.le_refl _)
    · split
      · exact .kept rfl rfl rfl (Nat.le_refl _)
      · split <;> exact .kept rfl rfl rfl (Nat.le_refl _)
  | createSession u token =>
    simp only [answer, Backend.createSession]
    split
    · exact .kept rfl rfl rfl (Nat.le_refl _)
    · split <;> exact .kept rfl rfl rfl (Nat.le_refl _)
  | createTotpChallenge u token =>
    simp only [answer, Backend.createTotpChallenge]
    split
    · exact .kept rfl rfl rfl (Nat.le_refl _)
    · split <;> exact .kept rfl rfl rfl (Nat.le_refl _)
  | _ => exact .kept rfl rfl rfl (Nat.le_refl _)

/-! ## Rows -/

/-- The rows that a transaction is about to insert. -/
abbrev Backend.pending (b : Backend) (tx : ℕ) : List RecoveryCode := (b.transactions tx).inserted

/-- How the rows lie among those that were ever stored: each in the table or pending in
one transaction, or nowhere. -/
structure Rows (b : Backend) (stored : List RecoveryCode) : Prop where
  distinct : (stored.map RecoveryCode.id).Nodup
  drawn : ∀ c ∈ stored, c.id < b.drawn
  table : ∀ c ∈ b.recoveryCodes, c ∈ stored
  pending : ∀ tx, ∀ c ∈ b.pending tx, c ∈ stored ∧ c ∉ b.recoveryCodes
  apart : ∀ tx tx', tx ≠ tx' → ∀ c ∈ b.pending tx, c ∉ b.pending tx'
  deleted : ∀ tx, ∀ id ∈ (b.transactions tx).deleted, id < b.drawn ∧
    ∀ tx', ∀ c ∈ b.pending tx', c.id ≠ id

/-- The row is not stored, and is not about to be. -/
structure Gone (b : Backend) (c : RecoveryCode) : Prop where
  table : c ∉ b.recoveryCodes
  pending : ∀ tx, c ∉ b.pending tx

section Rows
variable {b : Backend} {stored : List RecoveryCode}

theorem Rows.eq_of_id (hb : Rows b stored) {c d : RecoveryCode} (hc : c ∈ stored) (hd : d ∈ stored)
    (h : c.id = d.id) : c = d := List.inj_on_of_nodup_map hb.distinct hc hd h

theorem mem_redeemed {userId : Id} {codeHash : Text} {c : RecoveryCode}
    (h : c ∈ b.redeemed userId codeHash) : c ∈ b.recoveryCodes ∧ c.codeHash = codeHash := by
  have hfind := Option.mem_toList.mp h
  have hcond := List.find?_some hfind
  exact ⟨List.mem_of_find?_eq_some hfind, (of_decide_eq_true hcond).2⟩

/-- A property of a transaction that has it before, and has it after, a change. -/
theorem update_cases {P : ℕ → Transaction → Prop} {tx : ℕ} {t : Transaction} (ht : P tx t)
    (hother : ∀ tx', tx' ≠ tx → P tx' (b.transactions tx')) (tx' : ℕ) :
    P tx' (Function.update b.transactions tx t tx') := by
  by_cases h : tx' = tx
  · subst h
    rw [Function.update_self]
    exact ht
  · rw [Function.update_of_ne h]
    exact hother tx' h

/-- Changing one transaction to have no more pending rows than before, and these deleted,
keeps the rows in place. -/
theorem Rows.update (hb : Rows b stored) {tx : ℕ} {t : Transaction} {b' : Backend}
    (hcodes : b'.recoveryCodes = b.recoveryCodes) (hdrawn : b'.drawn = b.drawn)
    (htransactions : b'.transactions = Function.update b.transactions tx t)
    (hinserted : ∀ c ∈ t.inserted, c ∈ b.pending tx)
    (hdeleted : ∀ id ∈ t.deleted, id < b.drawn ∧ ∀ tx', ∀ c ∈ b.pending tx', c.id ≠ id) :
    Rows b' stored := by
  have hsub : ∀ tx', ∀ c ∈ (b'.transactions tx').inserted, c ∈ b.pending tx' := by
    rw [htransactions]
    exact update_cases (P := fun tx' t => ∀ c ∈ t.inserted, c ∈ b.pending tx') hinserted
      fun _ _ _ h => h
  refine ⟨hb.distinct, hdrawn ▸ hb.drawn, hcodes ▸ hb.table, ?_, ?_, ?_⟩
  · exact fun tx' c hc => ⟨(hb.pending tx' c (hsub tx' c hc)).1, hcodes ▸ (hb.pending tx' c (hsub tx' c hc)).2⟩
  · exact fun tx₁ tx₂ hne c h₁ h₂ => hb.apart tx₁ tx₂ hne c (hsub tx₁ c h₁) (hsub tx₂ c h₂)
  · intro tx' id hid
    have hold : ∀ tx', ∀ id ∈ (b'.transactions tx').deleted, id < b.drawn ∧
        ∀ tx'', ∀ c ∈ b.pending tx'', c.id ≠ id := by
      rw [htransactions]
      exact update_cases (P := fun _ t => ∀ id ∈ t.deleted, id < b.drawn ∧
        ∀ tx'', ∀ c ∈ b.pending tx'', c.id ≠ id) hdeleted fun tx' _ => hb.deleted tx'
    obtain ⟨hlt, hne⟩ := hold tx' id hid
    exact ⟨hdrawn ▸ hlt, fun tx'' c hc => hne tx'' c (hsub tx'' c hc)⟩

/-- Fewer rows in the table are in place too. -/
theorem Rows.filter (hb : Rows b stored) (p : RecoveryCode → Bool) :
    Rows { b with recoveryCodes := b.recoveryCodes.filter p } stored where
  distinct := hb.distinct
  drawn := hb.drawn
  table c hc := hb.table c (List.mem_of_mem_filter hc)
  pending tx c hc := ⟨(hb.pending tx c hc).1, fun h => (hb.pending tx c hc).2 (List.mem_of_mem_filter h)⟩
  apart := hb.apart
  deleted := hb.deleted

theorem Rows.delete (hb : Rows b stored) (tx : ℕ) (userId : Id) :
    Rows (b.deleteRecoveryCodes tx userId).2 stored := by
  refine hb.update rfl rfl rfl (fun c hc => List.mem_of_mem_filter hc) fun id hid => ?_
  rcases List.mem_append.mp hid with hid | hid
  · exact hb.deleted tx id hid
  · obtain ⟨c, hc, rfl⟩ := List.mem_map.mp hid
    have htable : c ∈ b.recoveryCodes := List.mem_of_mem_filter hc
    refine ⟨hb.drawn c (hb.table c htable), fun tx' d hd heq => ?_⟩
    exact (hb.pending tx' d hd).2 (hb.eq_of_id (hb.pending tx' d hd).1 (hb.table c htable) heq ▸ htable)

theorem Rows.insert (hb : Rows b stored) (tx : ℕ) (userId : Id) (codeHash : Text) :
    Rows (b.insertRecoveryCode tx userId codeHash) (⟨b.drawn, userId, codeHash⟩ :: stored) := by
  have hfresh : ∀ c ∈ stored, c ≠ ⟨b.drawn, userId, codeHash⟩ := by
    rintro c hc rfl
    exact Nat.lt_irrefl _ (hb.drawn _ hc)
  -- a pending row is the new one, in the transaction it is inserted by, or was pending before
  have hpending : ∀ tx', ∀ c ∈ (b.insertRecoveryCode tx userId codeHash).pending tx',
      c ∈ b.pending tx' ∨ tx' = tx ∧ c = ⟨b.drawn, userId, codeHash⟩ := by
    refine update_cases (P := fun tx' t => ∀ c ∈ t.inserted,
      c ∈ b.pending tx' ∨ tx' = tx ∧ c = ⟨b.drawn, userId, codeHash⟩) ?_ fun _ _ _ h => .inl h
    intro c hc
    rcases List.mem_append.mp hc with hc | hc
    · exact .inl hc
    · exact .inr ⟨rfl, List.mem_singleton.mp hc⟩
  refine ⟨?_, ?_, fun c hc => List.mem_cons_of_mem _ (hb.table c hc), ?_, ?_, ?_⟩
  · refine List.nodup_cons.mpr ⟨fun h => ?_, hb.distinct⟩
    obtain ⟨c, hc, heq⟩ := List.mem_map.mp h
    exact Nat.lt_irrefl _ (heq ▸ hb.drawn c hc)
  · intro c hc
    rcases List.mem_cons.mp hc with rfl | hc
    · exact Nat.lt_succ_self _
    · exact Nat.lt_succ_of_lt (hb.drawn c hc)
  · intro tx' c hc
    rcases hpending tx' c hc with hc | ⟨-, rfl⟩
    · exact ⟨List.mem_cons_of_mem _ (hb.pending tx' c hc).1, (hb.pending tx' c hc).2⟩
    · exact ⟨List.mem_cons_self, fun h => hfresh _ (hb.table _ h) rfl⟩
  · intro tx₁ tx₂ hne c h₁ h₂
    rcases hpending tx₁ c h₁ with h₁ | ⟨rfl, rfl⟩
    · rcases hpending tx₂ c h₂ with h₂ | ⟨-, rfl⟩
      · exact hb.apart tx₁ tx₂ hne c h₁ h₂
      · exact hfresh _ (hb.pending tx₁ _ h₁).1 rfl
    · rcases hpending tx₂ _ h₂ with h₂ | ⟨rfl, -⟩
      · exact hfresh _ (hb.pending tx₂ _ h₂).1 rfl
      · exact hne rfl
  · have hdeleted : ∀ tx', ((b.insertRecoveryCode tx userId codeHash).transactions tx').deleted =
        (b.transactions tx').deleted :=
      update_cases (P := fun tx' t => t.deleted = (b.transactions tx').deleted) rfl fun _ _ => rfl
    intro tx' id hid
    rw [hdeleted] at hid
    obtain ⟨hlt, hne⟩ := hb.deleted tx' id hid
    refine ⟨Nat.lt_succ_of_lt hlt, fun tx'' c hc => ?_⟩
    rcases hpending tx'' c hc with hc | ⟨-, rfl⟩
    · exact hne tx'' c hc
    · exact Nat.ne_of_gt hlt

theorem Rows.commit (hb : Rows b stored) (tx : ℕ) : Rows (b.commit tx) stored := by
  have hupdate : Rows { b with transactions := Function.update b.transactions tx .begun } stored :=
    hb.update rfl rfl rfl (fun _ h => nomatch h) fun _ h => nomatch h
  refine ⟨hb.distinct, hb.drawn, ?_, ?_, hupdate.apart, hupdate.deleted⟩
  · intro c hc
    rcases List.mem_append.mp hc with hc | hc
    · exact hb.table c (List.mem_of_mem_filter hc)
    · exact (hb.pending tx c hc).1
  · intro tx' c hc
    refine ⟨(hupdate.pending tx' c hc).1, fun h => ?_⟩
    rcases List.mem_append.mp h with h | h
    · exact (hupdate.pending tx' c hc).2 (List.mem_of_mem_filter h)
    · -- pending in two transactions
      by_cases htx : tx' = tx
      · subst htx
        have hnone : c ∈ (Function.update b.transactions tx' .begun tx').inserted := hc
        rw [Function.update_self] at hnone
        cases hnone
      · have hother : c ∈ (Function.update b.transactions tx .begun tx').inserted := hc
        rw [Function.update_of_ne htx] at hother
        exact hb.apart tx' tx htx c hother h

/-- **Every statement keeps the rows in place.** -/
theorem Rows.answer (hb : Rows b stored) (r : Op) :
    Rows (Server.answer r b).2 (insertedRow b r ++ stored) := by
  cases answer_codes r b with
  | kept hother hcodes htransactions hdrawn =>
    have hnone : insertedRow b r = [] := by
      cases r with
      | insertRecoveryCode => cases hother
      | _ => rfl
    rw [hnone, List.nil_append]
    refine ⟨hb.distinct, fun c hc => Nat.lt_of_lt_of_le (hb.drawn c hc) hdrawn, hcodes ▸ hb.table, ?_, ?_, ?_⟩
    · simpa only [Backend.pending, htransactions, hcodes] using hb.pending
    · simpa only [Backend.pending, htransactions] using hb.apart
    · intro tx id hid
      rw [htransactions] at hid
      obtain ⟨hlt, hne⟩ := hb.deleted tx id hid
      refine ⟨Nat.lt_of_lt_of_le hlt hdrawn, fun tx' c hc => hne tx' c ?_⟩
      rwa [Backend.pending, htransactions] at hc
  | consumed u h hr hstate => rw [hstate, hr]; exact hb.filter _
  | deleted tx u hr hstate => rw [hstate, hr]; exact hb.delete tx u
  | inserted tx u h hr hstate => rw [hstate, hr]; exact hb.insert tx u h
  | committed tx hr hstate => rw [hstate, hr]; exact hb.commit tx

/-- **A row that is gone stays gone.** -/
theorem Gone.answer (hb : Rows b stored) {c : RecoveryCode} (hc : c ∈ stored) (hgone : Gone b c)
    (r : Op) : Gone (Server.answer r b).2 c := by
  cases answer_codes r b with
  | kept _ hcodes htransactions _ =>
    exact ⟨hcodes ▸ hgone.table, fun tx => by rw [Backend.pending, htransactions]; exact hgone.pending tx⟩
  | consumed u h hr hstate =>
    rw [hstate]
    exact ⟨fun h => hgone.table (List.mem_of_mem_filter h), hgone.pending⟩
  | deleted tx u hr hstate =>
    rw [hstate]
    refine ⟨hgone.table, ?_⟩
    exact update_cases (P := fun _ t => c ∉ t.inserted)
      (fun h => hgone.pending tx (List.mem_of_mem_filter h)) fun tx' _ => hgone.pending tx'
  | inserted tx u h hr hstate =>
    rw [hstate]
    refine ⟨hgone.table, ?_⟩
    refine update_cases (P := fun _ t => c ∉ t.inserted) (fun hmem => ?_) fun tx' _ => hgone.pending tx'
    rcases List.mem_append.mp hmem with hmem | hmem
    · exact hgone.pending tx hmem
    · rw [List.mem_singleton.mp hmem] at hc
      exact Nat.lt_irrefl _ (hb.drawn _ hc)
  | committed tx hr hstate =>
    rw [hstate]
    constructor
    · intro h
      rcases List.mem_append.mp h with h | h
      · exact hgone.table (List.mem_of_mem_filter h)
      · exact hgone.pending tx h
    · exact update_cases (P := fun _ t => c ∉ t.inserted) (fun h => nomatch h)
        fun tx' _ => hgone.pending tx'

/-- **A row by which a code is accepted** was in the table, and is gone. -/
theorem gone_of_accepted (hb : Rows b stored) {r : Op} {c : RecoveryCode}
    (hc : c ∈ acceptedRows r (Server.answer r b).1) :
    c ∈ b.recoveryCodes ∧ Gone (Server.answer r b).2 c := by
  cases r with
  | consumeRecoveryCode u h =>
    have hredeemed : c ∈ b.redeemed u h := hc
    have htable := (mem_redeemed hredeemed).1
    refine ⟨htable, fun hmem => ?_, fun tx hmem => (hb.pending tx c hmem).2 htable⟩
    have hkept := List.of_mem_filter hmem
    rw [Bool.not_eq_true', List.any_eq_false] at hkept
    exact hkept c hredeemed (by simp)
  | _ => cases hc

theorem acceptedRows_nodup (r : Op) : ((acceptedRows r (Server.answer r b).1).map RecoveryCode.id).Nodup := by
  cases r with
  | consumeRecoveryCode u h =>
    show ((b.redeemed u h).map RecoveryCode.id).Nodup
    rw [Backend.redeemed]
    cases b.recoveryCodes.find? fun c => c.userId = u ∧ c.codeHash = h with
    | none => exact List.nodup_nil
    | some c => exact List.nodup_singleton _
  | _ => exact List.nodup_nil

/-- **A row that a transaction deletes** is marked in it, or gone. -/
theorem marked_of_deleted (hb : Rows b stored) {tx : ℕ} {r : Op} {c : RecoveryCode}
    (hc : c ∈ deletedRows tx r (Server.answer r b).1) : c ∈ stored ∧
      (c.id ∈ ((Server.answer r b).2.transactions tx).deleted ∨ Gone (Server.answer r b).2 c) := by
  cases r with
  | deleteRecoveryCodes tx' u =>
    have hrows : c ∈ if tx' = tx then (b.deleteRecoveryCodes tx' u).1 else [] := hc
    split at hrows
    · rename_i htx
      subst htx
      rcases List.mem_append.mp hrows with hvisible | hown
      · refine ⟨hb.table c (List.mem_of_mem_filter hvisible), .inl ?_⟩
        show c.id ∈ (Function.update b.transactions tx' _ tx').deleted
        rw [Function.update_self]
        exact List.mem_append_right _ (List.mem_map_of_mem hvisible)
      · have hpending : c ∈ b.pending tx' := List.mem_of_mem_filter hown
        have huser : c.userId = u := by simpa using List.of_mem_filter hown
        refine ⟨(hb.pending tx' c hpending).1, .inr ⟨(hb.pending tx' c hpending).2, fun tx'' => ?_⟩⟩
        refine update_cases (P := fun _ t => c ∉ t.inserted) (fun h => ?_) ?_ tx''
        · exact absurd huser (by simpa using List.of_mem_filter h)
        · exact fun tx'' hne h => hb.apart tx'' tx' hne c h hpending
    · cases hrows
  | _ => cases hc

/-- A mark stays until the transaction commits; then the row is gone. -/
theorem marked_answer (hb : Rows b stored) {tx : ℕ} {c : RecoveryCode}
    (hc : c.id ∈ (b.transactions tx).deleted) (r : Op) :
    (r ≠ .commit tx ∧ c.id ∈ ((Server.answer r b).2.transactions tx).deleted) ∨
      Gone (Server.answer r b).2 c := by
  cases answer_codes r b with
  | kept hother _ htransactions _ =>
    refine .inl ⟨?_, by rw [htransactions]; exact hc⟩
    rintro rfl
    cases hother
  | consumed u h hr hstate => exact .inl ⟨by rw [hr]; exact fun h => (nomatch h), by rw [hstate]; exact hc⟩
  | deleted tx' u hr hstate =>
    refine .inl ⟨by rw [hr]; exact fun h => (nomatch h), ?_⟩
    rw [hstate]
    refine update_cases (P := fun tx₁ t => tx₁ = tx → c.id ∈ t.deleted) ?_ ?_ tx rfl
    · rintro rfl
      exact List.mem_append_left _ hc
    · rintro tx₁ - rfl
      exact hc
  | inserted tx' u h hr hstate =>
    refine .inl ⟨by rw [hr]; exact fun h => (nomatch h), ?_⟩
    rw [hstate]
    refine update_cases (P := fun tx₁ t => tx₁ = tx → c.id ∈ t.deleted) ?_ ?_ tx rfl
    · rintro rfl
      exact hc
    · rintro tx₁ - rfl
      exact hc
  | committed tx' hr hstate =>
    rw [hstate, hr]
    -- the commit of the same transaction takes the row, of another none of its marks
    by_cases htx : tx' = tx
    · subst htx
      refine .inr ⟨fun h => ?_, ?_⟩
      · rcases List.mem_append.mp h with h | h
        · have hkept : c.id ∉ (b.transactions tx').deleted := by simpa using List.of_mem_filter h
          exact hkept hc
        · exact (hb.deleted tx' c.id hc).2 tx' c h rfl
      · exact update_cases (P := fun _ t => c ∉ t.inserted) (fun h => nomatch h)
          fun tx'' _ h => (hb.deleted tx' c.id hc).2 tx'' c h rfl
    · refine .inl ⟨fun h => htx (Op.commit.inj h), ?_⟩
      show c.id ∈ (Function.update b.transactions tx' .begun tx).deleted
      rw [Function.update_of_ne (Ne.symm htx)]
      exact hc

end Rows

/-! ## Recovery codes, along a run -/

/-- The codes in the table are marked in every transaction that has deleted those of their
user and has not been overtaken since. -/
def Marked (b : Backend) (l : Trace) : Prop :=
  ∀ tx, ¬ Overtaken tx l → ∀ c ∈ b.recoveryCodes,
    (∃ d ∈ l, d.request = .deleteRecoveryCodes tx c.userId) → c.id ∈ (b.transactions tx).deleted

/-- The codes that a COMMIT of `tx` replaces: those its DELETE took, and, where no other
transaction came between, those the user has. -/
def Replaced (e : Entry Op Op.Reply Backend) (tx : ℕ) (earlier : Trace) (r : RecoveryCode) : Prop :=
  r ∈ replacedBy tx earlier ∨ ¬ Overtaken tx earlier ∧ r ∈ heldAt e tx earlier

/-- What holds of the recovery codes in every state of a run. -/
structure CodesInvariant (b₀ b : Backend) (l : Trace) : Prop where
  rows : Rows b (storedCodes b₀ l)
  accepted : ∀ c ∈ acceptedCodes l, c ∈ storedCodes b₀ l ∧ Gone b c
  once : ((acceptedCodes l).map RecoveryCode.id).Nodup
  replaced : ∀ tx, ∀ r ∈ replacedBy tx l, r ∈ storedCodes b₀ l ∧
    (r.id ∈ (b.transactions tx).deleted ∨ Gone b r)
  marked : Marked b l
  refused : ∀ later e earlier tx, l = later ++ e :: earlier → e.request = .commit tx →
    ∀ r, Replaced e tx earlier r →
      r ∈ storedCodes b₀ l ∧ Gone b r ∧ ∀ c ∈ acceptedCodes later, c ≠ r

section Codes
variable {b₀ b : Backend} {l : Trace}

/-- A row stored before a statement is stored after it. -/
theorem mem_storedCodes_cons {e : Entry Op Op.Reply Backend} {c : RecoveryCode}
    (hc : c ∈ storedCodes b₀ l) : c ∈ storedCodes b₀ (e :: l) := by
  rw [storedCodes, List.flatMap_cons, List.append_assoc]
  exact List.mem_append_right _ hc

/-- **A statement keeps the codes marked.** -/
theorem Marked.answer (h : Marked b l) (i : ℕ) (r : Op) :
    Marked (Server.answer r b).2 (⟨i, b, r, (Server.answer r b).1⟩ :: l) := by
  intro tx hnot c hc ⟨d, hd, hrequest⟩
  obtain ⟨hstored, hnot⟩ := not_or.1 hnot
  -- the DELETE came before, unless it is this statement
  have hbefore : (∀ u, r ≠ .deleteRecoveryCodes tx u) → c ∈ b.recoveryCodes →
      c.id ∈ (b.transactions tx).deleted := by
    intro hother hold
    rcases List.mem_cons.mp hd with rfl | hd
    · exact absurd hrequest (hother _)
    · exact h tx hnot c hold ⟨d, hd, hrequest⟩
  cases answer_codes r b with
  | kept hother hcodes htransactions _ =>
    rw [htransactions]
    rw [hcodes] at hc
    refine hbefore (fun u => ?_) hc
    rintro rfl
    cases hother
  | consumed u hash hr hstate =>
    rw [hstate] at hc ⊢
    exact hbefore (fun v => by rw [hr]; exact fun h => nomatch h) (List.mem_of_mem_filter hc)
  | deleted tx' u hr hstate =>
    rw [hstate] at hc ⊢
    have hold : c ∈ b.recoveryCodes := hc
    refine update_cases (P := fun tx₁ t => tx₁ = tx → c.id ∈ t.deleted) ?_ ?_ tx rfl
    · rintro rfl
      by_cases hmarked : c.id ∈ (b.transactions tx').deleted
      · exact List.mem_append_left _ hmarked
      · -- not marked before, so the DELETE that marks it is this one
        refine List.mem_append_right _ (List.mem_map_of_mem (List.mem_filter.2 ⟨hold, ?_⟩))
        rcases List.mem_cons.mp hd with rfl | hd
        · obtain ⟨-, rfl⟩ := Op.deleteRecoveryCodes.inj (hr.symm.trans hrequest)
          exact decide_eq_true ⟨rfl, hmarked⟩
        · exact absurd (h tx' hnot c hold ⟨d, hd, hrequest⟩) hmarked
    · rintro tx₁ hne rfl
      refine hbefore (fun v => ?_) hold
      rw [hr]
      exact fun h => hne (Op.deleteRecoveryCodes.inj h).1.symm
  | inserted tx' u hash hr hstate =>
    rw [hstate] at hc ⊢
    have hmarked := hbefore (fun v => by rw [hr]; exact fun h => nomatch h) hc
    exact update_cases (P := fun tx₁ t => tx₁ = tx → c.id ∈ t.deleted) (fun htx => htx ▸ hmarked)
      (fun tx₁ _ htx => htx ▸ hmarked) tx rfl
  | committed tx' hr hstate =>
    rw [hstate] at hc ⊢
    rcases List.mem_append.mp hc with hkept | hnew
    · have hmarked := hbefore (fun v => by rw [hr]; exact fun h => nomatch h)
        (List.mem_of_mem_filter hkept)
      have hnone : c.id ∉ (b.transactions tx').deleted := by simpa using List.of_mem_filter hkept
      have hne : tx ≠ tx' := fun htx => hnone (htx ▸ hmarked)
      show c.id ∈ (Function.update b.transactions tx' .begun tx).deleted
      rwa [Function.update_of_ne hne]
    · -- a code that this COMMIT stores
      rcases List.mem_cons.mp hd with rfl | hd
      · cases hr.symm.trans hrequest
      · refine absurd ⟨c.userId, ?_, d, hd, hrequest⟩ hstored
        subst hr
        exact List.mem_map_of_mem hnew

/-- The codes that a COMMIT replaces are marked in its transaction, or gone. -/
theorem CodesInvariant.marked_of_replaced (h : CodesInvariant b₀ b l)
    {e : Entry Op Op.Reply Backend} (he : e.before = b) {tx : ℕ} {d : RecoveryCode}
    (hd : Replaced e tx l d) :
    d ∈ storedCodes b₀ l ∧ (d.id ∈ (b.transactions tx).deleted ∨ Gone b d) := by
  rcases hd with hd | ⟨hnot, hd⟩
  · exact h.replaced tx d hd
  · obtain ⟨htable, hdeleted⟩ := List.mem_filter.mp hd
    rw [he] at htable
    exact ⟨h.rows.table d htable, .inl (h.marked tx hnot d htable (by simpa using hdeleted))⟩

/-- **A statement keeps what holds of the recovery codes.** -/
theorem CodesInvariant.answer (h : CodesInvariant b₀ b l) (i : ℕ) (r : Op) :
    CodesInvariant b₀ (Server.answer r b).2 (⟨i, b, r, (Server.answer r b).1⟩ :: l) := by
  have hgone : ∀ c ∈ storedCodes b₀ l, Gone b c → Gone (Server.answer r b).2 c :=
    fun c hc hg => hg.answer h.rows hc r
  constructor
  · have hrows := h.rows.answer r
    rw [storedCodes, List.flatMap_cons, List.append_assoc]
    exact hrows
  · intro c hc
    rcases List.mem_append.mp hc with hc | hc
    · obtain ⟨htable, hg⟩ := gone_of_accepted h.rows hc
      exact ⟨mem_storedCodes_cons (h.rows.table c htable), hg⟩
    · obtain ⟨hstored, hg⟩ := h.accepted c hc
      exact ⟨mem_storedCodes_cons hstored, hgone c hstored hg⟩
  · rw [acceptedCodes, List.flatMap_cons, List.map_append]
    refine List.nodup_append.mpr ⟨acceptedRows_nodup r, h.once, ?_⟩
    rintro _ hid _ hid' rfl
    obtain ⟨c, hc, rfl⟩ := List.mem_map.mp hid
    obtain ⟨d, hd, heq⟩ := List.mem_map.mp hid'
    -- the row accepted now is in the table, the one accepted before is gone
    have htable := (gone_of_accepted h.rows hc).1
    obtain ⟨hstored, hg⟩ := h.accepted d hd
    exact hg.table (h.rows.eq_of_id hstored (h.rows.table c htable) heq ▸ htable)
  · intro tx c hc
    rcases List.mem_append.mp hc with hc | hc
    · obtain ⟨hstored, hmarked⟩ := marked_of_deleted h.rows hc
      exact ⟨mem_storedCodes_cons hstored, hmarked⟩
    · obtain ⟨hstored, hmarked⟩ := h.replaced tx c hc
      refine ⟨mem_storedCodes_cons hstored, ?_⟩
      rcases hmarked with hmarked | hg
      · exact (marked_answer h.rows hmarked r).imp_left And.right
      · exact .inr (hgone c hstored hg)
  · exact h.marked.answer i r
  · intro later e earlier tx hl hcommit d hd
    cases later with
    | nil =>
      -- the statement is the commit itself
      obtain ⟨rfl, rfl⟩ := List.cons.inj hl
      obtain ⟨hstored, hmarked⟩ := h.marked_of_replaced rfl hd
      refine ⟨mem_storedCodes_cons hstored, ?_, fun _ hc => nomatch hc⟩
      rcases hmarked with hmarked | hg
      · rcases marked_answer h.rows hmarked r with ⟨hne, -⟩ | hg
        · exact absurd hcommit hne
        · exact hg
      · exact hgone d hstored hg
    | cons e' later =>
      obtain ⟨rfl, rfl⟩ := List.cons.inj hl
      obtain ⟨hstored, hg, hne⟩ := h.refused later e earlier tx rfl hcommit d hd
      refine ⟨mem_storedCodes_cons hstored, hgone d hstored hg, fun c hc => ?_⟩
      rcases List.mem_append.mp hc with hc | hc
      · rintro rfl
        exact hg.table (gone_of_accepted h.rows hc).1
      · exact hne c hc

end Codes

/-! ## Challenges, along a run -/

/-- What holds of the challenges in every state of a run that issues none. -/
structure ChallengesInvariant (b₀ b : Backend) (l : Trace) : Prop where
  table : ∀ c ∈ b.totpChallenges, c ∈ b₀.totpChallenges
  passed : ∀ token ∈ passedTokens l, ∀ c ∈ b.totpChallenges, c.token = token → c.expiresAt ≤ b.now
  once : (passedTokens l).Nodup
  expiry : ∀ e ∈ l, ∀ token ∈ passedToken e.request e.reply,
    ∃ c ∈ b₀.totpChallenges, c.token = token ∧ e.before.now < c.expiresAt

section Challenges
variable {b₀ b : Backend} {l : Trace}

/-- A statement that issues no challenge. -/
theorem challenges_answer {r : Op} (hr : ∀ u t, r ≠ .createTotpChallenge u t) :
    (answer r b).2.now = b.now ∧ ∀ c ∈ (answer r b).2.totpChallenges, c ∈ b.totpChallenges := by
  cases r with
  | createTotpChallenge u t => exact absurd rfl (hr u t)
  | consumeTotpChallenge token => exact ⟨rfl, fun c hc => List.mem_of_mem_filter hc⟩
  | createUser username winkdId displayName email passwordHash =>
    simp only [answer, Backend.createUser]
    split <;> exact ⟨rfl, fun _ h => h⟩
  | setTotpEnabled u enabled => cases enabled <;> exact ⟨rfl, fun _ h => h⟩
  | linkOauthAccount u provider providerUserId =>
    simp only [answer, Backend.linkOauthAccount]
    split
    · exact ⟨rfl, fun _ h => h⟩
    · split
      · exact ⟨rfl, fun _ h => h⟩
      · split <;> exact ⟨rfl, fun _ h => h⟩
  | createSession u token =>
    simp only [answer, Backend.createSession]
    split
    · exact ⟨rfl, fun _ h => h⟩
    · split <;> exact ⟨rfl, fun _ h => h⟩
  | _ => exact ⟨rfl, fun _ h => h⟩

/-- **A challenge that lets a request past** was live, and is live no more. -/
theorem passed_answer {r : Op} {token : Text} (h : token ∈ passedToken r (answer r b).1) :
    (∃ c ∈ b.totpChallenges, c.token = token ∧ b.now < c.expiresAt) ∧
      ∀ c ∈ (answer r b).2.totpChallenges, c.token = token → c.expiresAt ≤ b.now := by
  cases r with
  | consumeTotpChallenge token' =>
    obtain ⟨userId, huser, rfl⟩ := Option.map_eq_some_iff.mp h
    obtain ⟨c, hfind, -⟩ := Option.map_eq_some_iff.mp huser
    have hlive : c.token = token' ∧ b.now < c.expiresAt := by
      simpa [Backend.LiveChallenge] using List.find?_some hfind
    refine ⟨⟨c, List.mem_of_find?_eq_some hfind, hlive⟩, fun d hd htoken => ?_⟩
    have hdead : d.token ≠ token' ∨ d.expiresAt ≤ b.now := by
      simpa [Backend.LiveChallenge] using List.of_mem_filter hd
    exact hdead.resolve_left fun h => h htoken
  | _ => cases h

/-- **A statement that issues no challenge keeps what holds of them.** -/
theorem ChallengesInvariant.answer (h : ChallengesInvariant b₀ b l) (i : ℕ) {r : Op}
    (hr : ∀ u t, r ≠ .createTotpChallenge u t) :
    ChallengesInvariant b₀ (Server.answer r b).2 (⟨i, b, r, (Server.answer r b).1⟩ :: l) := by
  obtain ⟨hnow, hsub⟩ := challenges_answer (b := b) hr
  have hpassed : passedTokens (⟨i, b, r, (Server.answer r b).1⟩ :: l) =
      (passedToken r (Server.answer r b).1).toList ++ passedTokens l := by
    simp only [passedTokens, List.filterMap_cons]
    cases passedToken r (Server.answer r b).1 <;> rfl
  refine ⟨fun c hc => h.table c (hsub c hc), ?_, ?_, ?_⟩
  · intro token ht c hc htoken
    rw [hpassed, List.mem_append, Option.mem_toList] at ht
    rw [hnow]
    rcases ht with ht | ht
    · exact (passed_answer ht).2 c hc htoken
    · exact h.passed token ht c (hsub c hc) htoken
  · rw [hpassed]
    cases htoken : passedToken r (Server.answer r b).1 with
    | none => exact h.once
    | some token =>
      refine List.nodup_cons.mpr ⟨fun hbefore => ?_, h.once⟩
      obtain ⟨⟨c, hc, hct, hlive⟩, -⟩ := passed_answer htoken
      exact Nat.not_le_of_lt hlive (h.passed token hbefore c hc hct)
  · intro e he token ht
    rcases List.mem_cons.mp he with rfl | he
    · obtain ⟨⟨c, hc, hct, hlive⟩, -⟩ := passed_answer ht
      exact ⟨c, h.table c hc, hct, hlive⟩
    · exact h.expiry e he token ht

end Challenges

/-! ## Runs -/

/-- Tables between requests: keys are distinct, and no transaction is under way. -/
structure AtRest (b : Backend) : Prop where
  tokens : (b.totpChallenges.map TotpChallenge.token).Nodup
  ids : (b.recoveryCodes.map RecoveryCode.id).Nodup
  drawn : ∀ c ∈ b.recoveryCodes, c.id < b.drawn
  transactions : ∀ tx, b.transactions tx = .begun

/-- Only `totp_challenge`, `totp_disable` and `recovery_codes_generate` are asked for. -/
def OnlyVerifies (s : Service) : Event → Prop
  | .request _ (.totpChallenge _ _) => True
  | .request _ (.totpDisable _ _) => True
  | .request _ (.recoveryCodesGenerate _ _) => True
  | .request _ _ => False
  | .statement _ => True
  | .clock now => s.state.now ≤ now

/-- These requests issue no challenge. -/
theorem handle_issuesNone {C : Crates} {s : Service} {o : Outside} {req : AuthRequest}
    (h : OnlyVerifies s (.request o req)) :
    KeepsTo (fun _ r => ∀ u t, r ≠ .createTotpChallenge u t) (handle C o req) := by
  have hplain : ∀ (d : Option User) (r : Op), r.plain = true → ∀ u t, r ≠ .createTotpChallenge u t := by
    rintro d _ hr u t rfl
    cases hr
  cases req with
  | totpChallenge headers body => exact keepsTo_totpChallenge hplain headers body
  | totpDisable headers code => exact keepsTo_totpDisable hplain headers code
  | recoveryCodesGenerate headers code => exact keepsTo_recoveryCodesGenerate hplain headers code
  | _ => exact h.elim

/-- What holds in every state of a run of these requests. -/
structure UseInvariant (b₀ : Backend) (s : Service) : Prop where
  codes : CodesInvariant b₀ s.state s.trace
  challenges : ChallengesInvariant b₀ s.state s.trace
  disciplined : s.Disciplined (fun _ r => ∀ u t, r ≠ .createTotpChallenge u t) rowRead none

/-- At rest, every row is in the table. -/
theorem AtRest.rows {b : Backend} (hb : AtRest b) : Rows b b.recoveryCodes where
  distinct := hb.ids
  drawn := hb.drawn
  table _ h := h
  pending tx c hc := by
    rw [Backend.pending, hb.transactions tx] at hc
    cases hc
  apart tx _ _ c hc := by
    rw [Backend.pending, hb.transactions tx] at hc
    cases hc
  deleted tx id hid := by
    rw [hb.transactions tx] at hid
    cases hid

theorem useInvariant_idle {b₀ : Backend} (hb : AtRest b₀) :
    UseInvariant b₀ (Pool.idle b₀ : Service) where
  codes :=
    { rows := hb.rows
      accepted := fun _ h => nomatch h
      once := List.nodup_nil
      replaced := fun _ _ h => nomatch h
      marked := fun _ _ _ _ ⟨_, hd, _⟩ => nomatch hd
      refused := fun later e earlier _ hl => absurd hl (by simp [Pool.idle]) }
  challenges :=
    { table := fun _ h => h
      passed := fun _ h => nomatch h
      once := List.nodup_nil
      expiry := fun _ h => nomatch h }
  disciplined := Pool.Disciplined.idle _

/-- Time that passes changes nothing but whether a challenge is live. -/
theorem useInvariant_clock {b₀ b : Backend} {l : Trace} {now : ℕ} (hnow : b.now ≤ now)
    (hcodes : CodesInvariant b₀ b l) (hchallenges : ChallengesInvariant b₀ b l) :
    CodesInvariant b₀ { b with now := now } l ∧ ChallengesInvariant b₀ { b with now := now } l := by
  have hgone : ∀ {c}, Gone b c → Gone { b with now := now } c := fun h => ⟨h.table, h.pending⟩
  constructor
  · refine ⟨⟨hcodes.rows.distinct, hcodes.rows.drawn, hcodes.rows.table, hcodes.rows.pending,
      hcodes.rows.apart, hcodes.rows.deleted⟩, ?_, hcodes.once, ?_, hcodes.marked, ?_⟩
    · exact fun c hc => ⟨(hcodes.accepted c hc).1, hgone (hcodes.accepted c hc).2⟩
    · exact fun tx r hr => ⟨(hcodes.replaced tx r hr).1, (hcodes.replaced tx r hr).2.imp_right hgone⟩
    · intro later e earlier tx hl hcommit r hr
      obtain ⟨hstored, hg, hne⟩ := hcodes.refused later e earlier tx hl hcommit r hr
      exact ⟨hstored, hgone hg, hne⟩
  · refine ⟨hchallenges.table, ?_, hchallenges.once, hchallenges.expiry⟩
    exact fun token ht c hc htoken => Nat.le_trans (hchallenges.passed token ht c hc htoken) hnow

theorem useInvariant_next {C : Crates} {b₀ : Backend} {s : Service} (hs : UseInvariant b₀ s) {e : Event}
    (he : OnlyVerifies s e) : UseInvariant b₀ (s.next C e) := by
  cases e with
  | request o req =>
    have hdisciplined : (Pool.next answer s (.start (handle C o req))).Disciplined
        (fun _ r => ∀ u t, r ≠ .createTotpChallenge u t) rowRead none := by
      apply hs.disciplined.next
      rintro p hp
      injection hp with hp
      exact hp ▸ handle_issuesNone he none
    exact ⟨hs.codes, hs.challenges, hdisciplined⟩
  | clock now =>
    have hdisciplined : (Pool.next answer s (.outside { s.state with now := now })).Disciplined
        (fun _ r => ∀ u t, r ≠ .createTotpChallenge u t) rowRead none :=
      hs.disciplined.next fun p hp => nomatch hp
    have hclock := useInvariant_clock he hs.codes hs.challenges
    exact ⟨hclock.1, hclock.2, hdisciplined⟩
  | statement i =>
    have hdisciplined := hs.disciplined.next (h := answer) (a := .answer i) fun p hp => nomatch hp
    show UseInvariant b₀ (Pool.next answer s (.answer i))
    rcases Pool.next_answer_cases (h := answer) s i with heq | ⟨r, k, hp, heq⟩
    · rwa [heq]
    · rw [heq] at hdisciplined ⊢
      exact ⟨hs.codes.answer i r, hs.challenges.answer i (hs.disciplined.may_issue hp), hdisciplined⟩

theorem unovertaken_append {later : Trace} {e : Entry Op Op.Reply Backend} {earlier : Trace} {tx : ℕ}
    (h : Unovertaken (later ++ e :: earlier)) (hcommit : e.request = .commit tx) :
    ¬ Overtaken tx earlier := by
  induction later with
  | nil => exact h.1 tx (by rw [hcommit]; rfl)
  | cons e' later ih => exact ih h.2

/-- No code that a COMMIT replaces is accepted after it. -/
theorem CodesInvariant.ne_of_replaced {b₀ b : Backend} {l later earlier : Trace}
    {e : Entry Op Op.Reply Backend} {tx : ℕ} (h : CodesInvariant b₀ b l)
    (hdistinct : ((storedCodes b₀ l).map RecoveryCode.codeHash).Nodup)
    (hl : l = later ++ e :: earlier) (hcommit : e.request = .commit tx) {r : RecoveryCode}
    (hr : Replaced e tx earlier r) : ∀ c ∈ acceptedCodes later, c.codeHash ≠ r.codeHash := by
  intro c hc hhash
  obtain ⟨hstored, -, hne⟩ := h.refused later e earlier tx hl hcommit r hr
  have hmem : c ∈ acceptedCodes l := by
    rw [hl, acceptedCodes, List.flatMap_append]
    exact List.mem_append_left _ hc
  exact hne c hc (List.inj_on_of_nodup_map hdistinct (h.accepted c hmem).1 hstored hhash)

/-- **Challenges and recovery codes are used once**, in every run of these requests, however
their statements interleave; and where no `store_recovery_codes` is overtaken by another one for
the same user, no code of a replaced set is accepted again. -/
theorem single_use {C : Crates} {b₀ : Backend} (hb : AtRest b₀) {s : Service}
    (hs : Transitions.Reaches (Service.next C) OnlyVerifies (Pool.idle b₀) s)
    (hdistinct : ((storedCodes b₀ s.trace).map RecoveryCode.codeHash).Nodup) :
    UsedOnce b₀ s.trace ∧ (Unovertaken s.trace → SingleUse b₀ s.trace) := by
  have hinv : UseInvariant b₀ s :=
    hs.invariant (useInvariant_idle hb) fun _ _ h he => useInvariant_next h he
  have honce : UsedOnce b₀ s.trace := by
    refine ⟨hinv.challenges.once, ?_, hinv.codes.once, ?_⟩
    · intro e he token ht c hc htoken
      obtain ⟨d, hd, hdt, hlive⟩ := hinv.challenges.expiry e he token ht
      -- tokens are unique, so the row that was taken is the one named
      have hcd : c = d := List.inj_on_of_nodup_map hb.tokens hc hd (htoken.trans hdt.symm)
      exact hcd ▸ hlive
    · intro later e earlier tx hl hcommit r hr
      exact hinv.codes.ne_of_replaced hdistinct hl hcommit (.inl hr)
  refine ⟨honce, fun hun => ⟨honce, ?_⟩⟩
  intro later e earlier tx hl hcommit r hr
  rw [hl] at hun
  exact hinv.codes.ne_of_replaced hdistinct hl hcommit (.inr ⟨unovertaken_append hun hcommit, hr⟩)

namespace Sample

/-- A recovery code: a letter, and 31 times one digit. -/
def letterCode (letter : Char) (d : ℕ) : Text := letter :: List.replicate 31 (Text.digit d)

/-- The SHA-256 hashes of these codes, as numbers. -/
def letterHashes (letter : Char) : List ℕ :=
  if letter = 'a' then
    [0xdcae39569870aee7303e408b95cd621af049575754900333308afd550ef5571c,
      0x72a75820a56ca2269be339fbcc308b6ba922368c294935546c0d4ec31bd052dd,
      0x2d411b3ea348d05a18b8667b974b7ed399313ec3e50cf74e5535708664806dbc,
      0x25bf294a8790f16a115409164c87d2db4f2b6954472f7eaaed169da2eaa6ce0c,
      0xe8e570a19b9be56073086583c04a079b9e403ce6d657a659f97e2d736986c6b9,
      0x26fbe481659a871fee1cfb29b69e225e8a62467616bb4ad875acbe0d458f3db4,
      0xcde04fa7aae64c8451183cf435828d6f7ed51bf7b7f2d8c8a93ef43298f902f7,
      0xd0c10a56badc81ff1bdb5a56d51478dd1975804423e6cf9d9796779d9644f1f9,
      0xf5b68f8a35e5512a942768df8829a0dec6aad3df958bc74b6f1dd4decabff733,
      0xa69325d2f9fbfb714189502cfec7fa7eeed2d402fc533204a2abeac7410adca7]
  else
    [0x985bd4d809818f7e779c65d45a13914e8d7b6e2b58342ce4b1ac21ead6a90779,
      0x52bb3a0c948b95b67abb90bdf9988df7ea279dea8e79d620980a65739da80a50,
      0x24bb110bb74335a600c3325dd0eabfb9fb61d012b2c06ebd84b0d493118d57ff,
      0xfec28de30964a97172b5a8a865e917d1eff72215755a9d27615704c7d7409877,
      0x7e0509f8fc057059ea508ad01b4020467b58e07f4bcdc4ffcabda93627be9a5b,
      0x7705cf3621de864135bcfcbd5fc9ee244b3bf8aa17ee7b05fdd523df20bc36f0,
      0x909098b791938606d596c4d55439811976ee2167c756994b347380c8e0750bcc,
      0x97f78201116b07c1218352a05eee1ea316891225fbc1aab2d89b006b9d77752c,
      0x9e0a6764279174e6fb761728bd6947f4630e5ae03aeaaa22310bb515e3b0acb4,
      0xe39c2be54c3c3fc9c14cd82236f5e62503dae286d527114817bb6a825590d64b]

/-- A hash in hexadecimal. -/
def hexHash (hash : ℕ) : Text := (List.range 64).map fun i => Hex.digit (hash / 16 ^ (63 - i) % 16)

def letterCrates : Crates :=
  { crates with
    sha256Hex := fun t =>
      hexHash ((letterHashes (t.headD 'a')).getD ((t.getLastD '0').toNat - '0'.toNat) 0) }

/-- A user for whom the codes with this letter are drawn. -/
def letterOutside (letter : Char) : Outside :=
  { outside "" with recoveryCodes := (List.range 10).map (letterCode letter) }

/-- An account with 2FA that is signed in, with a challenge. -/
def challenged : Backend :=
  { Backend.init 30000000 with
    users := [⟨0, "ada".toList, "ada#0042".toList, "ada".toList, [], none, none, none, none, none, true,
      some secret⟩]
    sessions := [⟨0, "first".toList, 604830000000⟩]
    totpChallenges := [⟨0, "challenge".toList, 330000000⟩]
    drawn := 1 }

theorem challenged_atRest : AtRest challenged := ⟨by decide, by decide, by decide, fun _ => rfl⟩

def generate : AuthRequest := .recoveryCodesGenerate headers "287082".toList

def disable : AuthRequest := .totpDisable headers (letterCode 'a' 3)

/-- Codes are drawn; the challenge is passed with one of them, and presented again with another; others
are drawn, and then one of the first set is presented. -/
def inTurn : List Event :=
  List.flatten [[.request (letterOutside 'a') generate], List.replicate 17 (.statement 0),
    [.request (outside "second") (.totpChallenge headers ⟨"challenge".toList, letterCode 'a' 5⟩),
      .request (outside "third") (.totpChallenge headers ⟨"challenge".toList, letterCode 'a' 6⟩)],
    List.replicate 7 (.statement 1), [.statement 2],
    [.request (letterOutside 'b') generate], List.replicate 17 (.statement 3),
    [.request (outside "") disable], List.replicate 2 (.statement 4)]

/-- Two requests draw codes side by side: the second has deleted when the first commits, and commits
after it.  Then a code of the first set is presented. -/
def sideBySide : List Event :=
  List.flatten [[.request (letterOutside 'a') generate, .request (letterOutside 'b') generate],
    List.replicate 5 (.statement 0), List.replicate 5 (.statement 1),
    List.replicate 12 (.statement 0), List.replicate 12 (.statement 1),
    [.request (outside "") disable], List.replicate 2 (.statement 2)]

def afterwards (events : List Event) : Service :=
  events.foldl (Service.next letterCrates) (Pool.idle challenged)

instance (s : Service) : ∀ e, Decidable (OnlyVerifies s e)
  | .request _ (.totpChallenge _ _) => isTrue trivial
  | .request _ (.totpDisable _ _) => isTrue trivial
  | .request _ (.recoveryCodesGenerate _ _) => isTrue trivial
  | .request _ (.login _ _) => isFalse id
  | .request _ (.register _ _) => isFalse id
  | .request _ (.oauthCallback _ _ _) => isFalse id
  | .request _ (.totpSetup _) => isFalse id
  | .request _ (.totpConfirm _ _) => isFalse id
  | .statement _ => isTrue trivial
  | .clock now => inferInstanceAs (Decidable (s.state.now ≤ now))

theorem afterwards_reached {events : List Event}
    (h : Transitions.Admits (Service.next letterCrates) OnlyVerifies (Pool.idle challenged) events) :
    Transitions.Reaches (Service.next letterCrates) OnlyVerifies (Pool.idle challenged)
      (afterwards events) := h.reaches

/-- What is stored when both sets have been drawn. -/
def bothSets : List Text := (letterHashes 'a' ++ letterHashes 'b').reverse.map hexHash

theorem bothSets_nodup : bothSets.Nodup := by decide +kernel

/-- Sets that are drawn one after the other replace one another. -/
theorem single_use_inTurn : SingleUse challenged (afterwards inTurn).trace := by
  have hstored : (storedCodes challenged (afterwards inTurn).trace).map RecoveryCode.codeHash = bothSets := by
    decide +kernel
  have hdistinct := hstored ▸ bothSets_nodup
  exact (single_use challenged_atRest (afterwards_reached (by decide)) hdistinct).2 (by decide +kernel)

/-- A set that is stored between the DELETE and the COMMIT of another request stays, and is accepted. -/
theorem replaced_accepted :
    AtRest challenged ∧ Transitions.Reaches (Service.next letterCrates) OnlyVerifies (Pool.idle challenged)
        (afterwards sideBySide) ∧
      ((storedCodes challenged (afterwards sideBySide).trace).map RecoveryCode.codeHash).Nodup ∧
      ¬ SingleUse challenged (afterwards sideBySide).trace := by
  have hstored : (storedCodes challenged (afterwards sideBySide).trace).map RecoveryCode.codeHash =
      bothSets := by decide +kernel
  refine ⟨challenged_atRest, afterwards_reached (by decide), hstored ▸ bothSets_nodup, fun h => ?_⟩
  -- the second COMMIT, and what comes after it
  have haccepted : ∃ e ∈ (afterwards sideBySide).trace[3]?, e.request = .commit 1 ∧
      ∃ r ∈ heldAt e 1 ((afterwards sideBySide).trace.drop 4),
        ∃ c ∈ acceptedCodes ((afterwards sideBySide).trace.take 3), c.codeHash = r.codeHash := by
    decide +kernel
  obtain ⟨e, he, hcommit, r, hr, c, hc, hhash⟩ := haccepted
  obtain ⟨hlength, rfl⟩ := List.getElem?_eq_some_iff.1 he
  refine h.replaced _ _ _ 1 ?_ hcommit r hr c hc hhash
  rw [← List.drop_eq_getElem_cons hlength, List.take_append_drop]

end Sample
end Winkd.Server
