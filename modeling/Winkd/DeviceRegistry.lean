import Winkd.KeyFetches
import Winkd.Continuations

/-!
# Bundles and the device registry

An upload writes the device's bundle first and registers the device last; a revocation
deletes both rows in one transaction.  The two tables go out of step where an upload fails
to register — its bundle stays, and it has answered with an error — and where a revocation
commits between the two writes of an upload, or finds only what an upload has written
since it began.

In every run without these (`KeyServer.Orderly`), there is a bundle exactly where there is
a device whenever no request is under way, and an upload that fails has changed nothing.
-/

namespace Winkd.Server

/-! ## How far an upload has come -/

/-- What an upload has done for a device. -/
inductive UploadPhase where
  | begun
  /-- It has written the bundle and has still to register the device. -/
  | written (u : Id) (d : ℤ)
  | registered (u : Id) (d : ℤ)
  /-- It could not register the device. -/
  | failed (u : Id) (d : ℤ)
  deriving DecidableEq

namespace UploadPhase

def may : UploadPhase → KeyOp → Prop
  | p, .upsertPreKeyBundle _ _ => p = .begun
  | p, .insertOneTimePreKey u d _ => p = .written u d
  | p, .registerDevice u d _ => p = .written u d
  | _, _ => True

def seen : UploadPhase → (r : KeyOp) → KeyOp.Reply r → UploadPhase
  | _, .upsertPreKeyBundle u bundle, .ok () => .written u bundle.deviceId
  | .written u d, .registerDevice _ _ _, .ok _ => .registered u d
  | .written u d, .registerDevice _ _ _, .error _ => .failed u d
  | p, _, _ => p

/-- A request does not end between the two writes, nor with an error once it has
registered. -/
def Fits (p : UploadPhase) : KeyHandler KeyResponse → Prop
  | .pure _ => ∀ u d, p ≠ .written u d
  | .throw _ => p = .begun ∨ ∃ u d, p = .failed u d
  | .request r _ => may p r

theorem seen_ne_begun {p : UploadPhase} (hp : p ≠ .begun) (r : KeyOp) (x : KeyOp.Reply r) :
    seen p r x ≠ .begun := by
  cases r with
  | upsertPreKeyBundle u bundle =>
    cases x with
    | error e => exact hp
    | ok x => exact nofun
  | registerDevice u d name =>
    cases p with
    | written u' d' => cases x <;> exact nofun
    | begun => exact absurd rfl hp
    | registered u' d' => exact nofun
    | failed u' d' => exact nofun
  | _ => exact hp

/-- What is not an upload's does not move its phase. -/
theorem visits_asks {p : KeyHandler KeyResponse} (hp : p.Asks fun r => r.ofUpload = false) :
    p.Visits Fits seen .begun := by
  induction p with
  | pure a => exact fun _ _ => nofun
  | throw e => exact .inl rfl
  | request r k ih =>
    obtain ⟨hr, hk⟩ := hp
    have hmay : may .begun r := by cases r <;> trivial
    have hseen : ∀ x, seen .begun r x = .begun := by
      intro x
      cases r <;> first | rfl | cases hr
    refine ⟨hmay, ?_⟩
    intro x
    rw [hseen x]
    exact ih x (hk x)

/-- The one-time keys are inserted between the two writes. -/
theorem visits_insertOneTimePreKeys {u : Id} {d : ℤ} {f : Unit → KeyHandler KeyResponse}
    (hf : (f ()).Visits Fits seen (.written u d)) (keys : List OneTimePreKey) :
    (insertOneTimePreKeys u d keys >>= f).Visits Fits seen (.written u d) := by
  induction keys with
  | nil => exact hf
  | cons key keys ih => exact ⟨rfl, fun _ => ih⟩

theorem visits_upload (headers : Headers) (body : PreKeyBundleUpload) :
    (uploadPreKeyBundle headers body).Visits Fits seen .begun := by
  rw [uploadPreKeyBundle, requireKeyAuth]
  cases headers.authorization.bind (Text.stripPrefix "Bearer ".toList) with
  | none => exact .inl rfl
  | some token =>
    refine ⟨trivial, ?_⟩
    intro found
    cases found with
    | error e => exact .inl rfl
    | ok found =>
      cases found with
      | none => exact .inl rfl
      | some user =>
        refine ⟨rfl, ?_⟩
        intro written
        cases written with
        | error e => exact .inl rfl
        | ok written =>
          refine visits_insertOneTimePreKeys ?_ body.oneTimePreKeys
          refine ⟨rfl, ?_⟩
          intro registered
          cases registered with
          | error e => exact .inr ⟨_, _, rfl⟩
          | ok row => exact ⟨trivial, fun _ _ _ h => by cases h⟩

theorem visits_fetch (headers : Headers) (winkdId : Text) :
    (fetchPreKeyBundle headers winkdId).Visits Fits seen .begun := by
  apply visits_asks
  refine Prog.asks_bind (asks_requireKeyAuth (fun _ => rfl) headers) fun _ => ?_
  refine Prog.asks_bind (asks_statement rfl) fun found => Prog.asks_bind (asks_ofOption _ _) fun _ => ?_
  refine Prog.asks_bind (asks_statement rfl) fun _ => Prog.asks_bind (asks_ofOption _ _) fun _ => ?_
  exact Prog.asks_bind (asks_statement rfl) fun _ => Prog.asks_pure _

theorem visits_revoke (headers : Headers) (deviceId : ℤ) :
    (revokeDevice headers deviceId).Visits Fits seen .begun := by
  apply visits_asks
  refine Prog.asks_bind (asks_requireKeyAuth (fun _ => rfl) headers) fun user => ?_
  refine Prog.asks_bind (asks_revokeDeviceRows (fun r hr => hr.2) user.id deviceId) fun removed => ?_
  cases removed with
  | false => exact trivial
  | true =>
    exact Prog.asks_bind (Prog.asks_bind (Prog.asks_ask rfl) fun _ => Prog.asks_pure _)
      fun _ => Prog.asks_pure _

/-- Every request fits. -/
theorem visits_start {s : KeyServer} {e : KeyEvent} {p : KeyHandler KeyResponse}
    (he : s.act e = .start p) : p.Visits Fits seen .begun := by
  cases e with
  | upload headers body => exact Threads.Act.start.inj he ▸ visits_upload headers body
  | fetch headers winkdId => exact Threads.Act.start.inj he ▸ visits_fetch headers winkdId
  | revoke headers deviceId => exact Threads.Act.start.inj he ▸ visits_revoke headers deviceId
  | statement i fault => cases he
  | others accounts => cases he

end UploadPhase

/-! ## What a statement does to the two tables -/

theorem KeyTables.hasBundle_upsert {t : KeyTables} {u : Id} {bundle : Bundle} {v : Id} {d : ℤ} :
    (t.upsertPreKeyBundle u bundle).HasBundle v d ↔
      t.HasBundle v d ∨ (v = u ∧ d = bundle.deviceId) := by
  constructor
  · rintro ⟨row, hrow, rfl, rfl⟩
    rcases mem_upsertPreKeyBundle hrow with hold | rfl
    · exact .inl ⟨row, hold, rfl, rfl⟩
    · exact .inr ⟨rfl, rfl⟩
  · intro h
    rw [HasBundle, upsertPreKeyBundle]
    split
    · rename_i hhas
      -- a row of the device is replaced by one of the same device
      have hkept : ∀ row ∈ t.preKeyBundles, ∃ row' ∈ t.preKeyBundles.map fun row =>
          if row.userId = u ∧ row.bundle.deviceId = bundle.deviceId then ⟨u, bundle⟩ else row,
          row'.userId = row.userId ∧ row'.bundle.deviceId = row.bundle.deviceId := by
        intro row hrow
        refine ⟨_, List.mem_map_of_mem hrow, ?_⟩
        split
        · rename_i hsame
          exact ⟨hsame.1.symm, hsame.2.symm⟩
        · exact ⟨rfl, rfl⟩
      obtain ⟨row, hrow, hv, hd⟩ : t.HasBundle v d := by
        rcases h with h | ⟨rfl, rfl⟩
        · exact h
        · exact hhas
      obtain ⟨row', hrow', hu', hd'⟩ := hkept row hrow
      exact ⟨row', hrow', hu'.trans hv, hd'.trans hd⟩
    · rcases h with ⟨row, hrow, h⟩ | ⟨rfl, rfl⟩
      · exact ⟨row, List.mem_append_left _ hrow, h⟩
      · exact ⟨_, List.mem_append_right _ (List.mem_singleton_self _), rfl, rfl⟩

theorem KeyTables.hasDevice_register {t : KeyTables} {u : Id} {d : ℤ} {name : Text}
    (hname : name.length ≤ 64) {v : Id} {d' : ℤ} :
    (t.registerDevice u d name).2.HasDevice v d' ↔ t.HasDevice v d' ∨ (v = u ∧ d' = d) := by
  rw [registerDevice, if_neg (by omega)]
  split
  · rename_i hhas
    constructor
    · rintro ⟨row, hrow, rfl, rfl⟩
      obtain ⟨old, hold, rfl⟩ := List.mem_map.mp hrow
      split
      · exact .inr ⟨rfl, rfl⟩
      · exact .inl ⟨old, hold, rfl, rfl⟩
    · intro h
      obtain ⟨row, hrow, hv, hd⟩ : t.HasDevice v d' := by
        rcases h with h | ⟨rfl, rfl⟩
        · exact h
        · exact hhas
      refine ⟨_, List.mem_map_of_mem hrow, ?_⟩
      split
      · rename_i hsame
        exact ⟨hsame.1.symm.trans hv, hsame.2.symm.trans hd⟩
      · exact ⟨hv, hd⟩
  · constructor
    · rintro ⟨row, hrow, rfl, rfl⟩
      rcases List.mem_append.mp hrow with hrow | hrow
      · exact .inl ⟨row, hrow, rfl, rfl⟩
      · cases List.mem_singleton.mp hrow
        exact .inr ⟨rfl, rfl⟩
    · rintro (⟨row, hrow, h⟩ | ⟨rfl, rfl⟩)
      · exact ⟨row, List.mem_append_left _ hrow, h⟩
      · exact ⟨_, List.mem_append_right _ (List.mem_singleton_self _), rfl, rfl⟩

theorem KeyTables.hasBundle_commit {t : KeyTables} {tx : ℕ} {v : Id} {d : ℤ} :
    (t.commit tx).HasBundle v d ↔ t.HasBundle v d ∧ (v, d) ∉ (t.revocations tx).bundles := by
  constructor
  · rintro ⟨row, hrow, rfl, rfl⟩
    obtain ⟨hrow, hkept⟩ := List.mem_filter.mp hrow
    exact ⟨⟨row, hrow, rfl, rfl⟩, of_decide_eq_true hkept⟩
  · rintro ⟨⟨row, hrow, rfl, rfl⟩, hkept⟩
    exact ⟨row, List.mem_filter.mpr ⟨hrow, decide_eq_true hkept⟩, rfl, rfl⟩

theorem KeyTables.hasDevice_commit {t : KeyTables} {tx : ℕ} {v : Id} {d : ℤ} :
    (t.commit tx).HasDevice v d ↔ t.HasDevice v d ∧ (v, d) ∉ (t.revocations tx).devices := by
  constructor
  · rintro ⟨row, hrow, rfl, rfl⟩
    obtain ⟨hrow, hkept⟩ := List.mem_filter.mp hrow
    exact ⟨⟨row, hrow, rfl, rfl⟩, of_decide_eq_true hkept⟩
  · rintro ⟨⟨row, hrow, rfl, rfl⟩, hkept⟩
    exact ⟨row, List.mem_filter.mpr ⟨hrow, decide_eq_true hkept⟩, rfl, rfl⟩

/-- What a statement does to bundles and devices. -/
inductive RegistryEffect (fault : Option DbError) (t : KeyTables) (r : KeyOp) (x : KeyOp.Reply r)
    (t' : KeyTables) : Prop where
  | kept (bundles : t'.preKeyBundles = t.preKeyBundles) (devices : t'.devices = t.devices)
      (phase : (∀ name, r.registers = some name → fault = none ∧ name.length ≤ 64) →
        ∀ p, UploadPhase.seen p r x = p)
  | written (u : Id) (bundle : Bundle) (request : r = .upsertPreKeyBundle u bundle)
      (phase : ∀ p, UploadPhase.seen p r x = .written u bundle.deviceId)
      (tables : t' = t.upsertPreKeyBundle u bundle)
  | registered (u : Id) (d : ℤ) (name : Text) (request : r = .registerDevice u d name)
      (short : name.length ≤ 64)
      (phase : ∀ v d', UploadPhase.seen (.written v d') r x = .registered v d')
      (tables : t' = (t.registerDevice u d name).2)
  | committed (tx : ℕ) (request : r = .commit tx) (works : fault = none) (phase : ∀ p, UploadPhase.seen p r x = p)
      (tables : t' = t.commit tx)

theorem answerKeys_registry (fault : Option DbError) (r : KeyOp) (t : KeyTables) :
    RegistryEffect fault t r (answerKeys fault r t).1 (answerKeys fault r t).2 := by
  cases fault with
  | some e =>
    obtain ⟨-, hbundles, hdevices⟩ := t.rolledBack_tables r.transaction
    refine .kept hbundles hdevices ?_
    intro hregisters p
    cases r with
    | registerDevice u d name => exact nomatch (hregisters name rfl).1
    | _ => cases p <;> rfl
  | none =>
    cases r with
    | upsertPreKeyBundle u bundle => exact .written u bundle rfl (fun p => by cases p <;> rfl) rfl
    | registerDevice u d name =>
      by_cases hname : name.length ≤ 64
      · refine .registered u d name rfl hname ?_ rfl
        intro v d'
        obtain ⟨row, hrow⟩ : ∃ row, (t.registerDevice u d name).1 = .ok row := by
          rw [KeyTables.registerDevice, if_neg (by omega)]
          split <;> exact ⟨_, rfl⟩
        show UploadPhase.seen (.written v d') (.registerDevice u d name) (t.registerDevice u d name).1 = _
        rw [hrow]
        rfl
      · have herror : t.registerDevice u d name = (.error (.tooLong 64), t) := by
          rw [KeyTables.registerDevice, if_pos (by omega)]
        refine .kept ?_ ?_ fun hregisters => absurd (hregisters name rfl).2 hname
        · exact congrArg (fun x => x.2.preKeyBundles) herror
        · exact congrArg (fun x => x.2.devices) herror
    | commit tx => exact .committed tx rfl rfl (fun p => by cases p <;> rfl) rfl
    | insertOneTimePreKey u d key =>
      simp only [answerKeys, carryOut, KeyTables.insertOneTimePreKey]
      split <;> exact .kept rfl rfl fun _ p => by cases p <;> rfl
    | consumeOneTimePreKey u =>
      simp only [answerKeys, carryOut, KeyTables.consumeOneTimePreKey]
      split <;> exact .kept rfl rfl fun _ p => by cases p <;> rfl
    | deletePreKeyBundle tx u d =>
      obtain ⟨-, hbundles, hdevices⟩ := t.deletePreKeyBundle_kept tx u d
      exact .kept hbundles hdevices fun _ p => by cases p <;> rfl
    | deleteDevice tx u d =>
      obtain ⟨-, hbundles, hdevices⟩ := t.deleteDevice_kept tx u d
      exact .kept hbundles hdevices fun _ p => by cases p <;> rfl
    | _ => exact .kept rfl rfl fun _ p => by cases p <;> rfl

namespace KeyServer

/-- What the statements carried out have done for upload `i`. -/
abbrev uploadPhase (i : ℕ) (l : List KeyEntry) : UploadPhase :=
  Threads.Pool.learned UploadPhase.seen .begun i l

/-- Every upload registers its device: the name fits its column, and the statement does not
fail.  A revocation commits when no upload is between its two writes of a row that it
deletes, and it deletes the device's rows in both tables or in neither. -/
def Orderly (s : KeyServer) : KeyEvent → Prop
  | .statement i fault =>
      (∀ name ∈ (Threads.Pool.waiting s i).bind KeyOp.registers, fault = none ∧ name.length ≤ 64) ∧
      (fault = none → ∀ tx ∈ (Threads.Pool.waiting s i).bind KeyOp.commits,
        ∀ x ∈ (s.state.revocations tx).bundles ++ (s.state.revocations tx).devices,
          (x ∈ (s.state.revocations tx).bundles ∧ x ∈ (s.state.revocations tx).devices) ∧
          ∀ j < s.tasks.length, uploadPhase j s.trace ≠ .written x.1 x.2)
  | _ => True

instance (s : KeyServer) : ∀ e, Decidable (s.Orderly e)
  | .statement i fault => inferInstanceAs (Decidable
      ((∀ name ∈ (Threads.Pool.waiting s i).bind KeyOp.registers, fault = none ∧ name.length ≤ 64) ∧
      (fault = none → ∀ tx ∈ (Threads.Pool.waiting s i).bind KeyOp.commits,
        ∀ x ∈ (s.state.revocations tx).bundles ++ (s.state.revocations tx).devices,
          (x ∈ (s.state.revocations tx).bundles ∧ x ∈ (s.state.revocations tx).devices) ∧
          ∀ j < s.tasks.length, uploadPhase j s.trace ≠ .written x.1 x.2)))
  | .upload _ _ => isTrue trivial
  | .fetch _ _ => isTrue trivial
  | .revoke _ _ => isTrue trivial
  | .others _ => isTrue trivial

/-! ## Uploads under way -/

theorem ReachedBy.visiting {P : KeyServer → KeyEvent → Prop} {s : KeyServer} (hs : s.ReachedBy P) :
    Threads.Pool.Visiting UploadPhase.Fits UploadPhase.seen .begun s := by
  obtain ⟨accounts, hreach⟩ := hs
  refine hreach.invariant (Threads.Pool.Visiting.idle _) ?_
  intro s e hs _
  exact hs.next fun p hp => UploadPhase.visits_start hp

/-- A request that is not one of the server's has written nothing. -/
theorem ReachedBy.lt_of_written {P : KeyServer → KeyEvent → Prop} {s : KeyServer}
    (hs : s.ReachedBy P) {j : ℕ} (hj : uploadPhase j s.trace ≠ .begun) : j < s.tasks.length := by
  by_contra hge
  refine hj (Threads.Pool.learned_none fun e he heq => ?_)
  have hlt := hs.visiting.started e he
  omega

/-! ## The two tables -/

/-- There is a bundle where there is a device, except where an upload is between its two
writes; it has written the bundle. -/
structure InOrder (t : KeyTables) (l : List KeyEntry) : Prop where
  written : ∀ j u d, uploadPhase j l = .written u d → t.HasBundle u d
  agree : ∀ u d, (∀ j, uploadPhase j l ≠ .written u d) → (t.HasBundle u d ↔ t.HasDevice u d)
  registers : ∀ j u d, uploadPhase j l ≠ .failed u d

theorem InOrder.of_tables {t t' : KeyTables} {l : List KeyEntry} (h : InOrder t l)
    (hb : t'.preKeyBundles = t.preKeyBundles) (hd : t'.devices = t.devices) : InOrder t' l where
  written j u d hj := by
    obtain ⟨row, hrow, hx⟩ := h.written j u d hj
    exact ⟨row, hb ▸ hrow, hx⟩
  agree u d hj := by
    rw [KeyTables.HasBundle, KeyTables.HasDevice, hb, hd]
    exact h.agree u d hj
  registers := h.registers

/-- A statement that moves no phase. -/
theorem InOrder.same_phases {t : KeyTables} {l : List KeyEntry} (h : InOrder t l) {e : KeyEntry}
    (hphase : ∀ j, uploadPhase j (e :: l) = uploadPhase j l) : InOrder t (e :: l) where
  written j u d hj := h.written j u d (hphase j ▸ hj)
  agree u d hj := h.agree u d fun j => hphase j ▸ hj j
  registers j := hphase j ▸ h.registers j

/-- An upload's first write. -/
theorem InOrder.upsert {t : KeyTables} {l : List KeyEntry} (h : InOrder t l) {i : ℕ} {u : Id}
    {bundle : Bundle} {e : KeyEntry} (hi : uploadPhase i l = .begun)
    (hphase : ∀ j, uploadPhase j (e :: l) =
      if i = j then .written u bundle.deviceId else uploadPhase j l) :
    InOrder (t.upsertPreKeyBundle u bundle) (e :: l) where
  written j v d hj := by
    rw [hphase] at hj
    rw [KeyTables.hasBundle_upsert]
    split at hj
    · cases hj
      exact .inr ⟨rfl, rfl⟩
    · exact .inl (h.written j v d hj)
  agree v d hj := by
    have hother : ¬ (v = u ∧ d = bundle.deviceId) := by
      rintro ⟨rfl, rfl⟩
      have hown := hj i
      rw [hphase, if_pos rfl] at hown
      exact hown rfl
    have hbefore : ∀ j, uploadPhase j l ≠ .written v d := by
      intro j
      have hnow := hj j
      rw [hphase] at hnow
      by_cases hij : i = j
      · rw [← hij, hi]
        exact nofun
      · rwa [if_neg hij] at hnow
    rw [KeyTables.hasBundle_upsert, or_iff_left hother, h.agree v d hbefore, KeyTables.HasDevice,
      KeyTables.HasDevice, (t.upsertPreKeyBundle_kept u bundle).2.1]
  registers j v d := by
    rw [hphase]
    split
    · exact nofun
    · exact h.registers j v d

/-- Its second write. -/
theorem InOrder.register {t : KeyTables} {l : List KeyEntry} (h : InOrder t l) {i : ℕ} {u : Id}
    {d : ℤ} {name : Text} (hname : name.length ≤ 64) {e : KeyEntry}
    (hi : uploadPhase i l = .written u d)
    (hphase : ∀ j, uploadPhase j (e :: l) = if i = j then .registered u d else uploadPhase j l) :
    InOrder (t.registerDevice u d name).2 (e :: l) where
  written j v d' hj := by
    have hbundles := (t.registerDevice_kept u d name).2.1
    rw [hphase] at hj
    rw [KeyTables.HasBundle, hbundles]
    split at hj
    · cases hj
    · exact h.written j v d' hj
  agree v d' hj := by
    rw [KeyTables.hasDevice_register hname, KeyTables.HasBundle,
      (t.registerDevice_kept u d name).2.1]
    by_cases hown : v = u ∧ d' = d
    · obtain ⟨rfl, rfl⟩ := hown
      exact ⟨fun _ => .inr ⟨rfl, rfl⟩, fun _ => h.written i v d' hi⟩
    · have hbefore : ∀ j, uploadPhase j l ≠ .written v d' := by
        intro j
        have hnow := hj j
        rw [hphase] at hnow
        by_cases hij : i = j
        · rw [← hij, hi]
          intro heq
          cases heq
          exact hown ⟨rfl, rfl⟩
        · rwa [if_neg hij] at hnow
      rw [or_iff_left hown]
      exact h.agree v d' hbefore
  registers j v d' := by
    rw [hphase]
    split
    · exact nofun
    · exact h.registers j v d'

/-- A revocation that commits between uploads. -/
theorem InOrder.commit {t : KeyTables} {l : List KeyEntry} (h : InOrder t l) {tx : ℕ}
    (hboth : ∀ x ∈ (t.revocations tx).bundles ++ (t.revocations tx).devices,
      (x ∈ (t.revocations tx).bundles ∧ x ∈ (t.revocations tx).devices) ∧
        ∀ j, uploadPhase j l ≠ .written x.1 x.2) : InOrder (t.commit tx) l where
  written j u d hj := by
    refine KeyTables.hasBundle_commit.mpr ⟨h.written j u d hj, ?_⟩
    intro hx
    exact (hboth (u, d) (List.mem_append_left _ hx)).2 j hj
  agree u d hj := by
    rw [KeyTables.hasBundle_commit, KeyTables.hasDevice_commit, h.agree u d hj]
    have hiff : (u, d) ∈ (t.revocations tx).bundles ↔ (u, d) ∈ (t.revocations tx).devices :=
      ⟨fun hx => (hboth _ (List.mem_append_left _ hx)).1.2,
        fun hx => (hboth _ (List.mem_append_right _ hx)).1.1⟩
    rw [hiff]
  registers := h.registers

theorem ReachedBy.inOrder {s : KeyServer} (hs : s.ReachedBy Orderly) :
    InOrder s.state s.trace := by
  obtain ⟨accounts, hreach⟩ := hs
  induction hreach with
  | refl =>
    exact ⟨fun _ _ _ h => (nomatch h), fun _ _ _ => ⟨fun ⟨_, h, _⟩ => (nomatch h), fun ⟨_, h, _⟩ => nomatch h⟩,
      fun _ _ _ => nofun⟩
  | tail hprev hstep ih =>
    rename_i s t
    obtain ⟨e, ⟨_, horderly⟩, rfl⟩ := hstep
    have hreached : s.ReachedBy Orderly := ⟨accounts, hprev⟩
    refine next_invariant (I := InOrder) ih ?_ fun _ => ⟨ih.written, ih.agree, ih.registers⟩
    rintro i fault r k rfl hp
    have hwaiting := Threads.Pool.waiting_eq hp
    obtain ⟨hregisters, hcommits⟩ := horderly
    rw [hwaiting] at hregisters hcommits
    have hfits : UploadPhase.may (uploadPhase i s.trace) r := hreached.visiting.here hp
    -- only the phase of the request that is answered moves
    have hcons : ∀ j, uploadPhase j (s.entry (answerKeys fault) i r :: s.trace) =
        if i = j then UploadPhase.seen (uploadPhase j s.trace) r (answerKeys fault r s.state).1
        else uploadPhase j s.trace := fun j => rfl
    cases answerKeys_registry fault r s.state with
    | kept hbundles hdevices hphase =>
      refine InOrder.of_tables (ih.same_phases ?_) hbundles hdevices
      intro j
      rw [hcons, hphase hregisters, ite_self]
    | written u bundle hr hphase htables =>
      rw [htables]
      refine ih.upsert (i := i) (by rw [hr] at hfits; exact hfits) ?_
      intro j
      rw [hcons, hphase]
    | registered u d name hr hshort hphase htables =>
      rw [hr] at hfits
      have hwritten : uploadPhase i s.trace = .written u d := hfits
      rw [htables]
      refine ih.register hshort hwritten ?_
      intro j
      rw [hcons]
      split
      · rename_i hij
        rw [← hij, hwritten, hphase]
      · rfl
    | committed tx hr hworks hphase htables =>
      -- a commit moves no phase, and comes when no other upload is between its two writes
      have hsame : ∀ j, uploadPhase j (s.entry (answerKeys fault) i r :: s.trace) =
          uploadPhase j s.trace := by
        intro j
        rw [hcons, hphase, ite_self]
      rw [htables]
      refine InOrder.commit (ih.same_phases hsame) ?_
      intro x hx
      obtain ⟨hboth, hbetween⟩ := hcommits hworks tx (by rw [hr]; rfl) x hx
      refine ⟨hboth, fun j hj => ?_⟩
      rw [hsame] at hj
      exact hbetween j (hreached.lt_of_written (by rw [hj]; exact nofun)) hj

/-- No request is under way. -/
def AtRest (s : KeyServer) : Prop := ∀ i, Threads.Pool.waiting s i = none

end KeyServer

/-- There is a bundle exactly where there is a device. -/
def KeyTables.InStep (t : KeyTables) : Prop := ∀ u d, t.HasBundle u d ↔ t.HasDevice u d

/-- The tables after the statement of an entry. -/
def KeyEntry.after (e : KeyEntry) : KeyTables :=
  match e.reply with
  | .error _ => e.before
  | .ok _ => (carryOut e.request e.before).2

/-- The statement has changed none of the keys and devices. -/
def KeyEntry.Unchanged (e : KeyEntry) : Prop :=
  e.after.preKeyBundles = e.before.preKeyBundles ∧
    e.after.oneTimePreKeys = e.before.oneTimePreKeys ∧ e.after.devices = e.before.devices

namespace KeyServer

/-- An upload that was answered with an error has changed nothing. -/
def FailsClean (s : KeyServer) : Prop :=
  ∀ i err, s.tasks[i]? = some (.throw err) → ∀ e : KeyEntry, e ∈ s.trace → e.task = i →
    e.request.ofUpload = true → e.Unchanged

/-- An upload that has changed anything has begun to write. -/
theorem ReachedBy.unchanged_or {P : KeyServer → KeyEvent → Prop} {s : KeyServer}
    (hs : s.ReachedBy P) : ∀ e : KeyEntry, e ∈ s.trace → e.request.ofUpload = true →
      e.Unchanged ∨ uploadPhase e.task s.trace ≠ .begun := by
  obtain ⟨accounts, hreach⟩ := hs
  induction hreach with
  | refl => exact fun _ h => nomatch h
  | tail hprev hstep ih =>
    rename_i s t
    obtain ⟨e, -, rfl⟩ := hstep
    have hvisiting := ReachedBy.visiting (P := P) ⟨accounts, hprev⟩
    refine next_invariant (I := fun _ l => ∀ e : KeyEntry, e ∈ l → e.request.ofUpload = true →
      e.Unchanged ∨ uploadPhase e.task l ≠ .begun) ih ?_ fun _ => ih
    rintro i fault r k rfl hp e' he' hupload
    have hfits : UploadPhase.may (uploadPhase i s.trace) r := hvisiting.here hp
    rcases List.mem_cons.mp he' with rfl | hold
    · have hown : uploadPhase i (s.entry (answerKeys fault) i r :: s.trace) =
          UploadPhase.seen (uploadPhase i s.trace) r (answerKeys fault r s.state).1 :=
        Threads.Pool.learned_own rfl _
      show KeyEntry.Unchanged ⟨i, s.state, r, (answerKeys fault r s.state).1⟩ ∨
        uploadPhase i (s.entry (answerKeys fault) i r :: s.trace) ≠ .begun
      rw [hown]
      cases r with
      | upsertPreKeyBundle u bundle =>
        cases fault with
        | some err => exact .inl ⟨rfl, rfl, rfl⟩
        | none => exact .inr nofun
      | insertOneTimePreKey u d key =>
        have hwritten : uploadPhase i s.trace = .written u d := hfits
        exact .inr (UploadPhase.seen_ne_begun (by rw [hwritten]; exact nofun) _ _)
      | registerDevice u d name =>
        have hwritten : uploadPhase i s.trace = .written u d := hfits
        exact .inr (UploadPhase.seen_ne_begun (by rw [hwritten]; exact nofun) _ _)
      | _ => cases hupload
    · refine (ih e' hold hupload).imp_right fun hphase => ?_
      rw [uploadPhase, Threads.Pool.learned]
      split
      · exact UploadPhase.seen_ne_begun hphase _ _
      · exact hphase

/-- **Bundles and devices stay in step, and a failed upload has changed nothing**, in every
run in which every upload registers its device and revocations commit between uploads. -/
theorem registry_in_step {s : KeyServer} (hs : s.ReachedBy Orderly) :
    (s.AtRest → s.state.InStep) ∧ s.FailsClean := by
  have horder := hs.inOrder
  constructor
  · intro hrest u d
    refine horder.agree u d fun j hj => ?_
    -- an upload between its two writes is under way
    have hlt : j < s.tasks.length := hs.lt_of_written (by rw [hj]; exact nofun)
    obtain ⟨p, hp⟩ : ∃ p, s.tasks[j]? = some p := ⟨_, List.getElem?_eq_getElem hlt⟩
    have hfits := hs.visiting.here hp
    have hrest := hrest j
    cases p with
    | pure x => exact hfits u d hj
    | throw err =>
      rcases hfits with hbegun | ⟨u', d', hfailed⟩
      · exact absurd (hj.symm.trans hbegun) nofun
      · exact absurd (hj.symm.trans hfailed) nofun
    | request r k =>
      rw [Threads.Pool.waiting_eq hp] at hrest
      cases hrest
  · rintro i err hi e he rfl hupload
    refine (hs.unchanged_or e he hupload).resolve_right fun hphase => ?_
    rcases hs.visiting.here hi with hbegun | ⟨u, d, hfailed⟩
    · exact hphase hbegun
    · exact horder.registers _ u d hfailed

end KeyServer

namespace Sample

/-- A device is registered, revoked and registered again. -/
def registeredAgain : List KeyEvent :=
  request 0 5 (upload 1 [keyA]) ++ request 1 6 (revoke 1) ++ request 2 5 (upload 1 [keyB])

/-- An upload under a name that is too long for its column. -/
def longName : KeyEvent :=
  .upload bearer
    { deviceId := 1, deviceName := List.replicate 65 'a', registrationId := 7
      identityKey := ['I'], spkId := 1, spkPublicKey := ['S']
      spkSignature := [], oneTimePreKeys := [] }

/-- It is answered with an error. -/
def misnamed : List KeyEvent := request 0 3 longName

end Sample

namespace KeyServer

theorem registered_again_in_step : (Sample.afterKeys Sample.registeredAgain).state.InStep ∧
    (Sample.afterKeys Sample.registeredAgain).FailsClean := by
  have hrest : (Sample.afterKeys Sample.registeredAgain).AtRest
    | 0 => rfl
    | 1 => rfl
    | 2 => rfl
    | _ + 3 => rfl
  have hstep := registry_in_step (s := Sample.afterKeys Sample.registeredAgain)
    (Sample.afterKeys_reached (by decide))
  exact ⟨hstep.1 hrest, hstep.2⟩

/-- The bundle is there, the device is not, and the upload has failed. -/
theorem misnamed_out_of_step : ¬ ∀ s : KeyServer, s.ReachedBy (fun _ _ => True) →
    (s.AtRest → s.state.InStep) ∧ s.FailsClean := by
  intro h
  have hreach : (Sample.afterKeys Sample.misnamed).ReachedBy fun _ _ => True :=
    Sample.afterKeys_reached (by decide)
  have hrest : (Sample.afterKeys Sample.misnamed).AtRest := by
    intro i
    cases i with
    | zero => rfl
    | succ i => rfl
  have hdevice := ((h _ hreach).1 hrest 0 1).mp (by decide)
  exact absurd hdevice (by decide)

end KeyServer
end Winkd.Server
