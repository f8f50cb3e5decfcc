import Winkd.KeyServer

/-!
# One-time keys, and the fetches that take them

What each statement does to `one_time_pre_keys` (`KeysEffect`), which upload a stored key
came from (`keySource`), and what a fetch has done when it answers: it has read a bundle
and, later, taken a one-time key of the same user, both for itself (`KeyServer.fetched`).
-/

namespace Winkd.Server

/-! ## What a statement does to the one-time keys -/

/-- What an entry of the trace says a statement did to the one-time keys. -/
inductive KeysEffect (t : KeyTables) (e : KeyEntry) (t' : KeyTables) : Prop where
  | kept (stored : e.stored = none) (consumed : e.consumed = none)
      (keys : t'.oneTimePreKeys = t.oneTimePreKeys)
  | stored (u : Id) (d : ℤ) (key : OneTimePreKey) (entry : e.stored = some (u, d, key))
      (consumed : e.consumed = none)
      (free : ∀ row ∈ t.oneTimePreKeys, row.userId = u → row.key.keyId ≠ key.keyId)
      (keys : t'.oneTimePreKeys = t.oneTimePreKeys ++ [⟨u, key⟩])
  | consumed (u : Id) (key : OneTimePreKey) (entry : e.consumed = some (u, key))
      (stored : e.stored = none) (mem : ⟨u, key⟩ ∈ t.oneTimePreKeys)
      (keys : t'.oneTimePreKeys = t.oneTimePreKeys.filter fun row => row ≠ ⟨u, key⟩)

theorem mem_oneTimePreKeysOf {t : KeyTables} {u : Id} {key : OneTimePreKey} :
    key ∈ t.oneTimePreKeysOf u ↔ ⟨u, key⟩ ∈ t.oneTimePreKeys := by
  simp only [KeyTables.oneTimePreKeysOf, List.mem_map, List.mem_filter, decide_eq_true_eq]
  constructor
  · rintro ⟨row, ⟨hrow, rfl⟩, rfl⟩
    exact hrow
  · intro h
    exact ⟨_, ⟨h, rfl⟩, rfl⟩

theorem KeyTables.rolledBack_tables (t : KeyTables) (tx : Option ℕ) :
    (t.rolledBack tx).oneTimePreKeys = t.oneTimePreKeys ∧
      (t.rolledBack tx).preKeyBundles = t.preKeyBundles ∧ (t.rolledBack tx).devices = t.devices := by
  cases tx with
  | none => exact ⟨rfl, rfl, rfl⟩
  | some tx => exact ⟨rfl, rfl, rfl⟩

/-- A failed statement says nothing about the keys. -/
theorem KeyEntry.of_fault (i : ℕ) (t : KeyTables) (r : KeyOp) (e : DbError) :
    KeyEntry.stored ⟨i, t, r, .error e⟩ = none ∧ KeyEntry.consumed ⟨i, t, r, .error e⟩ = none ∧
      KeyEntry.written ⟨i, t, r, .error e⟩ = none ∧ KeyEntry.read ⟨i, t, r, .error e⟩ = none ∧
      KeyEntry.revoked ⟨i, t, r, .error e⟩ = .begun := by
  cases r <;> exact ⟨rfl, rfl, rfl, rfl, rfl⟩

theorem KeyTables.registerDevice_kept (t : KeyTables) (u : Id) (d : ℤ) (name : Text) :
    (t.registerDevice u d name).2.oneTimePreKeys = t.oneTimePreKeys ∧
      (t.registerDevice u d name).2.preKeyBundles = t.preKeyBundles ∧
      (t.registerDevice u d name).2.revocations = t.revocations := by
  rw [registerDevice]
  split
  · exact ⟨rfl, rfl, rfl⟩
  · split <;> exact ⟨rfl, rfl, rfl⟩

theorem KeyTables.deletePreKeyBundle_kept (t : KeyTables) (tx : ℕ) (u : Id) (d : ℤ) :
    (t.deletePreKeyBundle tx u d).2.oneTimePreKeys = t.oneTimePreKeys ∧
      (t.deletePreKeyBundle tx u d).2.preKeyBundles = t.preKeyBundles ∧
      (t.deletePreKeyBundle tx u d).2.devices = t.devices := by
  rw [deletePreKeyBundle]
  split <;> exact ⟨rfl, rfl, rfl⟩

theorem KeyTables.deleteDevice_kept (t : KeyTables) (tx : ℕ) (u : Id) (d : ℤ) :
    (t.deleteDevice tx u d).2.oneTimePreKeys = t.oneTimePreKeys ∧
      (t.deleteDevice tx u d).2.preKeyBundles = t.preKeyBundles ∧
      (t.deleteDevice tx u d).2.devices = t.devices := by
  rw [deleteDevice]
  split <;> exact ⟨rfl, rfl, rfl⟩

theorem KeyTables.upsertPreKeyBundle_kept (t : KeyTables) (u : Id) (bundle : Bundle) :
    (t.upsertPreKeyBundle u bundle).oneTimePreKeys = t.oneTimePreKeys ∧
      (t.upsertPreKeyBundle u bundle).devices = t.devices ∧
      (t.upsertPreKeyBundle u bundle).revocations = t.revocations := by
  rw [upsertPreKeyBundle]
  split <;> exact ⟨rfl, rfl, rfl⟩

theorem KeyTables.mem_upsertPreKeyBundle {t : KeyTables} {u : Id} {bundle : Bundle} {row : BundleRow}
    (h : row ∈ (t.upsertPreKeyBundle u bundle).preKeyBundles) :
    row ∈ t.preKeyBundles ∨ row = ⟨u, bundle⟩ := by
  rw [upsertPreKeyBundle] at h
  split at h
  · obtain ⟨old, hold, heq⟩ := List.mem_map.mp h
    split at heq
    · exact .inr heq.symm
    · exact .inl (heq ▸ hold)
  · rcases List.mem_append.mp h with h | h
    · exact .inl h
    · exact .inr (List.mem_singleton.mp h)

/-- **Only two statements change the one-time keys**: an upload's insert, under an id that
is free, and a fetch's delete. -/
theorem answerKeys_keys (fault : Option DbError) (i : ℕ) (r : KeyOp) (t : KeyTables) :
    KeysEffect t ⟨i, t, r, (answerKeys fault r t).1⟩ (answerKeys fault r t).2 := by
  cases fault with
  | some e =>
    obtain ⟨hstored, hconsumed, -⟩ := KeyEntry.of_fault i t r e
    exact .kept hstored hconsumed (t.rolledBack_tables r.transaction).1
  | none =>
    cases r with
    | insertOneTimePreKey u d key =>
      simp only [answerKeys, carryOut, KeyTables.insertOneTimePreKey]
      split
      · exact .kept rfl rfl rfl
      · rename_i hany
        refine .stored u d key rfl rfl ?_ rfl
        intro row hrow hu hid
        exact hany (List.any_eq_true.mpr ⟨row, hrow, decide_eq_true ⟨hu, hid⟩⟩)
    | consumeOneTimePreKey u =>
      simp only [answerKeys, carryOut, KeyTables.consumeOneTimePreKey]
      split
      · exact .kept rfl rfl rfl
      · rename_i key hkey
        exact .consumed u key rfl rfl (mem_oneTimePreKeysOf.mp (List.argmin_mem hkey)) rfl
    | registerDevice u d name => exact .kept rfl rfl (t.registerDevice_kept u d name).1
    | deletePreKeyBundle tx u d => exact .kept rfl rfl (t.deletePreKeyBundle_kept tx u d).1
    | deleteDevice tx u d => exact .kept rfl rfl (t.deleteDevice_kept tx u d).1
    | upsertPreKeyBundle u bundle => exact .kept rfl rfl (t.upsertPreKeyBundle_kept u bundle).1
    | _ => exact .kept rfl rfl rfl

/-- A key that is stored was offered. -/
theorem KeyEntry.offered_of_stored {e : KeyEntry} {x : Id × ℤ × OneTimePreKey}
    (h : e.stored = some x) : e.offered = some x := by
  unfold KeyEntry.stored at h
  split at h
  · exact h
  · cases h

/-- A key that was taken was one of the user's the fetch takes from. -/
theorem KeyEntry.consumes_of_consumed {e : KeyEntry} {u : Id} {key : OneTimePreKey}
    (h : e.consumed = some (u, key)) : e.request.consumes = some u := by
  unfold KeyEntry.consumed at h
  split at h
  · cases h
    rfl
  · cases h

/-- The rows stored after a statement. -/
theorem KeysEffect.of_consumed {t t' : KeyTables} {e : KeyEntry} (h : KeysEffect t e t') {u : Id}
    {key : OneTimePreKey} (he : e.consumed = some (u, key)) : ⟨u, key⟩ ∈ t.oneTimePreKeys := by
  cases h with
  | kept _ hnone => exact absurd (hnone.symm.trans he) (by simp)
  | stored _ _ _ _ hnone => exact absurd (hnone.symm.trans he) (by simp)
  | consumed v key' hentry _ hmem _ =>
    cases Option.some.inj (hentry.symm.trans he)
    exact hmem

theorem KeysEffect.mem {t t' : KeyTables} {e : KeyEntry} (h : KeysEffect t e t')
    {row : OneTimePreKeyRow} (hrow : row ∈ t'.oneTimePreKeys) :
    row ∈ t.oneTimePreKeys ∨ ∃ d, e.stored = some (row.userId, d, row.key) := by
  cases h with
  | kept _ _ hkeys => exact .inl (hkeys ▸ hrow)
  | consumed u key _ _ _ hkeys =>
    rw [hkeys] at hrow
    exact .inl (List.mem_of_mem_filter hrow)
  | stored u d key hentry _ _ hkeys =>
    rw [hkeys, List.mem_append, List.mem_singleton] at hrow
    rcases hrow with hrow | rfl
    · exact .inl hrow
    · exact .inr ⟨d, hentry⟩

/-! ## Where a stored key came from -/

/-- The device and the key of the last insert under an id of a user. -/
def keySource (u : Id) (id : ℤ) (l : List KeyEntry) : Option (ℤ × OneTimePreKey) :=
  l.findSome? fun e => (e.stored.filter fun x => x.1 = u ∧ x.2.2.keyId = id).map Prod.snd

theorem keySource_cons (u : Id) (id : ℤ) (e : KeyEntry) (l : List KeyEntry) :
    keySource u id (e :: l) =
      ((e.stored.filter fun x => x.1 = u ∧ x.2.2.keyId = id).map Prod.snd).or (keySource u id l) := by
  rw [keySource, List.findSome?_cons]
  cases (e.stored.filter fun x => x.1 = u ∧ x.2.2.keyId = id).map Prod.snd <;> rfl

/-- The source is an insert of the trace. -/
theorem mem_of_keySource {u : Id} {id : ℤ} {l : List KeyEntry} {d : ℤ} {key : OneTimePreKey}
    (h : keySource u id l = some (d, key)) : ∃ e ∈ l, e.stored = some (u, d, key) := by
  obtain ⟨e, he, hx⟩ := List.exists_of_findSome?_eq_some h
  obtain ⟨x, hx, heq⟩ := Option.map_eq_some_iff.mp hx
  obtain ⟨hstored, hid⟩ := Option.filter_eq_some_iff.mp hx
  obtain ⟨hu, -⟩ := of_decide_eq_true hid
  refine ⟨e, he, ?_⟩
  rw [hstored, ← hu, ← heq]

/-- Nothing is inserted under the id of a stored key. -/
theorem keySource_kept {t : KeyTables} {row : OneTimePreKeyRow} (hrow : row ∈ t.oneTimePreKeys)
    (fault : Option DbError) (i : ℕ) (r : KeyOp) (l : List KeyEntry) :
    keySource row.userId row.key.keyId (⟨i, t, r, (answerKeys fault r t).1⟩ :: l) =
      keySource row.userId row.key.keyId l := by
  have heffect := answerKeys_keys fault i r t
  rw [keySource_cons]
  cases heffect with
  | kept hstored => rw [hstored]; rfl
  | consumed _ _ _ hstored => rw [hstored]; rfl
  | stored u d key hentry _ hfree _ =>
    have hother : ¬ (u = row.userId ∧ key.keyId = row.key.keyId) :=
      fun ⟨hu, hid⟩ => hfree row hrow hu.symm hid.symm
    rw [hentry, Option.filter_some_neg (by simpa using hother)]
    rfl

theorem keySource_new {e : KeyEntry} {u : Id} {d : ℤ} {key : OneTimePreKey}
    (he : e.stored = some (u, d, key)) (l : List KeyEntry) :
    keySource u key.keyId (e :: l) = some (d, key) := by
  rw [keySource_cons, he, Option.filter_some_pos (by simp)]
  rfl

/-- Every stored key was inserted, and nothing was inserted under its id since. -/
def Sourced (t : KeyTables) (l : List KeyEntry) : Prop :=
  ∀ row ∈ t.oneTimePreKeys, ∃ d, keySource row.userId row.key.keyId l = some (d, row.key)

theorem Sourced.statement {t : KeyTables} {l : List KeyEntry} (h : Sourced t l)
    (fault : Option DbError) (i : ℕ) (r : KeyOp) : Sourced (answerKeys fault r t).2
      (⟨i, t, r, (answerKeys fault r t).1⟩ :: l) := by
  intro row hrow
  rcases (answerKeys_keys fault i r t).mem hrow with hold | ⟨d, hnew⟩
  · rw [keySource_kept hold]
    exact h row hold
  · exact ⟨d, keySource_new hnew l⟩

namespace KeyServer

/-! ## What a fetch has done -/

/-- How far a fetch has come. -/
inductive FetchPhase where
  | begun
  | read (u : Id) (bundle : Bundle)
  | done (u : Id) (bundle : Bundle) (oneTimePreKey : Option OneTimePreKey)

namespace FetchPhase

/-- A bundle is read first, and one time; a one-time key is taken for the same user. -/
def may : FetchPhase → KeyOp → Prop
  | p, .selectPreKeyBundle _ => p = .begun
  | p, .consumeOneTimePreKey u => ∃ bundle, p = .read u bundle
  | _, _ => True

def seen : FetchPhase → (r : KeyOp) → KeyOp.Reply r → FetchPhase
  | _, .selectPreKeyBundle u, .ok (some bundle) => .read u bundle
  | .read u bundle, .consumeOneTimePreKey v, .ok key =>
      if u = v then .done u bundle key else .read u bundle
  | p, _, _ => p

/-- A fetch answers with what it has read and taken. -/
def Answers (p : FetchPhase) : KeyResponse → Prop
  | .bundle bundle key => ∃ u, p = .done u bundle key
  | .ok => True

end FetchPhase
end KeyServer

/-- The statement is one of a fetch alone. -/
def KeyOp.ofFetch : KeyOp → Bool
  | .selectPreKeyBundle _ => true
  | .consumeOneTimePreKey _ => true
  | _ => false

/-! ### The requests -/

theorem asks_statement {P : KeyOp → Prop} {r : KeyOp} (hr : P r) : (statement r).Asks P := by
  refine Prog.asks_bind (Prog.asks_ask hr) ?_
  intro reply
  cases reply with
  | error e => exact trivial
  | ok x => exact trivial

theorem asks_ofOption {P : KeyOp → Prop} {α : Type} (e : AppError) (o : Option α) :
    (Prog.ofOption e o : KeyHandler α).Asks P := by
  cases o with
  | none => exact trivial
  | some a => exact trivial

theorem asks_requireKeyAuth {P : KeyOp → Prop} (hP : ∀ token, P (.findUserBySession token))
    (headers : Headers) : (requireKeyAuth headers).Asks P := by
  refine Prog.asks_bind (asks_ofOption _ _) fun token => ?_
  exact Prog.asks_bind (asks_statement (hP token)) fun user => asks_ofOption _ _

theorem asks_insertOneTimePreKeys {P : KeyOp → Prop} {u : Id} {d : ℤ}
    (hP : ∀ key, P (.insertOneTimePreKey u d key)) (keys : List OneTimePreKey) :
    (insertOneTimePreKeys u d keys).Asks P := by
  induction keys with
  | nil => exact trivial
  | cons key keys ih => exact Prog.asks_bind (Prog.asks_ask (hP key)) fun _ => ih

/-- A revocation issues no statement of another request. -/
theorem asks_revokeDeviceRows {P : KeyOp → Prop}
    (hP : ∀ r : KeyOp, r.ofFetch = false ∧ r.ofUpload = false → P r) (u : Id) (d : ℤ) :
    (revokeDeviceRows u d).Asks P := by
  refine Prog.asks_bind (asks_statement (hP _ ⟨rfl, rfl⟩)) fun tx => ?_
  refine Prog.asks_bind (asks_statement (hP _ ⟨rfl, rfl⟩)) fun _ => ?_
  refine Prog.asks_bind (asks_statement (hP _ ⟨rfl, rfl⟩)) fun _ => ?_
  exact Prog.asks_bind (asks_statement (hP _ ⟨rfl, rfl⟩)) fun _ => Prog.asks_pure _

namespace KeyServer
namespace FetchPhase

/-- What is not a fetch's does not move its phase. -/
theorem along_asks {α : Type} {p : KeyHandler α} (hp : p.Asks fun r => r.ofFetch = false)
    {V : FetchPhase → α → Prop} {d : FetchPhase} (hV : ∀ a, V d a) : p.Along may seen V d := by
  induction p with
  | pure a => exact hV a
  | throw e => trivial
  | request r k ih =>
    obtain ⟨hr, hk⟩ := hp
    have hmay : may d r := by cases r <;> trivial
    have hseen : ∀ x, seen d r x = d := by
      intro x
      cases r <;> first | rfl | cases hr
    refine ⟨hmay, ?_⟩
    intro x
    rw [hseen x]
    exact ih x (hk x)

theorem along_upload (headers : Headers) (body : PreKeyBundleUpload) :
    (uploadPreKeyBundle headers body).Along may seen Answers .begun := by
  rw [uploadPreKeyBundle, Prog.along_bind]
  refine along_asks (asks_requireKeyAuth (fun _ => rfl) headers) fun user => ?_
  rw [Prog.along_bind]
  refine along_asks (asks_statement rfl) fun _ => ?_
  rw [Prog.along_bind]
  refine along_asks (asks_insertOneTimePreKeys (fun _ => rfl) _) fun _ => ?_
  rw [Prog.along_bind]
  refine along_asks (asks_statement rfl) fun _ => ?_
  rw [Prog.along_bind]
  exact along_asks (Prog.asks_bind (Prog.asks_ask rfl) fun _ => Prog.asks_pure _) fun _ => trivial

theorem along_revoke (headers : Headers) (deviceId : ℤ) :
    (revokeDevice headers deviceId).Along may seen Answers .begun := by
  rw [revokeDevice, Prog.along_bind]
  refine along_asks (asks_requireKeyAuth (fun _ => rfl) headers) fun user => ?_
  rw [Prog.along_bind]
  refine along_asks (asks_revokeDeviceRows (fun r hr => hr.1) user.id deviceId) fun removed => ?_
  cases removed with
  | false => exact trivial
  | true =>
    show Prog.Along may seen Answers .begun (auditDevice _ >>= fun _ => pure KeyResponse.ok)
    rw [Prog.along_bind]
    exact along_asks (Prog.asks_bind (Prog.asks_ask rfl) fun _ => Prog.asks_pure _) fun _ => trivial

theorem along_fetch (headers : Headers) (winkdId : Text) :
    (fetchPreKeyBundle headers winkdId).Along may seen Answers .begun := by
  rw [fetchPreKeyBundle, Prog.along_bind]
  refine along_asks (asks_requireKeyAuth (fun _ => rfl) headers) fun _ => ?_
  rw [Prog.along_bind]
  refine along_asks (asks_statement rfl) fun found => ?_
  simp only [Prog.along_bind, Prog.along_ofOption]
  intro target _
  refine ⟨rfl, ?_⟩
  intro selected
  cases selected with
  | error e => trivial
  | ok selected =>
    cases selected with
    | none =>
      intro _ hbundle
      cases hbundle
    | some bundle =>
      intro _ hbundle
      cases hbundle
      refine ⟨⟨bundle, rfl⟩, ?_⟩
      intro taken
      cases taken with
      | error e => trivial
      | ok key => exact ⟨target.id, if_pos rfl⟩

/-- Every request goes along. -/
theorem along_start {s : KeyServer} {e : KeyEvent} {p : KeyHandler KeyResponse}
    (he : s.act e = .start p) : p.Along may seen Answers .begun := by
  cases e with
  | upload headers body => exact Threads.Act.start.inj he ▸ along_upload headers body
  | fetch headers winkdId => exact Threads.Act.start.inj he ▸ along_fetch headers winkdId
  | revoke headers deviceId => exact Threads.Act.start.inj he ▸ along_revoke headers deviceId
  | statement i fault => cases he
  | others accounts => cases he

end FetchPhase

/-- What the statements carried out have done for request `i`. -/
abbrev phase (i : ℕ) (l : List KeyEntry) : FetchPhase :=
  Threads.Pool.learned FetchPhase.seen .begun i l

/-- A phase moves with the entries of its own request, from reading to taking. -/
theorem phase_cons (i : ℕ) (e : KeyEntry) (l : List KeyEntry) :
    phase i (e :: l) = phase i l ∨
      (e.task = i ∧ ∃ u bundle, e.read = some (u, bundle) ∧ phase i (e :: l) = .read u bundle) ∨
      (e.task = i ∧ ∃ u bundle key, (∀ k, key = some k → e.consumed = some (u, k)) ∧
        phase i l = .read u bundle ∧ phase i (e :: l) = .done u bundle key) := by
  by_cases he : e.task = i
  · have hcons : phase i (e :: l) = FetchPhase.seen (phase i l) e.request e.reply :=
      Threads.Pool.learned_own he l
    rw [hcons]
    obtain ⟨j, t, r, x⟩ := e
    cases r with
    | selectPreKeyBundle u =>
      cases x with
      | error err => exact .inl rfl
      | ok selected =>
        cases selected with
        | none => exact .inl rfl
        | some bundle => exact .inr (.inl ⟨he, u, bundle, rfl, rfl⟩)
    | consumeOneTimePreKey v =>
      cases hphase : phase i l with
      | begun => exact .inl rfl
      | done u bundle key => exact .inl rfl
      | read u bundle =>
        cases x with
        | error err => exact .inl rfl
        | ok key =>
          by_cases huv : u = v
          · subst huv
            refine .inr (.inr ⟨he, u, bundle, key, ?_, rfl, if_pos rfl⟩)
            rintro k rfl
            rfl
          · exact .inl (if_neg huv)
    | _ => exact .inl rfl
  · exact .inl (Threads.Pool.learned_other he l)

theorem phase_of_reading {e : KeyEntry} {u : Id} {bundle : Bundle} (he : e.read = some (u, bundle))
    (l : List KeyEntry) : phase e.task (e :: l) = .read u bundle := by
  have hcons : phase e.task (e :: l) = FetchPhase.seen (phase e.task l) e.request e.reply :=
    Threads.Pool.learned_own rfl l
  rw [hcons]
  unfold KeyEntry.read at he
  split at he
  · cases he
    rfl
  · cases he

/-- What a request has read is in the trace. -/
theorem mem_of_phase_read {i : ℕ} {l : List KeyEntry} {u : Id} {bundle : Bundle}
    (h : phase i l = .read u bundle) : ∃ e ∈ l, e.task = i ∧ e.read = some (u, bundle) := by
  induction l with
  | nil => cases h
  | cons e l ih =>
    rcases phase_cons i e l with hsame | ⟨he, v, bundle', hread, hcons⟩ | ⟨-, _, _, _, -, -, hcons⟩
    · obtain ⟨e', he', h'⟩ := ih (hsame ▸ h)
      exact ⟨e', List.mem_cons_of_mem _ he', h'⟩
    · rw [hcons] at h
      cases h
      exact ⟨e, List.mem_cons_self, he, hread⟩
    · rw [hcons] at h
      cases h

/-- What a request has taken is in the trace, after what it has read. -/
theorem mem_of_phase_done {i : ℕ} {l : List KeyEntry} {u : Id} {bundle : Bundle} {key : OneTimePreKey}
    (h : phase i l = .done u bundle (some key)) :
    ∃ l₁ e l₂, l = l₁ ++ e :: l₂ ∧ e.task = i ∧ e.consumed = some (u, key) ∧
      phase i l₂ = .read u bundle := by
  induction l with
  | nil => cases h
  | cons e l ih =>
    rcases phase_cons i e l with hsame | ⟨-, _, _, -, hcons⟩ | ⟨he, v, bundle', key', hkey, hread, hcons⟩
    · obtain ⟨l₁, e', l₂, rfl, h'⟩ := ih (hsame ▸ h)
      exact ⟨e :: l₁, e', l₂, rfl, h'⟩
    · rw [hcons] at h
      cases h
    · rw [hcons] at h
      cases h
      exact ⟨[], e, l, rfl, he, hkey key rfl, hread⟩

/-! ## What an answer says -/

variable {P : KeyServer → KeyEvent → Prop}

theorem ReachedBy.yields {s : KeyServer} (hs : s.ReachedBy P) :
    Threads.Pool.Yields FetchPhase.may FetchPhase.seen .begun FetchPhase.Answers s := by
  obtain ⟨accounts, hreach⟩ := hs
  refine hreach.invariant (Threads.Pool.Yields.idle _) ?_
  intro s e hs _
  exact hs.next fun p hp => FetchPhase.along_start hp

/-- **What a fetch answers with**, it has read and taken itself, for one user. -/
theorem ReachedBy.fetched {s : KeyServer} (hs : s.ReachedBy P) {i : ℕ} {bundle : Bundle}
    {key : Option OneTimePreKey} (hi : s.tasks[i]? = some (.pure (.bundle bundle key))) :
    ∃ u, phase i s.trace = .done u bundle key := hs.yields.ended hi

/-- A request reads one bundle: what it has read is what its phase says. -/
theorem ReachedBy.phase_of_read {s : KeyServer} (hs : s.ReachedBy P) : ∀ e : KeyEntry, e ∈ s.trace →
    ∀ u bundle, e.read = some (u, bundle) → phase e.task s.trace = .read u bundle ∨
      ∃ key, phase e.task s.trace = .done u bundle key := by
  have hreach := hs
  obtain ⟨accounts, hreach⟩ := hreach
  clear hs
  induction hreach with
  | refl => exact fun _ h => nomatch h
  | tail hprev hstep ih =>
    rename_i s t
    obtain ⟨e, he, rfl⟩ := hstep
    have hyields := ReachedBy.yields (P := P) ⟨accounts, hprev⟩
    refine next_invariant (I := fun _ l => ∀ e : KeyEntry, e ∈ l → ∀ u bundle,
      e.read = some (u, bundle) → phase e.task l = .read u bundle ∨
        ∃ key, phase e.task l = .done u bundle key) ih ?_ fun _ => ih
    rintro i fault r k rfl hp e' he' u bundle hread
    rcases List.mem_cons.mp he' with rfl | hold
    · exact .inl (phase_of_reading hread s.trace)
    · have hold := ih e' hold u bundle hread
      rcases phase_cons e'.task (s.entry (answerKeys fault) i r) s.trace with
        hsame | ⟨htask, v, b, hread', -⟩ | ⟨-, v, b, key, -, hbefore, hphase⟩
      · exact hsame.symm ▸ hold
      · -- a request that has read a bundle reads no other
        have hmay := hyields.may_issue hp
        have htask : i = e'.task := htask
        rw [htask] at hmay
        have hbegun : phase e'.task s.trace = .begun := by
          cases r with
          | selectPreKeyBundle w => exact hmay
          | _ => cases hread'
        rcases hold with hold | ⟨key, hold⟩
        · rw [hbegun] at hold
          cases hold
        · rw [hbegun] at hold
          cases hold
      · rcases hold with hold | ⟨key', hold⟩
        · rw [hbefore] at hold
          cases hold
          exact .inr ⟨key, hphase⟩
        · rw [hbefore] at hold
          cases hold

end KeyServer
end Winkd.Server
