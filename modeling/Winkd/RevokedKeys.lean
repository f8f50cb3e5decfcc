import Winkd.KeyFetches

/-!
# The keys of a revoked device

A revocation deletes the device's bundle and its row in `devices`.  It does not delete
the device's one-time keys: a later fetch answers with them, next to the bundle of
another device.  It does not delete a bundle that is written after it has looked for one
either.

Where a revocation commits when no key of the device is left but what it deletes
(`KeyServer.Emptied`), a fetch that begins later answers with nothing that the device
uploaded before.
-/

namespace Winkd.Server

/-! ## Bundles -/

/-- The bundles after a statement: those there were, but for what a revocation deletes,
and what an upload has written. -/
theorem mem_bundles_answerKeys {fault : Option DbError} {i : ℕ} {r : KeyOp} {t : KeyTables}
    {row : BundleRow} (h : row ∈ (answerKeys fault r t).2.preKeyBundles) :
    (row ∈ t.preKeyBundles ∧ (row.userId, row.bundle.deviceId) ∉
        (KeyEntry.revoked ⟨i, t, r, (answerKeys fault r t).1⟩).bundles) ∨
      KeyEntry.written ⟨i, t, r, (answerKeys fault r t).1⟩ = some (row.userId, row.bundle) := by
  cases fault with
  | some e =>
    refine .inl ⟨(t.rolledBack_tables r.transaction).2.1 ▸ h, ?_⟩
    show _ ∉ (KeyEntry.revoked ⟨i, t, r, .error e⟩).bundles
    rw [(KeyEntry.of_fault i t r e).2.2.2.2]
    exact List.not_mem_nil
  | none =>
    cases r with
    | upsertPreKeyBundle u bundle =>
      rcases KeyTables.mem_upsertPreKeyBundle h with hold | rfl
      · exact .inl ⟨hold, List.not_mem_nil⟩
      · exact .inr rfl
    | commit tx =>
      obtain ⟨hold, hkept⟩ := List.mem_filter.mp h
      exact .inl ⟨hold, of_decide_eq_true hkept⟩
    | registerDevice u d name =>
      have hkept : row ∈ t.preKeyBundles := (t.registerDevice_kept u d name).2.1 ▸ h
      refine .inl ⟨hkept, ?_⟩
      exact List.not_mem_nil
    | deletePreKeyBundle tx u d =>
      exact .inl ⟨(t.deletePreKeyBundle_kept tx u d).2.1 ▸ h, List.not_mem_nil⟩
    | deleteDevice tx u d =>
      exact .inl ⟨(t.deleteDevice_kept tx u d).2.1 ▸ h, List.not_mem_nil⟩
    | insertOneTimePreKey u d key =>
      refine .inl ⟨?_, List.not_mem_nil⟩
      simp only [answerKeys, carryOut, KeyTables.insertOneTimePreKey] at h
      split at h <;> exact h
    | consumeOneTimePreKey u =>
      refine .inl ⟨?_, List.not_mem_nil⟩
      simp only [answerKeys, carryOut, KeyTables.consumeOneTimePreKey] at h
      split at h <;> exact h
    | _ => exact .inl ⟨h, List.not_mem_nil⟩

/-- A bundle that was read was in the table. -/
theorem mem_bundles_of_read {fault : Option DbError} {i : ℕ} {r : KeyOp} {t : KeyTables} {u : Id}
    {bundle : Bundle} (h : KeyEntry.read ⟨i, t, r, (answerKeys fault r t).1⟩ = some (u, bundle)) :
    ⟨u, bundle⟩ ∈ t.preKeyBundles := by
  cases fault with
  | some e => exact absurd h (by rw [answerKeys, (KeyEntry.of_fault i t r e).2.2.2.1]; simp)
  | none =>
    cases r with
    | selectPreKeyBundle v =>
      simp only [answerKeys, carryOut] at h
      cases hselected : t.selectPreKeyBundle v with
      | none => rw [hselected] at h; cases h
      | some bundle' =>
        rw [hselected] at h
        cases h
        obtain ⟨row, hrow, rfl⟩ := List.mem_map.mp (List.argmin_mem hselected)
        obtain ⟨hrow, huser⟩ := List.mem_filter.mp hrow
        have huser : row.userId = u := of_decide_eq_true huser
        exact huser ▸ hrow
    | _ => cases h

/-! ## Revocations -/

namespace KeyServer

/-- Where a revocation commits, no key of the device is left: it deletes the bundle if
there is one, and no stored one-time key was inserted by the device. -/
def Emptied (s : KeyServer) : KeyEvent → Prop
  | .statement i none => ∀ tx ∈ (Threads.Pool.waiting s i).bind KeyOp.commits,
      ∀ x ∈ (s.state.revocations tx).devices,
        (s.state.HasBundle x.1 x.2 → x ∈ (s.state.revocations tx).bundles) ∧
        ∀ row ∈ s.state.oneTimePreKeys, row.userId = x.1 →
          (keySource x.1 row.key.keyId s.trace).map Prod.fst ≠ some x.2
  | _ => True

instance (s : KeyServer) : ∀ e, Decidable (s.Emptied e)
  | .statement i none => inferInstanceAs (Decidable
      (∀ tx ∈ (Threads.Pool.waiting s i).bind KeyOp.commits, ∀ x ∈ (s.state.revocations tx).devices,
        (s.state.HasBundle x.1 x.2 → x ∈ (s.state.revocations tx).bundles) ∧
        ∀ row ∈ s.state.oneTimePreKeys, row.userId = x.1 →
          (keySource x.1 row.key.keyId s.trace).map Prod.fst ≠ some x.2))
  | .statement _ (some _) => isTrue trivial
  | .upload _ _ => isTrue trivial
  | .fetch _ _ => isTrue trivial
  | .revoke _ _ => isTrue trivial
  | .others _ => isTrue trivial

end KeyServer

/-- A bundle of device `d` of `u` was written by one of these entries. -/
def WrittenBy (u : Id) (d : ℤ) (bundle : Bundle) (l : List KeyEntry) : Prop :=
  bundle.deviceId = d → ∃ e ∈ l, KeyEntry.written e = some (u, bundle)

/-- A one-time key of `u` was inserted by one of the entries of `later`, or for another
device than `d`. -/
def InsertedBy (u : Id) (d : ℤ) (key : OneTimePreKey) (later earlier : List KeyEntry) : Prop :=
  (∃ d', ∃ e ∈ later, KeyEntry.stored e = some (u, d', key)) ∨
    ∃ d', d' ≠ d ∧ ∃ e ∈ earlier, KeyEntry.stored e = some (u, d', key)

theorem WrittenBy.cons {u : Id} {d : ℤ} {bundle : Bundle} {l : List KeyEntry}
    (h : WrittenBy u d bundle l) (e : KeyEntry) : WrittenBy u d bundle (e :: l) := by
  intro hd
  obtain ⟨e', he', hwritten⟩ := h hd
  exact ⟨e', List.mem_cons_of_mem _ he', hwritten⟩

theorem InsertedBy.cons {u : Id} {d : ℤ} {key : OneTimePreKey} {later earlier : List KeyEntry}
    (h : InsertedBy u d key later earlier) (e : KeyEntry) :
    InsertedBy u d key (e :: later) earlier := by
  rcases h with ⟨d', e', he', hstored⟩ | hother
  · exact .inl ⟨d', e', List.mem_cons_of_mem _ he', hstored⟩
  · exact .inr hother

/-- Since device `d` of `u` was revoked, all that is stored for it and all that was read
and taken was uploaded later, or by another device. -/
structure Forgotten (t : KeyTables) (u : Id) (d : ℤ) (later earlier : List KeyEntry) : Prop where
  bundles : ∀ row ∈ t.preKeyBundles, row.userId = u → WrittenBy u d row.bundle later
  keys : ∀ row ∈ t.oneTimePreKeys, row.userId = u → InsertedBy u d row.key later earlier
  reads : ∀ e ∈ later, ∀ bundle, KeyEntry.read e = some (u, bundle) → WrittenBy u d bundle later
  takes : ∀ e ∈ later, ∀ key, KeyEntry.consumed e = some (u, key) →
    InsertedBy u d key later earlier

/-- **A statement after the revocation** serves nothing that was uploaded before it. -/
theorem Forgotten.statement {t : KeyTables} {u : Id} {d : ℤ} {later earlier : List KeyEntry}
    (h : Forgotten t u d later earlier) (fault : Option DbError) (i : ℕ) (r : KeyOp) :
    Forgotten (answerKeys fault r t).2 u d (⟨i, t, r, (answerKeys fault r t).1⟩ :: later) earlier where
  bundles row hrow hu := by
    rcases mem_bundles_answerKeys (i := i) hrow with ⟨hold, -⟩ | hnew
    · exact (h.bundles row hold hu).cons _
    · exact fun _ => ⟨_, List.mem_cons_self, hu ▸ hnew⟩
  keys row hrow hu := by
    rcases (answerKeys_keys fault i r t).mem hrow with hold | ⟨d', hnew⟩
    · exact (h.keys row hold hu).cons _
    · exact .inl ⟨d', _, List.mem_cons_self, hu ▸ hnew⟩
  reads e he bundle hread := by
    rcases List.mem_cons.mp he with rfl | he
    · exact (h.bundles _ (mem_bundles_of_read hread) rfl).cons _
    · exact (h.reads e he bundle hread).cons _
  takes e he key htaken := by
    rcases List.mem_cons.mp he with rfl | he
    · exact (h.keys _ ((answerKeys_keys fault i r t).of_consumed htaken) rfl).cons _
    · exact (h.takes e he key htaken).cons _

/-- **A revocation that leaves no key of the device** forgets them. -/
theorem Forgotten.revoked {t : KeyTables} {u : Id} {d : ℤ} {l : List KeyEntry} (hsourced : Sourced t l)
    {i tx : ℕ}
    (hbundle : t.HasBundle u d → (u, d) ∈ (t.revocations tx).bundles)
    (hkeys : ∀ row ∈ t.oneTimePreKeys, row.userId = u →
      (keySource u row.key.keyId l).map Prod.fst ≠ some d) :
    Forgotten (t.commit tx) u d [] (⟨i, t, .commit tx, .ok ()⟩ :: l) where
  bundles row hrow hu hd := by
    obtain ⟨hold, hkept⟩ := List.mem_filter.mp hrow
    rw [hu, hd] at hkept
    exact absurd (hbundle ⟨row, hold, hu, hd⟩) (of_decide_eq_true hkept)
  keys row hrow hu := by
    obtain ⟨d', hd'⟩ := hsourced row hrow
    have hne := hkeys row hrow hu
    rw [← hu, hd'] at hne
    obtain ⟨e, he, hstored⟩ := mem_of_keySource hd'
    refine .inr ⟨d', fun heq => hne (by rw [heq]; rfl), e, List.mem_cons_of_mem _ he, hu ▸ hstored⟩
  reads _ he := nomatch he
  takes _ he := nomatch he

namespace KeyServer

/-- What has been revoked, is forgotten. -/
def Forgets (t : KeyTables) (l : List KeyEntry) : Prop :=
  ∀ later, ∀ c : KeyEntry, ∀ earlier, l = later ++ c :: earlier → ∀ u d, (u, d) ∈ c.revoked.devices →
    Forgotten t u d later (c :: earlier)

theorem ReachedBy.forgets {s : KeyServer} (hs : s.ReachedBy Emptied) :
    Sourced s.state s.trace ∧ Forgets s.state s.trace := by
  obtain ⟨accounts, hreach⟩ := hs
  refine hreach.invariant (I := fun s => Sourced s.state s.trace ∧ Forgets s.state s.trace) ?_ ?_
  · refine ⟨fun _ h => (nomatch h), ?_⟩
    intro later c earlier h
    exact absurd h (by simp [start, Threads.Pool.idle])
  intro s e ⟨hsourced, hforgets⟩ ⟨_, hemptied⟩
  refine next_invariant (I := fun t l => Sourced t l ∧ Forgets t l) ⟨hsourced, hforgets⟩ ?_ ?_
  · rintro i fault r k rfl hp
    refine ⟨hsourced.statement fault i r, ?_⟩
    intro later c earlier hsplit u d hx
    rcases List.cons_eq_append_iff.mp hsplit with ⟨rfl, heq⟩ | ⟨later', rfl, heq⟩
    · obtain ⟨rfl, rfl⟩ := List.cons.inj heq
      cases fault with
      | some err =>
        exact absurd hx (by
          show (u, d) ∉ (KeyEntry.revoked ⟨i, s.state, r, .error err⟩).devices
          rw [(KeyEntry.of_fault i s.state r err).2.2.2.2]
          exact List.not_mem_nil)
      | none =>
        cases r with
        | commit tx =>
          obtain ⟨hbundle, hkeys⟩ := hemptied tx (by rw [Threads.Pool.waiting_eq hp]; rfl) (u, d) hx
          exact .revoked hsourced hbundle hkeys
        | _ => cases hx
    · exact (hforgets later' c earlier heq u d hx).statement fault i r
  · intro accounts
    refine ⟨hsourced, fun later c earlier hsplit u d hx => ?_⟩
    have h := hforgets later c earlier hsplit u d hx
    exact ⟨h.bundles, h.keys, h.reads, h.takes⟩

/-- Request `i`, a fetch for `u` all of whose statements are in `later`, was answered with
nothing that device `d` uploaded before `later`. -/
def ServesLater (s : KeyServer) (i : ℕ) (u : Id) (d : ℤ) (later earlier : List KeyEntry) : Prop :=
  ∀ bundle key, s.tasks[i]? = some (.pure (.bundle bundle key)) →
    (∃ e : KeyEntry, e ∈ s.trace ∧ e.task = i ∧ e.read = some (u, bundle)) →
    WrittenBy u d bundle later ∧ ∀ k, key = some k → InsertedBy u d k later earlier

/-- **Revoked keys are not served**, in every run in which a revocation commits only when
no key of the device is left. -/
theorem revoked_keys_not_served {s : KeyServer} (hs : s.ReachedBy Emptied)
    {later earlier : List KeyEntry} {c : KeyEntry} (hsplit : s.trace = later ++ c :: earlier) {u : Id}
    {d : ℤ} (hrevoked : (u, d) ∈ c.revoked.devices) {i : ℕ} (hi : ∀ e ∈ c :: earlier, e.task ≠ i) :
    s.ServesLater i u d later (c :: earlier) := by
  intro bundle key hanswered hread
  have hforgotten := hs.forgets.2 later c earlier hsplit u d hrevoked
  have hlater : ∀ e : KeyEntry, e ∈ s.trace → e.task = i → e ∈ later := by
    intro e he htask
    rw [hsplit, List.mem_append] at he
    rcases he with he | he
    · exact he
    · exact absurd htask (hi e he)
  obtain ⟨e, he, htask, hread⟩ := hread
  refine ⟨hforgotten.reads e (hlater e he htask) bundle hread, ?_⟩
  rintro k rfl
  obtain ⟨v, hphase⟩ := hs.fetched hanswered
  obtain ⟨l₁, e', l₂, htrace, htask', hconsumed, hread'⟩ := mem_of_phase_done hphase
  have he' : e' ∈ s.trace := by
    rw [htrace]
    exact List.mem_append_right _ List.mem_cons_self
  have huser : v = u := by
    rcases hs.phase_of_read e he u bundle hread with h | ⟨_, h⟩
    · rw [htask, hphase] at h
      cases h
    · rw [htask, hphase] at h
      cases h
      rfl
  exact hforgotten.takes e' (hlater e' he' htask') k (huser ▸ hconsumed)

end KeyServer

namespace Sample

/-- Device 1 uploads a key, which is fetched, and device 2 another; device 1 is revoked, and
a bundle is fetched. -/
def revokedEmpty : List KeyEvent :=
  request 0 5 (upload 1 [keyA]) ++ request 1 4 fetch ++ request 2 5 (upload 2 [keyB]) ++
    request 3 6 (revoke 1) ++ request 4 4 fetch

/-- The same, but the key of device 1 is not fetched before. -/
def revokedFull : List KeyEvent :=
  request 0 5 (upload 1 [keyA]) ++ request 1 4 (upload 2 []) ++ request 2 6 (revoke 1) ++
    request 3 4 fetch

/-- The revocation of device 1 is the entry after the last `n`. -/
theorem revocation_split {l : List KeyEntry} (n : ℕ)
    (h : ∃ c ∈ (l.drop n).head?, (0, 1) ∈ (KeyEntry.revoked c).devices) :
    ∃ c earlier, l.drop n = c :: earlier ∧ l = l.take n ++ c :: earlier ∧
      (0, 1) ∈ (KeyEntry.revoked c).devices := by
  obtain ⟨c, hc, hrevoked⟩ := h
  obtain ⟨earlier, hdrop⟩ := List.head?_eq_some_iff.mp hc
  exact ⟨c, earlier, hdrop, by rw [← hdrop, List.take_append_drop], hrevoked⟩

end Sample

namespace KeyServer

/-- The revocation's commit is the sixth entry from the end: the audit entry and the
fetch's four statements came later. -/
theorem revoked_empty : ∃ later c earlier,
    (Sample.afterKeys Sample.revokedEmpty).trace = later ++ c :: earlier ∧
      (0, 1) ∈ (KeyEntry.revoked c).devices ∧
      (Sample.afterKeys Sample.revokedEmpty).ServesLater 4 0 1 later (c :: earlier) := by
  obtain ⟨c, earlier, hc, hsplit, hrevoked⟩ :=
    Sample.revocation_split (l := (Sample.afterKeys Sample.revokedEmpty).trace) 5 (by decide)
  have hbefore : ∀ e ∈ (Sample.afterKeys Sample.revokedEmpty).trace.drop 5, e.task ≠ 4 := by
    decide
  refine ⟨_, c, earlier, hsplit, hrevoked, ?_⟩
  exact revoked_keys_not_served (Sample.afterKeys_reached (by decide)) hsplit hrevoked
    (hc ▸ hbefore)

/-- After device 1 has been revoked, the bundle of device 2 comes with its key. -/
theorem revoked_key_served : ¬ ∀ s : KeyServer, s.ReachedBy (fun _ _ => True) →
    ∀ later c earlier, s.trace = later ++ c :: earlier → ∀ u d,
      (u, d) ∈ (KeyEntry.revoked c).devices → ∀ i, (∀ e ∈ c :: earlier, e.task ≠ i) →
      s.ServesLater i u d later (c :: earlier) := by
  intro h
  have hreach : (Sample.afterKeys Sample.revokedFull).ReachedBy fun _ _ => True :=
    Sample.afterKeys_reached (by decide)
  obtain ⟨c, earlier, hc, hsplit, hrevoked⟩ :=
    Sample.revocation_split (l := (Sample.afterKeys Sample.revokedFull).trace) 5 (by decide)
  have hbefore : ∀ e ∈ (Sample.afterKeys Sample.revokedFull).trace.drop 5, e.task ≠ 3 := by
    decide
  have hserves := h _ hreach _ c earlier hsplit 0 1 hrevoked 3 (hc ▸ hbefore)
    (Sample.deviceBundle 2) (some Sample.keyA) rfl (by decide)
  -- the key was inserted for device 1, before the revocation
  have hlater : ∀ e ∈ (Sample.afterKeys Sample.revokedFull).trace.take 5,
      KeyEntry.stored e = none := by decide
  have hearlier : ∀ e ∈ (Sample.afterKeys Sample.revokedFull).trace.drop 5,
      ∀ x ∈ KeyEntry.stored e, x.2.1 = 1 := by decide
  rcases hserves.2 _ rfl with ⟨d', e, he, hstored⟩ | ⟨d', hne, e, he, hstored⟩
  · rw [hlater e he] at hstored
    cases hstored
  · exact hne (hearlier e (hc ▸ he) _ hstored)

end KeyServer
end Winkd.Server
