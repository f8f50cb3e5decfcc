import Winkd.KeyFetches

/-!
# The two halves of a fetched bundle

A fetch reads the bundle of the user's first device, and takes the user's first one-time
key.  Bundles are kept for each device and one-time keys are not, so the halves may be of
two devices; and an insert under an id that is taken is ignored, so the key may be one
the device has replaced.

The halves fit (`KeyServer.Fits`) in every run in which a fetch finds no one-time keys but
those of the device whose bundle it has read, and no upload offers another key under an
id that is taken (`KeyServer.OneDevice`).
-/

namespace Winkd.Server

/-- The public key that the device has offered last under an id. -/
def lastOffered (u : Id) (d id : ℤ) (l : List KeyEntry) : Option Text :=
  l.findSome? fun e => (e.offered.filter fun x => x.1 = u ∧ x.2.1 = d ∧ x.2.2.keyId = id).map
    fun x => x.2.2.publicKey

namespace KeyServer

/-- Request `i` has read this bundle and taken this one-time key for one user, and when it
took the key the bundle's device had offered no other under the key's id since. -/
def Fits (s : KeyServer) (i : ℕ) (bundle : Bundle) (key : OneTimePreKey) : Prop :=
  ∃ u later, ∃ e : KeyEntry, ∃ earlier, s.trace = later ++ e :: earlier ∧ e.task = i ∧
    e.consumed = some (u, key) ∧
    (∃ e' : KeyEntry, e' ∈ earlier ∧ e'.task = i ∧ e'.read = some (u, bundle)) ∧
    lastOffered u bundle.deviceId key.keyId earlier = some key.publicKey

/-- No upload offers another key under an id that is taken; and where a fetch takes a
one-time key, all of the user's were inserted by the device whose bundle it has read. -/
def OneDevice (s : KeyServer) : KeyEvent → Prop
  | .statement i _ =>
      (∀ x ∈ (Threads.Pool.waiting s i).bind KeyOp.offered, ∀ row ∈ s.state.oneTimePreKeys,
        row.userId = x.1 → row.key.keyId = x.2.2.keyId → row.key = x.2.2) ∧
      ∀ u ∈ (Threads.Pool.waiting s i).bind KeyOp.consumes, ∀ e : KeyEntry, e ∈ s.trace →
        e.task = i → ∀ y ∈ e.read, ∀ row ∈ s.state.oneTimePreKeys, row.userId = u →
        (keySource u row.key.keyId s.trace).map Prod.fst = some y.2.deviceId
  | _ => True

instance (s : KeyServer) : ∀ e, Decidable (s.OneDevice e)
  | .statement i _ => inferInstanceAs (Decidable
      ((∀ x ∈ (Threads.Pool.waiting s i).bind KeyOp.offered, ∀ row ∈ s.state.oneTimePreKeys,
        row.userId = x.1 → row.key.keyId = x.2.2.keyId → row.key = x.2.2) ∧
      ∀ u ∈ (Threads.Pool.waiting s i).bind KeyOp.consumes, ∀ e : KeyEntry, e ∈ s.trace →
        e.task = i → ∀ y ∈ e.read, ∀ row ∈ s.state.oneTimePreKeys, row.userId = u →
        (keySource u row.key.keyId s.trace).map Prod.fst = some y.2.deviceId))
  | .upload _ _ => isTrue trivial
  | .fetch _ _ => isTrue trivial
  | .revoke _ _ => isTrue trivial
  | .others _ => isTrue trivial

end KeyServer

theorem lastOffered_new {e : KeyEntry} {u : Id} {d : ℤ} {key : OneTimePreKey}
    (he : e.offered = some (u, d, key)) (l : List KeyEntry) :
    lastOffered u d key.keyId (e :: l) = some key.publicKey := by
  rw [lastOffered, List.findSome?_cons, he, Option.filter_some_pos (by simp)]
  rfl

theorem lastOffered_other {e : KeyEntry} {u : Id} {d id : ℤ}
    (he : ∀ key, e.offered = some (u, d, key) → key.keyId ≠ id) (l : List KeyEntry) :
    lastOffered u d id (e :: l) = lastOffered u d id l := by
  rw [lastOffered, List.findSome?_cons]
  cases hx : e.offered with
  | none => rfl
  | some x =>
    rw [Option.filter_some_neg]
    · rfl
    · rw [decide_eq_false_iff_not]
      rintro ⟨rfl, rfl, hid⟩
      exact he x.2.2 hx hid

/-- Every stored key is the last that its device has offered under its id. -/
structure Current (t : KeyTables) (l : List KeyEntry) : Prop where
  sourced : Sourced t l
  last : ∀ row ∈ t.oneTimePreKeys, ∀ d,
    keySource row.userId row.key.keyId l = some (d, row.key) →
    lastOffered row.userId d row.key.keyId l = some row.key.publicKey

theorem Current.statement {t : KeyTables} {l : List KeyEntry} (h : Current t l)
    (fault : Option DbError) (i : ℕ) (r : KeyOp)
    (hoffered : ∀ x, r.offered = some x → ∀ row ∈ t.oneTimePreKeys,
      row.userId = x.1 → row.key.keyId = x.2.2.keyId → row.key = x.2.2) :
    Current (answerKeys fault r t).2 (⟨i, t, r, (answerKeys fault r t).1⟩ :: l) := by
  refine ⟨h.sourced.statement fault i r, ?_⟩
  intro row hrow d hd
  rcases (answerKeys_keys fault i r t).mem hrow with hold | ⟨d', hnew⟩
  · rw [keySource_kept hold] at hd
    by_cases hr : r.offered = some (row.userId, d, row.key)
    · exact lastOffered_new (e := ⟨i, t, r, _⟩) hr l
    · -- an offer under this id would have been of this key
      rw [lastOffered_other]
      · exact h.last row hold d hd
      · intro key hkey hid
        have hsame := hoffered _ hkey row hold rfl hid.symm
        exact hr (hsame ▸ hkey)
  · rw [keySource_new hnew] at hd
    cases hd
    exact lastOffered_new (KeyEntry.offered_of_stored hnew) l

namespace KeyServer

/-- Every one-time key that was taken, was the last that the device whose bundle had been
read offered under its id. -/
def TakenFit (l : List KeyEntry) : Prop :=
  ∀ later, ∀ e : KeyEntry, ∀ earlier, l = later ++ e :: earlier → ∀ u bundle key,
    e.consumed = some (u, key) → phase e.task earlier = .read u bundle →
    lastOffered u bundle.deviceId key.keyId earlier = some key.publicKey

theorem ReachedBy.takenFit {s : KeyServer} (hs : s.ReachedBy OneDevice) :
    Current s.state s.trace ∧ TakenFit s.trace := by
  obtain ⟨accounts, hreach⟩ := hs
  refine hreach.invariant (I := fun s => Current s.state s.trace ∧ TakenFit s.trace) ?_ ?_
  · refine ⟨⟨fun _ h => (nomatch h), fun _ h => nomatch h⟩, ?_⟩
    intro later e earlier h
    exact absurd h (by simp [start, Threads.Pool.idle])
  intro s e ⟨hcurrent, htaken⟩ ⟨_, hone⟩
  refine next_invariant (I := fun t l => Current t l ∧ TakenFit l) ⟨hcurrent, htaken⟩ ?_
    fun _ => ⟨⟨hcurrent.sourced, hcurrent.last⟩, htaken⟩
  rintro i fault r k rfl hp
  obtain ⟨hoffered, hconsumes⟩ := hone
  rw [Threads.Pool.waiting_eq hp] at hoffered hconsumes
  refine ⟨hcurrent.statement fault i r hoffered, ?_⟩
  intro later e earlier hsplit u bundle key hconsumed hphase
  rcases List.cons_eq_append_iff.mp hsplit with ⟨rfl, heq⟩ | ⟨later', rfl, heq⟩
  · obtain ⟨rfl, rfl⟩ := List.cons.inj heq
    -- the key was in the table, and of the device whose bundle this request has read
    have hr : r.consumes = some u := KeyEntry.consumes_of_consumed hconsumed
    have hmem := (answerKeys_keys fault i r s.state).of_consumed hconsumed
    obtain ⟨e', he', htask, hread⟩ := mem_of_phase_read hphase
    have hsource := hconsumes u hr e' he' htask _ hread _ hmem rfl
    obtain ⟨⟨d, key'⟩, hd, hdevice⟩ := Option.map_eq_some_iff.mp hsource
    obtain ⟨d', hd'⟩ := hcurrent.sourced _ hmem
    rw [hd'] at hd
    cases hd
    cases hdevice
    exact hcurrent.last _ hmem _ hd'
  · exact htaken later' e earlier heq u bundle key hconsumed hphase

/-- **The halves of a fetched bundle fit**, in every run in which a fetch finds only keys of
the device whose bundle it has read, and no offered key finds its id taken by another. -/
theorem fetched_bundle_fits {s : KeyServer} (hs : s.ReachedBy OneDevice) {i : ℕ} {bundle : Bundle}
    {key : OneTimePreKey} (hi : s.tasks[i]? = some (.pure (.bundle bundle (some key)))) :
    s.Fits i bundle key := by
  obtain ⟨u, hphase⟩ := hs.fetched hi
  obtain ⟨later, e, earlier, hsplit, rfl, hconsumed, hread⟩ := mem_of_phase_done hphase
  have hlast := hs.takenFit.2 later e earlier hsplit u bundle key hconsumed hread
  exact ⟨u, later, e, earlier, hsplit, rfl, hconsumed, mem_of_phase_read hread, hlast⟩

end KeyServer

namespace Sample

/-- Device 1 uploads two keys, and its bundle is fetched. -/
def oneDevice : List KeyEvent := request 0 6 (upload 1 [keyA, keyB]) ++ request 1 4 fetch

/-- Device 2 uploads a key, then device 1 another, and a bundle is fetched. -/
def twoDevices : List KeyEvent :=
  request 0 5 (upload 2 [keyA]) ++ request 1 5 (upload 1 [keyB]) ++ request 2 4 fetch

end Sample

namespace KeyServer

theorem one_device_fits : (Sample.afterKeys Sample.oneDevice).Fits 1 (Sample.deviceBundle 1) Sample.keyA :=
  fetched_bundle_fits (s := Sample.afterKeys Sample.oneDevice)
    (Sample.afterKeys_reached (by decide)) rfl

/-- The bundle of device 1 comes with the key of device 2. -/
theorem two_devices_mixed : ¬ ∀ s : KeyServer, s.ReachedBy (fun _ _ => True) →
    ∀ i bundle key, s.tasks[i]? = some (.pure (.bundle bundle (some key))) → s.Fits i bundle key := by
  intro h
  have hreach : (Sample.afterKeys Sample.twoDevices).ReachedBy fun _ _ => True :=
    Sample.afterKeys_reached (by decide)
  obtain ⟨u, later, e, earlier, hsplit, -, -, -, hlast⟩ :=
    h _ hreach 2 (Sample.deviceBundle 1) Sample.keyA rfl
  -- device 1 has never offered a key under this id
  have hnone : ∀ e : KeyEntry, e ∈ (Sample.afterKeys Sample.twoDevices).trace →
      ∀ x ∈ e.offered, ¬ (x.2.1 = 1 ∧ x.2.2.keyId = 1) := by decide
  obtain ⟨e', he', hx⟩ := List.exists_of_findSome?_eq_some hlast
  obtain ⟨x, hx, -⟩ := Option.map_eq_some_iff.mp hx
  obtain ⟨hoffered, hid⟩ := Option.filter_eq_some_iff.mp hx
  obtain ⟨-, hd, hid⟩ := of_decide_eq_true hid
  refine hnone e' ?_ x hoffered ⟨hd, hid⟩
  rw [hsplit]
  exact List.mem_append_right _ (List.mem_cons_of_mem _ he')

end KeyServer
end Winkd.Server
