import Winkd.KeyFetches
import Mathlib.Data.List.Pairwise

/-!
# One-time keys are for one use

A fetch deletes the one-time key it answers with.  The key may come back: an upload that
offers it again finds its id free, and a second fetch answers with it.  Where no upload
stores a key that a fetch has taken (`KeyServer.Unused`), no key is answered twice.
-/

namespace Winkd.Server

/-- Request `i` was answered with a one-time key of the user. -/
def KeyServer.Returned (s : KeyServer) (i : ℕ) (u : Id) (key : OneTimePreKey) : Prop :=
  (∃ bundle, s.tasks[i]? = some (.pure (.bundle bundle (some key)))) ∧
    ∃ e : KeyEntry, e ∈ s.trace ∧ e.task = i ∧ e.consumed = some (u, key)

/-- No upload stores a key of the user that a fetch has taken. -/
def KeyServer.Unused (s : KeyServer) : KeyEvent → Prop
  | .statement i none => ∀ x ∈ (Threads.Pool.waiting s i).bind KeyOp.offered,
      (∀ row ∈ s.state.oneTimePreKeys, row.userId = x.1 → row.key.keyId ≠ x.2.2.keyId) →
      ∀ e : KeyEntry, e ∈ s.trace → e.consumed ≠ some (x.1, x.2.2)
  | _ => True

instance (s : KeyServer) : ∀ e, Decidable (s.Unused e)
  | .statement i none => inferInstanceAs (Decidable (∀ x ∈ (Threads.Pool.waiting s i).bind KeyOp.offered,
      (∀ row ∈ s.state.oneTimePreKeys, row.userId = x.1 → row.key.keyId ≠ x.2.2.keyId) →
      ∀ e : KeyEntry, e ∈ s.trace → e.consumed ≠ some (x.1, x.2.2)))
  | .statement _ (some _) => isTrue trivial
  | .upload _ _ => isTrue trivial
  | .fetch _ _ => isTrue trivial
  | .revoke _ _ => isTrue trivial
  | .others _ => isTrue trivial

/-- No stored key was taken, and none was taken twice. -/
structure OneUse (t : KeyTables) (l : List KeyEntry) : Prop where
  live : ∀ row ∈ t.oneTimePreKeys, ∀ e ∈ l, e.consumed ≠ some (row.userId, row.key)
  once : l.Pairwise fun e e' => ∀ x, e.consumed = some x → e'.consumed ≠ some x

/-- **A statement keeps keys to one use**, unless it stores one that was taken. -/
theorem OneUse.statement {t : KeyTables} {l : List KeyEntry} (h : OneUse t l)
    (fault : Option DbError) (i : ℕ) (r : KeyOp)
    (hunused : ∀ u d key, KeyEntry.stored ⟨i, t, r, (answerKeys fault r t).1⟩ = some (u, d, key) →
      (∀ row ∈ t.oneTimePreKeys, row.userId = u → row.key.keyId ≠ key.keyId) →
      ∀ e ∈ l, e.consumed ≠ some (u, key)) :
    OneUse (answerKeys fault r t).2 (⟨i, t, r, (answerKeys fault r t).1⟩ :: l) := by
  have heffect := answerKeys_keys fault i r t
  generalize hentry : (⟨i, t, r, (answerKeys fault r t).1⟩ : KeyEntry) = e at heffect hunused ⊢
  cases heffect with
  | kept hstored hconsumed hkeys =>
    have hnone : ∀ x, KeyEntry.consumed e ≠ some x := fun x hx => by rw [hconsumed] at hx; cases hx
    constructor
    · rw [hkeys]
      intro row hrow
      exact List.forall_mem_cons.mpr ⟨hnone _, h.live row hrow⟩
    · exact List.pairwise_cons.mpr ⟨fun _ _ x hx => absurd hx (hnone x), h.once⟩
  | stored u d key hstored hconsumed hfree hkeys =>
    have hnone : ∀ x, KeyEntry.consumed e ≠ some x := fun x hx => by rw [hconsumed] at hx; cases hx
    constructor
    · rw [hkeys]
      intro row hrow
      refine List.forall_mem_cons.mpr ⟨hnone _, ?_⟩
      rw [List.mem_append, List.mem_singleton] at hrow
      rcases hrow with hrow | rfl
      · exact h.live row hrow
      · exact hunused u d key hstored hfree
    · exact List.pairwise_cons.mpr ⟨fun _ _ x hx => absurd hx (hnone x), h.once⟩
  | consumed u key hconsumed hstored hmem hkeys =>
    constructor
    · rw [hkeys]
      intro row hrow
      obtain ⟨hrow, hne⟩ := List.mem_filter.mp hrow
      refine List.forall_mem_cons.mpr ⟨?_, h.live row hrow⟩
      intro heq
      rw [hconsumed] at heq
      cases heq
      exact of_decide_eq_true hne rfl
    · refine List.pairwise_cons.mpr ⟨?_, h.once⟩
      -- the key was in the table, so no fetch had taken it
      intro e' he' x hx
      rw [hconsumed] at hx
      cases hx
      exact h.live _ hmem e' he'

namespace KeyServer

theorem ReachedBy.oneUse {s : KeyServer} (hs : s.ReachedBy Unused) : OneUse s.state s.trace := by
  obtain ⟨accounts, hreach⟩ := hs
  refine hreach.invariant (I := fun s => OneUse s.state s.trace)
    ⟨fun _ h => (nomatch h), List.Pairwise.nil⟩ ?_
  intro s e hs ⟨_, hunused⟩
  refine next_invariant hs ?_ fun _ => ⟨hs.live, hs.once⟩
  rintro i fault r k rfl hp
  refine hs.statement fault i r ?_
  intro u d key hstored hfree
  cases fault with
  | some err =>
    exact absurd hstored (by rw [answerKeys, (KeyEntry.of_fault i s.state r err).1]; simp)
  | none =>
    refine hunused (u, d, key) ?_ hfree
    rw [Threads.Pool.waiting_eq hp]
    exact KeyEntry.offered_of_stored hstored

/-- **A one-time key is answered by one fetch**, in every run in which no upload stores a
key that a fetch has taken. -/
theorem one_time_key_returned_once {s : KeyServer} (hs : s.ReachedBy Unused) {i j : ℕ} {u : Id}
    {key : OneTimePreKey} (hne : i ≠ j) (hi : s.Returned i u key) : ¬ s.Returned j u key := by
  rintro ⟨-, e', he', rfl, hconsumed'⟩
  obtain ⟨-, e, he, rfl, hconsumed⟩ := hi
  have hdistinct : e ≠ e' := fun heq => hne (heq ▸ rfl)
  have hsymm : Std.Symm fun e e' : KeyEntry => ∀ x, e.consumed = some x → e'.consumed ≠ some x :=
    ⟨fun _ _ h x hx' hx => h x hx hx'⟩
  exact hs.oneUse.once.forall he he' hdistinct _ hconsumed hconsumed'

end KeyServer

namespace Sample

/-- A key is uploaded and fetched, uploaded again and fetched again. -/
def uploadedAgain : List KeyEvent :=
  request 0 5 (upload 1 [keyA]) ++ request 1 4 fetch ++ request 2 5 (upload 1 [keyA]) ++
    request 3 4 fetch

/-- Two keys are uploaded, and fetched one after the other. -/
def twoKeys : List KeyEvent :=
  request 0 6 (upload 1 [keyA, keyB]) ++ request 1 4 fetch ++ request 2 4 fetch

end Sample

namespace KeyServer

theorem two_keys_returned_once :
    (Sample.afterKeys Sample.twoKeys).Returned 1 0 Sample.keyA ∧
      ¬ (Sample.afterKeys Sample.twoKeys).Returned 2 0 Sample.keyA := by
  have hreach : (Sample.afterKeys Sample.twoKeys).ReachedBy Unused :=
    Sample.afterKeys_reached (by decide)
  have h1 : (Sample.afterKeys Sample.twoKeys).Returned 1 0 Sample.keyA :=
    ⟨⟨_, rfl⟩, by decide⟩
  exact ⟨h1, one_time_key_returned_once hreach (by decide) h1⟩

/-- The two fetches are answered with one key. -/
theorem one_time_key_returned_again : ¬ ∀ s : KeyServer, s.ReachedBy (fun _ _ => True) →
    ∀ i j u key, i ≠ j → s.Returned i u key → ¬ s.Returned j u key := by
  intro h
  have hreach : (Sample.afterKeys Sample.uploadedAgain).ReachedBy fun _ _ => True :=
    Sample.afterKeys_reached (by decide)
  exact h _ hreach 1 3 0 Sample.keyA (by decide) ⟨⟨_, rfl⟩, by decide⟩
    ⟨⟨_, rfl⟩, by decide⟩

end KeyServer
end Winkd.Server
