import Winkd.Service

/-!
# One OAuth identity, one account

`find_or_create_oauth_user` looks for the account an identity is linked to, then for one
with its e-mail address, then creates one, and links it, each in a statement of its own.
The link ignores conflicts.  Two calls that have both found nothing create an account
each; the second link does nothing, and its call returns an account that no later call
returns.

Where a link statement never finds the identity linked to another account
(`SignIns.LinksOwn`), all calls for one identity return one account, and it is linked.
-/

namespace Winkd.Server

/-- An account at a provider: its slug and the user's id there. -/
abbrev Identity : Type := Text × Text

/-- A call of `find_or_create_oauth_user`, with the identity it was made for. -/
def signIn (o : Outside) (provider : OAuthProvider) (info : OAuthUserInfo) :
    Handler (Identity × User) := do
  let user ← findOrCreateOauthUser o provider info
  pure ((provider.slug, info.providerUserId), user)

/-- The tables, with the calls under way. -/
abbrev SignIns : Type := Threads.Pool Op Op.Reply AppError (Identity × User) Backend

/-- The account that a link statement is to link, and the identity. -/
def Op.links : Op → Option (Id × Identity)
  | .linkOauthAccount userId provider providerUserId => some (userId, provider, providerUserId)
  | _ => none

inductive SignInEvent where
  | call (o : Outside) (provider : OAuthProvider) (info : OAuthUserInfo)
  | statement (task : ℕ)
  /-- A statement of another endpoint, or time passes. -/
  | other (r : Op)
  | clock (now : ℕ)

namespace SignIns

/-- The act of the pool that an event is. -/
def act (s : SignIns) : SignInEvent → Threads.Act Op Op.Reply AppError (Identity × User) Backend
  | .call o provider info => .start (signIn o provider info)
  | .statement i => .answer i
  | .other r => .outside (answer r s.state).2
  | .clock now => .outside { s.state with now := now }

def next (s : SignIns) (e : SignInEvent) : SignIns := Threads.Pool.next answer s (s.act e)

/-- No other endpoint links accounts. -/
def Possible : SignInEvent → Prop
  | .other r => r.links = none
  | _ => True

instance : ∀ e, Decidable (Possible e)
  | .other r => inferInstanceAs (Decidable (r.links = none))
  | .call _ _ _ => isTrue trivial
  | .statement _ => isTrue trivial
  | .clock _ => isTrue trivial

/-- The states calls can come to when every step satisfies `P`. -/
def ReachedBy (P : SignIns → SignInEvent → Prop) (s : SignIns) : Prop :=
  ∃ now, Transitions.Reaches next (fun s e => Possible e ∧ P s e) (Threads.Pool.idle (.init now)) s

/-- A link statement finds the identity linked to no other account. -/
def LinksOwn (s : SignIns) : SignInEvent → Prop
  | .statement i => ∀ x ∈ (Threads.Pool.waiting s i).bind Op.links, ∀ a ∈ s.state.oauthAccounts,
      (a.provider, a.providerUserId) = x.2 → a.userId = x.1
  | _ => True

instance (s : SignIns) : ∀ e, Decidable (s.LinksOwn e)
  | .statement i => inferInstanceAs (Decidable (∀ x ∈ (Threads.Pool.waiting s i).bind Op.links,
      ∀ a ∈ s.state.oauthAccounts, (a.provider, a.providerUserId) = x.2 → a.userId = x.1))
  | .call _ _ _ => isTrue trivial
  | .other _ => isTrue trivial
  | .clock _ => isTrue trivial

/-- All calls that have returned for one identity have returned one account, and it is
linked to the identity. -/
structure OneAccount (s : SignIns) : Prop where
  same : ∀ (i j : ℕ) (k : Identity) (u v : User), s.tasks[i]? = some (Prog.pure (k, u)) →
    s.tasks[j]? = some (Prog.pure (k, v)) → u.id = v.id
  linked : ∀ (i : ℕ) (k : Identity) (u : User), s.tasks[i]? = some (Prog.pure (k, u)) →
    ⟨u.id, k.1, k.2⟩ ∈ s.state.oauthAccounts

end SignIns

/-! ## What a call was told -/

/-- The identity and the account that a reply says are linked. -/
def Op.told : (r : Op) → Op.Reply r → Option (Identity × Id)
  | .findUserByOauth provider providerUserId, .ok (some user) =>
      some ((provider, providerUserId), user.id)
  | .linkOauthAccount userId provider providerUserId, .ok () =>
      some ((provider, providerUserId), userId)
  | _, _ => none

namespace SignIns

/-- The last such reply. -/
def lastTold (d : Option (Identity × Id)) (r : Op) (x : Op.Reply r) : Option (Identity × Id) :=
  (r.told x).or d

/-- A call returns the account that it was last told is linked to its identity. -/
def Returns (d : Option (Identity × Id)) (x : Identity × User) : Prop := d = some (x.1, x.2.id)

theorem along_link (provider : OAuthProvider) (info : OAuthUserInfo) (user : User)
    (d : Option (Identity × Id)) :
    (linkOauthAccount user.id provider.slug info.providerUserId >>= fun _ =>
      (pure user : Handler User)).Along (fun _ _ => True) lastTold
        (fun d u => Returns d ((provider.slug, info.providerUserId), u)) d := by
  refine ⟨trivial, ?_⟩
  intro linked
  cases linked with
  | error e => trivial
  | ok x => rfl

/-- A call returns what it was told, whichever way it has found or created the account. -/
theorem along_signIn (o : Outside) (provider : OAuthProvider) (info : OAuthUserInfo) :
    (signIn o provider info).Along (fun _ _ => True) lastTold Returns none := by
  rw [signIn, Prog.along_bind, findOrCreateOauthUser]
  refine ⟨trivial, ?_⟩
  intro found
  cases found with
  | error e => trivial
  | ok found =>
    cases found with
    | some user => exact rfl
    | none =>
      show Prog.Along _ lastTold _ _ (findOauthEmail info.email >>= _)
      rw [Prog.along_bind]
      refine (Prog.along_of_forall (fun _ _ => trivial) _).mono (fun _ _ h => h) ?_
      intro d found _
      cases found with
      | some user => exact along_link provider info user d
      | none =>
        show Prog.Along _ lastTold _ _ (createOauthUser o provider info >>= _)
        rw [Prog.along_bind]
        refine (Prog.along_of_forall (fun _ _ => trivial) _).mono (fun _ _ h => h) ?_
        exact fun d user _ => along_link provider info user d

variable {P : SignIns → SignInEvent → Prop}

theorem ReachedBy.yields {s : SignIns} (hs : s.ReachedBy P) :
    Threads.Pool.Yields (fun _ _ => True) lastTold none Returns s := by
  obtain ⟨now, hreach⟩ := hs
  refine hreach.invariant (Threads.Pool.Yields.idle _) ?_
  intro s e hs _
  refine hs.next fun p hp => ?_
  cases e with
  | call o provider info =>
    cases hp
    exact along_signIn o provider info
  | statement i => cases hp
  | other r => cases hp
  | clock now => cases hp

/-- What a task has learned it was told. -/
theorem told_of_learned {i : ℕ} {l : List (Threads.Entry Op Op.Reply Backend)} {x : Identity × Id}
    (h : Threads.Pool.learned lastTold none i l = some x) :
    ∃ e ∈ l, e.request.told e.reply = some x := by
  induction l with
  | nil => cases h
  | cons e l ih =>
    by_cases he : e.task = i
    · rw [Threads.Pool.learned_own he, lastTold, Option.or_eq_some_iff] at h
      rcases h with h | ⟨-, h⟩
      · exact ⟨e, List.mem_cons_self, h⟩
      · obtain ⟨e', he', htold⟩ := ih h
        exact ⟨e', List.mem_cons_of_mem _ he', htold⟩
    · rw [Threads.Pool.learned_other he] at h
      obtain ⟨e', he', htold⟩ := ih h
      exact ⟨e', List.mem_cons_of_mem _ he', htold⟩

end SignIns

/-! ## What is linked -/

/-- The identities are distinct, and all that was told of links is so. -/
structure Linked (b : Backend) (l : List (Threads.Entry Op Op.Reply Backend)) : Prop where
  unique : ∀ a ∈ b.oauthAccounts, ∀ a' ∈ b.oauthAccounts, a.provider = a'.provider →
    a.providerUserId = a'.providerUserId → a = a'
  told : ∀ e ∈ l, ∀ k id, e.request.told e.reply = some (k, id) → ⟨id, k.1, k.2⟩ ∈ b.oauthAccounts

/-- What a statement does to the links: all but a link statement keep them, and a link
statement that succeeds adds its own unless the identity is linked already. -/
theorem answer_links (r : Op) (b : Backend) :
    (answer r b).2.oauthAccounts = b.oauthAccounts ∨ ∃ id k, r.links = some (id, k) ∧
      (∀ a ∈ b.oauthAccounts, (a.provider, a.providerUserId) ≠ k) ∧
      (answer r b).2.oauthAccounts = b.oauthAccounts ++ [⟨id, k.1, k.2⟩] := by
  cases r with
  | linkOauthAccount userId provider providerUserId =>
    simp only [answer, Backend.linkOauthAccount]
    split
    · exact .inl rfl
    · split
      · exact .inl rfl
      · split
        · exact .inl rfl
        · rename_i hnone
          refine .inr ⟨userId, (provider, providerUserId), rfl, ?_, rfl⟩
          intro a ha heq
          refine hnone (List.any_eq_true.mpr ⟨a, ha, decide_eq_true ?_⟩)
          exact ⟨congrArg Prod.fst heq, congrArg Prod.snd heq⟩
  | createUser username winkdId displayName email passwordHash =>
    simp only [answer, Backend.createUser]
    split <;> exact .inl rfl
  | createSession u token =>
    simp only [answer, Backend.createSession]
    split
    · exact .inl rfl
    · split <;> exact .inl rfl
  | createTotpChallenge u token =>
    simp only [answer, Backend.createTotpChallenge]
    split
    · exact .inl rfl
    · split <;> exact .inl rfl
  | setTotpEnabled u enabled => cases enabled <;> exact .inl rfl
  | _ => exact .inl rfl

/-- What is told of a link is so, if a link statement finds the identity linked to no other
account. -/
theorem told_answer {r : Op} {b : Backend} {k : Identity} {id : Id}
    (hown : ∀ x, r.links = some x → ∀ a ∈ b.oauthAccounts,
      (a.provider, a.providerUserId) = x.2 → a.userId = x.1)
    (h : r.told (answer r b).1 = some (k, id)) :
    ⟨id, k.1, k.2⟩ ∈ (answer r b).2.oauthAccounts := by
  cases r with
  | findUserByOauth provider providerUserId =>
    simp only [answer] at h ⊢
    cases hfound : b.findUserByOauth provider providerUserId with
    | none => rw [hfound] at h; cases h
    | some user =>
      rw [hfound] at h
      cases h
      obtain ⟨a, ha, hu⟩ := Option.bind_eq_some_iff.mp hfound
      have hid : user.id = a.userId := by
        have huser := List.find?_some hu
        exact of_decide_eq_true huser
      obtain ⟨hp, hpid⟩ : a.provider = provider ∧ a.providerUserId = providerUserId := by
        have hkey := List.find?_some ha
        exact of_decide_eq_true hkey
      have hmem := List.mem_of_find?_eq_some ha
      rw [hid, ← hp, ← hpid]
      exact hmem
  | linkOauthAccount userId provider providerUserId =>
    simp only [answer, Backend.linkOauthAccount] at h ⊢
    split
    · rename_i hlong
      rw [if_pos hlong] at h
      cases h
    · rename_i hlong
      rw [if_neg hlong] at h
      split
      · rename_i hlong'
        rw [if_pos hlong'] at h
        cases h
      · rename_i hlong'
        rw [if_neg hlong'] at h
        split
        · rename_i hany
          rw [if_pos hany] at h
          cases h
          -- linked before, and to the same account
          obtain ⟨a, ha, hkey⟩ := List.any_eq_true.mp hany
          obtain ⟨rfl, rfl⟩ := of_decide_eq_true hkey
          obtain rfl : a.userId = id := hown _ rfl a ha rfl
          exact ha
        · rename_i hany
          rw [if_neg hany] at h
          cases h
          exact List.mem_append_right _ (List.mem_singleton_self _)
  | _ => cases h

/-- The links a statement leaves. -/
theorem Linked.unique_answer {b : Backend} {l : List (Threads.Entry Op Op.Reply Backend)}
    (h : Linked b l) (r : Op) : ∀ a ∈ (answer r b).2.oauthAccounts,
      ∀ a' ∈ (answer r b).2.oauthAccounts, a.provider = a'.provider →
      a.providerUserId = a'.providerUserId → a = a' := by
  rcases answer_links r b with heq | ⟨id, k, -, hnew, heq⟩
  · rw [heq]
    exact h.unique
  · rw [heq]
    intro a ha a' ha' hp hpid
    rw [List.mem_append, List.mem_singleton] at ha ha'
    rcases ha with ha | rfl
    · rcases ha' with ha' | rfl
      · exact h.unique a ha a' ha' hp hpid
      · exact absurd (Prod.ext hp hpid) (hnew a ha)
    · rcases ha' with ha' | rfl
      · exact absurd (Prod.ext hp.symm hpid.symm) (hnew a' ha')
      · rfl

theorem mem_links_answer {b : Backend} (r : Op) {a : OAuthAccount} (ha : a ∈ b.oauthAccounts) :
    a ∈ (answer r b).2.oauthAccounts := by
  rcases answer_links r b with heq | ⟨_, _, _, _, heq⟩
  · rw [heq]
    exact ha
  · rw [heq]
    exact List.mem_append_left _ ha

namespace SignIns

theorem ReachedBy.linked {s : SignIns} (hs : s.ReachedBy LinksOwn) : Linked s.state s.trace := by
  obtain ⟨now, hreach⟩ := hs
  refine hreach.invariant (I := fun s => Linked s.state s.trace) ⟨fun _ h => (nomatch h), fun _ h => nomatch h⟩ ?_
  intro s e hs ⟨_, hown⟩
  cases e with
  | call o provider info => exact hs
  | clock now => exact ⟨hs.unique, hs.told⟩
  | other r =>
    exact ⟨hs.unique_answer r, fun e he k id htold => mem_links_answer r (hs.told e he k id htold)⟩
  | statement i =>
    rcases Threads.Pool.next_answer_cases (h := answer) s i with heq | ⟨r, k, hp, heq⟩
    · show Linked (Threads.Pool.next answer s (.answer i)).state (Threads.Pool.next answer s (.answer i)).trace
      rw [heq]
      exact hs
    · show Linked (Threads.Pool.next answer s (.answer i)).state (Threads.Pool.next answer s (.answer i)).trace
      rw [heq]
      refine ⟨hs.unique_answer r, ?_⟩
      intro e he key id htold
      rcases List.mem_cons.mp he with rfl | he
      · refine told_answer (fun x hx => hown x ?_) htold
        rw [Threads.Pool.waiting_eq hp]
        exact hx
      · exact mem_links_answer r (hs.told e he key id htold)

/-- **One identity, one account**, in every run in which no link statement finds the identity
linked to another account. -/
theorem one_identity_one_account {s : SignIns} (hs : s.ReachedBy LinksOwn) : s.OneAccount := by
  have hlinked : ∀ (i : ℕ) (k : Identity) (u : User), s.tasks[i]? = some (Prog.pure (k, u)) →
      ⟨u.id, k.1, k.2⟩ ∈ s.state.oauthAccounts := by
    intro i k u hi
    obtain ⟨e, he, htold⟩ := told_of_learned (hs.yields.ended hi)
    exact hs.linked.told e he k u.id htold
  refine ⟨?_, hlinked⟩
  intro i j k u v hi hj
  exact congrArg OAuthAccount.userId
    (hs.linked.unique _ (hlinked i k u hi) _ (hlinked j k v hj) rfl rfl)

end SignIns

namespace Sample

/-- What GitHub says of a user whose e-mail address it does not give. -/
def anonymous : OAuthUserInfo := ⟨"583231".toList, none, none, some "ada".toList⟩

def statements (i n : ℕ) : List SignInEvent := List.replicate n (.statement i)

/-- Two calls, one after the other. -/
def signInTwice : List SignInEvent :=
  .call (outside "") .github anonymous :: statements 0 5 ++
    .call (outside "") .github anonymous :: statements 1 1

/-- Two calls that overlap: the first has created its account, and not yet linked it, when
the second begins. -/
def signInOverlapping : List SignInEvent :=
  .call (outside "") .github anonymous :: statements 0 4 ++
    .call (outside "") .github anonymous :: statements 1 6 ++ statements 0 1

def afterSignIns (events : List SignInEvent) : SignIns :=
  events.foldl SignIns.next (Threads.Pool.idle (.init 0))

theorem afterSignIns_reached {P : SignIns → SignInEvent → Prop} {events : List SignInEvent}
    (h : Transitions.Admits SignIns.next (fun s e => SignIns.Possible e ∧ P s e)
      (Threads.Pool.idle (.init 0)) events) : (afterSignIns events).ReachedBy P := ⟨0, h.reaches⟩

end Sample

namespace SignIns

theorem signed_in_twice : (Sample.afterSignIns Sample.signInTwice).OneAccount :=
  one_identity_one_account (Sample.afterSignIns_reached (by decide))

/-- The calls return two accounts for one identity. -/
theorem signed_in_overlapping : ¬ ∀ s : SignIns, s.ReachedBy (fun _ _ => True) → s.OneAccount := by
  intro h
  have hreach : (Sample.afterSignIns Sample.signInOverlapping).ReachedBy fun _ _ => True :=
    Sample.afterSignIns_reached (by decide)
  obtain ⟨k, u, hu, hid⟩ : ∃ k u, (Sample.afterSignIns Sample.signInOverlapping).tasks[0]? =
      some (Prog.pure (k, u)) ∧ k = ("github".toList, "583231".toList) ∧ u.id = 0 := ⟨_, _, rfl, rfl, rfl⟩
  obtain ⟨k', v, hv, hid'⟩ : ∃ k u, (Sample.afterSignIns Sample.signInOverlapping).tasks[1]? =
      some (Prog.pure (k, u)) ∧ k = ("github".toList, "583231".toList) ∧ u.id = 1 := ⟨_, _, rfl, rfl, rfl⟩
  obtain ⟨rfl, hid⟩ := hid
  obtain ⟨rfl, hid'⟩ := hid'
  have hsame := (h _ hreach).same 0 1 _ u v hu hv
  rw [hid, hid'] at hsame
  cases hsame

end SignIns
end Winkd.Server
