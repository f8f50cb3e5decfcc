import Winkd.RelayRuns

/-!
# Winkd IDs

No two users have one Winkd ID, and nobody's is changed or taken away: not by a statement
of an account endpoint (`answer_names`), not by one of a connection (`serve_names`).
Statements do not move the clock either.
-/

namespace Winkd.Server

/-- There is a user with this id and this Winkd ID. -/
def Backend.HasName (b : Backend) (u : Id) (w : Text) : Prop :=
  ∃ x ∈ b.users, x.id = u ∧ x.winkdId = w

/-- No two users have one Winkd ID. -/
def Backend.NamesUnique (b : Backend) : Prop := (b.users.map User.winkdId).Nodup

/-- No user loses the Winkd ID, they stay distinct, and the clock stands still. -/
structure NamesKept (b b' : Backend) : Prop where
  now : b'.now = b.now
  kept : ∀ u w, b.HasName u w → b'.HasName u w
  unique : b.NamesUnique → b'.NamesUnique

theorem NamesKept.of_users {b b' : Backend} (h : b'.users = b.users) (hnow : b'.now = b.now) :
    NamesKept b b' where
  now := hnow
  kept u w := by
    rw [Backend.HasName, Backend.HasName, h]
    exact id
  unique := by
    rw [Backend.NamesUnique, Backend.NamesUnique, h]
    exact id

theorem NamesKept.updateUser (b : Backend) (id : Id) {f : User → User}
    (hid : ∀ u, (f u).id = u.id) (hwinkd : ∀ u, (f u).winkdId = u.winkdId) :
    NamesKept b (b.updateUser id f) := by
  refine ⟨rfl, ?_, ?_⟩
  · rintro u w ⟨x, hx, rfl, rfl⟩
    refine ⟨_, mem_updateUser.mpr ⟨x, hx, rfl⟩, ?_, ?_⟩
    · split
      · exact hid x
      · rfl
    · split
      · exact hwinkd x
      · rfl
  · intro h
    have hmap : (b.updateUser id f).users.map User.winkdId = b.users.map User.winkdId := by
      simp only [Backend.updateUser, List.map_map]
      refine List.map_congr_left fun x _ => ?_
      rw [Function.comp]
      split
      · exact hwinkd x
      · rfl
    rw [Backend.NamesUnique, hmap]
    exact h

theorem NamesKept.createUser (b : Backend) (username winkdId displayName : Text)
    (email passwordHash : Option Text) :
    NamesKept b (b.createUser username winkdId displayName email passwordHash).2 := by
  unfold Backend.createUser
  split
  · exact .of_users rfl rfl
  · rename_i hnone
    have hfree : ∀ x ∈ b.users, x.winkdId ≠ winkdId := by
      intro x hx hw
      have hany : (b.users.any fun u => u.winkdId = winkdId) = true :=
        List.any_eq_true.mpr ⟨x, hx, decide_eq_true hw⟩
      simp only [Backend.newUserError, hany, if_true] at hnone
      split_ifs at hnone
    refine ⟨rfl, ?_, ?_⟩
    · rintro u w ⟨x, hx, hname⟩
      exact ⟨x, List.mem_append_left _ hx, hname⟩
    · intro h
      rw [Backend.NamesUnique, List.map_append, List.nodup_append]
      refine ⟨h, List.nodup_singleton _, ?_⟩
      rintro w hw w' hw' rfl
      obtain ⟨x, hx, rfl⟩ := List.mem_map.mp hw
      exact hfree x hx (by simpa [Backend.newUser] using hw')

/-- **An account endpoint takes nobody's Winkd ID away.** -/
theorem answer_names (r : Op) (b : Backend) : NamesKept b (answer r b).2 := by
  cases r with
  | createUser username winkdId displayName email passwordHash =>
    exact .createUser b username winkdId displayName email passwordHash
  | setTotpSecret u secret => exact .updateUser b u (fun _ => rfl) fun _ => rfl
  | setTotpEnabled u enabled =>
    cases enabled with
    | false => exact .updateUser b u (fun _ => rfl) fun _ => rfl
    | true => exact .updateUser b u (fun _ => rfl) fun _ => rfl
  | linkOauthAccount u provider providerUserId =>
    simp only [answer, Backend.linkOauthAccount]
    split
    · exact .of_users rfl rfl
    · split
      · exact .of_users rfl rfl
      · split <;> exact .of_users rfl rfl
  | createSession u token =>
    simp only [answer, Backend.createSession]
    split
    · exact .of_users rfl rfl
    · split <;> exact .of_users rfl rfl
  | createTotpChallenge u token =>
    simp only [answer, Backend.createTotpChallenge]
    split
    · exact .of_users rfl rfl
    · split <;> exact .of_users rfl rfl
  | _ => exact .of_users rfl rfl

/-- What a statement of a connection does to the accounts: nothing, or it changes one row, but
neither its id nor its Winkd ID. -/
inductive UsersUpdate (b b' : Backend) : Prop where
  | kept (users : b'.users = b.users) (now : b'.now = b.now)
  | updated (u : Id) (f : User → User) (id : ∀ x, (f x).id = x.id) (winkdId : ∀ x, (f x).winkdId = x.winkdId)
      (state : b' = b.updateUser u f)

theorem updateUser_row (s : AppState) (u : Id) (max : ℕ) (values : List (Option Text))
    {f : User → User} (hid : ∀ u, (f u).id = u.id) (hwinkd : ∀ u, (f u).winkdId = u.winkdId) :
    UsersUpdate s.db (s.updateUser u max values f).2.db := by
  rw [AppState.updateUser]
  split
  · exact .kept rfl rfl
  · exact .updated u f hid hwinkd rfl

theorem serve_row (r : RelayOp) (s : AppState) : UsersUpdate s.db (serve r s).2.db := by
  cases r with
  | createContactRequest f t =>
    simp only [serve, AppState.createContactRequest]
    split <;> exact .kept rfl rfl
  | acceptContactRequest id t =>
    simp only [serve, AppState.answerContactRequest]
    split <;> exact .kept rfl rfl
  | rejectContactRequest id t =>
    simp only [serve, AppState.answerContactRequest]
    split <;> exact .kept rfl rfl
  | createBlock a b =>
    simp only [serve, AppState.createBlock]
    split
    · exact .kept rfl rfl
    · split <;> exact .kept rfl rfl
  | updateUserMood u mood => exact updateUser_row s u _ _ (fun _ => rfl) fun _ => rfl
  | updateUserDisplayName u name nameColor avColor =>
    simp only [serve]
    split
    · exact .kept rfl rfl
    · exact updateUser_row s u _ _ (fun _ => rfl) fun _ => rfl
  | updateUserAvatar u avatarData =>
    exact .updated u (fun x => { x with avatarData := avatarData }) (fun _ => rfl) (fun _ => rfl) rfl
  | updateUserProfileStyle u nameColor avColor =>
    exact updateUser_row s u _ _ (fun _ => rfl) fun _ => rfl
  | queuePendingMessage m clientMsgId payload =>
    simp only [serve, AppState.queuePendingMessage_state]
    split <;> exact .kept rfl rfl
  | clientsRemove u sessionId =>
    simp only [serve, AppState.clientsRemove]
    split <;> exact .kept rfl rfl
  | send c item =>
    obtain ⟨channels, h⟩ := send_state s c item
    simp only [serve, h]
    exact .kept rfl rfl
  | sendToAll ids item =>
    obtain ⟨channels, h⟩ := sendToAll_state s ids item
    simp only [serve, h]
    exact .kept rfl rfl
  | _ => exact .kept rfl rfl

/-- **Nor does a connection.** -/
theorem serve_names (r : RelayOp) (s : AppState) : NamesKept s.db (serve r s).2.db := by
  cases serve_row r s with
  | kept husers hnow => exact .of_users husers hnow
  | updated u f hid hwinkd hstate =>
    rw [hstate]
    exact .updateUser s.db u hid hwinkd

theorem outside_hasName (s : AppState) (e : RelayEvent) {u : Id} {w : Text}
    (h : s.db.HasName u w) : (s.outside e).db.HasName u w := by
  cases e with
  | account r => exact (answer_names r s.db).kept u w h
  | _ => exact h

theorem outside_namesUnique (s : AppState) (e : RelayEvent) (h : s.db.NamesUnique) :
    (s.outside e).db.NamesUnique := by
  cases e with
  | account r => exact (answer_names r s.db).unique h
  | _ => exact h

/-! ## Ids -/

namespace AppState
variable {s : AppState}

theorem serve_drawn (r : RelayOp) (s : AppState) : s.db.drawn ≤ (serve r s).2.db.drawn := by
  have hupdate : ∀ u max values f, s.db.drawn ≤ (s.updateUser u max values f).2.db.drawn := by
    intro u max values f
    rw [updateUser]
    split <;> exact le_rfl
  have hanswer : ∀ id t status, s.db.drawn ≤ (s.answerContactRequest id t status).2.db.drawn := by
    intro id t status
    rw [answerContactRequest]
    split <;> exact le_rfl
  -- ids are drawn for requests, messages and sessions
  cases r with
  | createContactRequest f t =>
    simp only [serve, createContactRequest]
    split
    · exact le_rfl
    · exact Nat.le_succ _
  | acceptContactRequest id t => exact hanswer id t .accepted
  | rejectContactRequest id t => exact hanswer id t .rejected
  | createBlock a b =>
    simp only [serve, createBlock]
    split
    · exact le_rfl
    · split <;> exact le_rfl
  | updateUserMood u mood => exact hupdate u _ _ _
  | updateUserDisplayName u name nameColor avColor =>
    simp only [serve]
    split
    · exact le_rfl
    · exact hupdate u _ _ _
  | updateUserProfileStyle u nameColor avColor => exact hupdate u _ _ _
  | queuePendingMessage m clientMsgId payload =>
    simp only [serve, queuePendingMessage_state]
    split
    · exact le_rfl
    · exact Nat.le_succ _
  | newSessionId => exact Nat.le_succ _
  | clientsRemove u sessionId =>
    simp only [serve, clientsRemove]
    split <;> exact le_rfl
  | send c item =>
    obtain ⟨channels, h⟩ := send_state s c item
    simp only [serve, h]
    exact le_rfl
  | sendToAll ids item =>
    obtain ⟨channels, h⟩ := sendToAll_state s ids item
    simp only [serve, h]
    exact le_rfl
  | _ => exact le_rfl

theorem answer_drawn (r : Op) (b : Backend) : b.drawn ≤ (answer r b).2.drawn := by
  cases answer_users r b with
  | kept _ _ hdrawn => exact hdrawn
  | created _ _ _ _ hdrawn => exact hdrawn ▸ Nat.le_succ _
  | secretSet id secret _ hstate =>
    rw [hstate]
    exact le_rfl
  | enabledSet id enabled _ hstate =>
    rw [hstate]
    cases enabled <;> exact le_rfl

end AppState

/-- **A connection keeps the ids of the accounts distinct.** -/
theorem Accounts.serve {s : AppState} (hs : Accounts s.db) (r : RelayOp) :
    Accounts (Server.serve r s).2.db := by
  cases serve_row r s with
  | kept husers _ => exact hs.of_users husers (AppState.serve_drawn r s)
  | updated u f hid _ hstate =>
    rw [hstate]
    exact hs.updateUser u hid

theorem Accounts.outside {s : AppState} (hs : Accounts s.db) (e : RelayEvent) :
    Accounts (s.outside e).db := by
  cases e with
  | account r => exact hs.answer r
  | clock now => exact ⟨hs.distinct, hs.drawn⟩
  | _ => exact hs

/-- One id has one Winkd ID. -/
theorem Accounts.name_eq {b : Backend} (hb : Accounts b) {u : Id} {w w' : Text} (h : b.HasName u w)
    (h' : b.HasName u w') : w' = w := by
  obtain ⟨x, hx, hxu, rfl⟩ := h
  obtain ⟨y, hy, hyu, rfl⟩ := h'
  rw [hb.eq_of_id hy hx (hyu.trans hxu.symm)]

/-- One Winkd ID is of one user. -/
theorem name_unique {b : Backend} (hunique : b.NamesUnique) {u v : Id} {w : Text} (hu : b.HasName u w)
    (hv : b.HasName v w) : v = u := by
  obtain ⟨x, hx, rfl, hxw⟩ := hu
  obtain ⟨y, hy, rfl, hyw⟩ := hv
  rw [List.inj_on_of_nodup_map hunique hy hx (hyw.trans hxw.symm)]

end Winkd.Server
