import Winkd.AccountOwners
import Winkd.FreeNames

/-!
# The names of an account

An account keeps the id, the username, the e-mail address and the password hash that it was created
with, and no other account has its username or its address (`Service.Reached.distinct`): so a lookup
finds it just by the name or the address as it was stored.
-/

namespace Winkd.Server

/-- The columns of an account that no statement changes. -/
structure Names where
  id : Id
  username : Text
  email : Option Text
  passwordHash : Option Text
  deriving DecidableEq

def User.names (u : User) : Names := ⟨u.id, u.username, u.email, u.passwordHash⟩

def Backend.names (b : Backend) : List Names := b.users.map User.names

/-! ## What statements do to them -/

theorem map_updateUser {β : Type} {g : User → β} (b : Backend) (id : Id) {f : User → User}
    (hf : ∀ u, g (f u) = g u) : (b.updateUser id f).users.map g = b.users.map g := by
  show (b.users.map _).map g = _
  rw [List.map_map]
  refine List.map_congr_left fun u _ => ?_
  show g (if u.id = id then f u else u) = g u
  split
  · exact hf u
  · rfl

/-- **A statement keeps the columns of the accounts**, but the two of the second factor, and but that
an account may be created. -/
theorem users_answer {β : Type} {g : User → β}
    (hg : ∀ u secret enabled, g { u with totpSecret := secret, totpEnabled := enabled } = g u) (r : Op)
    (b : Backend) : (answer r b).2.users.map g = b.users.map g ∨
      ∃ username winkdId displayName email hash, r = .createUser username winkdId displayName email hash ∧
        b.newUserError username winkdId displayName email hash = none ∧
        (answer r b).2.users.map g =
          b.users.map g ++ [g (b.newUser username winkdId displayName email hash)] := by
  cases r with
  | createUser username winkdId displayName email hash =>
    simp only [answer, Backend.createUser]
    cases hnew : b.newUserError username winkdId displayName email hash with
    | some e => exact .inl rfl
    | none => exact .inr ⟨_, _, _, _, _, rfl, hnew, List.map_append⟩
  | setTotpSecret u secret => exact .inl (map_updateUser b u fun u => hg u (some secret) u.totpEnabled)
  | setTotpEnabled u enabled =>
    cases enabled with
    | false => exact .inl (map_updateUser b u fun u => hg u none false)
    | true => exact .inl (map_updateUser b u fun u => hg u u.totpSecret true)
  | linkOauthAccount u provider providerUserId =>
    simp only [answer, Backend.linkOauthAccount]
    split
    · exact .inl rfl
    · split
      · exact .inl rfl
      · split <;> exact .inl rfl
  | createSession u token =>
    simp only [answer, Backend.createSession]
    split
    · exact .inl rfl
    · split <;> exact .inl rfl
  | createTotpChallenge u token =>
    simp only [answer, Backend.createTotpChallenge]
    split
    · exact .inl rfl
    · split <;> exact .inl rfl
  | _ => exact .inl rfl

/-- **A statement keeps the names**, but that an account may be created. -/
theorem names_answer (r : Op) (b : Backend) : (answer r b).2.names = b.names ∨
    ∃ username winkdId displayName email hash, r = .createUser username winkdId displayName email hash ∧
      b.newUserError username winkdId displayName email hash = none ∧
      (answer r b).2.names = b.names ++ [⟨b.drawn, username, email, hash⟩] :=
  users_answer (fun _ _ _ => rfl) r b

theorem mem_names_answer (r : Op) {b : Backend} {n : Names} (hn : n ∈ b.names) :
    n ∈ (answer r b).2.names := by
  obtain heq | ⟨_, _, _, _, _, -, -, heq⟩ := names_answer r b
  · exact heq ▸ hn
  · exact heq ▸ List.mem_append_left _ hn

/-! ## No two accounts have one name -/

/-- No two accounts have one username, nor one e-mail address. -/
structure Distinct (b : Backend) : Prop where
  usernames : ∀ m ∈ b.names, ∀ n ∈ b.names, m.username = n.username → m = n
  emails : ∀ m ∈ b.names, ∀ n ∈ b.names, ∀ e, m.email = some e → n.email = some e → m = n

theorem Distinct.init (now : ℕ) : Distinct (.init now) := ⟨fun _ h => (nomatch h), fun _ h => nomatch h⟩

/-- A row that violates no constraint has a name and an address that nobody has. -/
theorem new_of_newUserError {b : Backend} {username winkdId displayName : Text} {email hash : Option Text}
    (h : b.newUserError username winkdId displayName email hash = none) :
    (∀ n ∈ b.names, n.username ≠ username) ∧ ∀ e, email = some e → ∀ n ∈ b.names, n.email ≠ some e := by
  unfold Backend.newUserError at h
  split_ifs at h with _ _ _ _ _ husername _ hemail
  constructor
  · intro n hn heq
    obtain ⟨u, hu, rfl⟩ := List.mem_map.1 hn
    exact husername (List.any_eq_true.2 ⟨u, hu, decide_eq_true heq⟩)
  · rintro e rfl n hn heq
    obtain ⟨u, hu, rfl⟩ := List.mem_map.1 hn
    exact hemail ⟨rfl, List.any_eq_true.2 ⟨u, hu, decide_eq_true heq⟩⟩

/-- **A statement keeps them distinct.** -/
theorem Distinct.answer {b : Backend} (hb : Distinct b) (r : Op) : Distinct (Server.answer r b).2 := by
  obtain heq | ⟨username, _, _, email, hash, -, hnew, heq⟩ := names_answer r b
  · exact ⟨heq ▸ hb.usernames, heq ▸ hb.emails⟩
  obtain ⟨husername, hemail⟩ := new_of_newUserError hnew
  constructor
  · rw [heq]
    intro m hm n hn hmn
    rw [List.mem_append, List.mem_singleton] at hm hn
    obtain hm | rfl := hm
    · obtain hn | rfl := hn
      · exact hb.usernames m hm n hn hmn
      · exact absurd hmn (husername m hm)
    · obtain hn | rfl := hn
      · exact absurd hmn.symm (husername n hn)
      · rfl
  · rw [heq]
    intro m hm n hn e hme hne
    rw [List.mem_append, List.mem_singleton] at hm hn
    obtain hm | rfl := hm
    · obtain hn | rfl := hn
      · exact hb.emails m hm n hn e hme hne
      · exact absurd hme (hemail e hne m hm)
    · obtain hn | rfl := hn
      · exact absurd hne (hemail e hme n hn)
      · rfl

/-- **In every state reached no two accounts have one username or one e-mail address.** -/
theorem Service.Reached.distinct {C : Crates} {s : Service} (hs : s.Reached C) : Distinct s.state := by
  obtain ⟨now, hreach⟩ := hs
  refine hreach.invariant (I := fun s => Distinct s.state) (Distinct.init now) ?_
  intro s e hs he
  exact next_invariant (fun r _ h => h.answer r) (fun _ _ _ h => ⟨h.usernames, h.emails⟩) hs he

/-! ## Lookups -/

section Lookups
variable {b : Backend} {u v : User} {t : Text}

theorem User.mem_names (hu : u ∈ b.users) : u.names ∈ b.names := List.mem_map_of_mem hu

theorem Accounts.eq_of_names (hb : Accounts b) (hu : u ∈ b.users) (hv : v ∈ b.users)
    (h : u.names = v.names) : u = v := hb.eq_of_id hu hv (congrArg Names.id h)

theorem of_findUserByUsername (h : b.findUserByUsername t = some u) : u ∈ b.users ∧ u.username = t :=
  ⟨List.mem_of_find?_eq_some h,
    of_decide_eq_true (List.find?_some (p := fun v : User => decide (v.username = t)) h)⟩

theorem of_findUserByEmail (h : b.findUserByEmail t = some u) : u ∈ b.users ∧ u.email = some t :=
  ⟨List.mem_of_find?_eq_some h,
    of_decide_eq_true (List.find?_some (p := fun v : User => decide (v.email = some t)) h)⟩

/-- **An account is found just by its username.** -/
theorem findUserByUsername_iff (hb : Accounts b) (hd : Distinct b) (hu : u ∈ b.users) :
    b.findUserByUsername t = some u ↔ u.username = t := by
  refine ⟨fun h => (of_findUserByUsername h).2, fun h => ?_⟩
  have hsome : (b.findUserByUsername t).isSome = true :=
    List.find?_isSome.2 ⟨u, hu, decide_eq_true h⟩
  obtain ⟨v, hv⟩ := Option.isSome_iff_exists.1 hsome
  obtain ⟨hmem, hname⟩ := of_findUserByUsername hv
  have hnames := hd.usernames _ (User.mem_names hmem) _ (User.mem_names hu) (hname.trans h.symm)
  rw [hv, hb.eq_of_names hmem hu hnames]

/-- **An account is found just by its e-mail address as it is stored.** -/
theorem findUserByEmail_iff (hb : Accounts b) (hd : Distinct b) (hu : u ∈ b.users) :
    b.findUserByEmail t = some u ↔ u.email = some t := by
  refine ⟨fun h => (of_findUserByEmail h).2, fun h => ?_⟩
  have hsome : (b.findUserByEmail t).isSome = true :=
    List.find?_isSome.2 ⟨u, hu, decide_eq_true h⟩
  obtain ⟨v, hv⟩ := Option.isSome_iff_exists.1 hsome
  obtain ⟨hmem, hemail⟩ := of_findUserByEmail hv
  have hnames := hd.emails _ (User.mem_names hmem) _ (User.mem_names hu) t hemail h
  rw [hv, hb.eq_of_names hmem hu hnames]

end Lookups

/-! ## Logins -/

/-- The account a login names. -/
def Backend.loginUser (b : Backend) (input : Text) : Option User :=
  if input.contains '@' then b.findUserByEmail input else b.findUserByUsername input

theorem run_findLoginUser (b : Backend) (input : Text) :
    (findLoginUser input).run answer b = (.ok (b.loginUser input), b) := by
  rw [findLoginUser, Backend.loginUser]
  split <;> rfl

end Winkd.Server
