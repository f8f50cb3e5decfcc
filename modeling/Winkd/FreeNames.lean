import Winkd.Service
import Mathlib.Tactic.SplitIfs

/-!
# Names that are generated

`unique_username` and `unique_winkd_id` try some candidates and take the first that nobody has.  When
all are taken they fall back on four digits of a UUID, and that name they do not look up: it is free
just if the database happens not to have it (`generated_names_iff`).
-/

namespace Winkd.Server

/-! ## Bounded searches -/

/-- The first candidate that is not taken, else the fallback. -/
def firstFree {α : Type} (taken : α → Bool) (candidates : List α) (fallback : α) : α :=
  (candidates.find? fun c => !taken c).getD fallback

/-- **Only the fallback can be taken**, and only if every candidate is. -/
theorem taken_firstFree_iff {α : Type} (taken : α → Bool) (candidates : List α) (fallback : α) :
    taken (firstFree taken candidates fallback) = true ↔
      (∀ c ∈ candidates, taken c = true) ∧ taken fallback = true := by
  induction candidates with
  | nil => exact (and_iff_right fun c hc => absurd hc List.not_mem_nil).symm
  | cons c candidates ih =>
    rw [firstFree, List.find?_cons, List.forall_mem_cons]
    by_cases hc : taken c = true
    · rw [hc, and_iff_right rfl]
      exact ih
    · rw [Bool.not_eq_true] at hc
      rw [hc]
      exact iff_of_false (by rw [Bool.not_false, Option.getD_some, hc]; exact Bool.false_ne_true)
        fun h => Bool.false_ne_true h.1.1

theorem firstFree_cons {α : Type} (taken : α → Bool) (c : α) (candidates : List α) (fallback : α) :
    firstFree taken (c :: candidates) fallback =
      if taken c = true then firstFree taken candidates fallback else c := by
  rw [firstFree, List.find?_cons]
  cases taken c <;> rfl

theorem mem_firstFree {α : Type} (taken : α → Bool) (candidates : List α) (fallback : α) :
    firstFree taken candidates fallback ∈ candidates ∨ firstFree taken candidates fallback = fallback := by
  rw [firstFree]
  cases hfind : candidates.find? fun c => !taken c with
  | none => exact .inr rfl
  | some c => exact .inl (List.mem_of_find?_eq_some hfind)

theorem firstFree_mem {α : Type} {taken : α → Bool} {candidates : List α} {c : α} (hc : c ∈ candidates)
    (hfree : taken c = false) (fallback : α) : firstFree taken candidates fallback ∈ candidates := by
  rw [firstFree]
  have hfind : (candidates.find? fun c => !taken c).isSome = true :=
    List.find?_isSome.2 ⟨c, hc, by rw [hfree]; rfl⟩
  obtain ⟨d, hd⟩ := Option.isSome_iff_exists.1 hfind
  rw [hd]
  exact List.mem_of_find?_eq_some hd

theorem firstFree_of_taken {α : Type} {taken : α → Bool} {candidates : List α}
    (htaken : ∀ c ∈ candidates, taken c = true) (fallback : α) :
    firstFree taken candidates fallback = fallback := by
  rw [firstFree, List.find?_eq_none.2 fun c hc => by rw [htaken c hc]; exact Bool.false_ne_true]
  rfl

/-! ## The two searches -/

variable (o : Outside) (b : Backend) (base : Text)

def usernameTaken (username : Text) : Bool := b.users.any fun u => u.username = username

def winkdIdTaken (winkdId : Text) : Bool := b.users.any fun u => u.winkdId = winkdId

/-- The usernames `unique_username` looks up. -/
def usernameCandidates : List Text :=
  base :: (List.range' 2 98).map fun i => base ++ (toString i).toList

/-- The ids `unique_winkd_id` looks up. -/
def winkdIdCandidates : List Text :=
  (List.range' 0 20).map fun i => base ++ '#' :: Text.pad4 (o.suffix i % 10000)

/-- Nobody has the username that is generated, and so an account can be created with it. -/
def UsernameGenerated : Prop :=
  ∀ username, ((uniqueUsername o base).run answer b).1 = .ok username →
    (∀ u ∈ b.users, u.username ≠ username) ∧ ∀ winkdId displayName email passwordHash,
      (((uniqueUsername o base).run answer b).2.createUser username winkdId displayName email
        passwordHash).1 ≠ .error (.unique "users_username_key")

/-- Nobody has the id that is generated, and so an account can be created with it. -/
def WinkdIdGenerated : Prop :=
  ∀ winkdId, ((uniqueWinkdId o base).run answer b).1 = .ok winkdId →
    (∀ u ∈ b.users, u.winkdId ≠ winkdId) ∧ ∀ username displayName email passwordHash,
      (((uniqueWinkdId o base).run answer b).2.createUser username winkdId displayName email
        passwordHash).1 ≠ .error (.unique "users_winkd_id_key")

/-- Some candidate is free, or the fallback is. -/
def UsernameLeft : Prop :=
  (∃ c ∈ usernameCandidates base, ∀ u ∈ b.users, u.username ≠ c) ∨
    ∀ u ∈ b.users, u.username ≠ base ++ o.usernameUuid.digits

def WinkdIdLeft : Prop :=
  (∃ c ∈ winkdIdCandidates o base, ∀ u ∈ b.users, u.winkdId ≠ c) ∨
    ∀ u ∈ b.users, u.winkdId ≠ base ++ '#' :: o.winkdIdUuid.digits

variable {o b base}

theorem usernameTaken_eq_false_iff {username : Text} :
    usernameTaken b username = false ↔ ∀ u ∈ b.users, u.username ≠ username := by
  rw [usernameTaken, List.any_eq_false]
  exact forall₂_congr fun u _ => not_congr decide_eq_true_iff

theorem winkdIdTaken_eq_false_iff {winkdId : Text} :
    winkdIdTaken b winkdId = false ↔ ∀ u ∈ b.users, u.winkdId ≠ winkdId := by
  rw [winkdIdTaken, List.any_eq_false]
  exact forall₂_congr fun u _ => not_congr decide_eq_true_iff

theorem isSome_findUserByUsername (username : Text) :
    (b.findUserByUsername username).isSome = usernameTaken b username := List.isSome_find?

/-- **What `unique_username` returns.** -/
theorem run_uniqueUsername (o : Outside) (b : Backend) (base : Text) :
    (uniqueUsername o base).run answer b =
      (.ok (firstFree (usernameTaken b) (usernameCandidates base) (base ++ o.usernameUuid.digits)), b) := by
  have hlook : ∀ (username : Text) (k : Option User → Handler Text),
      (findUserByUsername username >>= k).run answer b = (k (b.findUserByUsername username)).run answer b :=
    fun _ _ => rfl
  have htry : ∀ n i, (uniqueUsername.tryFrom o base i n).run answer b =
      (.ok (firstFree (usernameTaken b) ((List.range' i n).map fun i => base ++ (toString i).toList)
        (base ++ o.usernameUuid.digits)), b) := by
    intro n
    induction n with
    | zero => exact fun _ => rfl
    | succ n ih =>
      intro i
      rw [uniqueUsername.tryFrom, hlook, List.range'_succ, List.map_cons, firstFree_cons,
        ← isSome_findUserByUsername]
      cases b.findUserByUsername (base ++ (toString i).toList) with
      | none => rfl
      | some u => exact ih (i + 1)
  rw [uniqueUsername, hlook, usernameCandidates, firstFree_cons, ← isSome_findUserByUsername]
  cases b.findUserByUsername base with
  | none => rfl
  | some u => exact htry 98 2

/-- **What `unique_winkd_id` returns.** -/
theorem run_uniqueWinkdId (o : Outside) (b : Backend) (base : Text) :
    (uniqueWinkdId o base).run answer b =
      (.ok (firstFree (winkdIdTaken b) (winkdIdCandidates o base)
        (base ++ '#' :: o.winkdIdUuid.digits)), b) := by
  have htry : ∀ n i, (uniqueWinkdId.tryFrom o base i n).run answer b =
      (.ok (firstFree (winkdIdTaken b)
        ((List.range' i n).map fun i => base ++ '#' :: Text.pad4 (o.suffix i % 10000))
        (base ++ '#' :: o.winkdIdUuid.digits)), b) := by
    intro n
    induction n with
    | zero => exact fun _ => rfl
    | succ n ih =>
      intro i
      rw [List.range'_succ, List.map_cons, firstFree_cons]
      show (if winkdIdTaken b (base ++ '#' :: Text.pad4 (o.suffix i % 10000)) = true then
          uniqueWinkdId.tryFrom o base (i + 1) n
        else pure (base ++ '#' :: Text.pad4 (o.suffix i % 10000)) : Handler Text).run answer b = _
      split
      · exact ih (i + 1)
      · rfl
  exact htry 20 0

/-! ## Constraints -/

/-- A violated constraint is not a value that is too long, nor another constraint. -/
theorem tooLong_ne_unique (n : ℕ) (constraint : String) : DbError.tooLong n ≠ .unique constraint := by
  intro h
  have htext := congrArg String.toList (congrArg DbError.text h)
  unfold DbError.tooLong DbError.unique at htext
  simp [String.toList_append] at htext

theorem unique_inj {constraint constraint' : String}
    (h : DbError.unique constraint = .unique constraint') : constraint.toList = constraint'.toList := by
  have htext := congrArg String.toList (congrArg DbError.text h)
  unfold DbError.unique at htext
  simpa [String.toList_append] using htext

/-- **A constraint on a new row is violated only by a row that is there.** -/
theorem newUserError_unique {username winkdId displayName : Text} {email passwordHash : Option Text}
    {constraint : String}
    (h : b.newUserError username winkdId displayName email passwordHash =
      some (.unique constraint)) :
    constraint.toList = "users_username_key".toList ∧ usernameTaken b username = true ∨
      constraint.toList = "users_winkd_id_key".toList ∧ winkdIdTaken b winkdId = true ∨
      constraint.toList = "users_email_key".toList := by
  unfold Backend.newUserError at h
  split_ifs at h
  iterate 5 exact absurd (Option.some.inj h) (tooLong_ne_unique _ _)
  · exact .inl ⟨(unique_inj (Option.some.inj h)).symm, ‹_›⟩
  · exact .inr (.inl ⟨(unique_inj (Option.some.inj h)).symm, ‹_›⟩)
  · exact .inr (.inr (unique_inj (Option.some.inj h)).symm)

theorem createUser_error {username winkdId displayName : Text} {email passwordHash : Option Text}
    {e : DbError} (h : (b.createUser username winkdId displayName email passwordHash).1 = .error e) :
    b.newUserError username winkdId displayName email passwordHash = some e := by
  rw [Backend.createUser] at h
  cases hnew : b.newUserError username winkdId displayName email passwordHash with
  | none => rw [hnew] at h; cases h
  | some e' => rw [hnew] at h; exact congrArg some (Except.error.inj h)

theorem createUser_ne_username {username : Text} (hfree : usernameTaken b username = false)
    (winkdId displayName : Text) (email passwordHash : Option Text) :
    (b.createUser username winkdId displayName email passwordHash).1 ≠
      .error (.unique "users_username_key") := by
  intro h
  obtain ⟨_, htaken⟩ | ⟨hname, _⟩ | hname := newUserError_unique (createUser_error h)
  · exact Bool.false_ne_true (hfree.symm.trans htaken)
  · simp at hname
  · simp at hname

theorem createUser_ne_winkdId {winkdId : Text} (hfree : winkdIdTaken b winkdId = false)
    (username displayName : Text) (email passwordHash : Option Text) :
    (b.createUser username winkdId displayName email passwordHash).1 ≠
      .error (.unique "users_winkd_id_key") := by
  intro h
  obtain ⟨hname, _⟩ | ⟨_, htaken⟩ | hname := newUserError_unique (createUser_error h)
  · simp at hname
  · exact Bool.false_ne_true (hfree.symm.trans htaken)
  · simp at hname

/-! ## When the names are free -/

theorem usernameGenerated_iff (o : Outside) (b : Backend) (base : Text) :
    UsernameGenerated o b base ↔ UsernameLeft o b base := by
  have hleft : UsernameLeft o b base ↔ usernameTaken b
      (firstFree (usernameTaken b) (usernameCandidates base) (base ++ o.usernameUuid.digits)) = false := by
    rw [← Bool.not_eq_true, taken_firstFree_iff, UsernameLeft, not_and_or, Bool.not_eq_true,
      usernameTaken_eq_false_iff]
    refine or_congr_left ?_
    simp only [not_forall, exists_prop, Bool.not_eq_true, usernameTaken_eq_false_iff]
  rw [hleft, UsernameGenerated, run_uniqueUsername]
  constructor
  · intro h
    exact usernameTaken_eq_false_iff.2 (h _ rfl).1
  · rintro hfree username ⟨⟩
    exact ⟨usernameTaken_eq_false_iff.1 hfree, createUser_ne_username hfree⟩

theorem winkdIdGenerated_iff (o : Outside) (b : Backend) (base : Text) :
    WinkdIdGenerated o b base ↔ WinkdIdLeft o b base := by
  have hleft : WinkdIdLeft o b base ↔ winkdIdTaken b (firstFree (winkdIdTaken b)
      (winkdIdCandidates o base) (base ++ '#' :: o.winkdIdUuid.digits)) = false := by
    rw [← Bool.not_eq_true, taken_firstFree_iff, WinkdIdLeft, not_and_or, Bool.not_eq_true,
      winkdIdTaken_eq_false_iff]
    refine or_congr_left ?_
    simp only [not_forall, exists_prop, Bool.not_eq_true, winkdIdTaken_eq_false_iff]
  rw [hleft, WinkdIdGenerated, run_uniqueWinkdId]
  constructor
  · intro h
    exact winkdIdTaken_eq_false_iff.2 (h _ rfl).1
  · rintro hfree winkdId ⟨⟩
    exact ⟨winkdIdTaken_eq_false_iff.1 hfree, createUser_ne_winkdId hfree⟩

/-- **A generated name is free just if a candidate is, or the last resort.** -/
theorem generated_names_iff (o : Outside) (b : Backend) (base : Text) :
    (UsernameGenerated o b base ↔ UsernameLeft o b base) ∧
      (WinkdIdGenerated o b base ↔ WinkdIdLeft o b base) :=
  ⟨usernameGenerated_iff o b base, winkdIdGenerated_iff o b base⟩

/-! ## A crowded name -/

/-- Everything `unique_username` looks up for `ada`, and the name it then makes up. -/
def Sample.crowd : List Text := usernameCandidates "ada".toList ++ ["adaabcd".toList]

/-- An account for each name of the crowd. -/
def Sample.crowded : Backend :=
  { Backend.init 0 with users := crowd.zipIdx.map fun p =>
      { (Backend.init 0).newUser p.1 (p.1 ++ "#0000".toList) p.1 none none with id := p.2 } }

/-- The last resort is a name somebody has. -/
theorem generated_username_taken :
    ¬ UsernameGenerated (Sample.outside "") Sample.crowded "ada".toList := by
  rw [usernameGenerated_iff]
  have htaken : ∀ c ∈ Sample.crowd, ∃ u ∈ Sample.crowded.users, u.username = c := by
    intro c hc
    rw [← List.zipIdx_map_fst 0 Sample.crowd] at hc
    obtain ⟨p, hp, rfl⟩ := List.mem_map.1 hc
    exact ⟨_, List.mem_map_of_mem hp, rfl⟩
  rintro (⟨c, hc, hfree⟩ | hfree)
  · obtain ⟨u, hu, heq⟩ := htaken c (List.mem_append_left _ hc)
    exact hfree u hu heq
  · obtain ⟨u, hu, heq⟩ := htaken "adaabcd".toList (List.mem_append_right _ List.mem_cons_self)
    exact hfree u hu heq

end Winkd.Server
