import Winkd.RegisteredLogins
import Winkd.Footprint

/-!
# Identifiers are well formed

A username is made by `sanitize_id_part`, of a provider's slug where that has nothing to make it of, and
may get two digits or four hexadecimal ones after it; a Winkd ID is the username with `#` and four
characters after it.  So whatever comes in, the names that are stored consist of characters that are
allowed, fit their columns, and can be told from an e-mail address (`names_well_formed`).
-/

namespace Winkd.Server

/-! ## The characters -/

/-- `[a-z0-9_-]` -/
def isUsernameChar (c : Char) : Bool := c.isLower || c.isDigit || c == '_' || c == '-'

theorem isUsernameChar_iff (c : Char) : isUsernameChar c = true ↔
    97 ≤ c.toNat ∧ c.toNat ≤ 122 ∨ 48 ≤ c.toNat ∧ c.toNat ≤ 57 ∨ c.toNat = 95 ∨ c.toNat = 45 := by
  have hle : ∀ a b : Char, a.val ≤ b.val ↔ a.toNat ≤ b.toNat := fun _ _ => UInt32.le_iff_toNat_le
  have heq : ∀ d : Char, c = d ↔ c.toNat = d.toNat := fun _ => Char.toNat_inj.symm
  simp only [isUsernameChar, Char.isLower, Char.isDigit, Bool.or_eq_true, Bool.and_eq_true,
    decide_eq_true_eq, beq_iff_eq, ge_iff_le]
  rw [heq '_', heq '-', or_assoc, or_assoc]
  exact Iff.rfl

theorem isUsernameChar_toLower {c : Char} (hc : isNameChar c = true) : isUsernameChar c.toLower = true := by
  rw [isNameChar_iff] at hc
  rw [isUsernameChar_iff, Text.toNat_toLower]
  split <;> omega

theorem isNameChar_of_isUsernameChar {c : Char} (hc : isUsernameChar c = true) : isNameChar c = true := by
  rw [isUsernameChar_iff] at hc
  rw [isNameChar_iff]
  omega

theorem toLower_of_isUsernameChar {c : Char} (hc : isUsernameChar c = true) : c.toLower = c := by
  rw [isUsernameChar_iff] at hc
  apply Text.toLower_eq_self
  omega

theorem isUsernameChar_of_isUuidDigit {c : Char} (hc : isUuidDigit c = true) : isUsernameChar c = true := by
  have hle : ∀ a b : Char, a ≤ b ↔ a.toNat ≤ b.toNat := fun _ _ => UInt32.le_iff_toNat_le
  rw [isUuidDigit, Bool.or_eq_true, Bool.and_eq_true, decide_eq_true_eq, decide_eq_true_eq, hle, hle] at hc
  have ha : 'a'.toNat = 97 := rfl
  have hf : 'f'.toNat = 102 := rfl
  obtain hdigit | hletter := hc
  · rw [isUsernameChar, hdigit, Bool.or_true]
    rfl
  · rw [isUsernameChar_iff]
    omega

theorem isUsernameChar_of_isDigit {c : Char} (hc : c.isDigit = true) : isUsernameChar c = true := by
  rw [isUsernameChar, hc, Bool.or_true]
  rfl

/-! ## `sanitize_id_part` -/

/-- What `sanitize_id_part` makes has at most 24 characters too, and capitals are gone. -/
theorem sanitizeIdPart_short (t : Text) :
    (sanitizeIdPart t).length ≤ 24 ∧ ∀ c ∈ sanitizeIdPart t, isUsernameChar c = true := by
  have hkept : ∀ c ∈ Text.toAsciiLowercase ((t.filter isNameChar).take 24), isUsernameChar c = true := by
    intro c hc
    obtain ⟨d, hd, rfl⟩ := List.mem_map.1 hc
    exact isUsernameChar_toLower (List.mem_filter.1 (List.mem_of_mem_take hd)).2
  rw [show sanitizeIdPart t = if (Text.toAsciiLowercase ((t.filter isNameChar).take 24)).len < 3 then
    "winkd".toList else Text.toAsciiLowercase ((t.filter isNameChar).take 24) from rfl]
  split
  · exact ⟨by decide, List.all_eq_true.1 (by decide)⟩
  · refine ⟨?_, hkept⟩
    rw [Text.toAsciiLowercase, List.length_map]
    exact List.length_take_le 24 _

/-- **A text that could be its result is left as it is.** -/
theorem sanitizeIdPart_eq_self {t : Text} (hlong : 3 ≤ t.length) (hshort : t.length ≤ 24)
    (ht : ∀ c ∈ t, isUsernameChar c = true) : sanitizeIdPart t = t := by
  have hfilter : t.filter isNameChar = t :=
    List.filter_eq_self.2 fun c hc => isNameChar_of_isUsernameChar (ht c hc)
  have hlower : Text.toAsciiLowercase t = t := by
    rw [Text.toAsciiLowercase]
    exact (List.map_congr_left fun c hc => toLower_of_isUsernameChar (ht c hc)).trans (List.map_id t)
  have hlen : t.len = t.length := Text.len_eq_length fun c hc =>
    toNat_lt_of_isNameChar (isNameChar_of_isUsernameChar (ht c hc))
  show (if (Text.toAsciiLowercase ((t.filter isNameChar).take 24)).len < 3 then "winkd".toList
    else Text.toAsciiLowercase ((t.filter isNameChar).take 24)) = t
  rw [hfilter, List.take_of_length_le hshort, hlower, if_neg (by omega)]

/-! ## What is added -/

/-- At most so many characters, all of them allowed. -/
def IsName (n : ℕ) (t : Text) : Prop := t.length ≤ n ∧ ∀ c ∈ t, isUsernameChar c = true

theorem IsName.append {m n : ℕ} {s t : Text} (hs : IsName m s) (ht : IsName n t) :
    IsName (m + n) (s ++ t) := by
  refine ⟨?_, List.forall_mem_append.2 ⟨hs.2, ht.2⟩⟩
  rw [List.length_append]
  exact Nat.add_le_add hs.1 ht.1

theorem IsName.mono {m n : ℕ} {t : Text} (ht : IsName m t) (h : m ≤ n) : IsName n t := ⟨ht.1.trans h, ht.2⟩

theorem isName_decimal {i : ℕ} (hi : i < 100) : IsName 2 (toString i).toList := by
  have hdigits : (toString i).toList = Nat.toDigits 10 i := Nat.toList_repr
  rw [hdigits]
  refine ⟨(Nat.length_toDigits_le_iff (by decide) (by decide)).2 hi, fun c hc => ?_⟩
  exact isUsernameChar_of_isDigit (Nat.isDigit_of_mem_toDigits (by decide) (by decide) hc)

theorem isName_uuidStart (u : UuidStart) : IsName 4 u.digits :=
  ⟨Nat.le_of_eq u.length_eq, fun c hc => isUsernameChar_of_isUuidDigit (List.all_eq_true.1 u.isUuid c hc)⟩

theorem isDigit_pad4 {n : ℕ} (hn : n < 10000) : ∀ c ∈ Text.pad4 n, c.isDigit = true := by
  have hdigit : ∀ d < 10, (Text.digit d).isDigit = true := by decide
  simp only [Text.pad4, List.forall_mem_cons, List.not_mem_nil, false_imp_iff, implies_true, and_true]
  exact ⟨hdigit _ (by omega), hdigit _ (by omega), hdigit _ (by omega), hdigit _ (by omega)⟩

theorem isName_slug (p : OAuthProvider) : IsName 24 p.slug := by
  cases p <;> exact ⟨by decide, List.all_eq_true.1 (by decide)⟩

/-! ## The names of an account -/

/-- What the columns and the lookups ask of the names of an account. -/
structure WellFormed (username winkdId : Text) : Prop where
  chars : ∀ c ∈ username, isUsernameChar c = true
  short : username.length ≤ 32
  notEmail : '@' ∉ username
  idShort : winkdId.length ≤ 40
  oneHash : winkdId.count '#' = 1
  split : ∃ suffix : Text, suffix.length = 4 ∧ winkdId = username ++ '#' :: suffix

theorem WellFormed.of_isName {username suffix : Text} (husername : IsName 28 username)
    (hsuffix : IsName 4 suffix) (hfour : suffix.length = 4) :
    WellFormed username (username ++ '#' :: suffix) := by
  have hno : ∀ {n t}, IsName n t → ∀ c, isUsernameChar c = false → c ∉ t := by
    intro n t ht c hc hmem
    exact Bool.false_ne_true (hc.symm.trans (ht.2 c hmem))
  constructor
  case chars => exact husername.2
  case short => exact husername.1.trans (by decide)
  case notEmail => exact hno husername '@' (by decide)
  case idShort =>
    have hlength := husername.1
    rw [List.length_append, List.length_cons]
    omega
  case oneHash =>
    rw [List.count_append, List.count_cons_self,
      List.count_eq_zero_of_not_mem (hno husername '#' (by decide)),
      List.count_eq_zero_of_not_mem (hno hsuffix '#' (by decide))]
  case split => exact ⟨suffix, hfour, rfl⟩

/-! ## The handlers -/

/-- Accounts are created with well-formed names only. -/
def CreatesNamed : Op → Prop
  | .createUser username winkdId _ _ _ => WellFormed username winkdId
  | _ => True

theorem createsNamed_plain (_ : Option User) (r : Op) (hr : r.plain = true) : CreatesNamed r := by
  cases r with
  | createUser _ _ _ _ _ => cases hr
  | _ => trivial

/-- The program creates such accounts only, and what it makes has `Q`. -/
def Makes (Q : Text → Prop) (p : Handler Text) : Prop :=
  ∀ d, p.Along (fun _ r => CreatesNamed r) rowRead (fun _ t => Q t) d

theorem Makes.bind {α : Type} {Q : Text → Prop} {p : Handler Text} {f : Text → Handler α} (hp : Makes Q p)
    (hf : ∀ t, Q t → KeepsTo (fun _ r => CreatesNamed r) (f t)) :
    KeepsTo (fun _ r => CreatesNamed r) (p >>= f) := by
  intro d
  rw [Prog.along_bind]
  exact (hp d).mono (fun _ _ h => h) fun d t ht => hf t ht d

section Handlers
variable (C : Crates) (o : Outside)

theorem makes_uniqueUsername {base : Text} (hbase : IsName 24 base) :
    Makes (IsName 28) (uniqueUsername o base) := by
  have hfrom : ∀ n i, i + n ≤ 100 → Makes (IsName 28) (uniqueUsername.tryFrom o base i n) := by
    intro n
    induction n with
    | zero => exact fun i _ d => hbase.append (isName_uuidStart o.usernameUuid)
    | succ n ih =>
      intro i hi d
      refine ⟨trivial, fun found => ?_⟩
      cases found with
      | error e => trivial
      | ok found =>
        cases found with
        | none => exact (hbase.append (isName_decimal (by omega))).mono (by decide)
        | some u => exact ih (i + 1) (by omega) _
  intro d
  refine ⟨trivial, fun found => ?_⟩
  cases found with
  | error e => trivial
  | ok found =>
    cases found with
    | none => exact hbase.mono (by decide)
    | some u => exact hfrom 98 2 (by decide) _

theorem makes_uniqueWinkdId {username : Text} (husername : IsName 28 username) :
    Makes (WellFormed username) (uniqueWinkdId o username) := by
  have hfrom : ∀ n i, Makes (WellFormed username) (uniqueWinkdId.tryFrom o username i n) := by
    intro n
    induction n with
    | zero => exact fun i d => .of_isName husername (isName_uuidStart _) o.winkdIdUuid.length_eq
    | succ n ih =>
      intro i d
      refine ⟨trivial, fun taken => ?_⟩
      cases taken with
      | error e => trivial
      | ok taken =>
        cases taken with
        | true => exact ih (i + 1) _
        | false =>
          have hdigits : ∀ c ∈ Text.pad4 (o.suffix i % 10000), c.isDigit = true :=
            isDigit_pad4 (Nat.mod_lt _ (by decide))
          exact .of_isName husername ⟨Nat.le_refl 4, fun c hc => isUsernameChar_of_isDigit (hdigits c hc)⟩ rfl
  exact hfrom 20 0

/-- **Every handler creates accounts with well-formed names**, whatever the database answers. -/
theorem handle_createsNamed (req : AuthRequest) : (handle C o req).Asks CreatesNamed := by
  have hcreate : ∀ {username : Text}, IsName 28 username → ∀ displayName email hash,
      KeepsTo (fun _ r => CreatesNamed r) (do
        let winkdId ← uniqueWinkdId o username
        createUser username winkdId displayName email hash) := fun husername _ _ _ =>
    (makes_uniqueWinkdId o husername).bind fun _ hnames => keepsTo_createUser fun _ => hnames
  have hkeeps : KeepsTo (fun _ r => CreatesNamed r) (handle C o req) := by
    cases req with
    | login headers body => exact keepsTo_login createsNamed_plain (fun _ _ _ => trivial) headers body
    | register headers body =>
      refine keepsTo_register createsNamed_plain (keepsTo_registerUser createsNamed_plain headers body ?_)
      apply hcreate
      exact IsName.mono (sanitizeIdPart_short _) (by decide)
    | oauthCallback slug query headers =>
      refine keepsTo_oauthCallback createsNamed_plain (fun provider info => ?_) slug query headers
      refine (makes_uniqueUsername o ?_).bind fun username husername => hcreate husername _ _ _
      -- the base is what is left of a name the provider gives, or the provider's slug
      cases hgiven : ((info.preferredUsername.or info.displayName).map sanitizeIdPart).filter
          fun s => 3 ≤ s.len with
      | none => exact isName_slug provider
      | some base =>
        obtain ⟨name, -, rfl⟩ := Option.map_eq_some_iff.1 (Option.eq_some_of_filter_eq_some hgiven)
        exact sanitizeIdPart_short name
    | totpChallenge headers body => exact keepsTo_totpChallenge createsNamed_plain headers body
    | totpSetup headers => exact keepsTo_totpSetup createsNamed_plain headers
    | totpConfirm headers code =>
      exact keepsTo_totpConfirm createsNamed_plain (fun _ _ => trivial) headers code
    | totpDisable headers code => exact keepsTo_totpDisable createsNamed_plain headers code
    | recoveryCodesGenerate headers code =>
      exact keepsTo_recoveryCodesGenerate createsNamed_plain headers code
  exact (hkeeps none).asks

end Handlers

/-! ## The tables -/

/-- The columns for the names have not refused them for their length. -/
def AuthEntry.NamesFit : AuthEntry → Prop
  | ⟨_, _, .createUser username winkdId _ _ _, reply⟩ =>
      WellFormed username winkdId ∧ reply ≠ .error (.tooLong 32) ∧ reply ≠ .error (.tooLong 40)
  | _ => True

theorem newUserError_ne_tooLong {b : Backend} {username winkdId displayName : Text}
    {email passwordHash : Option Text} (h : WellFormed username winkdId) :
    b.newUserError username winkdId displayName email passwordHash ≠ some (.tooLong 32) ∧
      b.newUserError username winkdId displayName email passwordHash ≠ some (.tooLong 40) := by
  have hunique : ∀ n constraint, some (DbError.unique constraint) ≠ some (.tooLong n) :=
    fun n constraint h => tooLong_ne_unique n constraint (Option.some.inj h).symm
  unfold Backend.newUserError
  rw [if_neg (Nat.not_lt.2 h.short), if_neg (Nat.not_lt.2 h.idShort)]
  split_ifs
  · exact ⟨by decide, by decide⟩
  · exact ⟨by decide, by decide⟩
  · exact ⟨by decide, by decide⟩
  · exact ⟨hunique _ _, hunique _ _⟩
  · exact ⟨hunique _ _, hunique _ _⟩
  · exact ⟨hunique _ _, hunique _ _⟩
  · exact ⟨nofun, nofun⟩

theorem namesFit_answer {r : Op} (hr : CreatesNamed r) (i : ℕ) (b : Backend) :
    AuthEntry.NamesFit ⟨i, b, r, (answer r b).1⟩ := by
  cases r with
  | createUser username winkdId displayName email hash =>
    refine ⟨hr, fun h => ?_, fun h => ?_⟩
    · exact (newUserError_ne_tooLong hr).1 (createUser_error h)
    · exact (newUserError_ne_tooLong hr).2 (createUser_error h)
  | _ => trivial

/-- The username and the Winkd ID of each account. -/
def Backend.identifiers (b : Backend) : List (Text × Text) := b.users.map fun u => (u.username, u.winkdId)

theorem identifiers_answer {r : Op} (hr : CreatesNamed r) {b : Backend}
    (hb : ∀ n ∈ b.identifiers, WellFormed n.1 n.2) :
    ∀ n ∈ (answer r b).2.identifiers, WellFormed n.1 n.2 := by
  obtain heq | ⟨username, winkdId, _, _, _, rfl, -, heq⟩ :=
    users_answer (g := fun u => (u.username, u.winkdId)) (fun _ _ _ => rfl) r b
  · rw [Backend.identifiers, heq]
    exact hb
  · rw [Backend.identifiers, heq, List.forall_mem_append, List.forall_mem_singleton]
    exact ⟨hb, hr⟩

namespace Service
variable {C : Crates} {s : Service}

/-- What is stored and what is asked for. -/
theorem Reached.names (hs : s.Reached C) :
    s.Holds (fun b l => (∀ n ∈ b.identifiers, WellFormed n.1 n.2) ∧ ∀ e : AuthEntry, e ∈ l → e.NamesFit)
      fun _ p _ => p.Asks CreatesNamed := by
  obtain ⟨now, hreach⟩ := hs
  refine hreach.invariant ⟨⟨nofun, nofun⟩, nofun⟩ ?_
  intro s e hs _
  cases e with
  | request o req => exact hs.start (h := answer) (handle_createsNamed C o req)
  | clock now => exact hs.outside (h := answer) hs.shared
  | statement i =>
    refine hs.answer i (fun r k _ hasks => ⟨⟨?_, fun e he => ?_⟩, hasks.2 _⟩) fun _ _ _ _ hasks => hasks
    · exact identifiers_answer hasks.1 hs.shared.1
    · obtain rfl | he := List.mem_cons.1 he
      · exact namesFit_answer hasks.1 i s.state
      · exact hs.shared.2 e he

end Service

/-- **Identifiers are well formed**: those that `sanitize_id_part` makes, and those of every account. -/
theorem names_well_formed :
    (∀ t, 3 ≤ (sanitizeIdPart t).length ∧ (sanitizeIdPart t).length ≤ 24 ∧
      (∀ c ∈ sanitizeIdPart t, isUsernameChar c = true) ∧
      sanitizeIdPart (sanitizeIdPart t) = sanitizeIdPart t) ∧
    ∀ (C : Crates) (s : Service), s.Reached C →
      (∀ u ∈ s.state.users, WellFormed u.username u.winkdId ∧
        findLoginUser u.username = findUserByUsername u.username) ∧
      ∀ e : AuthEntry, e ∈ s.trace → e.NamesFit := by
  constructor
  · intro t
    obtain ⟨hlong, -⟩ := sanitizeIdPart_spec t
    obtain ⟨hshort, hchars⟩ := sanitizeIdPart_short t
    exact ⟨hlong, hshort, hchars, sanitizeIdPart_eq_self hlong hshort hchars⟩
  · intro C s hs
    have hnames := hs.names.shared
    refine ⟨fun u hu => ?_, hnames.2⟩
    have hwell : WellFormed u.username u.winkdId := hnames.1 _ (List.mem_map_of_mem hu)
    refine ⟨hwell, ?_⟩
    rw [findLoginUser, if_neg]
    rw [List.contains_iff_mem]
    exact hwell.notEmail

namespace Sample

/-- Ada has logged in once. -/
def loggedIn : Service := after (.clock 30000000 :: served 0 10 "first" callback)

theorem loggedIn_reached : loggedIn.Reached crates := after_reached (by decide)

end Sample

/-- An account that an OAuth login has created. -/
theorem names_well_formed_ada : ∃ u ∈ Sample.loggedIn.state.users,
    u.username = "ada".toList ∧ WellFormed u.username u.winkdId := by
  have hnames : ∃ n ∈ Sample.loggedIn.state.identifiers, n.1 = "ada".toList := by decide
  obtain ⟨n, hn, hname⟩ := hnames
  obtain ⟨u, hu, rfl⟩ := List.mem_map.1 hn
  exact ⟨u, hu, hname, ((names_well_formed.2 Sample.crates _ Sample.loggedIn_reached).1 u hu).1⟩

end Winkd.Server
