import Winkd.WellFormedNames
import Winkd.FreeNames
import Winkd.Preflight
import Winkd.AppCore
import Winkd.Percent

/-!
# Ids that can be added

The page adds a contact by an id that is typed in, or scanned as a link or as the id itself, and takes
one only if four decimal digits follow its `#`.  The server gives out such ids as long as one of the
twenty it draws is free.  Its last resort ends in digits of a UUID; they may be letters, and then nobody
can add the account (`assigned_addable_iff`).
-/

namespace Winkd.Web
open UnicodeText Winkd.Server

/-! ## The page -/

/-- `/^[^#\s]+#\d{4}$/` -/
def isWinkdId (t : Text) : Bool :=
  match Text.splitOnce '#' t with
  | (name, some digits) =>
    !name.isEmpty && name.all (fun c => !isJsSpace c) && digits.length = 4 && digits.all Char.isDigit
  | (_, none) => false

/-- What `encodeURIComponent` leaves as it is. -/
def isUriUnreserved (c : Char) : Bool := c.isAlphanum || "-_.!~*'()".toList.contains c

def encodeURIComponent (t : Text) : Text := Percent.encode isUriUnreserved t

def decodeURIComponent (t : Text) : Option Text := Percent.decode t

/-- What `initProfile` draws as a QR code. -/
def profileQR (myWinkdId : Text) : Text := "winkd://add/".toList ++ encodeURIComponent myWinkdId

/-- A link that cannot be decoded stays as it is. -/
def parseWinkdQR (raw : Text) : Option Text :=
  let id := match Text.stripPrefix "winkd://add/".toList raw with
    | some encoded => (decodeURIComponent encoded).getD raw
    | none => raw
  if isWinkdId id then some id else none

/-- What comes of an id that is typed in. -/
inductive AddOutcome where
  | ignored
  | malformed
  | own
  | known
  | offline
  | sent (winkdId : Text)

def addContact (toLowerCase : Text → Text) (s : AppCore) (myWinkdId : Text) (connected : Bool)
    (input : Text) : AddOutcome :=
  let v := jsTrim input
  if v = [] then .ignored
  else if !isWinkdId v then .malformed
  else if Chats.normalizeWinkdId toLowerCase v = Chats.normalizeWinkdId toLowerCase myWinkdId then .own
  else if s.hasContactByWinkdId toLowerCase v then .known
  else if !connected then .offline
  else .sent v

/-- The id has passed the validation, and what is sent is that id. -/
def AddOutcome.Accepts (winkdId : Text) : AddOutcome → Prop
  | .ignored | .malformed => False
  | .own | .known | .offline => True
  | .sent v => v = winkdId

/-- An account with this id can be added: typed in, by its link, and by the id itself. -/
structure Addable (winkdId : Text) : Prop where
  typed : ∀ toLowerCase s myWinkdId connected,
    (addContact toLowerCase s myWinkdId connected winkdId).Accepts winkdId
  link : parseWinkdQR (profileQR winkdId) = some winkdId
  plain : parseWinkdQR winkdId = some winkdId

example : parseWinkdQR "winkd://add/ada%230042".toList = some "ada#0042".toList ∧
    parseWinkdQR "winkd://add/ada%2".toList = none := by decide

/-! ## What it accepts -/

theorem isJsSpace_eq_false {c : Char} (hlow : 32 < c.toNat) (hhigh : c.toNat < 128) :
    isJsSpace c = false := by
  have hunits : unitsOf c.toNat = [UInt16.ofNat c.toNat] := if_pos (by omega)
  have htoNat : (UInt16.ofNat c.toNat).toNat = c.toNat :=
    UInt16.toNat_ofNat_of_lt' (show c.toNat < 2 ^ 16 by omega)
  rw [isJsSpace, hunits, List.any_cons, List.any_nil, Bool.or_false, isSpace, htoNat]
  rw [Bool.or_eq_false_iff, Bool.or_eq_false_iff, Bool.and_eq_false_iff, Bool.and_eq_false_iff]
  simp only [decide_eq_false_iff_not, List.mem_cons, List.not_mem_nil, or_false]
  omega

theorem isJsSpace_of_isUsernameChar {c : Char} (hc : isUsernameChar c = true) : isJsSpace c = false := by
  rw [isUsernameChar_iff] at hc
  exact isJsSpace_eq_false (by omega) (by omega)

theorem decodeURIComponent_encodeURIComponent (t : Text) :
    decodeURIComponent (encodeURIComponent t) = some t := by
  rw [decodeURIComponent, encodeURIComponent]
  apply Percent.decode_encode
  decide

theorem parseWinkdQR_profileQR (winkdId : Text) :
    parseWinkdQR (profileQR winkdId) = if isWinkdId winkdId then some winkdId else none := by
  unfold parseWinkdQR profileQR
  simp only [Text.stripPrefix_append, decodeURIComponent_encodeURIComponent, Option.getD_some]

section
variable {m n : ℕ} {name suffix : Text}

/-- The expression asks for decimal digits in the suffix, and for nothing else that is not there. -/
theorem isWinkdId_append (hname : IsName m name) (hne : name ≠ []) (hfour : suffix.length = 4) :
    isWinkdId (name ++ '#' :: suffix) = suffix.all Char.isDigit := by
  have hhash : '#' ∉ name := fun h => absurd (hname.2 '#' h) (by decide)
  have hspace : name.all (fun c => !isJsSpace c) = true :=
    List.all_eq_true.2 fun c hc => by rw [isJsSpace_of_isUsernameChar (hname.2 c hc)]; rfl
  rw [isWinkdId, Text.splitOnce_append hhash]
  show (!name.isEmpty && name.all (fun c => !isJsSpace c) && decide (suffix.length = 4) &&
    suffix.all Char.isDigit) = _
  rw [hspace, decide_eq_true hfour, List.isEmpty_eq_false_iff.2 hne]
  rfl

/-- **An id of the server can be added just if its suffix is decimal.** -/
theorem addable_append_iff (hname : IsName m name) (hne : name ≠ []) (hsuffix : IsName n suffix)
    (hfour : suffix.length = 4) : Addable (name ++ '#' :: suffix) ↔ ∀ c ∈ suffix, c.isDigit = true := by
  have hvalid := isWinkdId_append hname hne hfour
  have hchars : ∀ c ∈ name ++ '#' :: suffix, isUsernameChar c = true ∨ c = '#' := by
    intro c hc
    obtain hc | hc := List.mem_append.1 hc
    · exact .inl (hname.2 c hc)
    · obtain rfl | hc := List.mem_cons.1 hc
      · exact .inr rfl
      · exact .inl (hsuffix.2 c hc)
  -- no character of the id is a colon, so it is no link
  have hprefix : ¬ "winkd://add/".toList <+: name ++ '#' :: suffix := by
    intro h
    have hcolon : ':' ∈ name ++ '#' :: suffix := h.subset (by decide)
    obtain hc | hc := hchars ':' hcolon
    · exact absurd hc (by decide)
    · exact absurd hc (by decide)
  have hplain : parseWinkdQR (name ++ '#' :: suffix) =
      if suffix.all Char.isDigit then some (name ++ '#' :: suffix) else none := by
    rw [parseWinkdQR, Text.stripPrefix_eq_none hprefix]
    show (if isWinkdId (name ++ '#' :: suffix) then _ else _) = _
    rw [hvalid]
  rw [← List.all_eq_true]
  constructor
  · intro h
    by_contra hletter
    have hnone := h.plain
    rw [hplain, if_neg hletter] at hnone
    cases hnone
  · intro hdigits
    have haccepted : isWinkdId (name ++ '#' :: suffix) = true := hvalid.trans hdigits
    constructor
    case typed =>
      intro toLowerCase s myWinkdId connected
      have htrim : jsTrim (name ++ '#' :: suffix) = name ++ '#' :: suffix := by
        apply Text.dropWhile_ends_eq_self
        intro c hc
        obtain hc | rfl := hchars c hc
        · exact isJsSpace_of_isUsernameChar hc
        · decide
      rw [addContact, htrim, if_neg (List.append_ne_nil_of_right_ne_nil _ (List.cons_ne_nil _ _)),
        haccepted, if_neg (by decide)]
      split_ifs
      all_goals trivial
    case link =>
      rw [parseWinkdQR_profileQR, if_pos haccepted]
    case plain => rw [hplain, if_pos hdigits]

end
end Winkd.Web

namespace Winkd.Server
open Web (Addable)

/-! ## The server -/

/-- The two ways an account gets its names. -/
inductive Naming where
  | register (headers : Headers) (body : RegisterRequest)
  | oauth (provider : OAuthProvider) (info : OAuthUserInfo)

namespace Naming
variable (C : Crates) (o : Outside) (b : Backend)

def run : Naming → Handler Unit
  | .register headers body => do
    let _ ← Server.register C o headers body
    pure ()
  | .oauth provider info => do
    let _ ← findOrCreateOauthUser o provider info
    pure ()

/-- The username a new account gets, if one is created. -/
def username : Naming → Text
  | .register _ body => sanitizeIdPart body.username.trim
  | .oauth provider info =>
    let base := (((info.preferredUsername.or info.displayName).map sanitizeIdPart).filter
      fun s => 3 ≤ s.len).getD provider.slug
    firstFree (usernameTaken b) (usernameCandidates base) (base ++ o.usernameUuid.digits)

/-- The Winkd ID that follows from it. -/
def winkdId (n : Naming) : Text :=
  firstFree (winkdIdTaken b) (winkdIdCandidates o (n.username o b))
    (n.username o b ++ '#' :: o.winkdIdUuid.digits)

end Naming

def Backend.winkdIds (b : Backend) : List Text := b.users.map User.winkdId

/-- The Winkd ID is assigned to a new account. -/
def Naming.Assigns (C : Crates) (o : Outside) (b : Backend) (n : Naming) (winkdId : Text) : Prop :=
  ((n.run C o).run answer b).2.winkdIds = b.winkdIds ++ [winkdId]

instance (C : Crates) (o : Outside) (b : Backend) (n : Naming) (winkdId : Text) :
    Decidable (n.Assigns C o b winkdId) := inferInstanceAs (Decidable (_ = _))

/-- An account with this Winkd ID is created, or none. -/
def Backend.Adds (b : Backend) (winkdId : Text) (b' : Backend) : Prop :=
  b'.winkdIds = b.winkdIds ∨ b'.winkdIds = b.winkdIds ++ [winkdId]

section Runs
variable {C : Crates} {o : Outside} {b : Backend} {E : AppError → Backend → Prop}

theorem wp_uniqueUsername_iff {Q : Text → Backend → Prop} (base : Text) :
    (uniqueUsername o base).wp answer Q E b ↔
      Q (firstFree (usernameTaken b) (usernameCandidates base) (base ++ o.usernameUuid.digits)) b :=
  Prog.wp_of_run_ok (run_uniqueUsername o b base)

theorem wp_uniqueWinkdId_iff {Q : Text → Backend → Prop} (base : Text) :
    (uniqueWinkdId o base).wp answer Q E b ↔
      Q (firstFree (winkdIdTaken b) (winkdIdCandidates o base) (base ++ '#' :: o.winkdIdUuid.digits)) b :=
  Prog.wp_of_run_ok (run_uniqueWinkdId o b base)

/-- A new account has the id that is passed. -/
theorem wp_createUser_adds {Q : User → Backend → Prop} {username winkdId displayName : Text}
    {email passwordHash : Option Text} (hq : ∀ u b', b.Adds winkdId b' → Q u b') (he : ∀ e, E e b) :
    (createUser username winkdId displayName email passwordHash).wp answer Q E b := by
  simp only [createUser, Prog.wp_bind, Prog.wp_ask, wp_orInternal, answer, Backend.createUser]
  split
  · exact ⟨fun _ h => (by cases h), fun _ _ => he _⟩
  · exact ⟨fun u _ => hq u _ (.inr List.map_append), fun _ h => by cases h⟩

theorem wp_linkOauthAccount_adds {winkdId : Text} {b' : Backend} (h : b.Adds winkdId b') (userId : Id)
    (provider id : Text) : (linkOauthAccount userId provider id).wp answer (fun _ => b.Adds winkdId)
      (fun _ => b.Adds winkdId) b' :=
  wp_linkOauthAccount _ _ _ (fun _ _ => h) fun _ => h

theorem wp_register_adds (headers : Headers) (body : RegisterRequest) :
    ((Naming.register headers body).run C o).wp answer
      (fun _ => b.Adds ((Naming.register headers body).winkdId o b))
      (fun _ => b.Adds ((Naming.register headers body).winkdId o b)) b := by
  have hnone : ∀ l, b.Adds ((Naming.register headers body).winkdId o b) { b with registerLimiter := l } :=
    fun _ => .inl rfl
  have huser : (registerUser C o headers body).wp answer
      (fun _ => b.Adds ((Naming.register headers body).winkdId o b))
      (fun _ => b.Adds ((Naming.register headers body).winkdId o b)) b := by
    simp only [registerUser, validatePassword, Prog.wp_bind, Prog.wp_ask, wp_ensure,
      wp_findUserByUsername, Prog.wp_ofExcept]
    refine ⟨fun _ => ⟨fun _ => ⟨fun _ => ⟨fun _ => ⟨fun _ => ?_, fun _ => hnone _⟩,
      fun _ => hnone _⟩, fun _ => hnone _⟩, fun _ => hnone _⟩, fun _ => hnone _⟩
    refine wp_ensureEmailFree _ ⟨fun hash _ => ?_, fun _ _ => hnone _⟩ fun _ => hnone _
    rw [wp_uniqueWinkdId_iff]
    exact wp_createUser_adds (fun _ _ h => h) fun _ => hnone _
  simp only [Naming.run, register, Prog.wp_bind]
  refine Prog.wp_mono huser (fun user b' h => ?_) fun _ _ h => h
  exact wp_createSession (fun _ => h) fun _ _ => h

theorem wp_oauth_adds (provider : OAuthProvider) (info : OAuthUserInfo) :
    ((Naming.oauth provider info).run C o).wp answer
      (fun _ => b.Adds ((Naming.oauth provider info).winkdId o b))
      (fun _ => b.Adds ((Naming.oauth provider info).winkdId o b)) b := by
  have hnone : b.Adds ((Naming.oauth provider info).winkdId o b) b := .inl rfl
  show (findOrCreateOauthUser o provider info >>= fun _ => pure ()).wp answer _ _ b
  rw [Prog.wp_bind, findOrCreateOauthUser, Prog.wp_bind, wp_findUserByOauth]
  cases b.findUserByOauth provider.slug info.providerUserId with
  | some u => exact hnone
  | none =>
    have hemail : (findOauthEmail info.email).wp answer (fun _ b' => b' = b) (fun _ _ => False) b := by
      cases info.email with
      | none => exact rfl
      | some e => exact rfl
    show (findOauthEmail info.email >>= _).wp answer _ _ b
    rw [Prog.wp_bind]
    refine Prog.wp_mono hemail ?_ fun _ _ h => h.elim
    rintro user _ rfl
    cases user with
    | some u =>
      show (linkOauthAccount u.id provider.slug info.providerUserId >>= _).wp answer _ _ _
      rw [Prog.wp_bind]
      exact wp_linkOauthAccount_adds hnone _ _ _
    | none =>
      show (createOauthUser o provider info >>= _).wp answer _ _ _
      simp only [createOauthUser, Prog.wp_bind]
      rw [wp_uniqueUsername_iff, wp_uniqueWinkdId_iff]
      exact wp_createUser_adds (fun u b' h => wp_linkOauthAccount_adds h _ _ _) fun _ => hnone

/-- **The id that is assigned** is the first that is free of those that are drawn, or the last resort. -/
theorem Naming.Assigns.winkdId_eq {n : Naming} {winkdId : Text} (h : n.Assigns C o b winkdId) :
    winkdId = n.winkdId o b := by
  have hadds : b.Adds (n.winkdId o b) ((n.run C o).run answer b).2 := by
    cases n with
    | register headers body => exact Prog.run_of_wp (wp_register_adds headers body)
    | oauth provider info => exact Prog.run_of_wp (wp_oauth_adds provider info)
  rw [Naming.Assigns] at h
  obtain hsame | hnew := hadds
  · exact absurd (List.self_eq_append_right.1 (hsame.symm.trans h)) (List.cons_ne_nil _ _)
  · exact List.singleton_inj.1 (List.append_cancel_left (h.symm.trans hnew))

end Runs

/-! ## The ids that are assigned -/

section
variable {C : Crates} {o : Outside} {b : Backend}

theorem isName_generated {base : Text} (hbase : IsName 24 base) (hne : base ≠ []) (last : UuidStart) :
    IsName 28 (firstFree (usernameTaken b) (usernameCandidates base) (base ++ last.digits)) ∧
      firstFree (usernameTaken b) (usernameCandidates base) (base ++ last.digits) ≠ [] := by
  obtain hmem | heq := mem_firstFree (usernameTaken b) (usernameCandidates base) (base ++ last.digits)
  · obtain hbare | hnumbered := List.mem_cons.1 hmem
    · rw [hbare]
      exact ⟨hbase.mono (by decide), hne⟩
    · obtain ⟨i, hi, hnumber⟩ := List.mem_map.1 hnumbered
      have hlt : i < 2 + 98 := (List.mem_range'_1.1 hi).2
      rw [← hnumber]
      exact ⟨(hbase.append (isName_decimal hlt)).mono (by decide), List.append_ne_nil_of_left_ne_nil hne _⟩
  · rw [heq]
    exact ⟨hbase.append (isName_uuidStart last), List.append_ne_nil_of_left_ne_nil hne _⟩

theorem Naming.isName_username (n : Naming) : IsName 28 (n.username o b) ∧ n.username o b ≠ [] := by
  have hsanitized : ∀ t, IsName 24 (sanitizeIdPart t) ∧ sanitizeIdPart t ≠ [] := by
    intro t
    refine ⟨sanitizeIdPart_short t, List.ne_nil_of_length_pos ?_⟩
    exact Nat.lt_of_lt_of_le (by decide) (sanitizeIdPart_spec t).1
  cases n with
  | register headers body =>
    obtain ⟨hname, hne⟩ := hsanitized body.username.trim
    exact ⟨hname.mono (by decide), hne⟩
  | oauth provider info =>
    obtain ⟨hname, hne⟩ : IsName 24 ((((info.preferredUsername.or info.displayName).map
        sanitizeIdPart).filter fun s => 3 ≤ s.len).getD provider.slug) ∧
        (((info.preferredUsername.or info.displayName).map
          sanitizeIdPart).filter fun s => 3 ≤ s.len).getD provider.slug ≠ [] := by
      cases hgiven : ((info.preferredUsername.or info.displayName).map sanitizeIdPart).filter
          fun s => 3 ≤ s.len with
      | none => exact ⟨isName_slug provider, by cases provider <;> decide⟩
      | some base =>
        obtain ⟨name, -, rfl⟩ := Option.map_eq_some_iff.1 (Option.eq_some_of_filter_eq_some hgiven)
        exact hsanitized name
    exact isName_generated hname hne o.usernameUuid

/-- **An assigned id can be added just if one of those that were drawn was free**, or the digits of the
last resort happen to be decimal. -/
theorem assigned_addable_iff {n : Naming} {winkdId : Text} (h : n.Assigns C o b winkdId) :
    Addable winkdId ↔
      (∃ c ∈ winkdIdCandidates o (n.username o b), ∀ u ∈ b.users, u.winkdId ≠ c) ∨
        ∀ c ∈ o.winkdIdUuid.digits, c.isDigit = true := by
  obtain ⟨hname, hne⟩ : IsName 28 (n.username o b) ∧ n.username o b ≠ [] := n.isName_username
  have hlast : Addable (n.username o b ++ '#' :: o.winkdIdUuid.digits) ↔
      ∀ c ∈ o.winkdIdUuid.digits, c.isDigit = true :=
    Web.addable_append_iff hname hne (isName_uuidStart _) o.winkdIdUuid.length_eq
  -- what is drawn is padded to four decimal digits
  have hdrawn : ∀ c ∈ winkdIdCandidates o (n.username o b), Addable c := by
    intro c hc
    obtain ⟨i, -, rfl⟩ := List.mem_map.1 hc
    have hdigits := isDigit_pad4 (Nat.mod_lt (o.suffix i) (show 0 < 10000 by decide))
    have hsuffix : IsName 4 (Text.pad4 (o.suffix i % 10000)) :=
      ⟨Nat.le_refl 4, fun c hc => isUsernameChar_of_isDigit (hdigits c hc)⟩
    exact (Web.addable_append_iff hname hne hsuffix rfl).2 hdigits
  rw [h.winkdId_eq, Naming.winkdId]
  by_cases hfree : ∃ c ∈ winkdIdCandidates o (n.username o b), ∀ u ∈ b.users, u.winkdId ≠ c
  · obtain ⟨c, hc, hunused⟩ := hfree
    refine iff_of_true (hdrawn _ ?_) (.inl ⟨c, hc, hunused⟩)
    exact firstFree_mem hc (winkdIdTaken_eq_false_iff.2 hunused) _
  · have htaken : ∀ c ∈ winkdIdCandidates o (n.username o b), winkdIdTaken b c = true := by
      intro c hc
      by_contra hunused
      exact hfree ⟨c, hc, winkdIdTaken_eq_false_iff.1 (Bool.not_eq_true _ ▸ hunused)⟩
    rw [firstFree_of_taken htaken, hlast, or_iff_right hfree]

end

namespace Sample

/-- A GitHub user named `ada`. -/
def adaNaming : Naming := .oauth .github ⟨"583231".toList, none, none, some "ada".toList⟩

/-- Somebody has the only suffix that is drawn. -/
def oneDrawn : Backend :=
  { Backend.init 0 with
    users := [(Backend.init 0).newUser "lovelace".toList "ada#0042".toList "Ada".toList none none] }

end Sample

/-- The first id that is drawn is free. -/
theorem assigned_addable_iff_ada : Addable "ada#0042".toList := by
  have hassigned : Sample.adaNaming.Assigns Sample.crates (Sample.outside "") (.init 0) "ada#0042".toList := by
    decide
  exact (assigned_addable_iff hassigned).2 (.inl ⟨_, List.mem_cons_self, fun _ h => nomatch h⟩)

/-- The last resort ends in letters. -/
theorem assigned_not_addable :
    Sample.adaNaming.Assigns Sample.crates (Sample.outside "") Sample.oneDrawn "ada#abcd".toList ∧
      ¬ Addable "ada#abcd".toList :=
  ⟨by decide, fun h => absurd h.plain (by decide)⟩

end Winkd.Server
