import Winkd.AuthRuns
import Winkd.Threads

/-!
# The account endpoints at work

Requests come in at any time and are served side by side.  Each statement is atomic,
and nothing else is: between two statements of one handler those of others are carried
out.  A `Service` is the tables with the handlers under way on them; `Reached` are the
states it can come to from empty tables.

Whatever the interleaving, no two accounts have one id (`Reached.accounts`).
-/

namespace Winkd.Server

/-- The tables as the migrations leave them, and the limiters as the server starts
them. -/
def Backend.init (now : ℕ) : Backend where
  now := now
  users := []
  oauthAccounts := []
  sessions := []
  totpChallenges := []
  recoveryCodes := []
  auditLog := []
  transactions _ := .begun
  begun := 0
  drawn := 0
  loginLimiter := .new 10 60
  registerLimiter := .new 5 60

/-- The tables, with the handlers under way. -/
abbrev Service : Type := Threads.Pool Op Op.Reply AppError Response Backend

/-- What happens at the server. -/
inductive Event where
  /-- A request comes in. -/
  | request (o : Outside) (req : AuthRequest)
  /-- The statement a handler has come to is carried out. -/
  | statement (task : ℕ)
  | clock (now : ℕ)

namespace Service
variable (C : Crates)

def next (s : Service) : Event → Service
  | .request o req => Threads.Pool.next answer s (.start (handle C o req))
  | .statement i => Threads.Pool.next answer s (.answer i)
  | .clock now => Threads.Pool.next answer s (.outside { s.state with now := now })

/-- The clock does not run backwards. -/
def InTime (s : Service) : Event → Prop
  | .clock now => s.state.now ≤ now
  | _ => True

/-- The states a service can come to. -/
def Reached (s : Service) : Prop :=
  ∃ now, Transitions.Reaches (next C) InTime (Threads.Pool.idle (.init now)) s

variable {C}

/-- What every statement and the clock keep holds of the tables of every state
reached. -/
theorem next_invariant {I : Backend → Prop} (hanswer : ∀ r b, I b → I (answer r b).2)
    (hclock : ∀ b now, b.now ≤ now → I b → I { b with now := now }) {s : Service} {e : Event}
    (hs : I s.state) (he : s.InTime e) : I (s.next C e).state := by
  cases e with
  | request o req => exact hs
  | clock now => exact hclock _ _ he hs
  | statement i =>
    rcases Threads.Pool.next_answer_cases (h := answer) s i with heq | ⟨r, k, -, heq⟩
    · show I (Threads.Pool.next answer s (.answer i)).state
      rw [heq]
      exact hs
    · show I (Threads.Pool.next answer s (.answer i)).state
      rw [heq]
      exact hanswer r _ hs

end Service

/-! ## Accounts -/

/-- No two accounts have one id, and no id is drawn again. -/
structure Accounts (b : Backend) : Prop where
  distinct : (b.users.map User.id).Nodup
  drawn : ∀ u ∈ b.users, u.id < b.drawn

theorem Accounts.eq_of_id {b : Backend} (hb : Accounts b) {u v : User} (hu : u ∈ b.users)
    (hv : v ∈ b.users) (h : u.id = v.id) : u = v :=
  List.inj_on_of_nodup_map hb.distinct hu hv h

theorem Accounts.init (now : ℕ) : Accounts (.init now) := ⟨List.nodup_nil, fun _ h => nomatch h⟩

theorem Accounts.of_users {b b' : Backend} (hb : Accounts b) (hu : b'.users = b.users)
    (hd : b.drawn ≤ b'.drawn) : Accounts b' where
  distinct := hu ▸ hb.distinct
  drawn u h := Nat.lt_of_lt_of_le (hb.drawn u (hu ▸ h)) hd

theorem mem_updateUser {b : Backend} {id : Id} {f : User → User} {v : User} :
    v ∈ (b.updateUser id f).users ↔ ∃ u ∈ b.users, v = if u.id = id then f u else u := by
  simp only [Backend.updateUser, List.mem_map, eq_comm]

theorem Accounts.updateUser {b : Backend} (hb : Accounts b) (id : Id) {f : User → User}
    (hf : ∀ u, (f u).id = u.id) : Accounts (b.updateUser id f) := by
  have hid : ∀ u : User, (if u.id = id then f u else u).id = u.id := by
    intro u
    split
    · exact hf u
    · rfl
  constructor
  · have hmap : (b.updateUser id f).users.map User.id = b.users.map User.id := by
      simp only [Backend.updateUser, List.map_map]
      exact List.map_congr_left fun u _ => hid u
    exact hmap ▸ hb.distinct
  · intro u hu
    obtain ⟨v, hv, rfl⟩ := List.mem_map.mp hu
    exact (hid v).symm ▸ hb.drawn v hv

/-- The statement writes a two-factor column. -/
def Op.writesFactor : Op → Bool
  | .setTotpSecret _ _ => true
  | .setTotpEnabled _ _ => true
  | _ => false

/-- What a statement can do to the accounts. -/
inductive UsersEffect (b : Backend) (r : Op) (b' : Backend) : Prop where
  | kept (other : r.writesFactor = false) (users : b'.users = b.users) (drawn : b.drawn ≤ b'.drawn)
  | created (other : r.writesFactor = false) (u : User) (new : IsNew b u)
      (users : b'.users = b.users ++ [u]) (drawn : b'.drawn = b.drawn + 1)
  | secretSet (id : Id) (secret : Text) (request : r = .setTotpSecret id secret)
      (state : b' = b.setTotpSecret id secret)
  | enabledSet (id : Id) (enabled : Bool) (request : r = .setTotpEnabled id enabled)
      (state : b' = b.setTotpEnabled id enabled)

theorem answer_users (r : Op) (b : Backend) : UsersEffect b r (answer r b).2 := by
  cases r with
  | createUser username winkdId displayName email passwordHash =>
    simp only [answer, Backend.createUser]
    split
    · exact .kept rfl rfl (Nat.le_refl _)
    · exact .created rfl _ ⟨rfl, rfl, rfl⟩ rfl rfl
  | setTotpSecret u secret => exact .secretSet u secret rfl rfl
  | setTotpEnabled u enabled => exact .enabledSet u enabled rfl rfl
  | linkOauthAccount u provider providerUserId =>
    simp only [answer, Backend.linkOauthAccount]
    split
    · exact .kept rfl rfl (Nat.le_refl _)
    · split
      · exact .kept rfl rfl (Nat.le_refl _)
      · split <;> exact .kept rfl rfl (Nat.le_refl _)
  | createSession u token =>
    simp only [answer, Backend.createSession]
    split
    · exact .kept rfl rfl (Nat.le_refl _)
    · split <;> exact .kept rfl rfl (Nat.le_refl _)
  | createTotpChallenge u token =>
    simp only [answer, Backend.createTotpChallenge]
    split
    · exact .kept rfl rfl (Nat.le_refl _)
    · split <;> exact .kept rfl rfl (Nat.le_refl _)
  | insertRecoveryCode tx u codeHash => exact .kept rfl rfl (Nat.le_succ _)
  | _ => exact .kept rfl rfl (Nat.le_refl _)

theorem Accounts.created {b b' : Backend} (hb : Accounts b) {u : User} (hu : IsNew b u)
    (husers : b'.users = b.users ++ [u]) (hdrawn : b'.drawn = b.drawn + 1) : Accounts b' := by
  constructor
  · rw [husers, List.map_append]
    refine List.nodup_append.mpr ⟨hb.distinct, List.nodup_singleton _, ?_⟩
    intro i hi j hj
    obtain ⟨v, hv, rfl⟩ := List.mem_map.mp hi
    rw [List.mem_singleton.mp hj, hu.id]
    exact Nat.ne_of_lt (hb.drawn v hv)
  · intro v hv
    rw [husers, List.mem_append, List.mem_singleton] at hv
    rw [hdrawn]
    rcases hv with hv | rfl
    · exact Nat.lt_succ_of_lt (hb.drawn v hv)
    · rw [hu.id]
      exact Nat.lt_succ_self _

/-- **Every statement keeps the ids distinct.** -/
theorem Accounts.answer {b : Backend} (hb : Accounts b) (r : Op) :
    Accounts (Server.answer r b).2 := by
  cases answer_users r b with
  | kept _ husers hdrawn => exact hb.of_users husers hdrawn
  | created _ u hu husers hdrawn => exact hb.created hu husers hdrawn
  | secretSet id secret _ hstate => exact hstate ▸ hb.updateUser id fun _ => rfl
  | enabledSet id enabled _ hstate =>
    rw [hstate]
    cases enabled with
    | false => exact hb.updateUser id fun _ => rfl
    | true => exact hb.updateUser id fun _ => rfl

theorem Accounts.run {b : Backend} (hb : Accounts b) {α : Type} (p : Handler α) :
    Accounts (p.run Server.answer b).2 := Prog.run_invariant (fun r _ h => h.answer r) p hb

/-- **In every state reached no two accounts have one id.** -/
theorem Service.Reached.accounts {C : Crates} {s : Service} (hs : s.Reached C) :
    Accounts s.state := by
  obtain ⟨now, hreach⟩ := hs
  refine hreach.invariant (I := fun s => Accounts s.state) (Accounts.init now) ?_
  intro s e hs he
  exact next_invariant (fun r _ h => h.answer r) (fun _ _ _ h => ⟨h.distinct, h.drawn⟩) hs he

/-! ## A service with one account

The key and the codes are those of RFC 4226: the key's Base32, and the MACs of the
counters 0, 1 and 2 under it.  At 30 seconds the window is these three counters. -/

namespace Sample

/-- Twenty bytes, given as a number. -/
def mac (n : ℕ) : Vector UInt8 20 :=
  ⟨⟨(List.range 20).map fun i => UInt8.ofNat (n / 256 ^ (19 - i))⟩, by simp⟩

def key : List UInt8 := "12345678901234567890".toList.map fun c => UInt8.ofNat c.toNat

def secret : Text := "GEZDGNBVGY3TQOJQGEZDGNBVGY3TQOJQ".toList

/-- Another key, and its Base32. -/
def zeroKey : List UInt8 := List.replicate 20 0

def zeroSecret : Text := List.replicate 32 'A'

/-- The recovery code that is 32 times one digit. -/
def recoveryCode (d : ℕ) : Text := List.replicate 32 (Text.digit d)

/-- The SHA-256 hashes of these codes. -/
def hashes : List String :=
  ["84e0c0eafaa95a34c293f278ac52e45ce537bab5e752a00e6959a13ae103b65a",
    "8a83665f3798727f14f92ad0e6c99fdab08ee731d6cd644c131223fd2f4fed2a",
    "0d6ba19b62531ccb0deb8804313eca283c69560f66f1b7b8a2c1592ae8c35c6b",
    "deb0e38ced1e41de6f92e70e80c418d2d356afaaa99e26f5939dbc7d3ef4772a",
    "ca02a7bbd898b4cdf99e60c923abcf116f3cc8224a790f395c36953f207cf09a",
    "b235d9133396f6aa4f6e6a6d6c6cc16bb8cd806f484918177f1d8027afd44687",
    "22af5eb7a99e9a167adafc9b1c22f688cb7d7f87cd31c10e00dda28bd0953cfc",
    "5cfac09f7b171a7b492f1df33e8981f7b662a649329ffb8896f1ef816c41a6a6",
    "6aa7acca5a190750ad7fd78d3b146f6d53af92405786e9cf7090aa28fc2fc198",
    "ff312f8e5727b446f64f30d17061f61363881caf0f6149605901a35f5cec8758"]

/-- The state cookie of an OAuth login, and its URL encoding. -/
def cookie : Text := "github|state|verifier|0|".toList

def encodedCookie : Text := "github%7Cstate%7Cverifier%7C0%7C".toList

def crates : Crates where
  hmacSha1 _ message :=
    match message.getLast? with
    | some 0 => mac 0xcc93cf18508d94934c64b65d8ba7667fb7cde4b0
    | some 1 => mac 0x75a48a19d4cbe100644e8ac1397eea747a2d33ab
    | _ => mac 0x0bacb7fa082fef30782211938bc1c5e70416ff44
  sha256Hex t := (hashes.getD ((t.headD '0').toNat - '0'.toNat) "").toList
  base32Encode bytes := if bytes = key then secret else if bytes = zeroKey then zeroSecret else []
  base32Decode t := if t = secret then some key else if t = zeroSecret then some zeroKey else none
  isPasswordHash _ := false
  verifyPassword _ _ := false
  hashPassword _ _ := .error []
  urlEncode t := if t = cookie then encodedCookie else t
  urlDecode t := if t = encodedCookie then some cookie else none
  isRedirectUrl t := "https://".toList.isPrefixOf t
  isUppercase := Char.isUpper
  isLowercase := Char.isLower

/-- A user logging in with GitHub, to whom `token` is given. -/
def outside (token : String) : Outside where
  token := token.toList
  secretBytes := key
  recoveryCodes := (List.range 10).map recoveryCode
  salt := []
  suffix _ := 42
  usernameUuid := ⟨"abcd".toList, rfl, rfl⟩
  winkdIdUuid := ⟨"abcd".toList, rfl, rfl⟩
  exchangeCode _ _ _ := .ok "access".toList
  fetchUserinfo _ := .ok ⟨"583231".toList, some "ada@example.org".toList, none, some "ada".toList⟩
  env key :=
    if key = "WINKD_OAUTH_GITHUB_CLIENT_ID".toList then some "client".toList
    else if key = "WINKD_OAUTH_GITHUB_CLIENT_SECRET".toList then some "secret".toList
    else none

def callback : AuthRequest :=
  .oauthCallback "github".toList ⟨"code".toList, "state".toList⟩
    ⟨"10.0.0.1", none, some ("winkd_oauth_state=".toList ++ encodedCookie), none, none,
      some "winkd.example".toList⟩

/-- The headers of a request with the first session's token. -/
def headers : Headers := ⟨"10.0.0.1", some "Bearer first".toList, none, none, none, none⟩

/-- A request, and its statements, as task `i`. -/
def served (i n : ℕ) (token : String) (req : AuthRequest) : List Event :=
  .request (outside token) req :: List.replicate n (.statement i)

/-- An account is created by an OAuth login and given 2FA. -/
def enrolment : List Event :=
  .clock 30000000 :: served 0 10 "first" callback ++ served 1 2 "" (.totpSetup headers) ++
    served 2 17 "" (.totpConfirm headers "287082".toList)

/-- The service after `events`, from empty tables. -/
def after (events : List Event) : Service :=
  events.foldl (Service.next crates) (Threads.Pool.idle (.init 0))

instance (s : Service) : ∀ e, Decidable (s.InTime e)
  | .request _ _ => isTrue trivial
  | .statement _ => isTrue trivial
  | .clock now => inferInstanceAs (Decidable (s.state.now ≤ now))

theorem after_reached {events : List Event}
    (h : Transitions.Admits (Service.next crates) Service.InTime (Threads.Pool.idle (.init 0)) events) :
    (after events).Reached crates := ⟨0, h.reaches⟩

end Sample
end Winkd.Server
