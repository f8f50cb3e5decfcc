import Winkd.Origins
import Winkd.Names
import Winkd.WellFormedNames
import Winkd.SignInPage

/-!
# Who is signed in

After a sign-in three parties take the user for someone: the server, which has made a session for an
account; the login page, which has read the account from a body or from the fragment of a URL; and the
messenger, which reads what the login page has stored and shows the token to the server.  They agree
(`sign_ins_agree`), in every state that the service comes to, whoever was signed in on this browser before.
-/

namespace Winkd.Server
open Threads Winkd.Web

/-! ## The two ways give the same account -/

section Ways
variable {C : Crates} (hC : C.urlEncode = Percent.encode isUnreserved) (draw : Fin MOODS_2000S.length)
  (st : SessionStorage) {token : Text} {user : User}
include hC

theorem oauthLocation_eq (token : Text) (user : User) : oauthLocation C token user =
    "/login.html".toList ++ '#' :: UrlParams.write isUnreserved
      [("oauth".toList, "success".toList), ("session_token".toList, token),
        ("winkd_id".toList, user.winkdId), ("display_name".toList, user.displayName),
        ("mood_message".toList, user.moodMessage), ("avatar_data".toList, user.avatarData.getD []),
        ("display_name_color".toList, user.displayNameColor.getD []), ("av_color".toList, user.avColor.getD [])] := by
  delta oauthLocation UrlParams.write
  have hfirst : "/login.html#oauth=success&session_token=".toList = "/login.html".toList ++ '#' ::
      ("oauth".toList ++ '=' :: ("success".toList ++ '&' :: ("session_token".toList ++ ['=']))) := rfl
  generalize "/login.html#oauth=success&session_token=".toList = a at *
  generalize "/login.html".toList = b at *
  subst hfirst
  have hplain : ∀ {name : String}, name.toList.all isUnreserved = true →
      Percent.encode isUnreserved name.toList = name.toList := fun h =>
    UrlParams.encode_kept (List.all_eq_true.mp h)
  have hnames : ∀ name ∈ ["oauth", "success", "session_token", "winkd_id", "display_name", "mood_message",
      "avatar_data", "display_name_color", "av_color"],
      Percent.encode isUnreserved name.toList = name.toList := by
    simp only [List.forall_mem_cons, List.not_mem_nil, false_implies, implies_true, and_true]
    exact ⟨hplain rfl, hplain rfl, hplain rfl, hplain rfl, hplain rfl, hplain rfl, hplain rfl, hplain rfl,
      hplain rfl⟩
  simp only [List.forall_mem_cons, List.not_mem_nil, false_implies, implies_true, and_true] at hnames
  have hfields : "&winkd_id=".toList = '&' :: ("winkd_id".toList ++ ['=']) ∧
      "&display_name=".toList = '&' :: ("display_name".toList ++ ['=']) ∧
      "&mood_message=".toList = '&' :: ("mood_message".toList ++ ['=']) ∧
      "&avatar_data=".toList = '&' :: ("avatar_data".toList ++ ['=']) ∧
      "&display_name_color=".toList = '&' :: ("display_name_color".toList ++ ['=']) ∧
      "&av_color=".toList = '&' :: ("av_color".toList ++ ['=']) := ⟨rfl, rfl, rfl, rfl, rfl, rfl⟩
  simp only [hC, hfields, hnames, List.map_cons, List.map_nil, List.intercalate_cons_cons,
    List.intercalate_singleton, List.append_assoc, List.cons_append, List.nil_append]

/-- **The fragment says what the body of a login response would**, if the account has a name. -/
theorem storeSignIn_redirect (htoken : token ≠ []) (hwinkdId : user.winkdId ≠ []) (setCookie : Text) :
    storeSignIn draw st (.redirect (oauthLocation C token user) setCookie) =
      some (saveSession draw st token user.winkdId
        (if user.displayName = [] then user.winkdId else user.displayName) (some user.moodMessage)
        user.avatarData user.displayNameColor user.avColor) := by
  have hhash : '#' ∉ "/login.html".toList := by decide
  obtain ⟨params, hparams⟩ : ∃ params, params = [("oauth".toList, "success".toList),
      ("session_token".toList, token), ("winkd_id".toList, user.winkdId),
      ("display_name".toList, user.displayName), ("mood_message".toList, user.moodMessage),
      ("avatar_data".toList, user.avatarData.getD []),
      ("display_name_color".toList, user.displayNameColor.getD []), ("av_color".toList, user.avColor.getD [])] :=
    ⟨_, rfl⟩
  have hread : UrlParams.parse (UrlParams.write isUnreserved params) = params :=
    UrlParams.parse_write (by decide) (by decide) (by decide) (by decide) (by decide) params
  have hne : UrlParams.write isUnreserved params ≠ [] := by
    intro h
    rw [h, hparams] at hread
    cases hread
  have hget : UrlParams.get "oauth".toList params = some "success".toList ∧
      UrlParams.get "session_token".toList params = some token ∧
      UrlParams.get "winkd_id".toList params = some user.winkdId ∧
      UrlParams.get "display_name".toList params = some user.displayName ∧
      UrlParams.get "mood_message".toList params = some user.moodMessage ∧
      UrlParams.get "avatar_data".toList params = some (user.avatarData.getD []) ∧
      UrlParams.get "display_name_color".toList params = some (user.displayNameColor.getD []) ∧
      UrlParams.get "av_color".toList params = some (user.avColor.getD []) := by
    rw [hparams]
    exact ⟨rfl, rfl, rfl, rfl, rfl, rfl, rfl, rfl⟩
  obtain ⟨hoauth, hsession, hid, hname, hmood, havatar, hnameColor, havColor⟩ := hget
  rw [storeSignIn, oauthLocation_eq hC, ← hparams, Text.splitOnce_append hhash, handleOAuthCallback]
  simp only [Option.getD_some, hread, hoauth, hsession, hid, hname, hmood, havatar, hnameColor, havColor]
  rw [if_neg (by simp [hne]), if_neg (by simp [htoken, hwinkdId])]
  unfold saveSession savedProfile
  simp only [groundTruth_orNull]

end Ways
/-! ## What the server has -/

theorem mem_sessions_answer {row : SessionRow} (r : Op) {b : Backend} (h : row ∈ b.sessions) :
    row ∈ (answer r b).2.sessions := by
  rcases sessions_answer r b with heq | ⟨_, _, _, _, heq⟩
  · rw [heq]
    exact h
  · rw [heq]
    exact List.mem_append_left _ h

theorem session_created {id : Id} {token : Text} {b : Backend}
    (h : (answer (.createSession id token) b).1 = .ok ()) :
    b.newSession id token ∈ (answer (.createSession id token) b).2.sessions := by
  rcases createSession_cases id token b with ⟨e, heq⟩ | ⟨-, heq⟩
  · rw [heq] at h
    cases h
  · rw [heq]
    exact List.mem_append_right _ (List.mem_singleton_self _)

/-- The row that a statement answers is one of the table's. -/
theorem hasName_found {r : Op} {b : Backend} {user : User} (h : r.found (answer r b).1 = some user) :
    (answer r b).2.HasName user.id user.winkdId := by
  suffices hmem : user ∈ (answer r b).2.users from ⟨user, hmem, rfl, rfl⟩
  cases r with
  | findUserByUsername username => exact List.mem_of_find?_eq_some h
  | findUserByEmail email => exact List.mem_of_find?_eq_some h
  | findUserByOauth provider providerUserId =>
    obtain ⟨account, -, huser⟩ := Option.bind_eq_some_iff.mp h
    exact mem_of_findUserById huser
  | findUserById id => exact mem_of_findUserById h
  | findUserBySession token =>
    obtain ⟨row, -, huser⟩ := Option.bind_eq_some_iff.mp h
    exact mem_of_findUserById huser
  | createUser username winkdId displayName email passwordHash =>
    simp only [answer, Backend.createUser] at h ⊢
    split at h
    · cases h
    · cases h
      exact List.mem_append_right _ (List.mem_singleton_self _)
  | _ => cases h

/-- The server takes the token for this account until the session expires, and then for none. -/
def Backend.Takes (b : Backend) (token : Text) (user : User) : Prop :=
  ∃ row ∈ b.sessions, row.token = token ∧ row.userId = user.id ∧
    (b.now < row.expiresAt → ∃ u, b.findUserBySession token = some u ∧ u.id = user.id ∧
      u.winkdId = user.winkdId) ∧
    (row.expiresAt ≤ b.now → b.findUserBySession token = none)

namespace Service
variable {C : Crates} {reqs : ℕ → Outside × AuthRequest} {s : Service}

theorem ReachedServing.reached (hs : s.ReachedServing C reqs) : s.Reached C := by
  obtain ⟨now, hreach⟩ := hs
  refine ⟨now, hreach.mono fun t e he => ?_⟩
  cases e with
  | clock now => exact he
  | _ => trivial

/-- What a statement has brought about stays, if no other undoes it. -/
theorem ReachedServing.remains (hs : s.ReachedServing C reqs) {P : Backend → Prop}
    (hanswer : ∀ r b, P b → P (answer r b).2) (hclock : ∀ b now, P b → P { b with now := now })
    {e : Entry Op Op.Reply Backend} (he : e ∈ s.trace) (hP : P (answer e.request e.before).2) : P s.state := by
  obtain ⟨now, hreach⟩ := hs
  refine Pool.remains (h := answer) hanswer (fun t e _ => ?_) hreach rfl he hP
  cases e with
  | request o req => exact .inr ⟨rfl, id⟩
  | statement i => exact .inl ⟨i, rfl⟩
  | clock now => exact .inr ⟨rfl, hclock t.state now⟩

theorem ReachedServing.name_known (hs : s.ReachedServing C reqs) {i : ℕ} {user : User}
    (h : Past.Knows (Pool.history i s.trace) user) : s.state.HasName user.id user.winkdId := by
  obtain ⟨x, hx, hfound⟩ := h
  obtain ⟨e, he, -, rfl⟩ := Pool.mem_history.mp hx
  refine hs.remains (P := fun b => b.HasName user.id user.winkdId)
    (fun r b => (answer_names r b).kept _ _) (fun _ _ h => h) he (hasName_found ?_)
  rw [← hs.answered e he]
  exact hfound

theorem ReachedServing.session_given (hs : s.ReachedServing C reqs) {i : ℕ} {id : Id} {token : Text}
    (h : (Pool.history i s.trace).Told (.createSession id token) (.ok ())) :
    ∃ row ∈ s.state.sessions, row.token = token ∧ row.userId = id := by
  obtain ⟨⟨j, b, r, x⟩, he, -, heq⟩ := Pool.mem_history.mp h
  cases heq
  refine hs.remains (P := fun b => ∃ row ∈ b.sessions, row.token = token ∧ row.userId = id)
    (fun r b => ?_) (fun _ _ h => h) he ?_
  · rintro ⟨row, hrow, hrest⟩
    exact ⟨row, mem_sessions_answer r hrow, hrest⟩
  · exact ⟨_, session_created (hs.answered _ he).symm, rfl, rfl⟩

/-- No two sessions have one token. -/
theorem Reached.tokens (hs : s.Reached C) : (s.state.sessions.map SessionRow.token).Nodup := by
  obtain ⟨now, hreach⟩ := hs
  refine hreach.invariant (I := fun s => (s.state.sessions.map SessionRow.token).Nodup) List.nodup_nil ?_
  intro s e hs he
  refine next_invariant (I := fun b => (b.sessions.map SessionRow.token).Nodup) (fun r b hb => ?_)
    (fun _ _ _ h => h) hs he
  rcases sessions_answer r b with heq | ⟨id, token, -, hfree, heq⟩
  · rw [heq]
    exact hb
  · rw [heq, List.map_append, List.nodup_append]
    refine ⟨hb, List.nodup_singleton _, fun t ht t' ht' hsame => ?_⟩
    obtain ⟨row, hrow, rfl⟩ := List.mem_map.mp ht
    exact hfree row hrow (hsame.trans (List.mem_singleton.mp ht'))

/-- **What a request was given, the server takes for the user that it was told of.** -/
theorem ReachedServing.takes (hs : s.ReachedServing C reqs) {o : Outside} {i : ℕ} {user : User}
    (h : Past.Given o (Pool.history i s.trace) user) : s.state.Takes o.token user := by
  obtain ⟨row, hrow, htoken, hid⟩ := hs.session_given h.created
  obtain ⟨x, hx, hxid, hxname⟩ := hs.name_known h.knows
  have hdistinct := hs.reached.accounts
  have hone : ∀ row' ∈ s.state.sessions, row'.token = o.token → row' = row := fun row' hrow' htoken' =>
    List.inj_on_of_nodup_map hs.reached.tokens hrow' hrow (htoken'.trans htoken.symm)
  refine ⟨row, hrow, htoken, hid, fun hlive => ?_, fun hexpired => ?_⟩
  · have hfind : (s.state.sessions.find? fun r => r.token = o.token ∧ s.state.now < r.expiresAt) = some row := by
      cases hfound : s.state.sessions.find? fun r => r.token = o.token ∧ s.state.now < r.expiresAt with
      | none =>
        rw [List.find?_eq_none] at hfound
        exact absurd (decide_eq_true ⟨htoken, hlive⟩) (hfound row hrow)
      | some row' =>
        have hcond := of_find?_eq_some hfound
        rw [hone row' (List.mem_of_find?_eq_some hfound) hcond.1]
    have huser : s.state.findUserById user.id = some x := by
      cases hfound : s.state.findUserById user.id with
      | none =>
        rw [Backend.findUserById, List.find?_eq_none] at hfound
        exact absurd (decide_eq_true hxid) (hfound x hx)
      | some u =>
        have huid : u.id = user.id := of_find?_eq_some (p := fun u : User => u.id = user.id) hfound
        rw [hdistinct.eq_of_id (mem_of_findUserById hfound) hx (huid.trans hxid.symm)]
    refine ⟨x, ?_, hxid, hxname⟩
    rw [Backend.findUserBySession, hfind, Option.bind_some, hid, huser]
  · rw [Backend.findUserBySession, List.find?_eq_none.mpr, Option.bind_none]
    intro row' hrow' hcond
    obtain ⟨htoken', hlive⟩ := of_decide_eq_true hcond
    rw [hone row' hrow' htoken'] at hlive
    exact absurd hlive (Nat.not_lt.mpr hexpired)

end Service

/-! ## They agree -/

def Response.signsIn : Response → Bool
  | .login _ => true
  | .redirect _ _ => true
  | _ => false

/-- What a browser has stored after a sign-in with this answer. -/
structure SignedIn (draw : Fin MOODS_2000S.length) (before after : SessionStorage) (response : Response)
    (token : Text) (user : User) (b : Backend) : Prop where
  shown : ShownAs after token user
  /-- The token that is stored is the account's whose Winkd ID and name are. -/
  takes : b.Takes token user
  /-- What was stored of other accounts has gone. -/
  apart : ∀ other : SessionStorage, other.profileOf user.winkdId = before.profileOf user.winkdId →
    storeSignIn draw other response = some after

namespace Service
variable {C : Crates} {reqs : ℕ → Outside × AuthRequest} {s : Service}

/-- **Every sign-in that ends well signs in the user that the server takes the token for.** -/
theorem sign_ins_agree (hs : s.ReachedServing C reqs) (hC : C.urlEncode = Percent.encode isUnreserved) {i : ℕ}
    (htoken : (reqs i).1.token ≠ []) {response : Response} (hend : s.tasks[i]? = some (.pure response))
    (hsigns : response.signsIn = true) (draw : Fin MOODS_2000S.length) (before : SessionStorage) :
    ∃ after user, storeSignIn draw before response = some after ∧
      SignedIn draw before after response (reqs i).1.token user s.state := by
  have hhanded : Past.Handed C (reqs i).1 (Pool.history i s.trace) response :=
    (hs.abiding fun i => handle_abides C (reqs i).1 (reqs i).2).each.own i _ hend
  have hwinkdId : ∀ user, Past.Given (reqs i).1 (Pool.history i s.trace) user → user.winkdId ≠ [] := by
    intro user hgiven hempty
    obtain ⟨x, hx, -, hname⟩ := hs.name_known hgiven.knows
    have hwell := hs.reached.names.shared.1 _ (List.mem_map_of_mem hx)
    have hhash := hwell.oneHash
    rw [hname, hempty] at hhash
    cases hhash
  cases response with
  | login data =>
    obtain ⟨user, rfl, hgiven⟩ := hhanded
    refine ⟨_, user, rfl, shown_saveSession draw before htoken (hwinkdId user hgiven) fun _ => rfl,
      hs.takes hgiven, fun other hother => ?_⟩
    exact congrArg some (saveSession_congr hother)
  | redirect location setCookie =>
    obtain ⟨user, rfl, hgiven⟩ := hhanded
    have hstored := fun st => storeSignIn_redirect hC draw st htoken (hwinkdId user hgiven) setCookie
    refine ⟨_, user, hstored before, shown_saveSession draw before htoken (hwinkdId user hgiven) ?_,
      hs.takes hgiven, fun other hother => ?_⟩
    · exact fun hne => if_neg hne
    · rw [hstored other]
      exact congrArg some (saveSession_congr hother)
  | _ => cases hsigns

end Service
namespace Sample

def signInRequests (_ : ℕ) : Outside × AuthRequest := (outside "first", callback)

/-- Ada has signed in with GitHub. -/
def signedInOnce : Service :=
  (.clock 30000000 :: served 0 10 "first" callback).foldl (Service.next codecCrates) (Pool.idle (.init 0))

theorem signedInOnce_served : signedInOnce.ReachedServing codecCrates signInRequests := by
  have hclock : Service.ReachedServing codecCrates signInRequests
      (Service.next codecCrates (Pool.idle (.init 0)) (.clock 30000000)) :=
    ⟨0, (Transitions.Reaches.refl _).tail (Nat.zero_le 30000000)⟩
  exact hclock.served 0 10 "first" callback rfl

/-- Bob was signed in on this browser before. -/
def bobsBrowser : SessionStorage :=
  saveSession ⟨0, by decide⟩ ⟨none, none, none⟩ "second".toList "bob#0002".toList "Bob".toList none none none none

end Sample

namespace Service
open Sample

theorem sign_ins_agree_signedInOnce : ∃ response after user,
    storeSignIn ⟨0, by decide⟩ bobsBrowser response = some after ∧
      SignedIn ⟨0, by decide⟩ bobsBrowser after response "first".toList user signedInOnce.state := by
  have hended : ∃ location setCookie, signedInOnce.tasks[0]? = some (.pure (.redirect location setCookie)) :=
    ⟨_, _, rfl⟩
  obtain ⟨location, setCookie, hend⟩ := hended
  exact ⟨_, sign_ins_agree signedInOnce_served rfl (by decide) hend rfl _ _⟩

end Service
end Winkd.Server
