import Winkd.UseSocket
import Winkd.SendQueue
import Winkd.Transitions

/-!
# The sockets of the React client

`useSocket` has one socket for each session object: its effect runs again whenever the session that
`authStore.ts` has is another object, and its cleanup closes the socket of the effect before.  The handler
of auth_ok calls `setSupporterState`, which makes another object.

So a socket that is authenticated never belongs to the current session (`Wired.stale`).  As soon as React has run the
effect it is closing, and another socket is being opened with the same token: whatever happens, nothing
that the server sends after auth_ok gets to the stores (`restless`).

Sockets are those of the specification, as in `Winkd.SendQueue`.  The effect is an event of its own,
which comes at some time after the store has changed.
-/

namespace Winkd.React
open UnicodeText Winkd.Server Winkd.Web

/-! ## `authStore.ts` -/

structure OwnProfile where
  winkdId : CodeUnits
  displayName : CodeUnits
  moodMessage : CodeUnits
  status : CodeUnits
  avatarData : Option CodeUnits

inductive SupporterTier where
  | free
  | plus
  deriving DecidableEq

structure SupporterState where
  tier : SupporterTier
  purchasedExtras : List Text
  buddyCap : Option Text
  buddyUsed : Text
  groupChatUnlocked : Bool
  supporterExpiresAt : Option Text

def defaultSupporterState : SupporterState := ⟨.free, [], none, "0".toList, false, none⟩

structure Session where
  token : Text
  profile : OwnProfile
  supporter : SupporterState

/-- The supporter state of auth_ok.  Only ASCII letters have a letter of `plus` as their lower case. -/
def readSupporter (authPayload : Json) : SupporterState where
  tier :=
    if (authPayload.getStr "tier").any fun t => asciiLower (trim (units t)) = units "plus".toList then .plus
    else .free
  purchasedExtras :=
    match authPayload.get "purchased_extras" with
    | some (.arr items) => items.filterMap Json.asStr
    | _ => []
  buddyCap := numberIn authPayload "buddy_cap"
  buddyUsed := (numberIn authPayload "buddy_used").getD "0".toList
  groupChatUnlocked := authPayload.isSet "group_chat_unlocked"
  supporterExpiresAt := authPayload.getStr "supporter_expires_at"

/-- A session object: which one it is, and what it has. -/
structure SessionObject where
  ref : ℕ
  value : Session

/-! ## The app -/

/-- A socket with what the closures of its effect have. -/
structure HookSocket where
  readyState : ReadyState
  session : SessionObject
  /-- Which mount's `wsRef` the callbacks write. -/
  mount : ℕ
  authenticated : Bool

/-- The socket is being opened, or is open. -/
def HookSocket.Live (s : HookSocket) : Prop := s.readyState = .connecting ∨ s.readyState = .open

structure ReactApp where
  session : Option SessionObject
  /-- The next session object. -/
  nextRef : ℕ
  /-- The session object that the effect has run for, and the socket that it has made. -/
  effect : Option (ℕ × ℕ)
  /-- How often `BuddyListPage` has been unmounted. -/
  mount : ℕ
  wsRef : Option ℕ
  sockets : List HookSocket
  stores : Client
  /-- The frames that were handed to sockets that are open. -/
  handed : List (ℕ × Json)

namespace ReactApp

/-- The app as it starts, with the session that `persist` has stored. -/
def start (session : Option Session) (stores : Client) : ReactApp where
  session := session.map fun value => ⟨0, value⟩
  nextRef := 1
  effect := none
  mount := 0
  wsRef := none
  sockets := []
  stores := stores
  handed := []

/-- `set({session:...})` -/
def setSession (a : ReactApp) (value : Session) : ReactApp :=
  { a with session := some ⟨a.nextRef, value⟩, nextRef := a.nextRef + 1 }

def login (a : ReactApp) (token : Text) (profile : OwnProfile) : ReactApp :=
  a.setSession ⟨token, profile, defaultSupporterState⟩

def logout (a : ReactApp) : ReactApp := { a with session := none }

/-- `partial` is what the spread changes. -/
def updateProfile (a : ReactApp) (partialProfile : OwnProfile → OwnProfile) : ReactApp :=
  match a.session with
  | none => a
  | some o => a.setSession { o.value with profile := partialProfile o.value.profile }

def setSupporterState (a : ReactApp) (supporter : SupporterState) : ReactApp :=
  match a.session with
  | none => a
  | some o => a.setSession { o.value with supporter := supporter }

/-! ### Sockets -/

def stateOf (a : ReactApp) (i : ℕ) : Option ReadyState := a.sockets[i]?.map HookSocket.readyState

def modify (a : ReactApp) (i : ℕ) (f : HookSocket → HookSocket) : ReactApp :=
  { a with sockets := a.sockets.modify i f }

/-- `ws.close()`, or the closing that the other end begins. -/
def close (a : ReactApp) (i : ℕ) : ReactApp :=
  a.modify i fun s =>
    if s.readyState = .connecting ∨ s.readyState = .open then { s with readyState := .closing } else s

/-- `send` of the hook. -/
def send (a : ReactApp) (payload : Json) : ReactApp :=
  match a.wsRef with
  | none => a
  | some i => if a.stateOf i = some .open then { a with handed := a.handed ++ [(i, payload)] } else a

/-! ### The effect -/

/-- The cleanup of the effect that has run. -/
def cleanup (a : ReactApp) : ReactApp :=
  match a.effect with
  | none => a
  | some (_, i) => { a.close i with wsRef := none, effect := none }

/-- Without a session `App` shows the login page, and `BuddyListPage` is unmounted. -/
def runEffect (a : ReactApp) : ReactApp :=
  match a.session with
  | none => { a with mount := a.mount + 1 }
  | some o =>
    { a with
      sockets := a.sockets ++ [⟨.connecting, o, a.mount, false⟩]
      wsRef := some a.sockets.length
      effect := some (o.ref, a.sockets.length) }

/-- React has run the effect for the session that the store has. -/
def Settled (a : ReactApp) : Prop := a.session.map SessionObject.ref = a.effect.map Prod.fst

instance (a : ReactApp) : Decidable a.Settled := inferInstanceAs (Decidable (_ = _))

/-- React renders, and runs the effect if its dependencies have changed. -/
def flush (a : ReactApp) : ReactApp := if a.Settled then a else a.cleanup.runEffect

/-! ### Callbacks -/

/-- `wsRef.current=null`, by a callback of a socket. -/
def clearRef (a : ReactApp) (s : HookSocket) : ReactApp :=
  if s.mount = a.mount then { a with wsRef := none } else a

def onopen (a : ReactApp) (i : ℕ) (s : HookSocket) : ReactApp :=
  { a with handed := a.handed ++ [(i, authFrame s.session.value.token)] }

/-- Data that is not JSON, or that a handler cannot read, is dropped. -/
def onmessage (a : ReactApp) (numberText : Text → CodeUnits) (i : ℕ) (s : HookSocket) (data : Option Json)
    (now : CodeUnits) : ReactApp :=
  match data with
  | none => a
  | some envelope =>
    if !s.authenticated then
      if isAuthOk envelope then
        (a.modify i fun s => { s with authenticated := true }).setSupporterState (readSupporter envelope)
      else a
    else
      { a with stores := a.stores.onEnvelope numberText s.session.value.profile.winkdId envelope now }

def onclose (a : ReactApp) (s : HookSocket) (code : ℕ) : ReactApp :=
  if code = 4001 then (a.clearRef s).logout else a.clearRef s

/-! ## Runs -/

inductive Event where
  | login (token : Text) (profile : OwnProfile)
  | updateProfile (partialProfile : OwnProfile → OwnProfile)
  /-- A component changes what the stores of the chats and the contacts have. -/
  | act (stores : Client)
  | send (payload : Json)
  | flush
  | opened (socket : ℕ)
  | received (socket : ℕ) (data : Option Json) (now : CodeUnits)
  /-- The other end closes the socket. -/
  | closing (socket : ℕ)
  | failed (socket : ℕ)
  | closed (socket code : ℕ)

variable (numberText : Text → CodeUnits)

/-- What the app does, if the event can occur. -/
def next (a : ReactApp) : Event → ReactApp
  | .login token profile => a.login token profile
  | .updateProfile f => a.updateProfile f
  | .act stores => { a with stores := stores }
  | .send payload => a.send payload
  | .flush => a.flush
  | .opened i =>
    match a.sockets[i]? with
    | none => a
    | some s =>
      if s.readyState = .connecting then
        (a.modify i fun s => { s with readyState := .open }).onopen i s
      else a
  | .received i data now =>
    match a.sockets[i]? with
    | none => a
    | some s => if s.readyState = .open then a.onmessage numberText i s data now else a
  | .closing i => a.close i
  | .failed i =>
    match a.sockets[i]? with
    | none => a
    | some s => a.clearRef s
  | .closed i code =>
    match a.sockets[i]? with
    | none => a
    | some s =>
      if s.readyState = .closed then a
      else (a.modify i fun s => { s with readyState := .closed }).onclose s code

/-- The states that the app can come to. -/
def Reached (a : ReactApp) : Prop :=
  ∃ session stores, Transitions.Reaches (next numberText) (fun _ _ => True) (start session stores) a

/-! ## Which sockets belong to which session -/

/-- Sessions are new objects, and only the socket of the effect is open. -/
structure Linked (a : ReactApp) : Prop where
  fresh : ∀ o, a.session = some o → o.ref < a.nextRef
  made : ∀ s ∈ a.sockets, s.session.ref < a.nextRef
  live : ∀ i s, a.sockets[i]? = some s → s.Live → a.effect = some (s.session.ref, i)

/-- A socket that is authenticated is not of the current session. -/
structure Wired (a : ReactApp) : Prop extends Linked a where
  same : ∀ s ∈ a.sockets, ∀ o, a.session = some o → s.session.ref = o.ref → s.session = o
  stale : ∀ s ∈ a.sockets, s.authenticated = true →
    a.session.map SessionObject.ref ≠ some s.session.ref

section Steps
variable {a : ReactApp} {i j : ℕ} {s : HookSocket} {f : HookSocket → HookSocket}

theorem of_getElem?_modify (h : (a.modify i f).sockets[j]? = some s) :
    ∃ s₀, a.sockets[j]? = some s₀ ∧ (i ≠ j ∧ s = s₀ ∨ i = j ∧ s = f s₀) := by
  rw [show (a.modify i f).sockets = a.sockets.modify i f from rfl, List.getElem?_modify] at h
  split at h
  · rename_i hij
    obtain ⟨s₀, hs₀, rfl⟩ := Option.map_eq_some_iff.mp h
    exact ⟨s₀, hs₀, .inr ⟨hij, rfl⟩⟩
  · rename_i hij
    rw [id_map'] at h
    exact ⟨s, h, .inl ⟨hij, rfl⟩⟩

theorem of_mem_modify (h : s ∈ (a.modify i f).sockets) :
    ∃ s₀ ∈ a.sockets, s = s₀ ∨ s = f s₀ := by
  obtain ⟨j, hj⟩ := List.mem_iff_getElem?.mp h
  obtain ⟨s₀, hs₀, hs⟩ := of_getElem?_modify hj
  exact ⟨s₀, List.mem_of_getElem? hs₀, hs.imp And.right And.right⟩

/-- A socket may be modified, if it stays in its session, and does not open again. -/
theorem Linked.modify (h : Linked a) (hsession : ∀ s, (f s).session = s.session)
    (hlive : ∀ s, a.sockets[i]? = some s → (f s).Live → s.Live) : Linked (a.modify i f) := by
  refine ⟨h.fresh, fun s hs => ?_, fun j s hs hopen => ?_⟩
  · obtain ⟨s₀, hs₀, rfl | rfl⟩ := of_mem_modify hs
    · exact h.made s hs₀
    · rw [hsession]
      exact h.made s₀ hs₀
  · obtain ⟨s₀, hs₀, ⟨-, rfl⟩ | ⟨rfl, rfl⟩⟩ := of_getElem?_modify hs
    · exact h.live j s hs₀ hopen
    · rw [hsession]
      exact h.live i s₀ hs₀ (hlive s₀ hs₀ hopen)

theorem Wired.modify (h : Wired a) (hsession : ∀ s, (f s).session = s.session)
    (hlive : ∀ s, a.sockets[i]? = some s → (f s).Live → s.Live) (hauth : ∀ s, (f s).authenticated = s.authenticated) :
    Wired (a.modify i f) := by
  refine ⟨h.toLinked.modify hsession hlive, fun s hs => ?_, fun s hs => ?_⟩
  · obtain ⟨s₀, hs₀, rfl | rfl⟩ := of_mem_modify hs
    · exact h.same s hs₀
    · rw [hsession]
      exact h.same s₀ hs₀
  · obtain ⟨s₀, hs₀, rfl | rfl⟩ := of_mem_modify hs
    · exact h.stale s hs₀
    · rw [hsession, hauth]
      exact h.stale s₀ hs₀

theorem Wired.close (h : Wired a) (i : ℕ) : Wired (a.close i) := by
  refine h.modify (fun s => ?_) (fun s _ hs => ?_) fun s => ?_
  · split <;> rfl
  · split at hs
    · rename_i hopen
      exact hopen
    · exact hs
  · split <;> rfl

/-- **A new session object is nobody's.** -/
theorem Linked.setSession (h : Linked a) (value : Session) : Wired (a.setSession value) := by
  refine ⟨⟨fun o ho => ?_, fun s hs => ?_, h.live⟩, fun s hs o ho href => ?_, fun s hs _ heq => ?_⟩
  · obtain rfl := Option.some.inj ho
    exact Nat.lt_succ_self _
  · exact Nat.lt_succ_of_lt (h.made s hs)
  · obtain rfl := Option.some.inj ho
    exact absurd href (Nat.ne_of_lt (h.made s hs))
  · exact Nat.ne_of_lt (h.made s hs) (Option.some.inj heq).symm

theorem Linked.signedOut (h : Linked a) (hnone : a.session = none) : Wired a := by
  refine ⟨h, fun s hs o ho => ?_, fun s hs _ heq => ?_⟩
  · rw [hnone] at ho
    cases ho
  · rw [hnone] at heq
    cases heq

/-- Auth_ok is noted, and gives a new session object. -/
theorem Wired.authenticated (h : Wired a) (i : ℕ) (supporter : SupporterState) :
    Wired ((a.modify i fun s => { s with authenticated := true }).setSupporterState supporter) := by
  have hlinked : Linked (a.modify i fun s => { s with authenticated := true }) :=
    h.toLinked.modify (fun _ => rfl) fun _ _ hs => hs
  unfold setSupporterState
  split
  · rename_i hnone
    exact hlinked.signedOut hnone
  · exact hlinked.setSession _

theorem not_live_closing (s : HookSocket) :
    ¬ (if s.readyState = .connecting ∨ s.readyState = .open then { s with readyState := .closing }
      else s).Live := by
  split
  · rintro (h | h) <;> cases h
  · rename_i hdead
    exact hdead

theorem Wired.cleanup (h : Wired a) : Wired a.cleanup ∧ ∀ s ∈ a.cleanup.sockets, ¬ s.Live := by
  unfold ReactApp.cleanup
  split
  · rename_i hnone
    refine ⟨h, fun s hs hopen => ?_⟩
    obtain ⟨j, hj⟩ := List.mem_iff_getElem?.mp hs
    have heffect := h.live j s hj hopen
    rw [hnone] at heffect
    cases heffect
  · rename_i r i heffect
    have hdead : ∀ s ∈ (a.close i).sockets, ¬ s.Live := by
      intro s hs hopen
      obtain ⟨j, hj⟩ := List.mem_iff_getElem?.mp hs
      have hlive := (h.close i).live j s hj hopen
      obtain ⟨-, rfl⟩ := Prod.mk.inj (Option.some.inj (heffect.symm.trans hlive))
      -- it has just been closed
      obtain ⟨s₀, hs₀, ⟨hne, -⟩ | ⟨-, rfl⟩⟩ := of_getElem?_modify hj
      · exact hne rfl
      · exact not_live_closing s₀ hopen
    refine ⟨⟨⟨h.fresh, (h.close i).made, fun j s hj hopen => ?_⟩, (h.close i).same, (h.close i).stale⟩, hdead⟩
    exact absurd hopen (hdead s (List.mem_of_getElem? hj))

theorem Wired.flush (h : Wired a) : Wired a.flush := by
  unfold ReactApp.flush
  split
  · exact h
  · obtain ⟨hwired, hdead⟩ := h.cleanup
    unfold runEffect
    split
    · exact ⟨⟨hwired.fresh, hwired.made, hwired.live⟩, hwired.same, hwired.stale⟩
    · rename_i o ho
      refine ⟨⟨hwired.fresh, fun s hs => ?_, fun i s hs hopen => ?_⟩, fun s hs o' ho' href => ?_,
        fun s hs hauth => ?_⟩
      · rcases List.mem_append.mp hs with hs | hs
        · exact hwired.made s hs
        · obtain rfl := List.mem_singleton.mp hs
          exact hwired.fresh o ho
      · change (a.cleanup.sockets ++ [_])[i]? = some s at hs
        rw [List.getElem?_append] at hs
        split at hs
        · exact absurd hopen (hdead s (List.mem_of_getElem? hs))
        · rename_i hlen
          obtain ⟨hlast, hs⟩ := List.getElem?_eq_some_iff.mp hs
          have hi : i = a.cleanup.sockets.length := by
            rw [List.length_singleton] at hlast
            omega
          obtain rfl := List.mem_singleton.mp (hs ▸ List.getElem_mem hlast)
          rw [hi]
      · rcases List.mem_append.mp hs with hs | hs
        · exact hwired.same s hs o' ho' href
        · obtain rfl := List.mem_singleton.mp hs
          exact Option.some.inj (ho.symm.trans ho')
      · rcases List.mem_append.mp hs with hs | hs
        · exact hwired.stale s hs hauth
        · obtain rfl := List.mem_singleton.mp hs
          cases hauth

/-- The rest of the app has no part in it. -/
theorem Wired.rest (h : Wired a) (mount : ℕ) (wsRef : Option ℕ) (stores : Client) (handed : List (ℕ × Json)) :
    Wired { a with mount := mount, wsRef := wsRef, stores := stores, handed := handed } :=
  ⟨⟨h.fresh, h.made, h.live⟩, h.same, h.stale⟩

theorem Wired.clearRef (h : Wired a) (s : HookSocket) : Wired (a.clearRef s) := by
  unfold ReactApp.clearRef
  split
  · exact h.rest _ _ _ _
  · exact h

theorem Wired.logout (h : Wired a) : Wired a.logout :=
  Linked.signedOut ⟨fun _ ho => (by cases ho), h.made, h.live⟩ rfl

variable {numberText : Text → CodeUnits}

theorem Wired.onmessage (h : Wired a) (i : ℕ) (s : HookSocket) (data : Option Json) (now : CodeUnits) :
    Wired (a.onmessage numberText i s data now) := by
  unfold ReactApp.onmessage
  split
  · exact h
  · split
    · split
      · exact h.authenticated i _
      · exact h
    · exact h.rest _ _ _ _

theorem Wired.next (h : Wired a) (e : Event) : Wired (a.next numberText e) := by
  cases e with
  | login token profile => exact h.toLinked.setSession _
  | updateProfile f =>
    show Wired (a.updateProfile f)
    unfold ReactApp.updateProfile
    split
    · exact h
    · exact h.toLinked.setSession _
  | act stores => exact h.rest _ _ _ _
  | send payload =>
    show Wired (a.send payload)
    unfold ReactApp.send
    split
    · exact h
    · split
      · exact h.rest _ _ _ _
      · exact h
  | flush => exact h.flush
  | opened i =>
    dsimp only [ReactApp.next]
    split
    · exact h
    · rename_i s hs
      split
      · rename_i hconnecting
        have hopened : Wired (a.modify i fun s => { s with readyState := .open }) := by
          refine h.modify (fun _ => rfl) (fun s' hs' _ => ?_) fun _ => rfl
          obtain rfl := Option.some.inj (hs.symm.trans hs')
          exact .inl hconnecting
        exact hopened.rest _ _ _ _
      · exact h
  | received i data now =>
    dsimp only [ReactApp.next]
    split
    · exact h
    · split
      · exact h.onmessage i _ data now
      · exact h
  | closing i => exact h.close i
  | failed i =>
    dsimp only [ReactApp.next]
    split
    · exact h
    · exact h.clearRef _
  | closed i code =>
    dsimp only [ReactApp.next]
    split
    · exact h
    · split
      · exact h
      · have hclosed : Wired (a.modify i fun s => { s with readyState := .closed }) :=
          h.modify (fun _ => rfl) (fun _ _ hs => by rcases hs with hs | hs <;> cases hs) fun _ => rfl
        unfold onclose
        split
        · exact (hclosed.clearRef _).logout
        · exact hclosed.clearRef _

theorem Reached.wired (h : a.Reached numberText) : Wired a := by
  obtain ⟨session, stores, hreach⟩ := h
  refine hreach.invariant ⟨⟨fun o ho => ?_, fun s hs => absurd hs List.not_mem_nil, ?_⟩, ?_, ?_⟩
    fun a e ha _ => ha.next e
  · obtain ⟨value, -, rfl⟩ := Option.map_eq_some_iff.mp ho
    exact Nat.zero_lt_one
  · intro i s hs
    cases hs
  · exact fun s hs => absurd hs List.not_mem_nil
  · exact fun s hs => absurd hs List.not_mem_nil

/-- In a settled state a socket that is open is not authenticated, and belongs to the session. -/
theorem Wired.current (h : Wired a) (hsettled : a.Settled) (hs : a.sockets[i]? = some s) (hlive : s.Live) :
    a.effect = some (s.session.ref, i) ∧ a.session = some s.session ∧ s.authenticated = false := by
  have heffect := h.live i s hs hlive
  have hmem := List.mem_of_getElem? hs
  have href : a.session.map SessionObject.ref = some s.session.ref := by
    rw [show a.session.map SessionObject.ref = a.effect.map Prod.fst from hsettled, heffect]
    rfl
  obtain ⟨o, ho, heq⟩ := Option.map_eq_some_iff.mp href
  refine ⟨heffect, ?_, ?_⟩
  · rw [h.same s hmem o ho heq.symm]
    exact ho
  · rw [Bool.eq_false_iff]
    exact fun hauth => h.stale s hmem hauth href

/-- An event of a socket that is not authenticated leaves the stores alone. -/
theorem stores_onmessage (hauth : s.authenticated = false) (data : Option Json) (now : CodeUnits) :
    (a.onmessage numberText i s data now).stores = a.stores := by
  unfold ReactApp.onmessage setSupporterState
  rw [hauth]
  split
  · rfl
  · split
    · split
      · split <;> rfl
      · rfl
    · rename_i hnot
      exact absurd rfl hnot

theorem stores_clearRef (s : HookSocket) : (a.clearRef s).stores = a.stores := by
  unfold ReactApp.clearRef
  split <;> rfl

theorem stores_flush : a.flush.stores = a.stores := by
  unfold ReactApp.flush ReactApp.cleanup runEffect
  split
  · rfl
  · split <;> split <;> rfl

/-- **In a settled state nothing but a component changes the stores.** -/
theorem Wired.stores_next (h : Wired a) (hsettled : a.Settled) {e : Event}
    (he : ∀ stores, e ≠ .act stores) : (a.next numberText e).stores = a.stores := by
  cases e with
  | login token profile => rfl
  | updateProfile f =>
    show (a.updateProfile f).stores = _
    unfold ReactApp.updateProfile
    split <;> rfl
  | act stores => exact absurd rfl (he stores)
  | send payload =>
    show (a.send payload).stores = _
    unfold ReactApp.send
    split
    · rfl
    · split <;> rfl
  | flush => exact stores_flush
  | opened i =>
    dsimp only [ReactApp.next]
    split
    · rfl
    · split <;> rfl
  | received i data now =>
    dsimp only [ReactApp.next]
    split
    · rfl
    · rename_i s hs
      split
      · rename_i hopen
        exact stores_onmessage (h.current hsettled hs (.inr hopen)).2.2 data now
      · rfl
  | closing i => rfl
  | failed i =>
    dsimp only [ReactApp.next]
    split
    · rfl
    · exact stores_clearRef _
  | closed i code =>
    dsimp only [ReactApp.next]
    split
    · rfl
    · split
      · rfl
      · unfold onclose
        split <;> exact stores_clearRef _

/-- **Auth_ok ends its own socket**: the effect closes it, and opens another with the same token. -/
theorem Wired.again (h : Wired a) (hsettled : a.Settled) (hs : a.sockets[i]? = some s)
    (hopen : s.readyState = .open) {envelope : Json} (hok : isAuthOk envelope = true) (now : CodeUnits)
    {b : ReactApp} (hb : b = (a.next numberText (.received i (some envelope) now)).flush) :
    b.stateOf i = some .closing ∧ b.sockets.length = a.sockets.length + 1 ∧
      ∃ t, b.sockets[a.sockets.length]? = some t ∧ t.readyState = .connecting ∧
        t.session.value.token = s.session.value.token := by
  obtain ⟨heffect, hsession, hauth⟩ := h.current hsettled hs (.inr hopen)
  have hnew : a.nextRef ≠ s.session.ref := Nat.ne_of_gt (h.made s (List.mem_of_getElem? hs))
  have hnext : a.next numberText (.received i (some envelope) now) =
      { a with
        sockets := a.sockets.modify i fun s => { s with authenticated := true }
        session := some ⟨a.nextRef, { s.session.value with supporter := readSupporter envelope }⟩
        nextRef := a.nextRef + 1 } := by
    simp only [ReactApp.next, hs, hopen, if_true, ReactApp.onmessage, hauth, Bool.not_false, hok,
      setSupporterState, ReactApp.modify, hsession, setSession]
  have hchanged : ¬ (a.next numberText (.received i (some envelope) now)).Settled := by
    rw [hnext]
    show ¬ some a.nextRef = a.effect.map Prod.fst
    rw [heffect]
    exact fun heq => hnew (Option.some.inj heq)
  rw [ReactApp.flush, if_neg hchanged, hnext] at hb
  simp only [ReactApp.cleanup, heffect, ReactApp.close, ReactApp.modify, runEffect] at hb
  have hi : i < a.sockets.length := (List.getElem?_eq_some_iff.mp hs).1
  refine ⟨?_, ?_, ⟨.connecting, ⟨a.nextRef, { s.session.value with supporter := readSupporter envelope }⟩,
    a.mount, false⟩, ?_, rfl, rfl⟩
  · rw [hb, stateOf, List.getElem?_append_left (by simpa only [List.length_modify] using hi),
      List.getElem?_modify_eq, List.getElem?_modify_eq, hs]
    show some (HookSocket.readyState (if _ then _ else _)) = _
    rw [if_pos (.inr hopen)]
  · rw [hb, List.length_append, List.length_modify, List.length_modify, List.length_singleton]
  · rw [hb, List.getElem?_append_right (by simp only [List.length_modify, Nat.le_refl])]
    simp only [List.length_modify, Nat.sub_self, List.getElem?_cons_zero]

end Steps

/-- What comes of the hook: it has one socket at most, what the server relays is not handled, and every
auth_ok opens another socket. -/
structure Restless (numberText : Text → CodeUnits) (a : ReactApp) : Prop where
  single : ∀ (i j : ℕ) (s t : HookSocket), a.sockets[i]? = some s → a.sockets[j]? = some t → s.Live → t.Live →
    i = j
  unheard : a.Settled → ∀ e, (∀ stores, e ≠ .act stores) → (a.next numberText e).stores = a.stores
  again : a.Settled → ∀ i s envelope now, a.sockets[i]? = some s → s.readyState = .open →
    isAuthOk envelope = true → ∀ b, b = (a.next numberText (.received i (some envelope) now)).flush →
      b.stateOf i = some .closing ∧ b.sockets.length = a.sockets.length + 1 ∧
        ∃ t, b.sockets[a.sockets.length]? = some t ∧ t.readyState = .connecting ∧
          t.session.value.token = s.session.value.token

/-- **The client never stays signed in**: whatever happens, and whenever React runs the effect. -/
theorem restless {numberText : Text → CodeUnits} {a : ReactApp} (h : a.Reached numberText) :
    Restless numberText a where
  single i j s t hs ht hlive hlive' := by
    have heffect := h.wired.live i s hs hlive
    exact (Prod.mk.inj (Option.some.inj (heffect.symm.trans (h.wired.live j t ht hlive')))).2
  unheard hsettled _ he := h.wired.stores_next hsettled he
  again hsettled _ _ _ now hs hopen hok _ hb := h.wired.again hsettled hs hopen hok now hb

/-- Signed in, connected, and about to get auth_ok. -/
def Sample.connected : ReactApp :=
  [Event.login "t".toList ⟨[], [], [], [], none⟩, .flush, .opened 0].foldl (next units)
    (start none .empty)

theorem restless_connected :
    (Sample.connected.next units (.received 0 (some (.obj [("type", .ofString "auth_ok")])) [])).flush.stateOf 0 =
      some .closing := by
  have hadmits : Transitions.Admits (next units) (fun _ _ => True) (start none .empty)
      [.login "t".toList ⟨[], [], [], [], none⟩, .flush, .opened 0] := ⟨trivial, trivial, trivial, trivial⟩
  have hreach : Sample.connected.Reached units := ⟨none, .empty, hadmits.reaches⟩
  exact ((restless hreach).again (by decide +kernel) 0 _ _ [] rfl rfl (by decide +kernel) _ rfl).1

end ReactApp
end Winkd.React
