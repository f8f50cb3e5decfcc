import Winkd.AppCore
import Winkd.UseSocket
import Winkd.Router

/-!
# The events of contacts, at both clients

What the relay tells a client of its contacts, with the values that each event carries, and as the JSON
that the relay makes of it.  `app.html` and the React client both read that.

A request has an id that says who sent it: it is that of a row, whose users do not change.  Ids are not
empty.
-/

namespace Winkd.Web
open UnicodeText Winkd.Server

/-- A text that is not empty. -/
structure Filled where
  text : Text
  ne_nil : text ≠ []

/-- An entry of a snapshot: one of the roster, with the contact's presence. -/
structure SnapshotEntry where
  entry : ContactRosterEntry
  presence : Option PresenceEntry
  ne_nil : entry.winkdId ≠ []

/-- An event of contacts; `fromOf` says who sent the request with an id. -/
inductive ContactEvent (fromOf : Filled → Filled) where
  | contactsSnapshot (contacts : List SnapshotEntry)
  | presence (winkdId : Filled) (status : Text)
  | contactRequest (requestId : Filled) (fromDisplayName : Text) (fromAvatarData : Option Text)
  | contactRequestSent (requestId toWinkdId : Filled) (toDisplayName : Text)
      (toAvatarData : Option Text)
  | contactAccepted (winkdId : Filled) (displayName : Text) (avatarData : Option Text)
      (moodMessage : Text)
  | contactRequestRejected (requestId : Filled)
  | contactBlocked (requestId : Option Filled) (userId winkdId : Filled) (displayName : Text)
      (avatarData : Option Text) (blockedAt : Text)
  | contactUnblocked (userId : Filled)

def SnapshotEntry.json (c : SnapshotEntry) : Json :=
  .obj [("winkd_id", .str c.entry.winkdId), ("display_name", .str c.entry.displayName),
    ("avatar_data", .ofText c.entry.avatarData), ("mood_message", .str c.entry.moodMessage),
    ("request_status", .ofString (if c.entry.accepted then "accepted" else "pending_outbound")),
    ("status", .ofString (shownStatus c.presence))]

namespace ContactEvent
variable {fromOf : Filled → Filled}

/-- The name of the event. -/
def name : ContactEvent fromOf → String
  | .contactsSnapshot _ => "contacts_snapshot"
  | .presence _ _ => "presence"
  | .contactRequest _ _ _ => "contact_request"
  | .contactRequestSent _ _ _ _ => "contact_request_sent"
  | .contactAccepted _ _ _ _ => "contact_accepted"
  | .contactRequestRejected _ => "contact_request_rejected"
  | .contactBlocked _ _ _ _ _ _ => "contact_blocked"
  | .contactUnblocked _ => "contact_unblocked"

def fields : ContactEvent fromOf → List (String × Json)
  | .contactsSnapshot contacts => [("contacts", .arr (contacts.map SnapshotEntry.json))]
  | .presence winkdId status => [("user_id", .str winkdId.text), ("status", .str status)]
  | .contactRequest requestId fromDisplayName fromAvatarData =>
    [("request_id", .str requestId.text), ("from_winkd_id", .str (fromOf requestId).text),
      ("from_display_name", .str fromDisplayName), ("from_avatar_data", .ofText fromAvatarData)]
  | .contactRequestSent requestId toWinkdId toDisplayName toAvatarData =>
    [("request_id", .str requestId.text), ("to_winkd_id", .str toWinkdId.text),
      ("to_display_name", .str toDisplayName), ("to_avatar_data", .ofText toAvatarData)]
  | .contactAccepted winkdId displayName avatarData moodMessage =>
    [("winkd_id", .str winkdId.text), ("display_name", .str displayName),
      ("avatar_data", .ofText avatarData), ("mood_message", .str moodMessage)]
  | .contactRequestRejected requestId => [("request_id", .str requestId.text)]
  | .contactBlocked requestId userId winkdId displayName avatarData blockedAt =>
    (requestId.map fun rid => ("request_id", .str rid.text)).toList ++
      [("user_id", .str userId.text), ("winkd_id", .str winkdId.text),
        ("display_name", .str displayName), ("avatar_data", .ofText avatarData),
        ("blocked_at", .str blockedAt)]
  | .contactUnblocked userId => [("user_id", .str userId.text)]

def envelope (e : ContactEvent fromOf) : Json := .event e.name e.fields

/-! ## What the relay sends -/

theorem contactAccepted_envelope (u : Member) (h : u.winkdId ≠ []) : Server.contactAccepted u =
    (contactAccepted ⟨u.winkdId, h⟩ u.displayName u.avatarData u.moodMessage :
      ContactEvent fromOf).envelope := rfl

theorem contactRequest_envelope (F : Formats) (requestId : Id) (h : F.uuid requestId ≠ [])
    (displayName : Text) (avatarData : Option Text) :
    contactRequestEvent F requestId (fromOf ⟨F.uuid requestId, h⟩).text displayName avatarData =
      (contactRequest ⟨F.uuid requestId, h⟩ displayName avatarData :
        ContactEvent fromOf).envelope := rfl

/-- The entries of a snapshot are made of those of the roster, with the presence of the moment. -/
theorem rosterPayload_json (s : AppState) (contacts : List SnapshotEntry)
    (h : ∀ c ∈ contacts, s.presence c.entry.userId = c.presence) :
    (rosterPayload (contacts.map SnapshotEntry.entry)).run Server.serve s =
      (.ok (contacts.map SnapshotEntry.json), s) := by
  induction contacts with
  | nil => rfl
  | cons c contacts ih =>
    have hrest := ih fun c' hc' => h c' (List.mem_cons_of_mem c hc')
    have hpresence : (Server.serve (.presenceGet c.entry.userId) s).1 = c.presence := h c List.mem_cons_self
    show (Prog.ask (RelayOp.presenceGet c.entry.userId) >>= _).run Server.serve s = _
    rw [Prog.run_bind_ok Server.serve (Prog.run_ask Server.serve _ s), hpresence]
    exact Prog.run_bind_ok Server.serve hrest

end ContactEvent
end Winkd.Web
