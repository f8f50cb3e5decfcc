import Winkd.Secrecy

/-!
# Forward secrecy of the stored session

A message key that a party has used cannot be computed from the record it stores
together with the wire.  It is not saved, and no key of the record lies before it
on its chain, because the record holds no used key; and the root step that
started its chain departed from a root key older than the record's, made with a
DH output whose private key the record no longer holds.
-/

namespace Winkd
open Symbolic SignalSessionManager KeyPool Transitions UnicodeText

namespace Net
variable {ivs : Party → ℕ → List UInt8} {s : Net Bytes Payload}

/-- A used key is not computed from a record that is accounted for. -/
theorem used_not_known {p : Party} {m : ℕ} {answered : List Handshake} {used : List Bytes}
    {session : RatchetSession Bytes}
    (hacc : Accounted p m (some .both) answered used session)
    (hwire : ∀ e ∈ s.sent, e.OnWire (s.world e.sender).keysDrawn) {mk : Bytes} (hmk : mk ∈ used) :
    ¬ Knows (exposed (some session) s) mk := by
  intro hknows
  have hkinds := fun {t} => exposed_kinds (t := t) hacc hwire
  have hcut := cut_exposed hacc hwire
  have hexcl := hacc.exclusive .both rfl
  obtain ⟨root, their, k, hr, -⟩ := hacc.rooted
  obtain ⟨base, i, hb, rfl⟩ := hacc.spent mk hmk
  obtain ⟨r, a, b, c, d, rfl, hlast, ha, hb, -⟩ := hb.derived
  rcases hcut.knows_messageAt hknows with h | ⟨j, hj, h⟩ | ⟨h, -⟩
  · -- It is not saved.
    obtain ⟨key, hkey⟩ := (hkinds h).messageAt
    exact hexcl.unspent (heldKeys_saved hkey) hmk
  · -- No key of the record lies before it.
    have hmessage : (symbolic Name).chain.messageAt ((symbolic Name).chain.chainAt
        ((symbolic Name).kdfRootKey r (Term.agree c d)).chainKey j) (i - j) =
        (symbolic Name).chain.messageAt ((symbolic Name).kdfRootKey r (Term.agree c d)).chainKey i := by
      rw [KeyChain.messageAt_chainAt, Nat.add_sub_cancel' hj]
    rw [← hmessage] at hmk
    rcases (hkinds h).chainAt with hck | hck
    · exact hexcl.unspent (heldKeys_send hck (i - j)) hmk
    · exact hexcl.unspent (heldKeys_recv hck (i - j)) hmk
  · -- Its root key is not the record's, and was made with private keys that are gone.
    rcases hcut.knows_lastSecret hlast h with h | h
    · have hroot := (hkinds h).root hlast
      rw [hroot, hr.rootKey] at hlast
      exact agree_ne_of_past ha hb hlast.eq_of_step
    · rcases hcut.knows_agree h with h | h
      · exact Nat.lt_irrefl m (ha m (hkinds h).priv)
      · exact Nat.lt_irrefl m (hb m (hkinds h).priv)

/-- **Forward secrecy of the stored session.**  After every call of an honest
conversation in which no envelope is delivered twice, no message key that a party
has used for encryption or decryption can be derived from its stored record, all
public keys and all envelopes sent so far; and none is saved. -/
theorem forward_secrecy {w : Party → World Bytes} (hw : Fresh w)
    (hrun : Reaches (next (symbolic Name) (entropy ivs)) (fun s ev => Honest ev ∧ Once s ev)
      (start w) s) (p : Party) {mk : Bytes} (hmk : mk ∈ s.used p) :
    ¬ Derives (exposed (s.session p) s) mk ∧
      ∀ session ∈ s.session p, ∀ key, session.skipped.lookup key ≠ some mk := by
  have h : Conducted (some .both) s :=
    conducted_reaches hw (hrun.mono fun _ _ hev => ⟨hev.1, fun _ => hev.2⟩)
  obtain ⟨log, hworld, hused, hinv, -⟩ := h.booked p
  rw [← hused rfl] at hmk
  cases hs : s.session p with
  | none =>
    rw [hinv.unused (hworld ▸ hs)] at hmk
    cases hmk
  | some session =>
    obtain ⟨m, hm, hacc⟩ := hinv.record session (hworld ▸ hs)
    constructor
    · intro hd
      exact used_not_known hacc h.onWire hmk
        (hd.knows (cut_exposed hacc h.onWire).cat (cut_exposed hacc h.onWire).respelt)
    · intro session' hsome key hkey
      obtain rfl := Option.some.inj hsome
      exact (hacc.exclusive .both rfl).unspent (heldKeys_saved hkey) hmk

/-- Alice writes twice, the second message is lost, and Bob answers the first. -/
def answeredEvents : List (Event Bytes) :=
  [.initSessionFromBundle .alice (Party.bob.bundle 1 none), .encrypt .alice [104],
    .encrypt .alice [105], .deliver 0, .encrypt .bob [106], .deliver 2]

/-- The conversation after that. -/
def answered : Net Bytes Payload :=
  answeredEvents.foldl (next (symbolic Name) (entropy fun _ i => [i.toUInt8]))
    (start (newParties []))

/-- The key Alice's first message is sealed with stays secret. -/
theorem forward_secrecy_first :
    ¬ Derives (exposed (answered.session .alice) answered)
        ((answered.used .alice).get ⟨0, by decide⟩) ∧
      ∀ session ∈ answered.session .alice, ∀ key,
        session.skipped.lookup key ≠ some ((answered.used .alice).get ⟨0, by decide⟩) := by
  have hrun : Admits (next (symbolic Name) (entropy fun _ i => [i.toUInt8]))
      (fun s ev => Honest ev ∧ Once s ev) (start (newParties [])) answeredEvents := by decide
  exact forward_secrecy (newParties_fresh []) hrun.reaches .alice (List.get_mem _ _)

end Net
end Winkd
