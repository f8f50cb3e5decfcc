import Winkd.HonestRuns

/-!
# What can be computed from a record

An attacker is given a session record and everything on the wire.  The byte
strings in these are of few kinds (`Exposed`): public keys, ciphertexts, one
private key, one root key, two chain keys, and saved message keys.  From them a
message key is computed in one of three ways: it is saved itself, an earlier key
of its chain is there, or the root step that started its chain can be computed,
which takes both the root key it departed from and the DH output
(`knows_messageAt`).
-/

namespace Winkd
open Symbolic SignalSessionManager UnicodeText

/-! ## Computing chains -/

/-- No concatenation, no key material before it is cut, and no DH output is given
away as such; and another text of a byte string gives away nothing new. -/
structure Cut (K : Set Bytes) : Prop where
  cat : ∀ t u, Term.cat t u ∉ K
  hkdf : ∀ ikm salt info len, Term.hkdf ikm salt info len ∉ K
  shared : ∀ a b, Term.shared a b ∉ K
  respelt : ∀ t i, Term.respelt t i ∈ K → Knows K t

variable {K : Set Bytes}

/-- A chain key is computed from an earlier one, or from what its chain comes from. -/
theorem knows_chainAt {base : Bytes} {i : ℕ}
    (h : Knows K ((symbolic Name).chain.chainAt base i)) :
    (∃ j ≤ i, (symbolic Name).chain.chainAt base j ∈ K) ∨ Knows K base := by
  induction i with
  | zero => exact .inr h
  | succ i ih =>
    rw [KeyChain.chainAt_succ] at h
    rcases h with h | ⟨h, -⟩
    · exact .inl ⟨i + 1, Nat.le_refl _, by rw [KeyChain.chainAt_succ]; exact h⟩
    · rcases ih h with ⟨j, hj, hmem⟩ | h
      · exact .inl ⟨j, by omega, hmem⟩
      · exact .inr h

/-- A root step is computed from the root key and the DH output. -/
theorem Cut.knows_chainKey (hK : Cut K) {r z : Bytes}
    (h : Knows K ((symbolic Name).kdfRootKey r z).chainKey) :
    ((symbolic Name).kdfRootKey r z).chainKey ∈ K ∨ Knows K r ∧ Knows K z := by
  rcases h with h | h | ⟨hz, hr⟩
  · exact .inl h
  · exact absurd h (hK.hkdf _ _ _ _)
  · exact .inr ⟨hr, hz⟩

/-- **How a message key is computed.** -/
theorem Cut.knows_messageAt (hK : Cut K) {r z : Bytes} {i : ℕ}
    (h : Knows K ((symbolic Name).chain.messageAt ((symbolic Name).kdfRootKey r z).chainKey i)) :
    (symbolic Name).chain.messageAt ((symbolic Name).kdfRootKey r z).chainKey i ∈ K ∨
      (∃ j ≤ i, (symbolic Name).chain.chainAt ((symbolic Name).kdfRootKey r z).chainKey j ∈ K) ∨
      Knows K r ∧ Knows K z := by
  rcases h with h | ⟨h, -⟩
  · exact .inl h
  · rcases knows_chainAt h with h | h
    · exact .inr (.inl h)
    · rcases hK.knows_chainKey h with h | h
      · exact .inr (.inl ⟨0, Nat.zero_le i, h⟩)
      · exact .inr (.inr h)

/-- Whoever computes a root key computes the secret it was made with. -/
theorem Cut.knows_lastSecret (hK : Cut K) {z r : Bytes} (hlast : LastSecret z r)
    (h : Knows K r) : r ∈ K ∨ Knows K z := by
  cases hlast with
  | step root =>
    rcases h with h | h | ⟨hz, -⟩
    · exact .inl h
    · exact absurd h (hK.hkdf _ _ _ _)
    · exact .inr hz
  | x3dh z2 z3 z4 =>
    rcases h with h | ⟨⟨-, hinput, -⟩, -⟩
    · exact .inl h
    · cases z4 with
      | none => exact .inr hinput.1
      | some z4 => exact .inr hinput.1.1

/-- A DH output is computed with one of the two private keys. -/
theorem Cut.knows_agree (hK : Cut K) {a b : Name} (h : Knows K (Term.agree a b)) :
    Term.priv a ∈ K ∨ Term.priv b ∈ K := by
  rcases Symbolic.knows_agree.mp h with h | h
  · exact absurd h (hK.shared _ _)
  · exact h

/-! ## What an attacker is given -/

/-- The byte strings in a session record. -/
inductive InRecord (session : RatchetSession Bytes) : Bytes → Prop where
  | rootKey : InRecord session session.rootKey
  | sendChainKey {t} : session.sendChainKey = some t → InRecord session t
  | recvChainKey {t} : session.recvChainKey = some t → InRecord session t
  | ourRatchetPublic : InRecord session session.ourRatchetPublic
  | ourRatchetPrivate : InRecord session session.ourRatchetPrivate
  | theirRatchetPublic {t} : session.theirRatchetPublic = some t → InRecord session t
  | skippedUnder {key v} : session.skipped.lookup key = some v → InRecord session key.1
  | skipped {key v} : session.skipped.lookup key = some v → InRecord session v
  | identityKey {info} : session.pendingPreKeyMsg = some info → InRecord session info.identityKey
  | ephemeralKey {info} : session.pendingPreKeyMsg = some info → InRecord session info.ephemeralKey

/-- The byte strings in a payload. -/
inductive InPayload (msg : WireMessage Bytes) : Bytes → Prop where
  | rk {h} : msg.h = some h → InPayload msg h.rk
  | ct : InPayload msg msg.ct
  | iv : InPayload msg msg.iv
  | ik {params} : msg.preKey = some params → InPayload msg params.ik
  | ek {params} : msg.preKey = some params → InPayload msg params.ek

/-- A record, and the payloads of all envelopes sent so far. -/
def exposed (record : Option (RatchetSession Bytes)) (s : Net Bytes Payload) : Set Bytes :=
  fun t => (∃ session ∈ record, InRecord session t) ∨
    ∃ e ∈ s.sent, ∃ msg, e.envelope.ciphertext = some msg ∧ InPayload msg t

/-- What the byte strings of a record and of the wire are: public keys, literals and
ciphertexts, and of the record its private key, its root key, its chain keys (the
first ones of a chain are cut from a root step, the others are MACs of 2) and its
saved keys, which are MACs of 1. -/
inductive Exposed (p : Party) (m : ℕ) (session : RatchetSession Bytes) : Bytes → Prop where
  | pub (n) : Exposed p m session (.pub n)
  | respelt (n i) : Exposed p m session (.respelt (.pub n) i)
  | lit (bytes) : Exposed p m session (.lit bytes)
  | aes (key iv plaintext) : Exposed p m session (.aes key iv plaintext)
  | ourPrivate : Exposed p m session (.priv (.generated p m))
  | rootKey {t} : session.rootKey = .slice t 0 32 → Exposed p m session (.slice t 0 32)
  | chainBase {t} : session.sendChainKey = some (.slice t 32 64) ∨
      session.recvChainKey = some (.slice t 32 64) → Exposed p m session (.slice t 32 64)
  | chainNext {t} : session.sendChainKey = some (.hmac t (.lit [2])) ∨
      session.recvChainKey = some (.hmac t (.lit [2])) → Exposed p m session (.hmac t (.lit [2]))
  | saved {key t} : session.skipped.lookup key = some (.hmac t (.lit [1])) →
      Exposed p m session (.hmac t (.lit [1]))

variable {p : Party} {m drawn : ℕ} {watch : Option Watch} {answered : List Handshake}
  {used : List Bytes} {session : RatchetSession Bytes} {s : Net Bytes Payload}

/-- A public key, in whatever text. -/
theorem exposed_of_publicName {t : Bytes} (h : t.publicName.isSome) : Exposed p m session t := by
  obtain ⟨n, hn⟩ := Option.isSome_iff_exists.mp h
  rw [Term.publicName_eq_some_iff] at hn
  cases t with
  | pub => exact .pub _
  | respelt t i =>
    obtain rfl : t = .pub n := hn
    exact .respelt n i
  | _ => cases hn

theorem exposed_of_payload {e : Sent Bytes Payload} (h : e.OnWire drawn) {msg : WireMessage Bytes}
    (hmsg : e.envelope.ciphertext = some msg) {t : Bytes} (ht : InPayload msg t) :
    Exposed p m session t := by
  obtain ⟨hh, -, hpre⟩ := h.parsed hmsg
  obtain ⟨iv, regId, he⟩ := h.envelope
  rw [he] at hmsg
  have hparams : ∀ params, msg.preKey = some params →
      (∃ n, params.ik = .pub n) ∧ ∃ n, params.ek = .pub n := by
    intro params hparams
    rw [hpre] at hparams
    obtain ⟨info, hinfo, rfl⟩ := Option.map_eq_some_iff.mp hparams
    obtain ⟨hid, j, -, heph⟩ := h.params info hinfo
    exact ⟨⟨_, hid⟩, ⟨_, heph⟩⟩
  obtain rfl := Option.some.inj hmsg
  cases ht with
  | rk hrk =>
    obtain rfl := Option.some.inj (hh.symm.trans hrk)
    obtain ⟨j, -, _, _, _, hj, -⟩ := h.ratchet
    rw [show e.header.rk = .pub (.generated e.sender j) from hj]
    exact .pub _
  | ct => exact .aes _ _ _
  | iv => exact .lit iv
  | ik hp =>
    obtain ⟨⟨n, hn⟩, -⟩ := hparams _ hp
    rw [hn]
    exact .pub n
  | ek hp =>
    obtain ⟨-, n, hn⟩ := hparams _ hp
    rw [hn]
    exact .pub n

/-- A key of a chain that a root step started. -/
theorem chainAt_shape (r z : Bytes) (i : ℕ) :
    (∃ t, (symbolic Name).chain.chainAt ((symbolic Name).kdfRootKey r z).chainKey i =
        .slice t 32 64) ∨
      ∃ t, (symbolic Name).chain.chainAt ((symbolic Name).kdfRootKey r z).chainKey i =
        .hmac t (.lit [2]) := by
  cases i with
  | zero => exact .inl ⟨_, rfl⟩
  | succ i => exact .inr ⟨_, KeyChain.chainAt_succ _ _ _⟩

/-- The chain keys of a record are exposed. -/
theorem exposed_of_chain {t r z : Bytes} {i : ℕ}
    (h : session.sendChainKey = some t ∨ session.recvChainKey = some t)
    (ht : t = (symbolic Name).chain.chainAt ((symbolic Name).kdfRootKey r z).chainKey i) :
    Exposed p m session t := by
  rcases chainAt_shape r z i with ⟨u, hu⟩ | ⟨u, hu⟩
  · obtain rfl := ht.trans hu
    exact .chainBase h
  · obtain rfl := ht.trans hu
    exact .chainNext h

theorem exposed_of_record (hacc : Accounted p m watch answered used session) {t : Bytes}
    (ht : InRecord session t) :
    Exposed p m session t := by
  obtain ⟨root, their, i, hr, -⟩ := hacc.rooted
  cases ht with
  | rootKey =>
    have hroot := hr.rootKey
    rw [hroot]
    exact .rootKey hroot
  | sendChainKey h =>
    exact exposed_of_chain (.inl h) (Option.some.inj (h.symm.trans hr.sendChainKey))
  | recvChainKey h =>
    obtain ⟨base, j, hb, hj⟩ := hacc.recv _ h
    obtain ⟨r, z, rfl⟩ := hb.base
    exact exposed_of_chain (.inr h) hj
  | ourRatchetPublic =>
    rw [hacc.ourPublic]
    exact .pub _
  | ourRatchetPrivate =>
    rw [hacc.ourPrivate]
    exact .ourPrivate
  | theirRatchetPublic h =>
    exact exposed_of_publicName (hacc.their_public h)
  | skippedUnder h =>
    exact exposed_of_publicName (hacc.savedUnder _ _ h)
  | skipped h =>
    obtain ⟨base, j, -, rfl⟩ := hacc.saved _ _ h
    exact .saved h
  | identityKey h =>
    rw [(hacc.pending _ h).1]
    exact .pub _
  | ephemeralKey h =>
    obtain ⟨-, j, -, hj⟩ := hacc.pending _ h
    rw [hj]
    exact .pub _

/-- **Everything exposed is of one of these kinds.** -/
theorem exposed_kinds (hacc : Accounted p m watch answered used session)
    (hwire : ∀ e ∈ s.sent, e.OnWire (s.world e.sender).keysDrawn) {t : Bytes}
    (ht : t ∈ exposed (some session) s) : Exposed p m session t := by
  rcases ht with ⟨x, hx, hrec⟩ | ⟨e, he, msg, hmsg, hpay⟩
  · obtain rfl := Option.some.inj hx
    exact exposed_of_record hacc hrec
  · exact exposed_of_payload (hwire e he) hmsg hpay

/-! ## What is not exposed -/

/-- No key material is exposed before it is cut. -/
theorem cut_exposed (hacc : Accounted p m watch answered used session)
    (hwire : ∀ e ∈ s.sent, e.OnWire (s.world e.sender).keysDrawn) :
    Cut (exposed (some session) s) where
  cat _ _ h := nomatch exposed_kinds hacc hwire h
  hkdf _ _ _ _ h := nomatch exposed_kinds hacc hwire h
  shared _ _ h := nomatch exposed_kinds hacc hwire h
  respelt t i h := by
    cases exposed_kinds hacc hwire h
    trivial

/-- An exposed private key is the record's. -/
theorem Exposed.priv {n : Name} (h : Exposed p m session (.priv n)) : n = .generated p m := by
  cases h
  rfl

/-- An exposed message key is a saved one. -/
theorem Exposed.messageAt {base : Bytes} {j : ℕ}
    (h : Exposed p m session ((symbolic Name).chain.messageAt base j)) :
    ∃ key, session.skipped.lookup key = some ((symbolic Name).chain.messageAt base j) := by
  generalize ht : (symbolic Name).chain.messageAt base j = t at h ⊢
  cases h with
  | saved hl => exact ⟨_, hl⟩
  | _ => cases ht

/-- An exposed chain key is one of the record's two. -/
theorem Exposed.chainAt {r z : Bytes} {j : ℕ} (h : Exposed p m session
      ((symbolic Name).chain.chainAt ((symbolic Name).kdfRootKey r z).chainKey j)) :
    session.sendChainKey =
        some ((symbolic Name).chain.chainAt ((symbolic Name).kdfRootKey r z).chainKey j) ∨
      session.recvChainKey =
        some ((symbolic Name).chain.chainAt ((symbolic Name).kdfRootKey r z).chainKey j) := by
  rcases chainAt_shape r z j with ⟨t, ht⟩ | ⟨t, ht⟩ <;> rw [ht] at h ⊢ <;> cases h <;> assumption

/-- An exposed root key is the record's. -/
theorem Exposed.root {t z : Bytes} (h : Exposed p m session t) (ht : LastSecret z t) :
    t = session.rootKey := by
  cases ht with
  | step root =>
    cases h with
    | rootKey hroot => exact hroot.symm
  | x3dh => cases h

end Winkd
