import Winkd.KeyRuns
import Winkd.FailedDecrypt
import Winkd.ReceivingChain

/-!
# Envelopes delivered again

Nothing in the code recognises an envelope it has seen.  What rejects a replay is
that its message key is gone: a key is taken once and not held afterwards, as
long as the record is accounted for.  A type-1 envelope is different, since it
brings the session that holds its key: answered again, it replaces the stored
session by the first one, and when no one-time pre-key was part of the handshake
it decrypts again.

A replay that is rejected may still have moved the session: the header is
followed before the ciphertext is opened.  `Stays` is the condition under which
it does not move it back.
-/

namespace Winkd
open Symbolic SignalSessionManager KeyPool Transitions UnicodeText

/-! ## Which key opens a ciphertext -/

/-- A ciphertext opens under one key only. -/
theorem aesGcmDecrypt_key {k k' ct iv : Bytes}
    (h : ((symbolic Name).aesGcmDecrypt k ct iv).isSome)
    (h' : ((symbolic Name).aesGcmDecrypt k' ct iv).isSome) : k.cut 0 32 = k'.cut 0 32 := by
  obtain ⟨p, hp⟩ := Option.isSome_iff_exists.mp h
  obtain ⟨p', hp'⟩ := Option.isSome_iff_exists.mp h'
  exact (Term.aes.inj ((symbolic_aesGcmDecrypt hp).symm.trans (symbolic_aesGcmDecrypt hp'))).1

/-- Message keys of chains are MACs: cutting one to its 32 bytes changes nothing. -/
theorem OfOrigin.cut {p : Party} {m drawn : ℕ} {answered : List Handshake} {key : Bytes}
    (h : OfOrigin p m drawn answered key) : key.cut 0 32 = key := by
  obtain ⟨base, i, -, rfl⟩ := h
  rfl

/-- What a call of `decrypt` that returns a plaintext did. -/
theorem decrypt_ok {p : Party} {ivs : ℕ → List UInt8} {peerId : String}
    {envelope : EncryptedEnvelope Payload} {w : World Bytes} {pt : CodeUnits}
    (h : ((decrypt (symbolic Name) peerId envelope).run (serve (p.entropy ivs)) w).1 = .ok pt) :
    ∃ mk msg, ((decryptKey (symbolic Name) peerId envelope).run (serve (p.entropy ivs)) w).1 =
        .ok (mk, msg) ∧ envelope.ciphertext = some msg ∧
      ((symbolic Name).aesGcmDecrypt mk msg.ct msg.iv).isSome := by
  obtain ⟨mk, msg, bytes, hkey, hopen, -⟩ := run_decrypt_ok _ _ h
  obtain ⟨r, store, draws, -, hrun, heff⟩ :=
    run_decryptKey (symbolic Name) (p.entropy ivs) peerId envelope w
  rw [hrun] at hkey ⊢
  obtain rfl : r = .ok (mk, msg) := hkey
  refine ⟨mk, msg, rfl, ?_, Option.isSome_iff_exists.mpr ⟨bytes, hopen⟩⟩
  cases heff with
  | received _ hp => exact hp
  | established _ hp => exact hp

namespace KeyLog
variable (p : Party) (ivs : ℕ → List UInt8) (peerId : String)

/-! ## At most one plaintext -/

/-- Every envelope decrypted so far was opened with a key that is used now. -/
def Opened (s : KeyLog) : Prop :=
  ∀ envelope ∈ s.decrypted, ∃ mk ∈ s.used, ∃ msg, envelope.ciphertext = some msg ∧
    ((symbolic Name).aesGcmDecrypt mk msg.ct msg.iv).isSome

variable {p ivs peerId} {s : KeyLog}

/-- **An envelope that has decrypted does not decrypt again**, in a run that
answers no handshake twice. -/
theorem no_second_plaintext (hinv : Inv p peerId (some .receiving) s) (hopened : Opened s)
    {envelope : EncryptedEnvelope Payload}
    (ha : Allowed p peerId (some .receiving) s (peerId, .decrypt envelope))
    (hmem : envelope ∈ s.decrypted) (pt : CodeUnits) :
    ((decrypt (symbolic Name) peerId envelope).run (serve (p.entropy ivs)) s.world).1 ≠
      .ok pt := by
  intro hok
  obtain ⟨mk, msg, hkey, hct, hopen⟩ := decrypt_ok hok
  obtain ⟨mk₀, hmk₀, msg₀, hct₀, hopen₀⟩ := hopened envelope hmem
  obtain rfl := Option.some.inj (hct.symm.trans hct₀)
  -- After this call, both keys would be among the used ones, which are distinct.
  have hnext : Inv p peerId (some .receiving)
      (s.next p ivs peerId (some .receiving) (peerId, .decrypt envelope)) := hinv.next _ ha
  obtain ⟨hspent, hnodup⟩ := hnext.spent (Nat.le_refl _)
  replace hnodup := hnodup nofun
  simp only [next, if_true, keysTaken, hkey, Net.keyTaken] at hspent hnodup
  have hcut := aesGcmDecrypt_key hopen hopen₀
  rw [(hspent mk (List.mem_append_right _ (List.mem_singleton_self mk))).cut,
    (hspent mk₀ (List.mem_append_left _ hmk₀)).cut] at hcut
  rw [List.nodup_append] at hnodup
  exact hnodup.2.2 mk₀ hmk₀ mk (List.mem_singleton_self mk) hcut.symm

variable (p ivs peerId) in
/-- What a call adds to the envelopes decrypted. -/
theorem decrypted_next (s : KeyLog) (call : String × ManagerCall Bytes Payload) :
    (s.next p ivs peerId (some .receiving) call).decrypted = s.decrypted ∨
      ∃ envelope pt, call = (peerId, .decrypt envelope) ∧
        ((decrypt (symbolic Name) peerId envelope).run (serve (p.entropy ivs)) s.world).1 =
          .ok pt ∧
        (s.next p ivs peerId (some .receiving) call).decrypted = s.decrypted ++ [envelope] := by
  obtain ⟨q, call⟩ := call
  by_cases hq : q = peerId
  · subst hq
    cases call with
    | initSessionFromBundle bundle => exact .inl (by simp only [next, decryptedBy, ite_self,
        List.append_nil])
    | encrypt plaintext => exact .inl (by simp only [next, decryptedBy, ite_self,
        List.append_nil])
    | decrypt envelope =>
      cases hr : ((decrypt (symbolic Name) q envelope).run (serve (p.entropy ivs)) s.world).1 with
      | error e =>
        left
        simp only [next, if_true, decryptedBy, hr, List.append_nil]
      | ok pt =>
        right
        refine ⟨envelope, pt, rfl, hr, ?_⟩
        simp only [next, if_true, decryptedBy, hr]
  · left
    simp only [next, if_neg hq, List.append_nil]

/-- One call keeps the book of decrypted envelopes: each was opened with a used
key, and none is in it twice. -/
theorem opened_next (hinv : Inv p peerId (some .receiving) s) (hopened : Opened s)
    (hnodup : s.decrypted.Nodup) (call : String × ManagerCall Bytes Payload)
    (ha : Allowed p peerId (some .receiving) s call) :
    Opened (s.next p ivs peerId (some .receiving) call) ∧
      (s.next p ivs peerId (some .receiving) call).decrypted.Nodup := by
  have hold : ∀ envelope ∈ s.decrypted, ∃ mk ∈ (s.next p ivs peerId (some .receiving) call).used,
      ∃ msg, envelope.ciphertext = some msg ∧
        ((symbolic Name).aesGcmDecrypt mk msg.ct msg.iv).isSome := by
    intro envelope he
    obtain ⟨mk, hmk, h⟩ := hopened envelope he
    exact ⟨mk, List.mem_append_left _ hmk, h⟩
  rcases decrypted_next p ivs peerId s call with he | ⟨envelope, pt, rfl, hok, he⟩
  · rw [Opened, he]
    exact ⟨hold, hnodup⟩
  · rw [Opened, he]
    constructor
    · intro e hmem
      rcases List.mem_append.mp hmem with hmem | hmem
      · exact hold e hmem
      · rw [List.mem_singleton.mp hmem]
        obtain ⟨mk, msg, hkey, hct, hopen⟩ := decrypt_ok hok
        refine ⟨mk, ?_, msg, hct, hopen⟩
        simp only [next, if_true, keysTaken, hkey, Net.keyTaken]
        exact List.mem_append_right _ (List.mem_singleton_self mk)
    · rw [List.nodup_append]
      refine ⟨hnodup, List.nodup_singleton _, ?_⟩
      intro e hmem e' hmem' heq
      rw [List.mem_singleton.mp hmem'] at heq
      exact no_second_plaintext hinv hopened ha (heq ▸ hmem) pt hok

/-! ## Where a rejected replay leaves the session -/

/-- The receiving position of `new` is that of `old`, or a later one of the same
chain; the counter is not lower. -/
structure Onward (old new : RatchetSession Bytes) : Prop where
  their : new.theirRatchetPublic = old.theirRatchetPublic
  count : new.recvCount = old.recvCount ∨ old.recvCount.le new.recvCount
  chain : ∃ j, new.recvChainKey =
    old.recvChainKey.map fun ck => (symbolic Name).chain.chainAt ck j

/-- What a replay is to be: it has type 2, and it is refused before a write, or
its header names a saved key of the current chain or a number at most one behind
the counter. -/
def Stays (p : Party) (ivs : ℕ → List UInt8) (peerId : String) (w : World Bytes)
    (envelope : EncryptedEnvelope Payload) : Prop :=
  envelope.type = .signalMessage ∧
    ∀ msg ∈ envelope.ciphertext, ∀ h ∈ msg.h, ∀ session ∈ w.store.sessions peerId,
      Refused (symbolic Name) (nextPair (symbolic Name) (p.entropy ivs) w) session h ∨
        session.theirRatchetPublic = some h.rk ∧
          ∀ number ∈ h.n.toPrimitive, session.skipped.lookup (h.rk, number.toText) ≠ none ∨
            session.recvCount.le (number.plus 1)

/-- The calls of a run: no handshake is answered twice, and an envelope that has
decrypted is delivered again only as `Stays` says. -/
def Replays (p : Party) (ivs : ℕ → List UInt8) (peerId : String) (s : KeyLog)
    (call : String × ManagerCall Bytes Payload) : Prop :=
  Allowed p peerId (some .receiving) s call ∧
    (call.1 = peerId →
      match call.2 with
      | .decrypt envelope => envelope ∈ s.decrypted → Stays p ivs peerId s.world envelope
      | _ => True)

instance (w : World Bytes) (envelope : EncryptedEnvelope Payload) :
    Decidable (Stays p ivs peerId w envelope) :=
  inferInstanceAs (Decidable (_ ∧ ∀ msg ∈ envelope.ciphertext, ∀ h ∈ msg.h, _))

instance (s : KeyLog) (call : String × ManagerCall Bytes Payload) :
    Decidable (Replays p ivs peerId s call) :=
  match call with
  | (_, .initSessionFromBundle _) => inferInstanceAs (Decidable (_ ∧ (_ → True)))
  | (_, .encrypt _) => inferInstanceAs (Decidable (_ ∧ (_ → True)))
  | (_, .decrypt _) => inferInstanceAs (Decidable (_ ∧ (_ → _ ∈ s.decrypted → Stays ..)))

/-- The delivery throws, and leaves the session at its receiving position. -/
def Rejected (p : Party) (ivs : ℕ → List UInt8) (peerId : String) (w : World Bytes)
    (envelope : EncryptedEnvelope Payload) : Prop :=
  (∃ e, ((decrypt (symbolic Name) peerId envelope).run (serve (p.entropy ivs)) w).1 = .error e) ∧
    ∀ old, w.store.sessions peerId = some old →
      ∃ new, (perform (symbolic Name) (p.entropy ivs) peerId w (.decrypt envelope)).store.sessions
        peerId = some new ∧ Onward old new

theorem Onward.refl (session : RatchetSession Bytes) : Onward session session where
  their := rfl
  count := .inl rfl
  chain := ⟨0, by cases session.recvChainKey <;> rfl⟩

/-- A delivery in place leaves the receiving position, or moves it on. -/
theorem onward_of_stays {w : World Bytes} {envelope : EncryptedEnvelope Payload}
    (hstays : Stays p ivs peerId w envelope) {old : RatchetSession Bytes}
    (hold : w.store.sessions peerId = some old) :
    ∃ new, (perform (symbolic Name) (p.entropy ivs) peerId w (.decrypt envelope)).store.sessions
      peerId = some new ∧ Onward old new := by
  obtain ⟨htype, hstays⟩ := hstays
  obtain ⟨r, store, draws, -, hrun, heff⟩ :=
    run_decryptKey (symbolic Name) (p.entropy ivs) peerId envelope w
  rw [perform_decrypt, hrun]
  cases heff with
  | refused e => exact ⟨old, hold, Onward.refl old⟩
  | received _ hp hh hl hr =>
    obtain rfl := Option.some.inj (hold.symm.trans hl)
    refine ⟨_, KeyStore.storeSession_sessions_self .., ?_⟩
    rcases hstays _ hp _ hh old hold with href | ⟨ht, hn⟩
    · obtain ⟨e, he⟩ := receiveWith_refused href
      rw [he] at hr
      cases hr
    · rw [receiveWith_of_eq _ ht] at hr
      obtain ⟨number, htext, ⟨_, -, -, rfl⟩ | ⟨ck, k, hnone, hck, -, -, rfl⟩⟩ :=
        retrieve_cases _ ht hr
      · exact ⟨rfl, .inl rfl, (Onward.refl old).chain⟩
      · rcases hn number htext with hn | hn
        · exact absurd hnone hn
        · exact ⟨rfl, .inr hn, _, by rw [hck]; rfl⟩
  | consumed _ hpre => rw [htype] at hpre; cases hpre
  | created _ hpre => rw [htype] at hpre; cases hpre
  | established hpre => rw [htype] at hpre; cases hpre

/-- **Replays are rejected** in every run in which no handshake is answered twice
and replays are delivered in place: no envelope decrypts twice, and a second
delivery of one that has decrypted throws and does not move the session back. -/
theorem replay_rejected {w : World Bytes} (howned : w.store.Owned p)
    (hnone : w.store.sessions peerId = none)
    (hrun : Reaches (next p ivs peerId (some .receiving)) (Replays p ivs peerId) (start w) s) :
    s.decrypted.Nodup ∧ ∀ envelope ∈ s.decrypted,
      Replays p ivs peerId s (peerId, .decrypt envelope) →
        Rejected p ivs peerId s.world envelope := by
  have hall : Inv p peerId (some .receiving) s ∧ Opened s ∧ s.decrypted.Nodup := by
    refine hrun.invariant (I := fun s => Inv p peerId (some .receiving) s ∧ Opened s ∧ s.decrypted.Nodup)
      ⟨inv_start howned hnone, fun _ h => absurd h List.not_mem_nil, List.nodup_nil⟩ ?_
    intro s call h ha
    exact ⟨h.1.next call ha.1, opened_next h.1 h.2.1 h.2.2 call ha.1⟩
  obtain ⟨hinv, hopened, hnodup⟩ := hall
  refine ⟨hnodup, ?_⟩
  intro envelope hmem ha
  refine ⟨?_, fun old hold => onward_of_stays (ha.2 rfl hmem) hold⟩
  cases hr : ((decrypt (symbolic Name) peerId envelope).run (serve (p.entropy ivs)) s.world).1 with
  | error e => exact ⟨e, rfl⟩
  | ok pt => exact absurd hr (no_second_plaintext hinv hopened ha.1 hmem pt)

/-! ## Two replays -/

/-- Bob's initialisation vectors. -/
def bobIvs (i : ℕ) : List UInt8 := [i.toUInt8]

/-- A run of Bob's that is given messages of Alice's by number. -/
def bobReceives (numbers : List (Fin threeMessages.sent.length)) :
    List (String × ManagerCall Bytes Payload) :=
  numbers.map fun k => ("alice", .decrypt (messageEnvelope k))

/-- The state it reaches. -/
def bobReceived (numbers : List (Fin threeMessages.sent.length)) : KeyLog :=
  (bobReceives numbers).foldl (next .bob bobIvs "alice" (some .receiving)) (start (newParties [] .bob))

theorem replay_rejected_second :
    (bobReceived [⟨0, by decide⟩, ⟨1, by decide⟩, ⟨1, by decide⟩]).decrypted.Nodup ∧
      Rejected .bob bobIvs "alice"
        (bobReceived [⟨0, by decide⟩, ⟨1, by decide⟩, ⟨1, by decide⟩]).world
        (messageEnvelope ⟨1, by decide⟩) := by
  have hrun : Admits (next .bob bobIvs "alice" (some .receiving)) (Replays .bob bobIvs "alice")
      (start (newParties [] .bob))
      (bobReceives [⟨0, by decide⟩, ⟨1, by decide⟩, ⟨1, by decide⟩]) := by decide
  have h := replay_rejected (Party.newStore_owned .bob [1] []) rfl hrun.reaches
  exact ⟨h.1, h.2 _ (by decide) (by decide)⟩

/-- **A replay decrypts again, and a replay moves the session back.**  Bob receives
Alice's first message twice, and decrypts it twice.  When he receives the second
message again after the third, the counter of his receiving chain falls from 3
to 2. -/
theorem replays_are_accepted :
    (¬ ∀ s : KeyLog, Reaches (next .bob bobIvs "alice" (some .receiving)) (fun _ _ => True)
      (start (newParties [] .bob)) s → s.decrypted.Nodup) ∧
    ¬ ∀ (s : KeyLog) (envelope : EncryptedEnvelope Payload),
      Reaches (next .bob bobIvs "alice" (some .receiving)) (fun _ _ => True)
        (start (newParties [] .bob)) s →
      envelope ∈ s.decrypted → Rejected .bob bobIvs "alice" s.world envelope := by
  constructor
  · intro hclaim
    have hrun : Admits (next .bob bobIvs "alice" (some .receiving)) (fun _ _ => True)
        (start (newParties [] .bob)) (bobReceives [⟨0, by decide⟩, ⟨0, by decide⟩]) := by decide
    exact absurd (hclaim (bobReceived [⟨0, by decide⟩, ⟨0, by decide⟩]) hrun.reaches) (by decide)
  · intro hclaim
    have hrun : Admits (next .bob bobIvs "alice" (some .receiving)) (fun _ _ => True)
        (start (newParties [] .bob))
        (bobReceives [⟨0, by decide⟩, ⟨1, by decide⟩, ⟨2, by decide⟩]) := by decide
    obtain ⟨-, hpos⟩ := hclaim (bobReceived [⟨0, by decide⟩, ⟨1, by decide⟩, ⟨2, by decide⟩])
      (messageEnvelope ⟨1, by decide⟩) hrun.reaches (by decide)
    obtain ⟨new, hnew, honward⟩ := hpos _ (Option.some_get (by decide)).symm
    obtain rfl := Option.some.inj ((Option.some_get (by decide)).trans hnew)
    exact absurd honward.count (by decide)

end KeyLog
end Winkd
