import Winkd.KeyRecords
import Winkd.Manager

/-!
# The keys of a whole run

A run of one manager in any environment: calls for one peer, whose keys the run
keeps book of, and calls for other peers.  Every call keeps the record stored for the
peer accounted for (`KeyLog.Inv.next`), so along a run no message key is ever taken
twice or held after it was taken.

A run may be given any bundle and any envelope, except that nobody knows the
public keys of pairs the party has not generated yet, and that no handshake is
answered a second time.  Without a watch (`watch = none`) handshakes may be
repeated; then nothing is said about how often a key is held or taken.  The book is
a ghost: the manager never reads it.
-/

namespace Winkd
open Symbolic SignalSessionManager KeyPool Transitions UnicodeText

/-- A run of one manager: its world, the message keys its calls for the peer have
taken, the handshakes they have answered, and the envelopes they have
decrypted. -/
structure KeyLog where
  world : World Bytes
  used : List Bytes
  answered : List Handshake
  decrypted : List (EncryptedEnvelope Payload)

namespace KeyLog
variable (p : Party) (ivs : ℕ → List UInt8) (peerId : String) (watch : Option Watch)

/-! ## What the book keeps -/

/-- The message keys a call takes. -/
def keysTaken (w : World Bytes) : ManagerCall Bytes Payload → List Bytes
  | .initSessionFromBundle _ => []
  | .encrypt plaintext =>
    Watch.sent watch ((returnedBy plaintext (w.store.sessions peerId)
      ((encrypt (symbolic Name) peerId plaintext).run (serve (p.entropy ivs)) w).1).map
        fun e => e.messageKey (symbolic Name))
  | .decrypt envelope =>
    Net.keyTaken ((decryptKey (symbolic Name) peerId envelope).run (serve (p.entropy ivs)) w).1

/-- The handshake a call answers. -/
def handshakes (w : World Bytes) : ManagerCall Bytes Payload → List Handshake
  | .decrypt ⟨.preKeySignalMessage, some msg, _⟩ =>
    match respondWith (symbolic Name) (nextPair (symbolic Name) (p.entropy ivs) w) w.store msg with
    | .error _ => []
    | .ok _ => (handshakeOf w.store msg).toList
  | _ => []

/-- A handshake that is answered is the one a type-1 envelope asks for. -/
theorem handshakeOf_of_mem {p : Party} {ivs : ℕ → List UInt8} {w : World Bytes}
    {envelope : EncryptedEnvelope Payload} {hs : Handshake}
    (h : hs ∈ handshakes p ivs w (.decrypt envelope)) :
    ∃ msg, envelope.ciphertext = some msg ∧ handshakeOf w.store msg = some hs := by
  obtain ⟨type, ciphertext, registrationId⟩ := envelope
  cases type with
  | signalMessage => exact absurd h List.not_mem_nil
  | preKeySignalMessage =>
    cases ciphertext with
    | none => exact absurd h List.not_mem_nil
    | some msg =>
      simp only [handshakes] at h
      split at h
      · cases h
      · exact ⟨msg, rfl, Option.mem_toList.mp h⟩

/-- The envelope a call decrypts. -/
def decryptedBy (w : World Bytes) : ManagerCall Bytes Payload → List (EncryptedEnvelope Payload)
  | .decrypt envelope =>
    match ((decrypt (symbolic Name) peerId envelope).run (serve (p.entropy ivs)) w).1 with
    | .error _ => []
    | .ok _ => [envelope]
  | _ => []

/-- One call, for the peer or for another. -/
def next (s : KeyLog) (call : String × ManagerCall Bytes Payload) : KeyLog :=
  { world := perform (symbolic Name) (p.entropy ivs) call.1 s.world call.2
    used := s.used ++ if call.1 = peerId then keysTaken p ivs peerId watch s.world call.2 else []
    answered := s.answered ++ if call.1 = peerId then handshakes p ivs s.world call.2 else []
    decrypted := s.decrypted ++
      if call.1 = peerId then decryptedBy p ivs peerId s.world call.2 else [] }

/-- A text is no public key of a pair not generated yet. -/
def Foreseen (w : World Bytes) (t : Bytes) : Prop :=
  ∀ a ∈ t.publicName, a.Past p w.keysDrawn

/-- The bundles and envelopes of a run: no public key in them is one of a pair not
generated yet; where keys are watched, a type-1 envelope asks for no handshake
answered before; and where sending keys are, a bundle is not the party's own. -/
def Allowed (s : KeyLog) (call : String × ManagerCall Bytes Payload) : Prop :=
  call.1 = peerId →
    match call.2 with
    | .initSessionFromBundle bundle => Foreseen p s.world bundle.signedPreKey.publicKey ∧
        (watch = some .both → bundle.identityKey.publicName ≠ some (.identity p))
    | .encrypt _ => True
    | .decrypt envelope => ∀ msg ∈ envelope.ciphertext,
        (∀ h ∈ msg.h, Foreseen p s.world h.rk) ∧
        (∀ params ∈ msg.preKey, Foreseen p s.world params.ik) ∧
        (watch ≠ none → envelope.type = .preKeySignalMessage →
          ∀ hs ∈ handshakeOf s.world.store msg, hs ∉ s.answered)

instance (w : World Bytes) (t : Bytes) : Decidable (Foreseen p w t) :=
  inferInstanceAs (Decidable (∀ a ∈ t.publicName, a.Past p w.keysDrawn))

instance (s : KeyLog) (call : String × ManagerCall Bytes Payload) :
    Decidable (Allowed p peerId watch s call) :=
  match call with
  | (q, .initSessionFromBundle _) => inferInstanceAs (Decidable (q = peerId → _ ∧ _))
  | (q, .encrypt _) => inferInstanceAs (Decidable (q = peerId → True))
  | (q, .decrypt envelope) =>
    inferInstanceAs (Decidable (q = peerId → ∀ msg ∈ envelope.ciphertext, _ ∧ _ ∧ _))

/-- A manager that has no session with the peer. -/
def start (w : World Bytes) : KeyLog := ⟨w, [], [], []⟩

/-! ## The invariant -/

/-- The store holds the party's own keys, and the record stored for the peer, if
there is one, is accounted for. -/
structure Inv (s : KeyLog) : Prop where
  owned : s.world.store.Owned p
  unused : s.world.store.sessions peerId = none → s.used = []
  record : ∀ session, s.world.store.sessions peerId = some session →
    ∃ m < s.world.keysDrawn, Accounted p m watch s.answered s.used session

variable {p ivs peerId watch}

/-- The keys used so far belong to chains from before. -/
theorem Inv.spent {s : KeyLog} (h : Inv p peerId watch s) {m : ℕ} (hm : s.world.keysDrawn ≤ m) :
    (∀ mk ∈ s.used, OfOrigin p m m s.answered mk) ∧ (watch ≠ none → s.used.Nodup) := by
  cases hs : s.world.store.sessions peerId with
  | none =>
    rw [h.unused hs]
    exact ⟨nofun, fun _ => List.nodup_nil⟩
  | some session =>
    obtain ⟨m₀, hm₀, hacc⟩ := h.record session hs
    refine ⟨fun mk hmk => (hacc.spent mk hmk).mono (by omega) (by omega) (List.Subset.refl _), ?_⟩
    intro hsome
    obtain ⟨watched, hw⟩ := Option.ne_none_iff_exists'.mp hsome
    exact (hacc.exclusive watched hw).nodup

theorem inv_start {w : World Bytes} (howned : w.store.Owned p)
    (hnone : w.store.sessions peerId = none) : Inv p peerId watch (start w) where
  owned := howned
  unused _ := rfl
  record session hs := by rw [start, hnone] at hs; cases hs

end KeyLog

/-! ## What no call changes -/

theorem KeyStore.Owned.storeSession {p : Party} {store : KeyStore Bytes} (h : store.Owned p)
    (peerId : String) (session : RatchetSession Bytes) :
    (store.storeSession peerId session).Owned p :=
  ⟨h.identity, h.signedPreKeys, h.preKeys⟩

theorem KeyStore.Owned.respondStore {p : Party} {store : KeyStore Bytes} (h : store.Owned p)
    (msg : WireMessage Bytes) : (respondStore store msg).Owned p := by
  unfold SignalSessionManager.respondStore
  split
  · exact h
  · unfold dropPreKey
    split
    · exact h
    · split
      · refine ⟨h.identity, h.signedPreKeys, ?_⟩
        intro id opk ho
        rw [removePreKey_preKeys, Function.update_apply] at ho
        split at ho
        · cases ho
        · exact h.preKeys id opk ho
      · exact h

namespace SignalSessionManager

/-- What every call for `q` leaves alone: the sessions of other peers and the
party's own keys; and it draws key pairs, if any. -/
structure Frame (p : Party) (q : String) (w w' : World Bytes) : Prop where
  sessions : ∀ r, r ≠ q → w'.store.sessions r = w.store.sessions r
  drawn : w.keysDrawn ≤ w'.keysDrawn
  owned : w.store.Owned p → w'.store.Owned p

theorem decryptEffect_owned {p : Party} {q : String} {envelope : EncryptedEnvelope Payload}
    {kp : DHKeyPair Bytes} {store store' : KeyStore Bytes}
    {r : Except Failure (Bytes × WireMessage Bytes)}
    (heff : DecryptEffect (symbolic Name) q envelope kp store r store') (h : store.Owned p) :
    store'.Owned p := by
  cases heff with
  | refused => exact h
  | received => exact h.storeSession _ _
  | consumed => exact h.respondStore _
  | created => exact (h.respondStore _).storeSession _ _
  | established => exact (h.respondStore _).storeSession _ _

theorem perform_frame (p : Party) (E : Entropy Bytes) (q : String) (w : World Bytes)
    (call : ManagerCall Bytes Payload) : Frame p q w (perform (symbolic Name) E q w call) := by
  suffices h : w.keysDrawn ≤ (perform (symbolic Name) E q w call).keysDrawn ∧
      (w.store.Owned p → (perform (symbolic Name) E q w call).store.Owned p) from
    ⟨fun _ hr => perform_sessions_ne _ E q hr w call, h.1, h.2⟩
  cases call with
  | initSessionFromBundle bundle =>
    rw [perform]
    rcases run_initSessionFromBundle_cases (symbolic Name) E q bundle w with
      ⟨e, draws, -, hrun⟩ | ⟨idKP, SK, dhOut, -, -, -, -, hrun⟩
    · rw [hrun]
      exact ⟨Nat.le_add_right _ _, id⟩
    · rw [hrun]
      exact ⟨Nat.le_add_right _ _, fun h => h.storeSession _ _⟩
  | encrypt plaintext =>
    rw [perform]
    rcases run_encrypt_cases (symbolic Name) E q plaintext w with ⟨e, he⟩ | ⟨session, ck, hs, hck⟩
    · rw [he]
      exact ⟨Nat.le_refl _, id⟩
    · rw [run_encrypt _ E plaintext hs hck]
      exact ⟨Nat.le_refl _, fun h => h.storeSession _ _⟩
  | decrypt envelope =>
    rw [perform_decrypt]
    obtain ⟨r, store, draws, -, hrun, heff⟩ := run_decryptKey (symbolic Name) E q envelope w
    rw [hrun]
    exact ⟨Nat.le_add_right _ _, decryptEffect_owned heff⟩

end SignalSessionManager

/-! ## Every call keeps the invariant -/

namespace KeyLog
variable {p : Party} {ivs : ℕ → List UInt8} {peerId : String} {watch : Option Watch} {s : KeyLog}

/-- A call that leaves the stored record, and takes no key. -/
theorem Inv.idle (h : Inv p peerId watch s) {q : String} {w' : World Bytes}
    (hf : Frame p q s.world w')
    (hs : w'.store.sessions peerId = s.world.store.sessions peerId)
    (decrypted : List (EncryptedEnvelope Payload)) :
    Inv p peerId watch ⟨w', s.used, s.answered, decrypted⟩ where
  owned := hf.owned h.owned
  unused hn := h.unused (hs ▸ hn)
  record session hl := by
    obtain ⟨m, hm, hacc⟩ := h.record session (hs ▸ hl)
    exact ⟨m, Nat.lt_of_lt_of_le hm hf.drawn, hacc⟩

/-- A call that stores a record which is accounted for. -/
theorem Inv.renew (h : Inv p peerId watch s) {q : String} {w' : World Bytes}
    (hf : Frame p q s.world w') {session : RatchetSession Bytes} {m : ℕ} {used : List Bytes}
    {answered : List Handshake} (hs : w'.store.sessions peerId = some session)
    (hm : m < w'.keysDrawn) (hacc : Accounted p m watch answered used session)
    (decrypted : List (EncryptedEnvelope Payload)) :
    Inv p peerId watch ⟨w', used, answered, decrypted⟩ where
  owned := hf.owned h.owned
  unused hn := by rw [hs] at hn; cases hn
  record session' hl := by
    obtain rfl := Option.some.inj (hs.symm.trans hl)
    exact ⟨m, hm, hacc⟩

theorem Inv.init (h : Inv p peerId watch s) (bundle : PreKeyBundle Bytes)
    (ha : Allowed p peerId watch s (peerId, .initSessionFromBundle bundle)) :
    Inv p peerId watch (s.next p ivs peerId watch (peerId, .initSessionFromBundle bundle)) := by
  obtain ⟨hpast, hforeign⟩ := ha rfl
  have hf := perform_frame p (p.entropy ivs) peerId s.world
    (.initSessionFromBundle bundle : ManagerCall Bytes Payload)
  simp only [next, if_true, keysTaken, handshakes, List.append_nil]
  rw [perform] at hf ⊢
  rcases run_initSessionFromBundle_cases (symbolic Name) (p.entropy ivs) peerId bundle s.world with
    ⟨e, draws, -, hrun⟩ | ⟨idKP, SK, dhOut, -, hid, hx, hd, hrun⟩
  · rw [hrun] at hf ⊢
    exact h.idle hf rfl _
  · rw [hrun] at hf ⊢
    obtain rfl : p.identityKeyPair = idKP := Option.some.inj (h.owned.identity.symm.trans hid)
    obtain ⟨hspent, hnodup⟩ := h.spent (Nat.le_succ s.world.keysDrawn)
    refine h.renew hf (KeyStore.storeSession_sessions_self ..) (Nat.lt_succ_self _)
      (accounted_initiator (Nat.lt_succ_self _) hspent hnodup ?_ hforeign hx hd) _
    intro a ha
    exact (hpast a ha).mono (Nat.le_succ _)

theorem Inv.encrypt (h : Inv p peerId watch s) (plaintext : CodeUnits) :
    Inv p peerId watch (s.next p ivs peerId watch (peerId, .encrypt plaintext)) := by
  have hf := perform_frame p (p.entropy ivs) peerId s.world
    (.encrypt plaintext : ManagerCall Bytes Payload)
  simp only [next, if_true, keysTaken, handshakes, List.append_nil]
  rw [perform] at hf ⊢
  rcases run_encrypt_cases (symbolic Name) (p.entropy ivs) peerId plaintext s.world with
    ⟨e, he⟩ | ⟨session, ck, hs, hck⟩
  · rw [he] at hf ⊢
    simp only [returnedBy, List.map_nil, Watch.sent_nil, List.append_nil]
    exact h.idle hf rfl _
  · have hrun := run_encrypt (symbolic Name) (p.entropy ivs) plaintext hs hck
    rw [hrun] at hf ⊢
    obtain ⟨m, hm, hacc⟩ := h.record session hs
    simp only [returnedBy, hs, hck, List.map_cons, List.map_nil]
    exact h.renew hf (KeyStore.storeSession_sessions_self ..) hm (hacc.send hck) _

theorem Inv.decrypt_signal (h : Inv p peerId watch s) (msg : WireMessage Bytes) (regId : Int)
    (ha : Allowed p peerId watch s (peerId, .decrypt ⟨.signalMessage, some msg, regId⟩)) :
    Inv p peerId watch
      (s.next p ivs peerId watch (peerId, .decrypt ⟨.signalMessage, some msg, regId⟩)) := by
  have hf := perform_frame p (p.entropy ivs) peerId s.world (.decrypt ⟨.signalMessage, some msg, regId⟩)
  simp only [next, if_true, keysTaken, handshakes, List.append_nil, perform_decrypt] at hf ⊢
  by_cases hex : ∃ session header, s.world.store.sessions peerId = some session ∧ msg.h = some header
  · obtain ⟨session, header, hs, hh⟩ := hex
    obtain ⟨m, hm, hacc⟩ := h.record session hs
    have hrun := run_decryptKey_signal (symbolic Name) (p.entropy ivs)
      (show (⟨.signalMessage, some msg, regId⟩ : EncryptedEnvelope Payload).type = _ from rfl)
      rfl hh hs
    rw [hrun] at hf ⊢
    cases hr : receiveWith (symbolic Name) (nextPair (symbolic Name) (p.entropy ivs) s.world)
        session header with
    | error e =>
      simp only [hr, Net.keyTaken, List.append_nil] at hf ⊢
      exact h.idle hf rfl _
    | ok r =>
      obtain ⟨mk, session'⟩ := r
      simp only [hr, Net.keyTaken] at hf ⊢
      have hpast : ∀ a ∈ header.rk.publicName, a.Past p s.world.keysDrawn :=
        (ha rfl msg rfl).1 header hh
      -- on the current chain, or with a DH ratchet, which draws a pair
      rcases hacc.receive hm hpast hr with ⟨-, hacc⟩ | ⟨hne, hacc⟩
      · exact h.renew hf (KeyStore.storeSession_sessions_self ..)
          (Nat.lt_of_lt_of_le hm (Nat.le_add_right _ _)) hacc _
      · refine h.renew hf (KeyStore.storeSession_sessions_self ..) ?_ hacc _
        have hdraws : receiveDraws (symbolic Name) session header = 1 := by
          obtain ⟨_, _, _, ⟨ht, -⟩ | ⟨-, hd⟩⟩ := receiveWith_cases _ hr
          · exact absurd ht hne
          · rw [receiveDraws, if_pos hne, dhRatchetDraws_of_ok hd]
        show s.world.keysDrawn < s.world.keysDrawn + _
        omega
  · obtain ⟨r, store, draws, -, hrun, heff⟩ := run_decryptKey (symbolic Name) (p.entropy ivs) peerId
      (⟨.signalMessage, some msg, regId⟩ : EncryptedEnvelope Payload) s.world
    rw [hrun] at hf ⊢
    cases heff with
    | refused e =>
      simp only [Net.keyTaken, List.append_nil]
      exact h.idle hf rfl _
    | received _ hp hh hl =>
      obtain rfl := Option.some.inj hp
      exact absurd ⟨_, _, hl, hh⟩ hex
    | consumed _ htype => cases htype
    | created _ htype => cases htype
    | established htype => cases htype

theorem Inv.decrypt_preKey (h : Inv p peerId watch s) (msg : WireMessage Bytes) (regId : Int)
    (ha : Allowed p peerId watch s (peerId, .decrypt ⟨.preKeySignalMessage, some msg, regId⟩)) :
    Inv p peerId watch
      (s.next p ivs peerId watch (peerId, .decrypt ⟨.preKeySignalMessage, some msg, regId⟩)) := by
  have hf := perform_frame p (p.entropy ivs) peerId s.world
    (.decrypt ⟨.preKeySignalMessage, some msg, regId⟩)
  simp only [next, if_true, keysTaken, handshakes, perform_decrypt] at hf ⊢
  -- either the handshake is not answered, and no key is taken, or there is a new session
  cases hresp : respondWith (symbolic Name) (nextPair (symbolic Name) (p.entropy ivs) s.world)
      s.world.store msg with
  | error e =>
    obtain ⟨r, store, draws, -, hrun, heff⟩ := run_decryptKey (symbolic Name) (p.entropy ivs) peerId
      (⟨.preKeySignalMessage, some msg, regId⟩ : EncryptedEnvelope Payload) s.world
    rw [hrun] at hf ⊢
    cases heff with
    | refused e =>
      simp only [Net.keyTaken, List.append_nil]
      exact h.idle hf rfl _
    | received htype => cases htype
    | consumed _ _ hp =>
      simp only [Net.keyTaken, List.append_nil]
      exact h.idle hf (by rw [respondStore_sessions]) _
    | created _ _ hp _ hok =>
      obtain rfl := Option.some.inj hp
      rw [hresp] at hok; cases hok
    | established _ hp _ hok =>
      obtain rfl := Option.some.inj hp
      rw [hresp] at hok; cases hok
  | ok session =>
    obtain ⟨idKP, params, _, _, header, _, _, _, hparams, _, _, hh, _⟩ := respondWith_ok _ hresp
    obtain ⟨hs, header', hhs, hh', rfl⟩ := respondWith_handshake h.owned hresp
    obtain rfl := Option.some.inj (hh.symm.trans hh')
    obtain ⟨hspent, hnodup⟩ := h.spent (Nat.le_refl s.world.keysDrawn)
    obtain ⟨hrk, hik, hnew⟩ := ha rfl msg rfl
    obtain ⟨hidentity, -, hratchet⟩ := handshakeOf_names hparams hh hhs
    have hacc : Accounted p s.world.keysDrawn watch (s.answered ++ [hs]) s.used
        (hs.session p s.world.keysDrawn header.rk) :=
      accounted_responder hratchet hspent hnodup (hik params hparams _ hidentity) (hrk header hh _ hratchet)
        (fun hsome => hnew hsome rfl hs hhs)
    have hrun := @run_decryptKey_preKey _ _ _ (symbolic Name) (p.entropy ivs) peerId _ _ _ _ _
      (show (⟨.preKeySignalMessage, some msg, regId⟩ : EncryptedEnvelope Payload).type = _ from rfl)
      rfl hh hresp
    rw [respondDraws_of_ok hresp] at hrun
    rw [hrun] at hf ⊢
    -- the session is stored whether or not the message can be read
    cases hr : receiveWith (symbolic Name) (nextPair (symbolic Name) (p.entropy ivs) s.world)
        (hs.session p s.world.keysDrawn header.rk) header with
    | error e =>
      simp only [hr, hhs, Net.keyTaken, List.append_nil, Option.toList_some] at hf ⊢
      exact h.renew hf (KeyStore.storeSession_sessions_self ..) (Nat.lt_succ_self _) hacc _
    | ok r =>
      obtain ⟨mk, session'⟩ := r
      simp only [hr, hhs, Net.keyTaken, Option.toList_some] at hf ⊢
      have ht := respondWith_their _ hh hresp
      rw [receiveWith_of_eq _ ht] at hr
      exact h.renew hf (KeyStore.storeSession_sessions_self ..) (Nat.lt_succ_self _)
        (hacc.retrieve ht hr) _

/-- **One call keeps the invariant.** -/
theorem Inv.next (h : Inv p peerId watch s) (call : String × ManagerCall Bytes Payload)
    (ha : Allowed p peerId watch s call) : Inv p peerId watch (s.next p ivs peerId watch call) := by
  obtain ⟨q, call⟩ := call
  by_cases hq : q = peerId
  · subst hq
    match call with
    | .initSessionFromBundle bundle => exact h.init bundle ha
    | .encrypt plaintext => exact h.encrypt plaintext
    | .decrypt ⟨.signalMessage, some msg, regId⟩ => exact h.decrypt_signal msg regId ha
    | .decrypt ⟨.preKeySignalMessage, some msg, regId⟩ => exact h.decrypt_preKey msg regId ha
    | .decrypt ⟨type, none, regId⟩ =>
      have hf := perform_frame p (p.entropy ivs) q s.world (.decrypt ⟨type, none, regId⟩)
      have hrun : (decryptKey (symbolic Name) q (⟨type, none, regId⟩ : EncryptedEnvelope Payload)).run
          (serve (p.entropy ivs)) s.world = (.error .syntaxError, s.world) := rfl
      have hhs : handshakes p ivs s.world (.decrypt ⟨type, none, regId⟩) = [] := by
        cases type <;> rfl
      simp only [KeyLog.next, if_true, keysTaken, perform_decrypt, hrun, hhs, Net.keyTaken,
        List.append_nil] at hf ⊢
      exact h.idle hf rfl _
  · have hf := perform_frame p (p.entropy ivs) q s.world call
    simp only [KeyLog.next, if_neg hq, List.append_nil]
    exact h.idle hf (hf.sessions peerId (fun he => hq he.symm)) _

end KeyLog
end Winkd
