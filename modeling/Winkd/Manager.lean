import Winkd.Ratchet
import Winkd.Transitions

/-!
# One manager, any environment

A run of one `SignalSessionManager` for one peer: the application and the network
make it call `initSessionFromBundle`, `encrypt` and `decrypt` in any order, with
any bundles, plaintexts and envelopes.  The calls do not overlap, and a call that
throws leaves whatever it stored before.
-/

namespace Winkd
open UnicodeText SignalSessionManager

/-- A call of the manager, for the peer the run is about. -/
inductive ManagerCall (β ω : Type) where
  | initSessionFromBundle (bundle : PreKeyBundle β)
  | encrypt (plaintext : CodeUnits)
  | decrypt (envelope : EncryptedEnvelope ω)

/-- An envelope that `encrypt` returned, with the call's plaintext and the
session and sending chain key it was made from. -/
structure Returned (β ω : Type) where
  session : RatchetSession β
  chainKey : β
  plaintext : CodeUnits
  envelope : EncryptedEnvelope ω

namespace Returned
variable {β ω : Type}

/-- The header the envelope carries. -/
def header (e : Returned β ω) : RatchetHeader β := nextHeader e.session

/-- The message key its plaintext is sealed with. -/
def messageKey (P : Platform β ω) (e : Returned β ω) : β := (P.kdfChainKey e.chainKey).messageKey

/-- The envelope is what `encrypt` makes of the session and the plaintext. -/
def Genuine (P : Platform β ω) (e : Returned β ω) : Prop :=
  e.session.sendChainKey = some e.chainKey ∧
    ∃ iv regId, e.envelope = envelopeOf P e.session e.chainKey iv e.plaintext regId

/-- A genuine envelope parses to its payload: its header, its X3DH parameters,
and its plaintext under its message key. -/
theorem Genuine.parse {P : Platform β ω} {e : Returned β ω} (he : e.Genuine P)
    (hP : P.RoundTrips) :
    ∃ msg, P.parse e.envelope.ciphertext = some msg ∧ msg.h = some e.header ∧
      e.envelope.type = nextType e.session ∧
      (msg.preKey = (preKeyInfo e.session).map fun i => ⟨i.identityKey, i.ephemeralKey, i.spkId,
        i.opkId⟩) ∧
      P.aesGcmDecrypt (e.messageKey P) msg.ct msg.iv = some (textEncode e.plaintext) := by
  obtain ⟨-, iv, regId, henv⟩ := he
  refine ⟨_, by rw [henv]; exact hP.wire _, rfl, by rw [henv]; rfl, rfl, ?_⟩
  exact hP.aesGcm _ _ _

end Returned

namespace SignalSessionManager

/-- What a call of `encrypt` on `session` returned, if it did not throw. -/
def returnedBy {β ω : Type} (plaintext : CodeUnits) (session : Option (RatchetSession β)) :
    Except Failure (EncryptedEnvelope ω) → List (Returned β ω)
  | .error _ => []
  | .ok envelope =>
    match session with
    | none => []
    | some session =>
      match session.sendChainKey with
      | none => []
      | some chainKey => [⟨session, chainKey, plaintext, envelope⟩]

variable {β ω : Type} [DecidableEq β] (P : Platform β ω) (E : Entropy β) (peerId : String)

/-- The world after a call. -/
def perform (w : World β) : ManagerCall β ω → World β
  | .initSessionFromBundle bundle => ((initSessionFromBundle P peerId bundle).run (serve E) w).2
  | .encrypt plaintext => ((encrypt P peerId plaintext).run (serve E) w).2
  | .decrypt envelope => ((decrypt P peerId envelope).run (serve E) w).2

theorem perform_decrypt (w : World β) (envelope : EncryptedEnvelope ω) :
    perform P E peerId w (.decrypt envelope) =
      ((decryptKey P peerId envelope).run (serve E) w).2 := by
  rw [perform, run_decrypt]
  rcases (decryptKey P peerId envelope).run (serve E) w with ⟨_ | ⟨mk, msg⟩, w'⟩
  · rfl
  · cases hopen : P.aesGcmDecrypt mk msg.ct msg.iv <;> simp [hopen]

omit [DecidableEq β] in
/-- `initSessionFromBundle` when the signature verifies and every secret exists. -/
theorem run_initSessionFromBundle {bundle : PreKeyBundle β} {w : World β}
    {idKP : IdentityKeyPair β} {SK dhOut : β}
    (hv : P.verifyPreKey bundle.identityKey bundle.signedPreKey.publicKey
      bundle.signedPreKey.signature = true) (hid : w.store.identity = some idKP)
    (hx : P.x3dh idKP.privateKey (nextPair P E w).privateKeyJwk bundle.identityKey
      bundle.signedPreKey.publicKey (bundle.oneTimePreKey.map PublicPreKey.publicKey) = some SK)
    (hd : P.dh (P.toDHKeyPair (E.key (w.keysDrawn + 1))).privateKeyJwk
      bundle.signedPreKey.publicKey = some dhOut) :
    (initSessionFromBundle P peerId bundle).run (serve E) w =
      (.ok (),
        { store := w.store.storeSession peerId
            (initiatorSession idKP (nextPair P E w) (P.toDHKeyPair (E.key (w.keysDrawn + 1)))
              bundle (P.kdfRootKey (P.bufToHex SK) dhOut))
          keysDrawn := w.keysDrawn + 2
          ivsDrawn := w.ivsDrawn }) := by
  simp only [nextPair] at hx
  rw [initSessionFromBundle, if_pos hv]
  simp only [Prog.run_bind, getIdentityKeyPair, generateDHKeyPair, Prog.run_ask, serve, hid,
    Prog.run_pure, hx, Prog.run_ofOption_some, dh, hd, storeSession, nextPair]

omit [DecidableEq β] in
/-- What `initSessionFromBundle` can do: throw before it stores anything, or
store an initiator session made with the next two key pairs. -/
theorem run_initSessionFromBundle_cases (bundle : PreKeyBundle β) (w : World β) :
    (∃ e draws, draws ≤ 2 ∧ (initSessionFromBundle P peerId bundle).run (serve E) w =
        (.error e, { w with keysDrawn := w.keysDrawn + draws })) ∨
      ∃ idKP SK dhOut,
        P.verifyPreKey bundle.identityKey bundle.signedPreKey.publicKey
          bundle.signedPreKey.signature = true ∧
        w.store.identity = some idKP ∧
        P.x3dh idKP.privateKey (nextPair P E w).privateKeyJwk bundle.identityKey
          bundle.signedPreKey.publicKey (bundle.oneTimePreKey.map PublicPreKey.publicKey) =
          some SK ∧
        P.dh (P.toDHKeyPair (E.key (w.keysDrawn + 1))).privateKeyJwk
          bundle.signedPreKey.publicKey = some dhOut ∧
        (initSessionFromBundle P peerId bundle).run (serve E) w =
          (.ok (),
            { store := w.store.storeSession peerId
                (initiatorSession idKP (nextPair P E w)
                  (P.toDHKeyPair (E.key (w.keysDrawn + 1))) bundle
                  (P.kdfRootKey (P.bufToHex SK) dhOut))
              keysDrawn := w.keysDrawn + 2
              ivsDrawn := w.ivsDrawn }) := by
  rw [initSessionFromBundle]
  -- it throws at the signature, at the identity, or at one of the two agreements
  by_cases hv : P.verifyPreKey bundle.identityKey bundle.signedPreKey.publicKey
      bundle.signedPreKey.signature = true
  · rw [if_pos hv]
    cases hid : w.store.identity with
    | none =>
      exact .inl ⟨_, 0, by omega, by
        simp only [Prog.run_bind, getIdentityKeyPair, Prog.run_ask, serve, hid]; rfl⟩
    | some idKP =>
      cases hx : P.x3dh idKP.privateKey (nextPair P E w).privateKeyJwk bundle.identityKey
          bundle.signedPreKey.publicKey (bundle.oneTimePreKey.map PublicPreKey.publicKey) with
      | none =>
        refine .inl ⟨.dataError, 1, by omega, ?_⟩
        simp only [nextPair] at hx
        simp only [Prog.run_bind, getIdentityKeyPair, generateDHKeyPair, Prog.run_ask, serve, hid,
          Prog.run_pure, hx]
        rfl
      | some SK =>
        cases hd : P.dh (P.toDHKeyPair (E.key (w.keysDrawn + 1))).privateKeyJwk
            bundle.signedPreKey.publicKey with
        | none =>
          refine .inl ⟨.dataError, 2, by omega, ?_⟩
          simp only [nextPair] at hx
          simp only [Prog.run_bind, getIdentityKeyPair, generateDHKeyPair, Prog.run_ask, serve,
            hid, Prog.run_pure, hx, Prog.run_ofOption_some, dh, hd]
          rfl
        | some dhOut =>
          refine .inr ⟨idKP, SK, dhOut, hv, rfl, hx, rfl, ?_⟩
          rw [← run_initSessionFromBundle P E peerId hv hid hx hd, initSessionFromBundle,
            if_pos hv]
  · exact .inl ⟨_, 0, by omega, by rw [if_neg hv]; rfl⟩

/-- A call leaves the sessions of other peers alone. -/
theorem perform_sessions_ne {q : String} (hq : q ≠ peerId) (w : World β) (call : ManagerCall β ω) :
    (perform P E peerId w call).store.sessions q = w.store.sessions q := by
  cases call with
  | initSessionFromBundle bundle =>
    rw [perform]
    rcases run_initSessionFromBundle_cases P E peerId bundle w with
      ⟨e, draws, -, hrun⟩ | ⟨idKP, SK, dhOut, -, -, -, -, hrun⟩
    · rw [hrun]
    · rw [hrun]
      exact KeyStore.storeSession_sessions_ne _ _ hq
  | encrypt plaintext =>
    rw [perform]
    rcases run_encrypt_cases P E peerId plaintext w with ⟨e, he⟩ | ⟨session, ck, hs, hck⟩
    · rw [he]
    · rw [run_encrypt P E plaintext hs hck]
      exact KeyStore.storeSession_sessions_ne _ _ hq
  | decrypt envelope =>
    rw [perform_decrypt]
    obtain ⟨r, store, draws, -, hrun, heff⟩ := run_decryptKey P E peerId envelope w
    rw [hrun]
    cases heff with
    | refused => rfl
    | received => exact KeyStore.storeSession_sessions_ne _ _ hq
    | consumed => rw [respondStore_sessions]
    | created => rw [KeyStore.storeSession_sessions_ne _ _ hq, respondStore_sessions]
    | established => rw [KeyStore.storeSession_sessions_ne _ _ hq, respondStore_sessions]

end SignalSessionManager
end Winkd
