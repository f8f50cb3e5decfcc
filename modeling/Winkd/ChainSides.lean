import Winkd.KeyOrigins
import Winkd.Manager

/-!
# Sending and receiving sides

The root keys of one session alternate: a party sends on a chain started from one
and receives on the chain started from the next.  X3DH fixes which comes first,
and its result tells an initiator's session from a responder's.  So no chain a
party sends on is one it receives on (`RootOf.side_unique`), and this holds
whatever headers the session was given.

`Numbered` is what a session keeps on top of that: the receiving chain belongs to
the peer's ratchet key, every saved key is filed under a text of the ratchet key of its
chain, and, as long as every number that came in was an integer and not stale
(`NotStale`), both are numbered as the sender numbers them.
-/

namespace Winkd
open Js Symbolic SignalSessionManager UnicodeText

/-! ## Root keys -/

/-- What a root key is used for next. -/
inductive Side where
  | sending
  | receiving
  deriving DecidableEq

/-- The other use. -/
def Side.flip : Side → Side
  | .sending => .receiving
  | .receiving => .sending

/-- `p` uses the root key on this side.  In a trusted session, X3DH was done with the
other party's signed pre-key, or with its identity key. -/
inductive RootOf (p : Party) (trusted : Prop) : Side → Bytes → Prop where
  | initiated {s : Name} (z2 z3 : Bytes) (z4 : Option Bytes)
      (genuine : trusted → ∃ id, s = .signedPreKey p.other id) :
      RootOf p trusted .sending
        ((symbolic Name).x3dhSecret (Term.agree (.identity p) s) z2 z3 z4)
  | answered (hs : Handshake) (genuine : trusted → hs.identity = .identity p.other) :
      RootOf p trusted .receiving (hs.secret p)
  | step {side : Side} {root : Bytes} (z : Bytes) (h : RootOf p trusted side root) :
      RootOf p trusted side.flip ((symbolic Name).kdfRootKey root z).newRootKey

variable {p : Party} {trusted ordered : Prop}

/-- X3DH with the other party, on both sides, never gives the same secret. -/
theorem initiated_ne_answered {s i e r : Name} {z2 z3 : Bytes} {z4 : Option Bytes} {spkId : Int}
    {opkId : Option Int}
    (h : (∃ id, s = .signedPreKey p.other id) ∨ i = .identity p.other) :
    (symbolic Name).x3dhSecret (Term.agree (.identity p) s) z2 z3 z4 ≠
      Handshake.secret p ⟨i, e, r, spkId, opkId⟩ := by
  intro he
  rcases Term.agree_inj (x3dhSecret_inj he).1 with ⟨h1, -⟩ | ⟨h1, h2⟩
  · cases h1
  · rcases h with ⟨id, rfl⟩ | rfl
    · exact Party.other_ne p (Name.signedPreKey.inj h2).1
    · exact Party.ne_other p (Name.identity.inj h1)

/-- **The root keys of a trusted session are used on one side only**, whatever other
sessions the party has. -/
theorem RootOf.side_unique {side side' : Side} {root : Bytes} (h : RootOf p True side root)
    (h' : RootOf p False side' root) : side = side' := by
  induction h generalizing side' with
  | initiated z2 z3 z4 genuine =>
    generalize hr : (symbolic Name).x3dhSecret _ z2 z3 z4 = r at h'
    cases h' with
    | initiated => rfl
    | answered hs => exact absurd hr (initiated_ne_answered (.inl (genuine trivial)))
    | step z h => exact absurd hr.symm kdfRootKey_ne_x3dhSecret
  | answered hs genuine =>
    generalize hr : hs.secret p = r at h'
    cases h' with
    | initiated => exact absurd hr.symm (initiated_ne_answered (.inr (genuine trivial)))
    | answered => rfl
    | step z h => exact absurd hr.symm kdfRootKey_ne_x3dhSecret
  | @step side root z _ ih =>
    generalize hr : ((symbolic Name).kdfRootKey root z).newRootKey = r at h'
    cases h' with
    | initiated => exact absurd hr kdfRootKey_ne_x3dhSecret
    | answered => exact absurd hr kdfRootKey_ne_x3dhSecret
    | step z' h' =>
      obtain ⟨rfl, -⟩ := kdfRootKey_newRootKey_inj hr
      rw [ih h']

theorem RootOf.weaken {side : Side} {root : Bytes} (h : RootOf p trusted side root) :
    RootOf p False side root := by
  induction h with
  | initiated z2 z3 z4 => exact .initiated z2 z3 z4 False.elim
  | answered hs => exact .answered hs False.elim
  | step z _ ih => exact .step z ih

/-! ## Chains -/

/-- `base` starts a chain `p` receives on under the ratchet key of `k`. -/
def ReceivesOn (p : Party) (trusted : Prop) (k : Name) (base : Bytes) : Prop :=
  ∃ root c, RootOf p trusted .receiving root ∧ c.owner = some p ∧
    base = ((symbolic Name).kdfRootKey root (Term.agree c k)).chainKey

/-- `base` starts the chain `p` sends on under its `m`-th ratchet key. -/
def SendsOn (p : Party) (trusted : Prop) (m : ℕ) (base : Bytes) : Prop :=
  ∃ root their, RootOf p trusted .sending root ∧
    base = ((symbolic Name).kdfRootKey root (Term.agree (.generated p m) their)).chainKey

theorem ReceivesOn.base {k : Name} {base : Bytes} (h : ReceivesOn p trusted k base) :
    ∃ r z, base = ((symbolic Name).kdfRootKey r z).chainKey := by
  obtain ⟨root, c, -, -, hb⟩ := h
  exact ⟨root, _, hb⟩

theorem SendsOn.base {m : ℕ} {base : Bytes} (h : SendsOn p trusted m base) :
    ∃ r z, base = ((symbolic Name).kdfRootKey r z).chainKey := by
  obtain ⟨root, their, -, hb⟩ := h
  exact ⟨root, _, hb⟩

/-- A party never receives on a chain of its own. -/
theorem ReceivesOn.ne_own {k : Name} {m : ℕ} {base : Bytes} (h : ReceivesOn p True k base) :
    ¬ SendsOn p False m base := by
  rintro ⟨root', their, hr', hb'⟩
  obtain ⟨root, c, hr, -, rfl⟩ := h
  obtain ⟨rfl, -⟩ := symbolic_freeKdf.root _ _ _ _ hb'
  cases hr.side_unique hr'

/-- A chain the other party sends on belongs to its ratchet key. -/
theorem ReceivesOn.ratchet_key {k : Name} {m : ℕ} {base : Bytes}
    (h : ReceivesOn p trusted k base) (hs : SendsOn p.other False m base) :
    k = .generated p.other m := by
  obtain ⟨root, c, -, hc, rfl⟩ := h
  obtain ⟨root', their, -, hb⟩ := hs
  rcases Term.agree_inj (symbolic_freeKdf.root _ _ _ _ hb).2 with ⟨rfl, -⟩ | ⟨-, hk⟩
  · exact absurd (Option.some.inj hc) (Party.other_ne p)
  · exact hk

/-! ## Sessions -/

/-- A session in which every chain and every saved key is on its side, and, if
`ordered`, has its number. -/
structure Numbered (p : Party) (trusted ordered : Prop) (session : RatchetSession Bytes) :
    Prop where
  root : RootOf p trusted .receiving session.rootKey
  sending : ∃ m base, ∃ i : ℕ, session.ourRatchetPublic = .pub (.generated p m) ∧
    session.ourRatchetPrivate = .priv (.generated p m) ∧ SendsOn p trusted m base ∧
    session.sendChainKey = some ((symbolic Name).chain.chainAt base i) ∧ session.sendCount = i
  receiving : ∀ ck, session.recvChainKey = some ck → ∃ k base, ∃ i : ℕ,
    session.theirRatchetPublic.bind Term.publicName = some k ∧ ReceivesOn p trusted k base ∧
    ck = (symbolic Name).chain.chainAt base i ∧ (ordered → session.recvCount = .int i)
  saved : ∀ rk t v, session.skipped.lookup (rk, t) = some v → ∃ k base, ∃ i : ℕ,
    rk.publicName = some k ∧ ReceivesOn p trusted k base ∧
    v = (symbolic Name).chain.messageAt base i ∧ (ordered → t = intText i)
  pending : ∀ info, session.pendingPreKeyMsg = some info →
    ∃ a b, info.identityKey = .pub a ∧ info.ephemeralKey = .pub b

/-- The header's number is an integer, and not stale: the key is saved, or the receiving
chain has not passed it. -/
def NotStale (session : RatchetSession Bytes) (h : RatchetHeader Bytes) : Prop :=
  h.n = .int h.number ∧ ((session.skipped.lookup (h.rk, intText h.number)).isSome ∨
    (if session.theirRatchetPublic = some h.rk then session.count ≤ h.number else 0 ≤ h.number))

instance (session : RatchetSession Bytes) (h : RatchetHeader Bytes) :
    Decidable (NotStale session h) :=
  inferInstanceAs (Decidable (_ ∧ _))

variable {session session' : RatchetSession Bytes}

/-- Sending moves the sending chain on. -/
theorem Numbered.send (h : Numbered p trusted ordered session) {ck : Bytes}
    (hck : session.sendChainKey = some ck) : Numbered p trusted ordered
      (afterSend session ((symbolic Name).kdfChainKey ck).nextChainKey) where
  root := h.root
  sending := by
    obtain ⟨m, base, i, hpub, hpriv, hb, hi, hc⟩ := h.sending
    obtain rfl := Option.some.inj (hck.symm.trans hi)
    refine ⟨m, base, i + 1, hpub, hpriv, hb, ?_, ?_⟩
    · rw [KeyChain.chainAt_succ]
      rfl
    · simp only [afterSend, hc, Int.natCast_succ]
  receiving := h.receiving
  saved := h.saved
  pending info hi := by
    simp only [afterSend] at hi
    split at hi
    · cases hi
    · exact h.pending info hi

/-- What is saved when a chain is skipped on has its number. -/
theorem saved_of_saveKeys {k : Name} {base their rk v : Bytes} {i j : ℕ} {start : Primitive}
    {t : CodeUnits} (hk : their.publicName = some k) (hb : ReceivesOn p trusted k base)
    (hi : ordered → start = .int i) (h : Numbered p trusted ordered session)
    (hv : (saveKeys (symbolic Name) their ((symbolic Name).chain.chainAt base i) start j
      session.skipped).lookup (rk, t) = some v) :
    ∃ k base, ∃ i : ℕ, rk.publicName = some k ∧ ReceivesOn p trusted k base ∧
      v = (symbolic Name).chain.messageAt base i ∧ (ordered → t = intText i) := by
  rcases lookup_saveKeys_cases hv with hold | ⟨rfl, pass, -, htext, rfl⟩
  · exact h.saved rk t v hold
  · refine ⟨k, base, i + pass, hk, hb,
      KeyChain.messageAt_chainAt (symbolic Name).chain base i pass, ?_⟩
    intro ho
    rw [htext, hi ho, Primitive.after_int, Primitive.toText_int]
    rfl

/-- Skipping keeps the numbers. -/
theorem Numbered.skip (h : Numbered p trusted ordered session) {target : Value}
    (hs : skipMessageKeys (symbolic Name) session target = .ok session') :
    Numbered p trusted ordered session' := by
  rcases skipMessageKeys_cases _ hs with ⟨-, rfl⟩ | ⟨their, ck, passes, ht, hck, -, rfl⟩
  · exact h
  · obtain ⟨k, base, i, hk, hb, rfl, hi⟩ := h.receiving ck hck
    have hname : their.publicName = some k := by rwa [ht] at hk
    refine ⟨h.root, h.sending, ?_, fun rk t v hv => saved_of_saveKeys hname hb hi h hv, h.pending⟩
    intro ck' hck'
    rw [← Option.some.inj hck']
    refine ⟨k, base, i + passes, hk, hb, KeyChain.chainAt_chainAt _ _ _ _, ?_⟩
    intro ho
    simp only [skipped, hi ho, Primitive.after_int, Int.natCast_add]

/-- The number is an integer, and its key is saved or the chain has not passed it. -/
def InStep (session : RatchetSession Bytes) (rk : Bytes) (n : Value) : Prop :=
  n = .int n.floor ∧
    ((session.skipped.lookup (rk, intText n.floor)).isSome ∨ session.count ≤ n.floor)

/-- **Retrieving a key**: it is a key of a chain that belongs to the header's ratchet
key, and has the header's number if that was in step. -/
theorem Numbered.retrieve (h : Numbered p trusted ordered session) {rk mk : Bytes} {n : Value}
    (ht : session.theirRatchetPublic = some rk) (hn : ordered → InStep session rk n)
    (hr : retrieveMessageKey (symbolic Name) session rk n = .ok (mk, session')) :
    Numbered p trusted ordered session' ∧ ∃ k base, ∃ i : ℕ, rk.publicName = some k ∧
      ReceivesOn p trusted k base ∧ mk = (symbolic Name).chain.messageAt base i ∧
      (ordered → n = .int i) := by
  obtain ⟨number, hnumber, ⟨saved, hl, rfl, rfl⟩ | ⟨ck, passes, hnone, hck, hpasses, rfl, rfl⟩⟩ :=
    retrieve_cases _ ht hr
  · constructor
    · refine ⟨h.root, h.sending, h.receiving, ?_, h.pending⟩
      intro rk' t v hv
      by_cases hkey : (rk', t) = (rk, number.toText)
      · rw [hkey] at hv
        simp [useSaved] at hv
      · rw [useSaved, Finmap.lookup_erase_ne hkey] at hv
        exact h.saved rk' t v hv
    · obtain ⟨k, base, i, hk, hb, hv, ht⟩ := h.saved rk _ _ hl
      refine ⟨k, base, i, hk, hb, hv, ?_⟩
      intro ho
      obtain ⟨hint, -⟩ := hn ho
      have htext := ht ho
      rw [hint] at hnumber ⊢
      obtain rfl := Option.some.inj hnumber
      exact congrArg Value.int (intText_injective htext)
  · obtain ⟨k, base, i, hk, hb, rfl, hi⟩ := h.receiving ck hck
    have hname : rk.publicName = some k := by rwa [ht] at hk
    -- in step, the number is as many further as the chain is moved on
    have hpassed : ordered → n = .int (i + passes : ℕ) ∧ number = .int (i + passes : ℕ) := by
      intro ho
      obtain ⟨hint, hstep⟩ := hn ho
      rw [hint] at hnumber hpasses ⊢
      obtain rfl := Option.some.inj hnumber
      rw [hi ho] at hpasses
      obtain ⟨-, rfl⟩ := skipPasses_int_cases hpasses
      have hle : (i : ℤ) ≤ n.floor := by
        rcases hstep with hsaved | hle
        · rw [Primitive.toText_int] at hnone
          rw [hnone] at hsaved
          cases hsaved
        · rwa [RatchetSession.count, hi ho] at hle
      have hfloor : n.floor = ((i + (n.floor - i).toNat : ℕ) : ℤ) := by omega
      exact ⟨congrArg Value.int hfloor, congrArg Primitive.int hfloor⟩
    constructor
    · refine ⟨h.root, h.sending, ?_, fun rk t v hv => saved_of_saveKeys hname hb hi h hv, h.pending⟩
      intro ck' hck'
      rw [← Option.some.inj hck']
      refine ⟨k, base, i + (passes + 1), hk, hb, KeyChain.chainAt_chainAt _ _ _ _, ?_⟩
      intro ho
      rw [advanced, (hpassed ho).2, Primitive.plus_int]
      rfl
    · exact ⟨k, base, i + passes, hname, hb,
        KeyChain.messageAt_chainAt (symbolic Name).chain base i passes, fun ho => (hpassed ho).1⟩

/-- **The DH ratchet** starts a chain on each side. -/
theorem Numbered.ratchet (h : Numbered p trusted ordered session) {m' : ℕ} {rk : Bytes} {pn : Value}
    (hr : dhRatchetWith (symbolic Name) (dhPairOf (.generated p m')) session rk pn =
      .ok session') :
    Numbered p trusted ordered session' ∧ session'.recvCount = .int 0 ∧
      (session.theirRatchetPublic ≠ some rk → ∀ t,
        session'.skipped.lookup (rk, t) = session.skipped.lookup (rk, t)) := by
  obtain ⟨session₀, d1, d2, hskip, hd1, hd2, rfl⟩ := dhRatchetWith_cases _ hr
  have h₀ := h.skip hskip
  obtain ⟨m, _, _, -, hpriv, -⟩ := h.sending
  obtain ⟨-, k, -, hname, -⟩ := symbolic_dh_cases hd2
  rw [hpriv] at hd1
  obtain rfl := Option.some.inj ((symbolic_dh _ hname).symm.trans hd1)
  obtain rfl := Option.some.inj ((symbolic_dh _ hname).symm.trans hd2)
  have hmid : RootOf p trusted .sending ((symbolic Name).kdfRootKey session.rootKey
      (Term.agree (.generated p m) k)).newRootKey := .step _ h.root
  refine ⟨⟨.step _ hmid, ?_, ?_, h₀.saved, h₀.pending⟩, rfl, ?_⟩
  · exact ⟨m', _, 0, rfl, rfl, ⟨_, k, hmid, rfl⟩, rfl, rfl⟩
  · intro ck hck
    obtain rfl := Option.some.inj hck
    exact ⟨k, _, 0, hname, ⟨_, .generated p m, h.root, rfl, rfl⟩, rfl, fun _ => rfl⟩
  · exact fun hne t => lookup_skipMessageKeys _ hskip hne t

/-- **Receiving**: the session stays numbered, and the key it takes is one the
header's ratchet key stands for. -/
theorem Numbered.receive (h : Numbered p trusted ordered session) {m' : ℕ} {mk : Bytes}
    {header : RatchetHeader Bytes} (hn : ordered → NotStale session header)
    (hr : receiveWith (symbolic Name) (dhPairOf (.generated p m')) session header =
      .ok (mk, session')) :
    Numbered p trusted ordered session' ∧ ∃ k base, ∃ i : ℕ, header.rk.publicName = some k ∧
      ReceivesOn p trusted k base ∧ mk = (symbolic Name).chain.messageAt base i ∧
      (ordered → header.n = .int i) := by
  obtain ⟨session₁, ht₁, hret, ⟨ht, rfl⟩ | ⟨hne, hd⟩⟩ := receiveWith_cases _ hr
  · apply h.retrieve ht₁ _ hret
    intro ho
    obtain ⟨hint, hstep⟩ := hn ho
    rw [if_pos ht] at hstep
    exact ⟨hint, hstep⟩
  · obtain ⟨h₁, hzero, hlookup⟩ := h.ratchet hd
    apply h₁.retrieve ht₁ _ hret
    intro ho
    obtain ⟨hint, hstep⟩ := hn ho
    rw [if_neg hne] at hstep
    rw [InStep, hlookup hne, RatchetSession.count, hzero]
    exact ⟨hint, hstep⟩

/-! ## New sessions -/

theorem numbered_initiator {i m : ℕ} {bundle : PreKeyBundle Bytes} {SK dhOut : Bytes}
    (hgenuine : trusted → ∃ id, bundle.signedPreKey.publicKey.publicName =
      some (.signedPreKey p.other id))
    (hx : (symbolic Name).x3dh p.identityKeyPair.privateKey
      (dhPairOf (.generated p i)).privateKeyJwk bundle.identityKey bundle.signedPreKey.publicKey
      (bundle.oneTimePreKey.map PublicPreKey.publicKey) = some SK)
    (hd : (symbolic Name).dh (dhPairOf (.generated p m)).privateKeyJwk
      bundle.signedPreKey.publicKey = some dhOut) :
    Numbered p trusted ordered
      (initiatorSession p.identityKeyPair (dhPairOf (.generated p i)) (dhPairOf (.generated p m))
        bundle ((symbolic Name).kdfRootKey SK dhOut)) := by
  obtain ⟨_, s, hgen, hs, rfl⟩ := symbolic_dh_cases hd
  obtain rfl := Term.priv.inj hgen
  obtain ⟨a, z4, -, rfl⟩ := x3dh_cases hs hx
  have hroot : RootOf p trusted .sending ((symbolic Name).x3dhSecret
      (Term.agree (.identity p) s) (Term.agree (.generated p i) a)
      (Term.agree (.generated p i) s) z4) := by
    refine .initiated _ _ _ fun ht => ?_
    obtain ⟨id, hid⟩ := hgenuine ht
    exact ⟨id, Option.some.inj (hs.symm.trans hid)⟩
  refine ⟨.step _ hroot, ⟨m, _, 0, rfl, rfl, ⟨_, s, hroot, rfl⟩, rfl, rfl⟩, nofun, ?_, ?_⟩
  · intro rk n v hv
    rw [initiatorSession, Finmap.lookup_empty] at hv
    cases hv
  · intro info hinfo
    obtain rfl := Option.some.inj hinfo
    exact ⟨_, _, rfl, rfl⟩

theorem numbered_responder {m : ℕ} {hs : Handshake} {rk : Bytes}
    (hname : rk.publicName = some hs.ratchet)
    (hgenuine : trusted → hs.identity = .identity p.other) :
    Numbered p trusted ordered (hs.session p m rk) := by
  have hroot : RootOf p trusted .receiving (hs.secret p) := .answered hs hgenuine
  have hmid : RootOf p trusted .sending (hs.keys1 p).newRootKey := .step _ hroot
  refine ⟨.step _ hmid, ⟨m, _, 0, rfl, rfl, ⟨_, hs.ratchet, hmid, rfl⟩, rfl, rfl⟩, ?_, ?_, nofun⟩
  · intro ck hck
    obtain rfl := Option.some.inj hck
    exact ⟨hs.ratchet, _, 0, hname, ⟨_, .signedPreKey p hs.spkId, hroot, rfl, rfl⟩, rfl, fun _ => rfl⟩
  · intro rk n v hv
    rw [Handshake.session, responderSession, Finmap.lookup_empty] at hv
    cases hv

end Winkd
