import Winkd.KeyOrigins

/-!
# The keys in a record

A session whose current ratchet key pair is the party's `m`-th one holds the
sending chain made with that pair, keys of chains from before, and nothing else;
and what it holds was never used (`Accounted`).  Sending, skipping, retrieving, a
DH ratchet and the start of a session keep records accounted for, whatever the
peer sends: it is only required not to know the public keys of pairs that are
not generated yet, and not to repeat a handshake.
-/

namespace Winkd
open Symbolic SignalSessionManager KeyPool Js UnicodeText

/-! ## Records -/

/-- The root key and the sending chain of a session: both come from one root step,
with the current ratchet key pair, the `m`-th, and the peer's ratchet key. -/
structure Rooted (p : Party) (m : ℕ) (session : RatchetSession Bytes) (root : Bytes) (their : Name)
    (i : ℕ) : Prop where
  last : ∃ a b, LastSecret (Term.agree a b) root ∧ a.Past p m ∧ b.Past p m
  past : their.Past p m
  theirRatchetPublic : session.theirRatchetPublic.bind Term.publicName = some their
  rootKey : session.rootKey =
    ((symbolic Name).kdfRootKey root (Term.agree (.generated p m) their)).newRootKey
  sendChainKey : session.sendChainKey = some ((symbolic Name).chain.chainAt
    ((symbolic Name).kdfRootKey root (Term.agree (.generated p m) their)).chainKey i)
  sendCount : session.sendCount = i

/-- Parameters of a first message of `p`'s: its identity key, and the public key of a
pair it generated before its `m`-th. -/
def OwnParams (p : Party) (m : ℕ) (info : PendingPreKeyMsg Bytes) : Prop :=
  info.identityKey = .pub (.identity p) ∧ ∃ j < m, info.ephemeralKey = .pub (.generated p j)

theorem OwnParams.mono {p : Party} {m m' : ℕ} {info : PendingPreKeyMsg Bytes}
    (h : OwnParams p m info) (hm : m ≤ m') : OwnParams p m' info := by
  obtain ⟨hid, j, hj, he⟩ := h
  exact ⟨hid, j, Nat.lt_of_lt_of_le hj hm, he⟩

/-- **Every key in the record is accounted for.** -/
structure Accounted (p : Party) (m : ℕ) (watch : Option Watch) (answered : List Handshake)
    (used : List Bytes) (session : RatchetSession Bytes) : Prop where
  ourPublic : session.ourRatchetPublic = .pub (.generated p m)
  ourPrivate : session.ourRatchetPrivate = .priv (.generated p m)
  rooted : ∃ root their i, Rooted p m session root their i ∧
    (watch = some .both → ∀ hs : Handshake,
      ((symbolic Name).kdfRootKey root (Term.agree (.generated p m) their)).chainKey ≠
        (hs.keys1 p).chainKey)
  recv : ∀ ck, session.recvChainKey = some ck →
    ∃ base i, Origin p m (m + 1) answered base ∧ ck = (symbolic Name).chain.chainAt base i
  saved : ∀ key v, session.skipped.lookup key = some v → OfOrigin p m (m + 1) answered v
  savedUnder : ∀ key v, session.skipped.lookup key = some v → key.1.publicName.isSome
  pending : ∀ info, session.pendingPreKeyMsg = some info → OwnParams p m info
  spent : ∀ mk ∈ used, OfOrigin p m (m + 1) answered mk
  exclusive : ∀ watched, watch = some watched →
    Exclusive (heldKeys (symbolic Name) watched session) used

variable {p : Party} {m : ℕ} {watch : Option Watch} {answered : List Handshake} {used : List Bytes}
  {session session' : RatchetSession Bytes}

/-- The current sending chain is a chain from before as soon as it is used. -/
theorem Rooted.origin {root : Bytes} {their : Name} {i : ℕ}
    (h : Rooted p m session root their i) (hne : ∀ hs : Handshake,
      ((symbolic Name).kdfRootKey root (Term.agree (.generated p m) their)).chainKey ≠
        (hs.keys1 p).chainKey) :
    Origin p m (m + 1) answered
      ((symbolic Name).kdfRootKey root (Term.agree (.generated p m) their)).chainKey where
  derived := by
    obtain ⟨a, b, hlast, ha, hb⟩ := h.last
    exact ⟨root, a, b, _, _, rfl, hlast, ha, hb, Name.past_generated (Nat.lt_succ_self m),
      h.past.mono (Nat.le_succ m)⟩
  handshake hs he := absurd he (hne hs)

theorem Rooted.of_sendState {root : Bytes} {their : Name} {i : ℕ}
    (h : Rooted p m session root their i) (hs : session'.sendState = session.sendState)
    (ht : session'.theirRatchetPublic = session.theirRatchetPublic) :
    Rooted p m session' root their i where
  last := h.last
  past := h.past
  theirRatchetPublic := ht ▸ h.theirRatchetPublic
  rootKey := (congrArg SendState.rootKey hs).trans h.rootKey
  sendChainKey := (congrArg SendState.sendChainKey hs).trans h.sendChainKey
  sendCount := (congrArg SendState.sendCount hs).trans h.sendCount

/-! ## What each call does to a record -/

/-- **Sending.** -/
theorem Accounted.send (h : Accounted p m watch answered used session) {ck : Bytes}
    (hck : session.sendChainKey = some ck) :
    Accounted p m watch answered
      (used ++ Watch.sent watch [((symbolic Name).kdfChainKey ck).messageKey])
      (afterSend session ((symbolic Name).kdfChainKey ck).nextChainKey) := by
  obtain ⟨root, their, i, hr, hne⟩ := h.rooted
  obtain rfl := Option.some.inj (hck.symm.trans hr.sendChainKey)
  constructor
  · exact h.ourPublic
  · exact h.ourPrivate
  · refine ⟨root, their, i + 1, ⟨hr.last, hr.past, hr.theirRatchetPublic, hr.rootKey, ?_, ?_⟩, hne⟩
    · rw [KeyChain.chainAt_succ]
      rfl
    · simp only [afterSend, hr.sendCount, Int.natCast_succ]
  · exact h.recv
  · exact h.saved
  · exact h.savedUnder
  · intro info hi
    simp only [afterSend] at hi
    split at hi
    · cases hi
    · exact h.pending info hi
  · intro mk hmk
    rcases List.mem_append.mp hmk with hmk | hmk
    · exact h.spent mk hmk
    · obtain ⟨hw, hmk⟩ := Watch.mem_sent hmk
      rw [List.mem_singleton.mp hmk]
      exact ⟨_, i, hr.origin (hne hw), rfl⟩
  · intro watched hw
    rw [hw]
    exact exclusive_afterSend (h.exclusive watched hw) hck

/-- What skipping saves comes from the chain it skips on. -/
theorem ofOrigin_of_saveKeys {drawn : ℕ} {their base : Bytes} {i k : ℕ} {start : Primitive}
    (hb : Origin p m drawn answered base)
    (hsaved : ∀ key v, session.skipped.lookup key = some v → OfOrigin p m drawn answered v)
    {key : Bytes × CodeUnits} {v : Bytes}
    (hv : (saveKeys (symbolic Name) their ((symbolic Name).chain.chainAt base i) start k
      session.skipped).lookup key = some v) : OfOrigin p m drawn answered v := by
  obtain ⟨rk, t⟩ := key
  rcases lookup_saveKeys_cases hv with hold | ⟨-, j, -, -, rfl⟩
  · exact hsaved _ v hold
  · exact ⟨base, i + j, hb, KeyChain.messageAt_chainAt (symbolic Name).chain base i _⟩

/-- What skipping saves is saved under the peer's ratchet key, a public key. -/
theorem savedUnder_of_saveKeys {their ck : Bytes} {k : ℕ} {start : Primitive}
    (hsaved : ∀ key v, session.skipped.lookup key = some v → key.1.publicName.isSome)
    (htheir : their.publicName.isSome) {key : Bytes × CodeUnits} {v : Bytes}
    (hv : (saveKeys (symbolic Name) their ck start k session.skipped).lookup key = some v) :
    key.1.publicName.isSome := by
  obtain ⟨rk, t⟩ := key
  rcases lookup_saveKeys_cases hv with hold | ⟨rfl, -⟩
  · exact hsaved _ v hold
  · exact htheir

/-- A session that is accounted for receives under a public key. -/
theorem Accounted.their_public (h : Accounted p m watch answered used session) {rk : Bytes}
    (ht : session.theirRatchetPublic = some rk) : rk.publicName.isSome := by
  obtain ⟨root, their, i, hr, -⟩ := h.rooted
  have hname := hr.theirRatchetPublic
  rw [ht, Option.bind_some] at hname
  rw [hname]
  rfl

/-- **Skipping.** -/
theorem Accounted.skip (h : Accounted p m watch answered used session) {target : Value}
    (hs : skipMessageKeys (symbolic Name) session target = .ok session') :
    Accounted p m watch answered used session' := by
  have hexcl := fun watched hw =>
    exclusive_skipMessageKeys symbolic_roundTrips (h.exclusive watched hw) hs
  rcases skipMessageKeys_cases _ hs with ⟨-, rfl⟩ | ⟨their, ck, k, ht, hck, -, rfl⟩
  · exact h
  · obtain ⟨base, i, hb, rfl⟩ := h.recv ck hck
    constructor
    · exact h.ourPublic
    · exact h.ourPrivate
    · exact h.rooted.imp fun _ => Exists.imp fun _ => Exists.imp fun _ hr =>
        ⟨hr.1.of_sendState rfl rfl, hr.2⟩
    · intro ck' hck'
      rw [← Option.some.inj hck']
      exact ⟨base, _, hb, KeyChain.chainAt_chainAt _ _ _ _⟩
    · exact fun key v hv => ofOrigin_of_saveKeys hb h.saved hv
    · exact fun key v hv => savedUnder_of_saveKeys h.savedUnder (h.their_public ht) hv
    · exact h.pending
    · exact h.spent
    · exact hexcl

/-- **Retrieving a message key.** -/
theorem Accounted.retrieve (h : Accounted p m watch answered used session) {rk mk : Bytes} {n : Value}
    (ht : session.theirRatchetPublic = some rk)
    (hr : retrieveMessageKey (symbolic Name) session rk n = .ok (mk, session')) :
    Accounted p m watch answered (used ++ [mk]) session' := by
  have hexcl := fun watched hw =>
    exclusive_retrieve symbolic_roundTrips (h.exclusive watched hw) ht hr
  have hused : ∀ key, OfOrigin p m (m + 1) answered mk → key ∈ used ++ [mk] →
      OfOrigin p m (m + 1) answered key := by
    intro key hmk hkey
    rcases List.mem_append.mp hkey with hkey | hkey
    · exact h.spent key hkey
    · exact List.mem_singleton.mp hkey ▸ hmk
  obtain ⟨number, -, ⟨saved, hl, rfl, rfl⟩ | ⟨ck, k, -, hck, -, rfl, rfl⟩⟩ := retrieve_cases _ ht hr
  · have hold : ∀ key v, (useSaved session rk number.toText).skipped.lookup key = some v →
        session.skipped.lookup key = some v := by
      intro key v hv
      -- the key that was saved is used up, and the others stay
      by_cases hkey : key = (rk, number.toText)
      · subst hkey
        simp [useSaved] at hv
      · simpa only [useSaved, Finmap.lookup_erase_ne hkey] using hv
    constructor
    · exact h.ourPublic
    · exact h.ourPrivate
    · exact h.rooted.imp fun _ => Exists.imp fun _ => Exists.imp fun _ hr =>
        ⟨hr.1.of_sendState rfl rfl, hr.2⟩
    · exact h.recv
    · exact fun key v hv => h.saved key v (hold key v hv)
    · exact fun key v hv => h.savedUnder key v (hold key v hv)
    · exact h.pending
    · exact fun key => hused key (h.saved _ _ hl)
    · exact hexcl
  · obtain ⟨base, i, hb, rfl⟩ := h.recv ck hck
    constructor
    · exact h.ourPublic
    · exact h.ourPrivate
    · exact h.rooted.imp fun _ => Exists.imp fun _ => Exists.imp fun _ hr =>
        ⟨hr.1.of_sendState rfl rfl, hr.2⟩
    · intro ck' hck'
      -- the keys up to this one are saved, and the chain goes on behind it
      rw [← Option.some.inj hck']
      exact ⟨base, _, hb, KeyChain.chainAt_chainAt _ _ _ _⟩
    · exact fun key v hv => ofOrigin_of_saveKeys hb h.saved hv
    · exact fun key v hv => savedUnder_of_saveKeys h.savedUnder (h.their_public ht) hv
    · exact h.pending
    · exact fun key => hused key ⟨base, _, hb,
        KeyChain.messageAt_chainAt (symbolic Name).chain base i _⟩
    · exact hexcl

/-! ## New chains -/

/-- **New chains.**  A session is accounted for when its two chains are new, with
regard to the chains from before that its saved keys and the used ones belong
to. -/
theorem Accounted.of_newChains {m₀ drawn : ℕ} {answered' : List Handshake} {root : Bytes}
    {their : Name} (hm : m₀ ≤ m) (hd : drawn ≤ m) (ha : answered ⊆ answered')
    (hpub : session.ourRatchetPublic = .pub (.generated p m))
    (hpriv : session.ourRatchetPrivate = .priv (.generated p m))
    (hroot : Rooted p m session root their 0)
    (hforeign : watch = some .both → ∀ hs : Handshake,
      ((symbolic Name).kdfRootKey root (Term.agree (.generated p m) their)).chainKey ≠
        (hs.keys1 p).chainKey)
    (hrecv : ∀ ck, session.recvChainKey = some ck → Origin p m (m + 1) answered' ck ∧
      (watch ≠ none → ∀ base, Origin p m₀ drawn answered base → base ≠ ck) ∧
      ck ≠ ((symbolic Name).kdfRootKey root (Term.agree (.generated p m) their)).chainKey)
    (hsaved : ∀ key v, session.skipped.lookup key = some v → OfOrigin p m₀ drawn answered v)
    (hunder : ∀ key v, session.skipped.lookup key = some v → key.1.publicName.isSome)
    (hpending : ∀ info, session.pendingPreKeyMsg = some info → OwnParams p m info)
    (hused : ∀ mk ∈ used, OfOrigin p m₀ drawn answered mk)
    (hexcl : watch ≠ none → Exclusive (savedKeys (symbolic Name) session.skipped) used) :
    Accounted p m watch answered' used session where
  ourPublic := hpub
  ourPrivate := hpriv
  rooted := ⟨root, their, 0, hroot, hforeign⟩
  recv ck hck := ⟨ck, 0, (hrecv ck hck).1, rfl⟩
  saved key v hv := (hsaved key v hv).mono hm (by omega) ha
  savedUnder := hunder
  pending := hpending
  spent mk hmk := (hused mk hmk).mono hm (by omega) ha
  exclusive := by
    intro watched hw
    have hsome : watch ≠ none := by rw [hw]; exact nofun
    refine exclusive_newChains symbolic_freeKdf.chain (hexcl hsome) hroot.sendChainKey
      ⟨_, _, rfl⟩ ?_ ?_
    · intro _
      exact newBase_of_origin ⟨_, _, rfl⟩ hsaved hused fun base hb => hb.ne_of_generated hd
    · intro ck hck
      obtain ⟨horigin, hne, hsend⟩ := hrecv ck hck
      exact ⟨horigin.base, newBase_of_origin horigin.base hsaved hused (hne hsome), hsend⟩

/-- The chain key of a root step from a root key is no handshake's. -/
theorem step_ne_handshake {r z z' : Bytes} (hs : Handshake) :
    ((symbolic Name).kdfRootKey ((symbolic Name).kdfRootKey r z).newRootKey z').chainKey ≠
      (hs.keys1 p).chainKey :=
  fun he => kdfRootKey_ne_x3dhSecret (symbolic_freeKdf.root _ _ _ _ he).1

/-- **The DH ratchet**, with a pair generated since the last one. -/
theorem Accounted.ratchet (h : Accounted p m watch answered used session) {m' : ℕ} {rk : Bytes}
    {pn : Value} (hm : m < m') (hrk : ∀ a ∈ rk.publicName, a.Past p m')
    (hr : dhRatchetWith (symbolic Name) (dhPairOf (.generated p m')) session rk pn =
      .ok session') : Accounted p m' watch answered used session' := by
  obtain ⟨session₀, d1, d2, hskip, hd1, hd2, rfl⟩ := dhRatchetWith_cases _ hr
  have h₀ := h.skip hskip
  obtain ⟨root, their, i, hroot, -⟩ := h.rooted
  obtain ⟨-, a, -, hname, -⟩ := symbolic_dh_cases hd2
  have ha : a.Past p m' := hrk a hname
  rw [h.ourPrivate] at hd1
  obtain rfl := Option.some.inj ((symbolic_dh _ hname).symm.trans hd1)
  obtain rfl := Option.some.inj ((symbolic_dh _ hname).symm.trans hd2)
  have hgen : (Name.generated p m).Past p m' := Name.past_generated hm
  rw [hroot.rootKey]
  refine Accounted.of_newChains (Nat.le_of_lt hm) (Nat.succ_le_of_lt hm) (List.Subset.refl _)
    rfl rfl ⟨⟨_, _, .step _, hgen, ha⟩, ha, hname, rfl, rfl, rfl⟩ (fun _ hs => step_ne_handshake hs)
    ?_ h₀.saved h₀.savedUnder (fun info hi => (h₀.pending info hi).mono (Nat.le_of_lt hm)) h₀.spent ?_
  · intro ck hck
    obtain rfl := Option.some.inj hck
    refine ⟨⟨⟨_, _, _, _, _, rfl, .step _, hgen, hroot.past.mono (Nat.le_of_lt hm),
      hgen.mono (Nat.le_succ _), ha.mono (Nat.le_succ _)⟩, fun hs he => absurd he
        (step_ne_handshake hs)⟩, fun _ base hb => hb.ne_of_root, ?_⟩
    intro he
    have hz := agree_right_cancel (symbolic_freeKdf.root _ _ _ _ he).2
    exact Nat.ne_of_lt hm (Name.generated.inj hz).2
  · intro hsome
    obtain ⟨watched, hw⟩ := Option.ne_none_iff_exists'.mp hsome
    exact (h₀.exclusive watched hw).moved (savedKeys_moved _ _ _)

/-- **Receiving**: the record stays accounted for, with the pair it had or with the
new one. -/
theorem Accounted.receive (h : Accounted p m watch answered used session) {m' : ℕ} {mk : Bytes}
    {header : RatchetHeader Bytes} (hm : m < m') (hrk : ∀ a ∈ header.rk.publicName, a.Past p m')
    (hr : receiveWith (symbolic Name) (dhPairOf (.generated p m')) session header =
      .ok (mk, session')) :
    (session.theirRatchetPublic = some header.rk ∧
        Accounted p m watch answered (used ++ [mk]) session') ∨
      (session.theirRatchetPublic ≠ some header.rk ∧
        Accounted p m' watch answered (used ++ [mk]) session') := by
  obtain ⟨session₁, ht₁, hret, ⟨ht, rfl⟩ | ⟨hne, hd⟩⟩ := receiveWith_cases _ hr
  · exact .inl ⟨ht, h.retrieve ht₁ hret⟩
  · exact .inr ⟨hne, (h.ratchet hm hrk hd).retrieve ht₁ hret⟩

/-! ## New sessions -/

/-- Whatever is asked of the keys in an empty map. -/
theorem nothingSaved (I : Bytes × CodeUnits → Bytes → Prop) (key : Bytes × CodeUnits) (v : Bytes)
    (hv : (∅ : Finmap (fun _ : Bytes × CodeUnits => Bytes)).lookup key = some v) : I key v := by
  rw [Finmap.lookup_empty] at hv
  cases hv

/-- **The initiator's first record**, made with an ephemeral pair and a ratchet
pair generated since. -/
theorem accounted_initiator {i : ℕ} {bundle : PreKeyBundle Bytes} {SK dhOut : Bytes} (hi : i < m)
    (hused : ∀ mk ∈ used, OfOrigin p m m answered mk) (hnodup : watch ≠ none → used.Nodup)
    (hpast : ∀ s ∈ bundle.signedPreKey.publicKey.publicName, s.Past p m)
    (hforeign : watch = some .both → bundle.identityKey.publicName ≠ some (.identity p))
    (hx : (symbolic Name).x3dh p.identityKeyPair.privateKey
      (dhPairOf (.generated p i)).privateKeyJwk bundle.identityKey bundle.signedPreKey.publicKey
      (bundle.oneTimePreKey.map PublicPreKey.publicKey) = some SK)
    (hd : (symbolic Name).dh (dhPairOf (.generated p m)).privateKeyJwk
      bundle.signedPreKey.publicKey = some dhOut) :
    Accounted p m watch answered used
      (initiatorSession p.identityKeyPair (dhPairOf (.generated p i)) (dhPairOf (.generated p m))
        bundle ((symbolic Name).kdfRootKey SK dhOut)) := by
  obtain ⟨_, s, hgen, hs, rfl⟩ := symbolic_dh_cases hd
  obtain rfl := Term.priv.inj hgen
  obtain ⟨a, z4, ha, rfl⟩ := x3dh_cases hs hx
  have hself : (Name.identity p).Past p m := Name.past_of_not_generated nofun
  refine Accounted.of_newChains (Nat.le_refl m) (Nat.le_refl m) (List.Subset.refl _) rfl rfl
    ⟨⟨_, _, .x3dh _ _ _, hself, hpast s hs⟩, hpast s hs, hs, rfl, rfl, rfl⟩ ?_
    (fun ck hck => nomatch hck) (nothingSaved _) (nothingSaved _) (fun info hinfo => ?_) hused
    (fun hsome => exclusive_savedKeys_empty (hnodup hsome))
  · intro hw h he
    obtain ⟨-, h2, -⟩ := x3dhSecret_inj (symbolic_freeKdf.root _ _ _ _ he).1
    rcases Term.agree_inj h2 with ⟨h2, -⟩ | ⟨-, h2⟩
    · cases h2
    · exact hforeign hw (h2 ▸ ha)
  · obtain rfl := Option.some.inj hinfo
    exact ⟨rfl, i, hi, rfl⟩

/-- **The responder's first record**, for a handshake not answered before. -/
theorem accounted_responder {hs : Handshake} {rk : Bytes} (hname : rk.publicName = some hs.ratchet)
    (hused : ∀ mk ∈ used, OfOrigin p m m answered mk)
    (hnodup : watch ≠ none → used.Nodup) (hid : hs.identity.Past p m) (hrk : hs.ratchet.Past p m)
    (hnew : watch ≠ none → hs ∉ answered) :
    Accounted p m watch (answered ++ [hs]) used (hs.session p m rk) := by
  have hspk : (Name.signedPreKey p hs.spkId).Past p m := Name.past_of_not_generated nofun
  refine Accounted.of_newChains (Nat.le_refl m) (Nat.le_refl m) (List.subset_append_left _ _) rfl rfl
    ⟨⟨_, _, .step _, hspk, hrk⟩, hrk, hname, rfl, rfl, rfl⟩ (fun _ hs' => step_ne_handshake hs') ?_
    (nothingSaved _) (nothingSaved _) (fun info hinfo => nomatch hinfo) hused
    (fun hsome => exclusive_savedKeys_empty (hnodup hsome))
  intro ck hck
  obtain rfl := Option.some.inj hck
  refine ⟨⟨⟨_, _, _, _, _, rfl, .x3dh _ _ _, hspk, hid, hspk.mono (Nat.le_succ m),
    hrk.mono (Nat.le_succ m)⟩, ?_⟩, ?_, fun he => step_ne_handshake hs he.symm⟩
  · intro hs' he
    rw [← Handshake.chainKey_inj he]
    exact List.mem_append_right _ (List.mem_singleton_self hs)
  · intro hsome base hb he
    exact hnew hsome (hb.handshake hs he)

end Winkd
