import Winkd.Secrecy

/-!
# Break-in recovery

A leaked record holds one private key, the current ratchet key pair's.  A DH
ratchet takes two root steps: the first one uses that pair, so an eavesdropper
follows it; the second one uses a pair generated since, and its DH output is out
of reach.  The sending chain comes from the second, and so does every later one.

Nothing else in the record helps: its chains and saved keys were started with
pairs generated before the leak.
-/

namespace Winkd
open Symbolic SignalSessionManager KeyPool Transitions UnicodeText

namespace Net
variable {ivs : Party → ℕ → List UInt8} {s s' : Net Bytes Payload} {p : Party}

/-! ## Chains made after a leak -/

/-- A message key of a sending chain made with a pair generated since is not
computed from a leaked record. -/
theorem later_not_known {m m' k : ℕ} {answered : List Handshake}
    {used : List Bytes} {watch : Option Watch} {leaked session : RatchetSession Bytes}
    {root : Bytes} {their : Name}
    (hacc : Accounted p m watch answered used leaked)
    (hwire : ∀ e ∈ s.sent, e.OnWire (s.world e.sender).keysDrawn)
    (hr : Rooted p m' session root their k) (htalks : Talks p session) (hm : m < m')
    (i : ℕ) :
    ¬ Knows (exposed (some leaked) s) ((symbolic Name).chain.messageAt
      ((symbolic Name).kdfRootKey root (Term.agree (.generated p m') their)).chainKey i) := by
  intro hknows
  have hkinds := fun {t} => exposed_kinds (t := t) hacc hwire
  have hcut := cut_exposed hacc hwire
  obtain ⟨root₀, their₀, k₀, hr₀, -⟩ := hacc.rooted
  rcases hcut.knows_messageAt hknows with h | ⟨j, -, h⟩ | ⟨-, h⟩
  · -- What is saved belongs to a chain from before the leak.
    obtain ⟨key, hkey⟩ := (hkinds h).messageAt
    obtain ⟨base, j, hb, he⟩ := hacc.saved key _ hkey
    exact hb.ne_of_generated (Nat.succ_le_of_lt hm)
      (symbolic_freeKdf.chain.messageAt_inj hb.base ⟨_, _, rfl⟩ he.symm).1
  · -- So do the two chains of the record.
    rcases (hkinds h).chainAt with hck | hck
    · obtain ⟨hbase, -⟩ := symbolic_freeKdf.chain.chainAt_inj ⟨_, _, rfl⟩ ⟨_, _, rfl⟩
        (Option.some.inj (hr₀.sendChainKey.symm.trans hck))
      have hgen : (Name.generated p m).Past p m' := Name.past_generated hm
      exact agree_ne_of_past hgen (hr₀.past.mono (Nat.le_of_lt hm))
        (symbolic_freeKdf.root _ _ _ _ hbase).2
    · obtain ⟨base, k, hb, he⟩ := hacc.recv _ hck
      exact hb.ne_of_generated (Nat.succ_le_of_lt hm)
        (symbolic_freeKdf.chain.chainAt_inj hb.base ⟨_, _, rfl⟩ he.symm).1
  · -- The DH output takes a private key that did not leak.
    rcases hcut.knows_agree h with h | h
    · exact Nat.ne_of_gt hm (Name.generated.inj (hkinds h).priv).2
    · have howner := htalks their hr.theirRatchetPublic
      rw [(hkinds h).priv] at howner
      exact Party.ne_other p (Option.some.inj howner)

/-! ## The ratchet key pair only gets newer -/

/-- The party's session has a ratchet key pair generated after the first `d`. -/
def SinceDrawn (p : Party) (d : ℕ) (s : Net Bytes Payload) : Prop :=
  d ≤ (s.world p).keysDrawn ∧ ∀ session, s.session p = some session →
    ∃ m, d ≤ m ∧ session.ourRatchetPublic = .pub (.generated p m)

/-- An event of another party's leaves it. -/
theorem SinceDrawn.next {d : ℕ} (h : SinceDrawn p d s) (hc : Conducted none s) {ev : Event Bytes}
    (hev : Honest ev) : SinceDrawn p d (s.next (symbolic Name) (entropy ivs) ev) := by
  cases hcall : s.callOf ev with
  | none =>
    rw [next_of_no_call ivs hcall]
    exact h
  | some r =>
    obtain ⟨q, call⟩ := r
    refine ⟨Nat.le_trans h.1 (drawn_le hcall p), ?_⟩
    intro new hs
    by_cases hp : p = q
    · subst hp
      have ha : Acted ivs s (s.next (symbolic Name) (entropy ivs) ev) p :=
        acted hev hcall (hc.owned p) hc.onWire
      cases ha with
      | idle hsession _ => exact h.2 new (hsession ▸ hs)
      | initiated _ _ _ hsession _ _ =>
        obtain rfl := Option.some.inj (hsession.symm.trans hs)
        exact ⟨_, Nat.le_succ_of_le h.1, rfl⟩
      | sent old _ _ hl _ hsession _ =>
        obtain rfl := Option.some.inj (hsession.symm.trans hs)
        exact h.2 old hl
      | received _ _ _ _ hsession _ _ hours _ =>
        obtain rfl := Option.some.inj (hsession.symm.trans hs)
        rcases hours with ⟨old, hl, -, hour⟩ | hour
        · obtain ⟨m, hm, hm'⟩ := h.2 old hl
          exact ⟨m, hm, hour.trans hm'⟩
        · exact ⟨_, h.1, hour⟩
    · exact h.2 new ((session_of_ne hcall hp).2 ▸ hs)

/-- A delivery completes a DH ratchet step of `p`'s: the stored session receives
under another ratchet key than before. -/
def CompletesRatchet (ivs : Party → ℕ → List UInt8) (p : Party) (s : Net Bytes Payload) (i : ℕ) :
    Prop :=
  ∃ before after, s.session p = some before ∧
    (s.next (symbolic Name) (entropy ivs) (.deliver i)).session p = some after ∧
    after.theirRatchetPublic ≠ before.theirRatchetPublic

/-- After a DH ratchet step the ratchet key pair is one generated in it. -/
theorem sinceDrawn_of_ratchet (hc : Conducted none s) {i : ℕ} (hr : CompletesRatchet ivs p s i) :
    SinceDrawn p (s.world p).keysDrawn
      (s.next (symbolic Name) (entropy ivs) (.deliver i)) := by
  obtain ⟨before, after, hb, ha, hne⟩ := hr
  cases hcall : s.callOf (.deliver i) with
  | none =>
    rw [next_of_no_call ivs hcall, hb] at ha
    exact absurd (congrArg RatchetSession.theirRatchetPublic (Option.some.inj ha).symm) hne
  | some r =>
    obtain ⟨q, call⟩ := r
    refine ⟨drawn_le hcall p, ?_⟩
    intro new hs
    obtain rfl := Option.some.inj (ha.symm.trans hs)
    by_cases hp : p = q
    · subst hp
      have hacted : Acted ivs s (s.next (symbolic Name) (entropy ivs) (.deliver i)) p :=
        acted trivial hcall (hc.owned p) hc.onWire
      cases hacted with
      | idle hsession _ =>
        rw [hsession, hb] at ha
        exact absurd (congrArg RatchetSession.theirRatchetPublic (Option.some.inj ha).symm) hne
      | initiated _ _ _ hsession _ _ =>
        obtain rfl := Option.some.inj (hsession.symm.trans ha)
        exact ⟨_, Nat.le_succ _, rfl⟩
      | sent old _ _ hl _ hsession _ =>
        obtain rfl := Option.some.inj (hsession.symm.trans ha)
        obtain rfl := Option.some.inj (hb.symm.trans hl)
        exact absurd rfl hne
      | received _ _ _ _ hsession htheir _ hours _ =>
        obtain rfl := Option.some.inj (hsession.symm.trans ha)
        rcases hours with ⟨old, hl, hsame, -⟩ | hour
        · obtain rfl := Option.some.inj (hb.symm.trans hl)
          exact absurd (htheir.trans hsame.symm) hne
        · exact ⟨_, Nat.le_refl _, hour⟩
    · rw [(session_of_ne hcall hp).2, hb] at ha
      exact absurd (congrArg RatchetSession.theirRatchetPublic (Option.some.inj ha).symm) hne

/-- The events of a run of two honest managers. -/
def HonestRun (ivs : Party → ℕ → List UInt8) : Net Bytes Payload → Net Bytes Payload → Prop :=
  Reaches (next (symbolic Name) (entropy ivs)) (fun _ ev => Honest ev)

theorem HonestRun.conducted (h : Conducted none s) (hrun : HonestRun ivs s s') :
    Conducted none s' :=
  hrun.invariant h fun _ _ h hev => h.next hev fun hn => absurd rfl hn

theorem HonestRun.sinceDrawn {d : ℕ} (hc : Conducted none s) (h : SinceDrawn p d s)
    (hrun : HonestRun ivs s s') : SinceDrawn p d s' := by
  have hboth : Conducted none s' ∧ SinceDrawn p d s' :=
    hrun.invariant (I := fun s => Conducted none s ∧ SinceDrawn p d s) ⟨hc, h⟩
      fun _ _ h hev => ⟨h.1.next hev fun hn => absurd rfl hn, h.2.next h.1 hev⟩
  exact hboth.2

theorem HonestRun.drawn_le (hrun : HonestRun ivs s s') :
    (s.world p).keysDrawn ≤ (s'.world p).keysDrawn := by
  refine hrun.invariant (I := fun s' => (s.world p).keysDrawn ≤ (s'.world p).keysDrawn)
    (Nat.le_refl _) ?_
  intro s' ev h _
  cases hcall : s'.callOf ev with
  | none => rw [next_of_no_call ivs hcall]; exact h
  | some r => exact Nat.le_trans h (Net.drawn_le hcall p)

/-- **Break-in recovery.**  A party's record leaks in some state of an honest
conversation.  Once the party completes a DH ratchet step after that, no message
key of the sending chain it makes in that step, or of one it makes later, can be
derived from the leaked record, all public keys and all envelopes, however long
the conversation goes on. -/
theorem break_in_recovery {w : Party → World Bytes} (hw : Fresh w) {s₀ s₁ s₂ s₃ : Net Bytes Payload}
    (hrun₀ : HonestRun ivs (start w) s₀) {leaked : RatchetSession Bytes}
    (hleak : s₀.session p = some leaked) (hrun₁ : HonestRun ivs s₀ s₁) {i : ℕ}
    (hratchet : CompletesRatchet ivs p s₁ i)
    (hrun₂ : HonestRun ivs (s₁.next (symbolic Name) (entropy ivs) (.deliver i)) s₂)
    (hrun₃ : HonestRun ivs s₂ s₃) {session : RatchetSession Bytes} {ck : Bytes}
    (hs : s₂.session p = some session) (hck : session.sendChainKey = some ck) (j : ℕ) :
    ¬ Derives (exposed (some leaked) s₃) ((symbolic Name).chain.messageAt ck j) := by
  have hc₀ : Conducted none s₀ := hrun₀.conducted (conducted_start hw)
  have hc₁ : Conducted none s₁ := hrun₁.conducted hc₀
  have hc₁' : Conducted none (s₁.next (symbolic Name) (entropy ivs) (.deliver i)) :=
    hc₁.next trivial fun hn => absurd rfl hn
  have hc₂ : Conducted none s₂ := hrun₂.conducted hc₁'
  have hc₃ : Conducted none s₃ := hrun₃.conducted hc₂
  obtain ⟨m, hm, _, _, -, hacc⟩ := hc₀.accounted hleak
  obtain ⟨m', -, _, _, -, hacc'⟩ := hc₂.accounted hs
  -- The current pair was generated in the DH ratchet step, or later.
  obtain ⟨-, hsince⟩ := hrun₂.sinceDrawn hc₁' (sinceDrawn_of_ratchet hc₁ hratchet)
  obtain ⟨m'', hm'', hour⟩ := hsince session hs
  obtain ⟨-, rfl⟩ := Name.generated.inj (Term.pub.inj (hacc'.ourPublic.symm.trans hour))
  have hlt : m < m' := Nat.lt_of_lt_of_le hm (Nat.le_trans hrun₁.drawn_le hm'')
  obtain ⟨root, their, k, hr, -⟩ := hacc'.rooted
  obtain rfl := Option.some.inj (hck.symm.trans hr.sendChainKey)
  rw [KeyChain.messageAt_chainAt]
  intro hd
  exact later_not_known hacc hc₃.onWire hr (hc₂.talks p session hs) hlt (k + j)
    (hd.knows (cut_exposed hacc hc₃.onWire).cat (cut_exposed hacc hc₃.onWire).respelt)

/-! ## A leak before an answer -/

/-- One step of a conversation, with the parties' own initialisation vectors. -/
def talk (s : Net Bytes Payload) (ev : Event Bytes) : Net Bytes Payload :=
  s.next (symbolic Name) (entropy fun _ i => [i.toUInt8]) ev

/-- Alice has written to Bob, and Bob's answer is under way. -/
def answerUnderWay : Net Bytes Payload :=
  [Event.initSessionFromBundle .alice (Party.bob.bundle 1 none), .encrypt .alice [104], .deliver 0,
    .encrypt .bob [105]].foldl talk (start (newParties []))

/-- Alice receives it, and writes again. -/
def recovered : Net Bytes Payload := talk (talk answerUnderWay (.deliver 1)) (.encrypt .alice [106])

/-- Alice's record leaks before she receives the answer; the first key that is left
of the chain she makes when she does stays secret. -/
theorem break_in_recovery_answer :
    ¬ Derives (exposed (some ((answerUnderWay.session .alice).get (by decide))) recovered)
      ((symbolic Name).chain.messageAt
        (((recovered.session .alice).get (by decide)).sendChainKey.get (by decide)) 0) := by
  have hrun₀ : Admits talk (fun _ ev => Honest ev) (start (newParties []))
      [.initSessionFromBundle .alice (Party.bob.bundle 1 none), .encrypt .alice [104], .deliver 0,
        .encrypt .bob [105]] := by decide
  have hrun₂ : Admits talk (fun _ ev => Honest ev) (talk answerUnderWay (.deliver 1))
      [.encrypt .alice [106]] := by decide
  have hratchet : CompletesRatchet (fun _ i => [i.toUInt8]) .alice answerUnderWay 1 :=
    ⟨(answerUnderWay.session .alice).get (by decide),
      ((talk answerUnderWay (.deliver 1)).session .alice).get (by decide),
      (Option.some_get _).symm, (Option.some_get _).symm, by decide⟩
  exact break_in_recovery (newParties_fresh []) hrun₀.reaches (Option.some_get _).symm
    (Reaches.refl _) hratchet hrun₂.reaches (Reaches.refl _) (Option.some_get _).symm
    (Option.some_get _).symm 0

end Net
end Winkd
