import Winkd.Rosters

/-!
# How users stand to each other

What the tables say of two users is the status of the request from each to the other, and whether
each has blocked the other.  `Relations` is that and no more, and a command of a user changes it at
one place (`Relations.after`).  What a client shows of others is a set of contacts and a set of
those who wait for an answer; whether it still shows what the relations say after a command is a
matter of these sets (`asks_own_iff` to `unblocks_other_iff`).

The statements refine this: what they do to the tables is what a command does to the relations.
-/

namespace Winkd.Server

/-- The requests by their statuses, and the blocks. -/
structure Relations where
  status : Id → Id → Option RequestStatus
  blocks : Id → Id → Bool

/-- What a command of a user comes to. -/
inductive ContactEffect where
  | nothing
  /-- A request is made, or the one there is set to pending. -/
  | asks (target : Id)
  /-- The pending request of another is answered. -/
  | accepts (requester : Id)
  | rejects (requester : Id)
  | blocks (blocked : Id)
  | unblocks (blocked : Id)
  deriving DecidableEq

/-- Whom it is about, beside the user. -/
def ContactEffect.about : ContactEffect → Option Id
  | .nothing => none
  | .asks t => some t
  | .accepts f => some f
  | .rejects f => some f
  | .blocks v => some v
  | .unblocks v => some v

namespace Relations

/-- Whom a user has asked, unless they have refused, or whose request he has accepted. -/
def Related (r : Relations) (u v : Id) : Prop :=
  r.status u v = some .pending ∨ r.status u v = some .accepted ∨ r.status v u = some .accepted

/-- There is no block, in either direction. -/
def Open (r : Relations) (u v : Id) : Prop := r.blocks u v = false ∧ r.blocks v u = false

/-- Whom a user's roster lists. -/
def Lists (r : Relations) (u v : Id) : Prop := r.Related u v ∧ r.Open u v

/-- `v` waits for an answer of `u`. -/
def Asks (r : Relations) (v u : Id) : Prop := r.status v u = some .pending

def setStatus (r : Relations) (f t : Id) (status : RequestStatus) : Relations :=
  { r with status := fun a b => if a = f ∧ b = t then some status else r.status a b }

def setBlock (r : Relations) (x v : Id) (blocked : Bool) : Relations :=
  { r with blocks := fun a b => if a = x ∧ b = v then blocked else r.blocks a b }

/-- The pending requests between the two are rejected. -/
def clear (r : Relations) (x v : Id) : Relations :=
  { r with
    status := fun a b =>
      if r.status a b = some .pending ∧ ((a = x ∧ b = v) ∨ (a = v ∧ b = x)) then some .rejected
      else r.status a b }

/-- What a command of `x` makes of the relations. -/
def after (r : Relations) (x : Id) : ContactEffect → Relations
  | .nothing => r
  | .asks t => r.setStatus x t .pending
  | .accepts f => r.setStatus f x .accepted
  | .rejects f => r.setStatus f x .rejected
  | .blocks v => (r.setBlock x v true).clear x v
  | .unblocks v => r.setBlock x v false

/-- Whom a client lists, and whose requests it shows. -/
structure Shown where
  contacts : Id → Prop
  requests : Id → Prop

/-- The client of `u` shows just what the relations say. -/
structure Shows (r : Relations) (u : Id) (p : Shown) : Prop where
  contacts : ∀ v, p.contacts v ↔ r.Lists u v
  requests : ∀ v, p.requests v ↔ r.Asks v u

variable {r : Relations} {x y t : Id} {p p' : Shown}

theorem open_comm : r.Open x y ↔ r.Open y x := and_comm

/-- A client that shows the same stays right just if the relations of its user do not change. -/
theorem shows_same_iff {r' : Relations} (h : Shows r y p) (hcontacts : ∀ v, p'.contacts v ↔ p.contacts v)
    (hrequests : ∀ v, p'.requests v ↔ p.requests v) :
    Shows r' y p' ↔ (∀ v, r'.Lists y v ↔ r.Lists y v) ∧ ∀ v, r'.Asks v y ↔ r.Asks v y := by
  constructor
  · intro h'
    refine ⟨fun v => ?_, fun v => ?_⟩
    · rw [← h'.contacts, hcontacts, h.contacts]
    · rw [← h'.requests, hrequests, h.requests]
  · rintro ⟨hlists, hasks⟩
    refine ⟨fun v => ?_, fun v => ?_⟩
    · rw [hcontacts, h.contacts, hlists]
    · rw [hrequests, h.requests, hasks]

/-! ## Those whom a command is not about -/

/-- A command changes nothing for those who neither give it nor are the ones it is about. -/
theorem lists_uninvolved {effect : ContactEffect} (hx : y ≠ x) (ht : effect.about ≠ some y) (v : Id) :
    (r.after x effect).Lists y v ↔ r.Lists y v := by
  cases effect with
  | nothing => exact Iff.rfl
  | _ =>
    simp only [ContactEffect.about, ne_eq, Option.some.injEq] at ht
    simp only [after, setStatus, setBlock, clear, Lists, Related, Open]
    grind

theorem asks_uninvolved {effect : ContactEffect} (hx : y ≠ x) (ht : effect.about ≠ some y) (v : Id) :
    (r.after x effect).Asks v y ↔ r.Asks v y := by
  cases effect with
  | nothing => exact Iff.rfl
  | unblocks t => exact Iff.rfl
  | _ =>
    simp only [ContactEffect.about, ne_eq, Option.some.injEq] at ht
    simp only [after, setStatus, setBlock, clear, Asks]
    grind

theorem shows_uninvolved {effect : ContactEffect} (h : Shows r y p) (hx : y ≠ x)
    (ht : effect.about ≠ some y) (hcontacts : ∀ v, p'.contacts v ↔ p.contacts v)
    (hrequests : ∀ v, p'.requests v ↔ p.requests v) : Shows (r.after x effect) y p' :=
  (shows_same_iff h hcontacts hrequests).mpr ⟨lists_uninvolved hx ht, asks_uninvolved hx ht⟩

/-! ## Requests -/

/-- The client of the one who asks lists the other. -/
theorem asks_own_iff (h : Shows r x p) (hne : t ≠ x) (hopen : r.Open x t) (added : Prop)
    (hcontacts : ∀ v, p'.contacts v ↔ p.contacts v ∨ (v = t ∧ added))
    (hrequests : ∀ v, p'.requests v ↔ p.requests v) :
    Shows (r.after x (.asks t)) x p' ↔ added ∨ p.contacts t := by
  have hlists : (r.after x (.asks t)).Lists x t := by
    refine ⟨.inl ?_, hopen⟩
    simp [after, setStatus]
  have hother : ∀ v, v ≠ t → ((r.after x (.asks t)).Lists x v ↔ r.Lists x v) := by
    intro v hv
    simp only [after, setStatus, Lists, Related, Open]
    grind
  have hasks : ∀ v, (r.after x (.asks t)).Asks v x ↔ r.Asks v x := by
    intro v
    simp only [after, setStatus, Asks]
    grind
  constructor
  · intro h'
    have := (hcontacts t).mp ((h'.contacts t).mpr hlists)
    tauto
  · intro hadded
    refine ⟨fun v => ?_, fun v => (hrequests v).trans ((h.requests v).trans (hasks v).symm)⟩
    by_cases hv : v = t
    · subst hv
      rw [hcontacts]
      exact iff_of_true (by tauto) hlists
    · rw [hcontacts, hother v hv, h.contacts]
      exact or_iff_left fun hvt => hv hvt.1

/-- Who is asked shows the request; he still lists who asks, unless that one's accepted request was
what made them contacts. -/
theorem asks_other_iff (h : Shows r y p) (hne : y ≠ x) (hopen : r.Open x y)
    (hcontacts : ∀ v, p'.contacts v ↔ p.contacts v)
    (hrequests : ∀ v, p'.requests v ↔ p.requests v ∨ v = x) :
    Shows (r.after x (.asks y)) y p' ↔
      (r.status x y = some .accepted → r.status y x = some .pending ∨ r.status y x = some .accepted) := by
  have hasks : ∀ v, (r.after x (.asks y)).Asks v y ↔ r.Asks v y ∨ v = x := by
    intro v
    simp only [after, setStatus, Asks]
    grind
  have hlists : (∀ v, (r.after x (.asks y)).Lists y v ↔ r.Lists y v) ↔
      (r.status x y = some .accepted →
        r.status y x = some .pending ∨ r.status y x = some .accepted) := by
    simp only [after, setStatus, Lists, Related, Open] at hopen ⊢
    constructor
    · intro hall
      have := hall x
      grind
    · intro haccepted v
      grind
  rw [← hlists]
  constructor
  · exact fun h' v => by rw [← h'.contacts, hcontacts, h.contacts]
  · exact fun hall => ⟨fun v => by rw [hcontacts, h.contacts, hall],
      fun v => by rw [hrequests, h.requests, hasks]⟩

/-! ## Answers -/

/-- A request that has been accepted is shown no more. -/
theorem not_shows_accepts (h : Shows r x p) (hasks : r.Asks t x)
    (hrequests : ∀ v, p'.requests v ↔ p.requests v) : ¬ Shows (r.after x (.accepts t)) x p' := by
  intro h'
  have hstill := (h'.requests t).mp ((hrequests t).mpr ((h.requests t).mpr hasks))
  simp [after, setStatus, Asks] at hstill

theorem accepts_own_iff (h : Shows r x p) (hne : t ≠ x)
    (hcontacts : ∀ v, p'.contacts v ↔ p.contacts v ∨ v = t)
    (hrequests : ∀ v, p'.requests v ↔ p.requests v ∧ v ≠ t) :
    Shows (r.after x (.accepts t)) x p' ↔ r.Open x t := by
  have hasks : ∀ v, (r.after x (.accepts t)).Asks v x ↔ r.Asks v x ∧ v ≠ t := by
    intro v
    simp only [after, setStatus, Asks]
    grind
  have hlists : ∀ v, (r.after x (.accepts t)).Lists x v ↔ r.Lists x v ∨ (v = t ∧ r.Open x t) := by
    intro v
    simp only [after, setStatus, Lists, Related, Open]
    grind
  constructor
  · intro h'
    have := (hlists t).mp ((h'.contacts t).mp ((hcontacts t).mpr (.inr rfl)))
    rcases this with hold | ⟨-, hopen⟩
    · exact hold.2
    · exact hopen
  · intro hopen
    refine ⟨fun v => ?_, fun v => by rw [hrequests, h.requests, hasks]⟩
    rw [hcontacts, h.contacts, hlists]
    exact or_congr_right (and_iff_left hopen).symm

/-- Whose request is accepted lists the other as before. -/
theorem accepts_other (h : Shows r y p) (hne : y ≠ x) (hasks : r.Asks y x)
    (hcontacts : ∀ v, p'.contacts v ↔ p.contacts v) (hrequests : ∀ v, p'.requests v ↔ p.requests v) :
    Shows (r.after x (.accepts y)) y p' := by
  refine (shows_same_iff h hcontacts hrequests).mpr ⟨fun v => ?_, fun v => ?_⟩
  · simp only [after, setStatus, Lists, Related, Open, Asks] at hasks ⊢
    grind
  · simp only [after, setStatus, Asks]
    grind

theorem rejects_own (h : Shows r x p) (hne : t ≠ x) (hasks : r.Asks t x)
    (hcontacts : ∀ v, p'.contacts v ↔ p.contacts v)
    (hrequests : ∀ v, p'.requests v ↔ p.requests v ∧ v ≠ t) :
    Shows (r.after x (.rejects t)) x p' := by
  refine ⟨fun v => ?_, fun v => ?_⟩
  · rw [hcontacts, h.contacts]
    simp only [after, setStatus, Lists, Related, Open, Asks] at hasks ⊢
    grind
  · rw [hrequests, h.requests]
    simp only [after, setStatus, Asks]
    grind

/-- Whose request is rejected lists the other no more, but where that one's request is accepted. -/
theorem rejects_other_iff (h : Shows r y p) (hne : y ≠ x) (hasks : r.Asks y x)
    (hcontacts : ∀ v, p'.contacts v ↔ p.contacts v) (hrequests : ∀ v, p'.requests v ↔ p.requests v) :
    Shows (r.after x (.rejects y)) y p' ↔ (r.Open x y → r.status x y = some .accepted) := by
  have hrest : ∀ v, (r.after x (.rejects y)).Asks v y ↔ r.Asks v y := by
    intro v
    simp only [after, setStatus, Asks]
    grind
  rw [shows_same_iff h hcontacts hrequests, and_iff_left hrest]
  simp only [after, setStatus, Lists, Related, Open, Asks] at hasks ⊢
  constructor
  · intro hall
    have := hall x
    grind
  · intro haccepted v
    grind

/-! ## Blocks -/

/-- Whom a user blocks is gone from the client, if it lists nobody twice. -/
theorem blocks_own_iff (h : Shows r x p) (twice : Prop) (htwice : twice → p.contacts t)
    (hcontacts : ∀ v, p'.contacts v ↔ p.contacts v ∧ (v = t → twice))
    (hrequests : ∀ v, p'.requests v ↔ p.requests v ∧ v ≠ t) :
    Shows (r.after x (.blocks t)) x p' ↔ ¬ twice := by
  have hasks : ∀ v, (r.after x (.blocks t)).Asks v x ↔ r.Asks v x ∧ v ≠ t := by
    intro v
    simp only [after, setBlock, clear, Asks]
    grind
  have hlists : ∀ v, (r.after x (.blocks t)).Lists x v ↔ r.Lists x v ∧ v ≠ t := by
    intro v
    simp only [after, setBlock, clear, Lists, Related, Open]
    grind
  constructor
  · intro h' hmany
    have hstill := (h'.contacts t).mp ((hcontacts t).mpr ⟨htwice hmany, fun _ => hmany⟩)
    exact ((hlists t).mp hstill).2 rfl
  · intro hnot
    refine ⟨fun v => ?_, fun v => by rw [hrequests, h.requests, hasks]⟩
    rw [hcontacts, h.contacts, hlists]
    exact and_congr_right fun _ => ⟨fun hv heq => hnot (hv heq), fun hv heq => absurd heq hv⟩

/-- Who is blocked is not told: he must neither have listed the other nor have had his request. -/
theorem blocks_other_iff (h : Shows r y p) (hne : y ≠ x)
    (hcontacts : ∀ v, p'.contacts v ↔ p.contacts v) (hrequests : ∀ v, p'.requests v ↔ p.requests v) :
    Shows (r.after x (.blocks y)) y p' ↔ ¬ r.Lists y x ∧ ¬ r.Asks x y := by
  rw [shows_same_iff h hcontacts hrequests]
  simp only [after, setBlock, clear, Lists, Related, Open, Asks]
  constructor
  · rintro ⟨hlists, hasks⟩
    have hx := hlists x
    have hx' := hasks x
    grind
  · rintro ⟨hlists, hasks⟩
    refine ⟨fun v => ?_, fun v => ?_⟩
    · grind
    · grind

/-- Who is unblocked is put into the list, if the client had him among the blocked: that must be
where the relations list him again, and only there. -/
theorem unblocks_own_iff (h : Shows r x p) (hself : r.status x x = none) {onList : Prop}
    (hcontacts : ∀ v, p'.contacts v ↔ p.contacts v ∨ (v = t ∧ onList))
    (hrequests : ∀ v, p'.requests v ↔ p.requests v) :
    Shows (r.after x (.unblocks t)) x p' ↔
      (onList → r.Related x t ∧ r.blocks t x = false) ∧
        (r.Related x t → r.blocks x t = true → r.blocks t x = false → onList) := by
  have hrest : ∀ v, (r.after x (.unblocks t)).Asks v x ↔ r.Asks v x := fun v => Iff.rfl
  have hother : ∀ v, v ≠ t → ((r.after x (.unblocks t)).Lists x v ↔ r.Lists x v) := by
    intro v hv
    simp only [after, setBlock, Lists, Related, Open]
    grind
  have hlists : (r.after x (.unblocks t)).Lists x t ↔ r.Related x t ∧ r.blocks t x = false := by
    simp only [after, setBlock, Lists, Related, Open]
    grind
  have hbefore := h.contacts t
  have hkey : Shows (r.after x (.unblocks t)) x p' ↔
      ((p.contacts t ∨ onList) ↔ r.Related x t ∧ r.blocks t x = false) := by
    constructor
    · intro h'
      rw [← hlists, ← h'.contacts, hcontacts]
      exact or_congr_right (and_iff_right rfl).symm
    · intro hiff
      refine ⟨fun v => ?_, fun v => by rw [hrequests, h.requests, hrest]⟩
      by_cases hv : v = t
      · subst hv
        rw [hcontacts, hlists, ← hiff]
        exact or_congr_right (by simp)
      · rw [hcontacts, hother v hv, h.contacts]
        exact or_iff_left fun hvt => hv hvt.1
  rw [hkey, hbefore]
  simp only [Lists, Open]
  grind

/-- Who is unblocked is not told: he must not list the other again. -/
theorem unblocks_other_iff (h : Shows r y p) (hne : y ≠ x)
    (hcontacts : ∀ v, p'.contacts v ↔ p.contacts v) (hrequests : ∀ v, p'.requests v ↔ p.requests v) :
    Shows (r.after x (.unblocks y)) y p' ↔
      (r.blocks x y = true → r.blocks y x = false → ¬ r.Related y x) := by
  have hrest : ∀ v, (r.after x (.unblocks y)).Asks v y ↔ r.Asks v y := fun v => Iff.rfl
  rw [shows_same_iff h hcontacts hrequests, and_iff_left hrest]
  simp only [after, setBlock, Lists, Related, Open]
  constructor
  · intro hall
    have := hall x
    grind
  · intro hnot v
    grind

end Relations
end Winkd.Server
