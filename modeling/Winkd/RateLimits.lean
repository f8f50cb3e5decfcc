import Winkd.RateLimiter
import Mathlib.Data.List.Basic
import Mathlib.Data.List.Induction
import Mathlib.Tactic.SplitIfs

/-!
# What the rate limiter guarantees

A window is opened by a call and not by a clock, so two of them can lie next to each other in any
interval: an address is permitted at most twice the limit there.  Whoever keeps to the limit in every
interval is never refused, and whoever is refused loses nothing by having asked
(`rate_limiter_guarantees`).
-/

namespace Winkd.Server.RateLimiter

/-- A call of `check`. -/
structure Call where
  ip : IpAddr
  now : ℕ
  deriving DecidableEq

/-- A limiter that nobody has called yet. -/
def idle (limit window : ℕ) : RateLimiter := ⟨fun _ => none, limit, window⟩

example (limit windowSecs : ℕ) : new limit windowSecs = idle limit (windowSecs * 1000000) := rfl

/-- The limiter after some calls. -/
def after (l : RateLimiter) (calls : List Call) : RateLimiter :=
  calls.foldl (fun l c => (l.check c.now c.ip).2) l

/-- The calls, each with its answer. -/
def decided (l : RateLimiter) : List Call → List (Call × Bool)
  | [] => []
  | c :: calls => (c, (l.check c.now c.ip).1) :: (l.check c.now c.ip).2.decided calls

/-- The times of the calls of one address. -/
def timesOf (ip : IpAddr) (calls : List Call) : List ℕ := (calls.filter fun c => c.ip = ip).map Call.now

/-- The calls of one address with their answers. -/
def answersTo (l : RateLimiter) (ip : IpAddr) (calls : List Call) : List (ℕ × Bool) :=
  ((l.decided calls).filter fun d => d.1.ip = ip).map fun d => (d.1.now, d.2)

/-- What lies in the half-open interval of length `window` from `a`. -/
def within (window a t : ℕ) : Bool := a ≤ t && t < a + window

/-- What the limiter promises to one address. -/
structure Guarantees (limit window : ℕ) (calls : List Call) (ip : IpAddr) : Prop where
  /-- In no interval twice the limit is exceeded. -/
  burst : ∀ a, (((idle limit window).answersTo ip calls).filter fun d => d.2 && within window a d.1).length
    ≤ 2 * limit
  /-- Who keeps to the limit is not refused. -/
  moderate : (∀ a, ((timesOf ip calls).filter (within window a)).length ≤ limit) →
    ∀ d ∈ (idle limit window).answersTo ip calls, d.2 = true
  /-- A call that is refused changes nothing. -/
  refused : ∀ before c rest, calls = before ++ c :: rest →
    (((idle limit window).after before).check c.now c.ip).1 = false →
      (((idle limit window).after before).check c.now c.ip).2 = (idle limit window).after before
  /-- A window is opened by a call, and once it is over a call is permitted. -/
  reopened : ∀ before c rest entry, calls = before ++ c :: rest →
    ((idle limit window).after before).entries c.ip = some entry →
      (∃ d ∈ before, d.ip = c.ip ∧ d.now = entry.windowStart) ∧
        (entry.windowStart + window ≤ c.now →
          (((idle limit window).after before).check c.now c.ip).1 = true)
  /-- The calls of others do not matter. -/
  own : (idle limit window).answersTo ip calls =
    (idle limit window).answersTo ip (calls.filter fun c => c.ip = ip)

/-! ## One address -/

variable {limit window : ℕ}

/-- The window that a call falls into. -/
def current (window : ℕ) (entry : Option Entry) (now : ℕ) : Entry :=
  let entry := entry.getD ⟨0, now⟩
  if now - entry.windowStart ≥ window then ⟨0, now⟩ else entry

/-- `check`, on the entry of the address. -/
def checkEntry (limit window : ℕ) (entry : Option Entry) (now : ℕ) : Bool × Entry :=
  let entry := current window entry now
  if entry.count ≥ limit then (false, entry) else (true, { entry with count := entry.count + 1 })

/-- The limiter with the entry of one address put in its place. -/
def setEntry (l : RateLimiter) (ip : IpAddr) (entry : Entry) : RateLimiter :=
  { l with entries := Function.update l.entries ip (some entry) }

@[simp] theorem setEntry_self (l : RateLimiter) (ip : IpAddr) (entry : Entry) :
    (l.setEntry ip entry).entries ip = some entry := Function.update_self ..

theorem setEntry_of_ne (l : RateLimiter) {ip ip' : IpAddr} (h : ip' ≠ ip) (entry : Entry) :
    (l.setEntry ip entry).entries ip' = l.entries ip' := Function.update_of_ne h ..

theorem check_eq (l : RateLimiter) (now : ℕ) (ip : IpAddr) : l.check now ip =
    ((checkEntry l.limit l.window (l.entries ip) now).1,
      l.setEntry ip (checkEntry l.limit l.window (l.entries ip) now).2) := by
  show (if (current l.window (l.entries ip) now).count ≥ l.limit then _ else _) = _
  unfold checkEntry setEntry
  dsimp only
  split <;> rfl

theorem current_none (window now : ℕ) : current window none now = ⟨0, now⟩ := by
  unfold current
  exact ite_self _

/-- The first call opens a window, -/
theorem checkEntry_none (hlimit : 1 ≤ limit) (now : ℕ) :
    checkEntry limit window none now = (true, ⟨1, now⟩) := by
  rw [checkEntry, current_none]
  exact if_neg (Nat.not_le.mpr hlimit)

/-- and so does a call after the window. -/
theorem checkEntry_over (hlimit : 1 ≤ limit) {e : Entry} {now : ℕ} (h : e.windowStart + window ≤ now) :
    checkEntry limit window (some e) now = (true, ⟨1, now⟩) := by
  have hcurrent : current window (some e) now = ⟨0, now⟩ := if_pos (Nat.le_sub_of_add_le' h)
  rw [checkEntry, hcurrent]
  exact if_neg (Nat.not_le.mpr hlimit)

theorem current_inside {e : Entry} {now : ℕ} (hwindow : 0 < window) (h : now < e.windowStart + window) :
    current window (some e) now = e := by
  refine if_neg ?_
  show ¬ now - e.windowStart ≥ window
  omega

/-- A call in the window is counted, -/
theorem checkEntry_counted (hwindow : 0 < window) {e : Entry} {now : ℕ}
    (h : now < e.windowStart + window) (hcount : e.count < limit) :
    checkEntry limit window (some e) now = (true, ⟨e.count + 1, e.windowStart⟩) := by
  rw [checkEntry, current_inside hwindow h]
  exact if_neg (Nat.not_le.mpr hcount)

/-- or refused, and then nothing changes. -/
theorem checkEntry_refused (hwindow : 0 < window) {e : Entry} {now : ℕ}
    (h : now < e.windowStart + window) (hcount : limit ≤ e.count) :
    checkEntry limit window (some e) now = (false, e) := by
  rw [checkEntry, current_inside hwindow h]
  exact if_pos hcount

/-- The calls of one address, each with its answer. -/
def decidedAt (limit window : ℕ) : Option Entry → List ℕ → List (ℕ × Bool)
  | _, [] => []
  | entry, t :: times => (t, (checkEntry limit window entry t).1) ::
      decidedAt limit window (some (checkEntry limit window entry t).2) times

theorem mem_of_mem_decidedAt {entry : Option Entry} {times : List ℕ} {d : ℕ × Bool}
    (h : d ∈ decidedAt limit window entry times) : d.1 ∈ times := by
  induction times generalizing entry with
  | nil => exact absurd h List.not_mem_nil
  | cons t times ih =>
    rcases List.mem_cons.mp h with rfl | h
    · exact List.mem_cons_self
    · exact List.mem_cons_of_mem t (ih h)

/-- **An address is answered from its own entry.** -/
theorem answersTo_eq (l : RateLimiter) (ip : IpAddr) (calls : List Call) : l.answersTo ip calls =
    decidedAt l.limit l.window (l.entries ip) (timesOf ip calls) := by
  induction calls generalizing l with
  | nil => rfl
  | cons c calls ih =>
    have hrest : (l.setEntry c.ip (checkEntry l.limit l.window (l.entries c.ip) c.now).2).answersTo ip calls =
        decidedAt l.limit l.window ((l.setEntry c.ip
          (checkEntry l.limit l.window (l.entries c.ip) c.now).2).entries ip) (timesOf ip calls) := ih _
    rw [answersTo, decided, check_eq, timesOf]
    by_cases hip : c.ip = ip
    · subst hip
      rw [setEntry_self] at hrest
      simp only [List.filter_cons, decide_true, if_true, List.map_cons, decidedAt]
      exact congrArg _ hrest
    · rw [setEntry_of_ne l (Ne.symm hip)] at hrest
      rw [List.filter_cons_of_neg (by simpa using hip), List.filter_cons_of_neg (by simpa using hip)]
      exact hrest

/-! ## Bursts -/

/-- How many calls may still be permitted in the interval from `a`, when the window has counted `count`
and began at `start`. -/
def room (limit window a count start : ℕ) : ℕ :=
  if a ≤ start then limit - count
  else if a < start + window then 2 * limit - count
  else 2 * limit

theorem within_eq_true_iff (window a t : ℕ) : within window a t = true ↔ a ≤ t ∧ t < a + window := by
  rw [within, Bool.and_eq_true, decide_eq_true_eq, decide_eq_true_eq]

/-- A new window that begins in the interval, or before it, leaves at least as much room. -/
theorem room_over {a t count start : ℕ} (hlimit : 1 ≤ limit) (ha : start < a) (hcount : count ≤ limit)
    (hover : start + window ≤ t) :
    (within window a t).toNat + room limit window a 1 t ≤ room limit window a count start := by
  have hin := within_eq_true_iff window a t
  unfold room
  rw [if_neg (Nat.not_le.mpr ha)]
  cases h : within window a t with
  | true =>
    obtain ⟨hle, hlt⟩ := hin.mp h
    rw [if_pos hle, Bool.toNat_true]
    split_ifs <;> omega
  | false =>
    rw [Bool.toNat_false]
    split_ifs <;> omega

/-- A call that is counted takes its place. -/
theorem room_counted {a t count start : ℕ} (hcount : count < limit)
    (hinside : t < start + window) :
    (within window a t).toNat + room limit window a (count + 1) start ≤
      room limit window a count start := by
  have hin := within_eq_true_iff window a t
  unfold room
  cases h : within window a t with
  | true =>
    obtain ⟨hle, hlt⟩ := hin.mp h
    rw [Bool.toNat_true]
    split_ifs <;> omega
  | false =>
    rw [Bool.toNat_false]
    split_ifs <;> omega

theorem length_filter_permitted (a t : ℕ) (ds : List (ℕ × Bool)) :
    (((t, true) :: ds).filter fun d => d.2 && within window a d.1).length =
      (within window a t).toNat + (ds.filter fun d => d.2 && within window a d.1).length := by
  rw [List.filter_cons]
  cases within window a t with
  | true => exact Nat.add_comm _ 1
  | false => exact (Nat.zero_add _).symm

/-- **No more calls are permitted than there is room for.** -/
theorem permitted_le (hlimit : 1 ≤ limit) (hwindow : 0 < window) (a : ℕ) {count start : ℕ}
    {times : List ℕ} (hcount : count ≤ limit) (hsorted : times.Pairwise (· ≤ ·))
    (hstart : ∀ t ∈ times, start ≤ t) :
    ((decidedAt limit window (some ⟨count, start⟩) times).filter fun d => d.2 && within window a d.1).length
      ≤ room limit window a count start := by
  induction times generalizing count start with
  | nil => exact Nat.zero_le _
  | cons t times ih =>
    obtain ⟨hle, hsorted⟩ := List.pairwise_cons.mp hsorted
    have hlater : ∀ t' ∈ times, start ≤ t' := fun t' ht' => hstart t' (List.mem_cons_of_mem t ht')
    rw [decidedAt]
    by_cases hover : start + window ≤ t
    · rw [checkEntry_over hlimit hover, length_filter_permitted]
      by_cases ha : a ≤ start
      · -- the interval is over
        have hnone : (decidedAt limit window (some ⟨1, t⟩) times).filter
            (fun d => d.2 && within window a d.1) = [] := by
          refine List.filter_eq_nil_iff.mpr fun d hd => ?_
          have hlate := hle d.1 (mem_of_mem_decidedAt hd)
          rw [Bool.and_eq_true, within_eq_true_iff]
          omega
        have hout : within window a t = false := by
          rw [← Bool.not_eq_true, within_eq_true_iff]
          omega
        rw [hnone, hout]
        exact Nat.zero_le _
      · have hroom := room_over hlimit (Nat.lt_of_not_le ha) hcount hover
        exact Nat.le_trans (Nat.add_le_add_left (ih hlimit hsorted hle) _) hroom
    · have hinside : t < start + window := Nat.lt_of_not_le hover
      by_cases hfull : limit ≤ count
      · rw [checkEntry_refused hwindow hinside hfull]
        exact ih hcount hsorted hlater
      · have hfree := Nat.lt_of_not_le hfull
        rw [checkEntry_counted hwindow hinside hfree, length_filter_permitted]
        have hroom := room_counted (a := a) hfree hinside
        exact Nat.le_trans (Nat.add_le_add_left (ih hfree hsorted hlater) _) hroom

/-! ## Those who keep to the limit -/

/-- The calls of a window are among those made. -/
theorem permitted_of_moderate (hlimit : 1 ≤ limit) (hwindow : 0 < window) {count start : ℕ}
    {past times : List ℕ} (hpast : ∀ t ∈ past, ∀ t' ∈ times, t ≤ t') (hsorted : times.Pairwise (· ≤ ·))
    (hstart : ∀ t ∈ times, start ≤ t) (hcount : count ≤ past.countP (start ≤ ·))
    (hmoderate : ∀ a, (past ++ times).countP (within window a) ≤ limit) :
    ∀ d ∈ decidedAt limit window (some ⟨count, start⟩) times, d.2 = true := by
  induction times generalizing past count start with
  | nil => exact fun d hd => absurd hd List.not_mem_nil
  | cons t times ih =>
    obtain ⟨hle, hsorted⟩ := List.pairwise_cons.mp hsorted
    have ht := hstart t List.mem_cons_self
    have hlater : ∀ t' ∈ times, start ≤ t' := fun t' ht' => hstart t' (List.mem_cons_of_mem t ht')
    have hpast' : ∀ t₁ ∈ past ++ [t], ∀ t₂ ∈ times, t₁ ≤ t₂ := by
      intro t₁ h₁ t₂ h₂
      rcases List.mem_append.mp h₁ with h₁ | h₁
      · exact hpast t₁ h₁ t₂ (List.mem_cons_of_mem t h₂)
      · rw [List.mem_singleton.mp h₁]
        exact hle t₂ h₂
    have hmoderate' : ∀ a, ((past ++ [t]) ++ times).countP (within window a) ≤ limit := by
      intro a
      rw [List.append_assoc]
      exact hmoderate a
    rw [decidedAt, List.forall_mem_cons]
    by_cases hover : start + window ≤ t
    · rw [checkEntry_over hlimit hover]
      refine ⟨rfl, ih hpast' hsorted hle ?_ hmoderate'⟩
      rw [List.countP_append, List.countP_singleton, if_pos (decide_eq_true (Nat.le_refl t))]
      exact Nat.le_add_left 1 _
    · have hinside : t < start + window := Nat.lt_of_not_le hover
      by_cases hfull : limit ≤ count
      · -- this call would be one too many in the interval from the start of the window
        have hwithin : past.countP (start ≤ ·) ≤ past.countP (within window start) := by
          refine List.countP_mono_left fun t₁ h₁ hge => ?_
          have hlt := hpast t₁ h₁ t List.mem_cons_self
          rw [within_eq_true_iff]
          exact ⟨of_decide_eq_true hge, by omega⟩
        have hmany := hmoderate start
        rw [List.countP_append, List.countP_cons,
          if_pos ((within_eq_true_iff ..).mpr ⟨ht, hinside⟩)] at hmany
        omega
      · rw [checkEntry_counted hwindow hinside (Nat.lt_of_not_le hfull)]
        refine ⟨rfl, ih hpast' hsorted hlater ?_ hmoderate'⟩
        rw [List.countP_append, List.countP_singleton, if_pos (decide_eq_true ht)]
        exact Nat.succ_le_succ hcount

/-! ## Many addresses -/

theorem timesOf_sorted {calls : List Call} (h : calls.Pairwise fun c c' => c.now ≤ c'.now) (ip : IpAddr) :
    (timesOf ip calls).Pairwise (· ≤ ·) := List.pairwise_map.mpr (h.sublist List.filter_sublist)

theorem after_append (l : RateLimiter) (calls : List Call) (c : Call) :
    l.after (calls ++ [c]) = ((l.after calls).check c.now c.ip).2 := List.foldl_append

theorem after_limits (l : RateLimiter) (calls : List Call) :
    (l.after calls).limit = l.limit ∧ (l.after calls).window = l.window := by
  induction calls using List.reverseRecOn with
  | nil => exact ⟨rfl, rfl⟩
  | append_singleton calls c ih =>
    rw [after_append, check_eq]
    exact ih

/-- A window was opened by a call of its address. -/
theorem opened_by_call (limit window : ℕ) (calls : List Call) {ip : IpAddr} {entry : Entry}
    (h : ((idle limit window).after calls).entries ip = some entry) :
    ∃ c ∈ calls, c.ip = ip ∧ c.now = entry.windowStart := by
  induction calls using List.reverseRecOn generalizing entry with
  | nil => cases h
  | append_singleton calls c ih =>
    have hearlier : ∀ {e : Entry}, ((idle limit window).after calls).entries ip = some e →
        ∃ d ∈ calls ++ [c], d.ip = ip ∧ d.now = e.windowStart := by
      intro e he
      obtain ⟨d, hd, hmade⟩ := ih he
      exact ⟨d, List.mem_append_left _ hd, hmade⟩
    rw [after_append, check_eq] at h
    by_cases hip : ip = c.ip
    · subst hip
      obtain rfl := Option.some.inj ((setEntry_self ..).symm.trans h)
      clear h
      generalize (idle limit window).after calls = l at *
      -- it is the window of before, or begins now
      have hstart : (current l.window (l.entries c.ip) c.now).windowStart = c.now ∨
          ∃ e, l.entries c.ip = some e ∧
            e.windowStart = (current l.window (l.entries c.ip) c.now).windowStart := by
        cases hentry : l.entries c.ip with
        | none => exact .inl (congrArg Entry.windowStart (current_none l.window c.now))
        | some e =>
          by_cases hover : c.now - e.windowStart ≥ l.window
          · exact .inl (congrArg Entry.windowStart (if_pos hover))
          · exact .inr ⟨e, rfl, (congrArg Entry.windowStart (if_neg hover)).symm⟩
      have hkept : (checkEntry l.limit l.window (l.entries c.ip) c.now).2.windowStart =
          (current l.window (l.entries c.ip) c.now).windowStart := by
        unfold checkEntry
        dsimp only
        split <;> rfl
      rw [hkept]
      rcases hstart with hnow | ⟨e, he, hsame⟩
      · exact ⟨c, List.mem_append_right _ (List.mem_singleton_self c), rfl, hnow.symm⟩
      · exact hsame ▸ hearlier he
    · exact hearlier ((setEntry_of_ne _ hip _).symm.trans h)

/-- A call that is refused leaves the limiter as it was. -/
theorem check_refused {l : RateLimiter} (hlimit : 1 ≤ l.limit) (hwindow : 0 < l.window) {now : ℕ}
    {ip : IpAddr} (h : (l.check now ip).1 = false) : (l.check now ip).2 = l := by
  rw [check_eq] at h ⊢
  cases hentry : l.entries ip with
  | none =>
    rw [hentry, checkEntry_none hlimit] at h
    cases h
  | some e =>
    rw [hentry] at h
    by_cases hover : e.windowStart + l.window ≤ now
    · rw [checkEntry_over hlimit hover] at h
      cases h
    · have hinside := Nat.lt_of_not_le hover
      by_cases hfull : l.limit ≤ e.count
      · rw [checkEntry_refused hwindow hinside hfull, setEntry, ← hentry, Function.update_eq_self]
      · rw [checkEntry_counted hwindow hinside (Nat.lt_of_not_le hfull)] at h
        cases h

theorem filter_timesOf (ip : IpAddr) (calls : List Call) :
    timesOf ip (calls.filter fun c => c.ip = ip) = timesOf ip calls := by
  rw [timesOf, List.filter_filter, timesOf]
  simp only [Bool.and_self]

/-- **What the limiter guarantees**, to every address, in every run. -/
theorem rate_limiter_guarantees {limit window : ℕ} (hlimit : 1 ≤ limit) (hwindow : 0 < window)
    {calls : List Call} (hsorted : calls.Pairwise fun c c' => c.now ≤ c'.now) (ip : IpAddr) :
    Guarantees limit window calls ip where
  burst a := by
    rw [answersTo_eq]
    have htimes := timesOf_sorted hsorted ip
    show ((decidedAt limit window none (timesOf ip calls)).filter _).length ≤ _
    cases heq : timesOf ip calls with
    | nil => exact Nat.zero_le _
    | cons t times =>
      rw [heq] at htimes
      obtain ⟨hle, hrest⟩ := List.pairwise_cons.mp htimes
      -- the first call opens a window; at most the end of one and the start of the next are in reach
      have hroom : (within window a t).toNat + room limit window a 1 t ≤ 2 * limit := by
        have hin := within_eq_true_iff window a t
        unfold room
        cases h : within window a t with
        | true =>
          obtain ⟨hle, hlt⟩ := hin.mp h
          rw [if_pos hle, Bool.toNat_true]
          omega
        | false =>
          rw [Bool.toNat_false]
          split_ifs <;> omega
      rw [decidedAt, checkEntry_none hlimit, length_filter_permitted]
      exact Nat.le_trans (Nat.add_le_add_left (permitted_le hlimit hwindow a hlimit hrest hle) _) hroom
  moderate := by
    intro hmoderate d hd
    rw [answersTo_eq] at hd
    have hd : d ∈ decidedAt limit window none (timesOf ip calls) := hd
    have htimes := timesOf_sorted hsorted ip
    cases heq : timesOf ip calls with
    | nil =>
      rw [heq] at hd
      exact absurd hd List.not_mem_nil
    | cons t times =>
      rw [heq] at hd htimes hmoderate
      obtain ⟨hle, hrest⟩ := List.pairwise_cons.mp htimes
      rw [decidedAt, checkEntry_none hlimit] at hd
      rcases List.mem_cons.mp hd with rfl | hd
      · rfl
      · have hpast : ∀ t₀ ∈ [t], ∀ t' ∈ times, t₀ ≤ t' := List.forall_mem_singleton.mpr hle
        refine permitted_of_moderate hlimit hwindow hpast hrest hle ?_ (fun a => ?_) d hd
        · exact Nat.le_of_eq (by rw [List.countP_singleton, if_pos (decide_eq_true (Nat.le_refl t))])
        · rw [List.countP_eq_length_filter]
          exact hmoderate a
  refused := by
    rintro before c rest - hrefused
    obtain ⟨hl, hw⟩ := after_limits (idle limit window) before
    exact check_refused (hl ▸ hlimit) (hw ▸ hwindow) hrefused
  reopened := by
    rintro before c rest entry - hentry
    refine ⟨opened_by_call limit window before hentry, fun hover => ?_⟩
    obtain ⟨hl, hw⟩ := after_limits (idle limit window) before
    rw [check_eq, hentry, hl, hw]
    exact congrArg Prod.fst (checkEntry_over hlimit hover)
  own := by
    rw [answersTo_eq, answersTo_eq, filter_timesOf]

/-- The limiter of logins, with two calls of one address and one of another. -/
theorem rate_limiter_guarantees_logins :
    Guarantees 10 60000000 [⟨"10.0.0.1", 0⟩, ⟨"10.0.0.2", 5⟩, ⟨"10.0.0.1", 60000000⟩] "10.0.0.1" :=
  rate_limiter_guarantees (by decide) (by decide) (by decide) "10.0.0.1"

end Winkd.Server.RateLimiter
