import Winkd.WorkerRules

/-!
# What the worker answers

A page or an asset that the worker hands out is the network's answer to this very request, or an
earlier answer to the same URL that was ok; for a page that is not to be had the offline page
(`answers_accounted`).  Caches of older versions have no part in it: they are gone before the first request.

Once the worker is installed no navigation fails, whatever the network does, and the pages that were
installed are each answered with themselves: the login page never with the app, which would
send the browser back to the login page (`navigations_answered`).
-/

namespace Winkd.ServiceWorker
open Winkd.Server Threads

/-! ## Caches -/

/-- What is stored in a cache of this name. -/
def Browser.Held (b : Browser) (name : Text) (x : Request × Response) : Prop :=
  ∃ cache, (name, cache) ∈ b.caches ∧ x ∈ cache

theorem mem_put {cache : Cache} {x e : Request × Response} (h : e ∈ cache.put x) : e ∈ cache ∨ e = x := by
  rcases List.mem_append.mp h with h | h
  · exact .inl (List.mem_of_mem_filter h)
  · exact .inr (List.mem_singleton.mp h)

theorem mem_foldl_put {stored : List (Request × Response)} {cache : Cache} {e : Request × Response}
    (h : e ∈ stored.foldl Cache.put cache) : e ∈ cache ∨ e ∈ stored := by
  induction stored generalizing cache with
  | nil => exact .inl h
  | cons x stored ih =>
    rcases ih h with h | h
    · rcases mem_put h with h | rfl
      · exact .inl h
      · exact .inr List.mem_cons_self
    · exact .inr (List.mem_cons_of_mem _ h)

/-- **Only puts put something in a cache.** -/
theorem held_answer {r : SwOp} {b : Browser} {name : Text} {x : Request × Response}
    (h : (answer r b).2.Held name x) : b.Held name x ∨ ∃ stored, r = .cachePut name stored ∧ x ∈ stored := by
  obtain ⟨cache, hcache, hx⟩ := h
  cases r with
  | openCache n =>
    simp only [answer, Browser.openCache] at hcache
    split at hcache
    · exact .inl ⟨cache, hcache, hx⟩
    · rcases List.mem_append.mp hcache with hcache | hcache
      · exact .inl ⟨cache, hcache, hx⟩
      · obtain ⟨rfl, rfl⟩ := Prod.mk.inj (List.mem_singleton.mp hcache)
        exact absurd hx List.not_mem_nil
  | deleteCache n => exact .inl ⟨cache, List.mem_of_mem_filter hcache, hx⟩
  | cachePut n stored =>
    simp only [answer] at hcache
    split at hcache
    · exact .inl ⟨cache, hcache, hx⟩
    · obtain ⟨⟨n', c⟩, hc, heq⟩ := List.mem_map.mp hcache
      dsimp only at heq
      split at heq
      · rename_i hn
        obtain ⟨rfl, rfl⟩ := Prod.mk.inj heq
        rcases mem_foldl_put hx with hx | hx
        · exact .inl ⟨c, hc, hx⟩
        · exact .inr ⟨stored, by rw [hn], hx⟩
      · obtain ⟨rfl, rfl⟩ := Prod.mk.inj heq
        exact .inl ⟨c, hc, hx⟩
  | _ => exact .inl ⟨cache, hcache, hx⟩

theorem mem_names_openCache {b : Browser} {n name : Text} :
    name ∈ (b.openCache n).names ↔ name ∈ b.names ∨ n = name := by
  unfold Browser.openCache
  split
  · rename_i hfound
    obtain ⟨c, hc, hn⟩ := List.any_eq_true.mp hfound
    have hmem : n ∈ b.names := List.mem_map.mpr ⟨c, hc, of_decide_eq_true hn⟩
    exact ⟨.inl, fun h => h.elim id fun heq => heq ▸ hmem⟩
  · rw [Browser.names, List.map_append, List.mem_append, List.map_singleton, List.mem_singleton]
    exact or_congr Iff.rfl eq_comm

theorem names_putAll (b : Browser) (n : Text) (stored : List (Request × Response)) :
    (b.putAll n stored).names = b.names := by
  rw [Browser.names, Browser.putAll, List.map_map]
  refine List.map_congr_left fun c _ => ?_
  show (if _ then _ else _ : Text × Cache).1 = c.1
  split <;> rfl

theorem names_answer {r : SwOp} {b : Browser} {name : Text} (h : name ∈ (answer r b).2.names) :
    (name ∈ b.names ∨ r = .openCache name) ∧ r ≠ .deleteCache name := by
  cases r with
  | openCache n =>
    refine ⟨(mem_names_openCache.mp h).imp_right fun heq => ?_, by rintro ⟨⟩⟩
    rw [heq]
  | deleteCache n =>
    obtain ⟨c, hc, rfl⟩ := List.mem_map.mp h
    obtain ⟨hmem, hne⟩ := List.mem_filter.mp hc
    refine ⟨.inl (List.mem_map_of_mem hmem), ?_⟩
    rintro ⟨⟩
    exact of_decide_eq_true hne rfl
  | cachePut n stored =>
    refine ⟨.inl ?_, by rintro ⟨⟩⟩
    simp only [answer] at h
    split at h
    · exact h
    · exact names_putAll b n stored ▸ h
  | _ => exact ⟨.inl h, by rintro ⟨⟩⟩

/-- What `match` finds is stored under the URL of the request. -/
theorem mem_of_match? {cache : Cache} {req : Request} {r : Response} (h : cache.match? req = some r) :
    ∃ stored, (stored, r) ∈ cache ∧ stored.url = req.url := by
  obtain ⟨⟨stored, r'⟩, hfind, rfl⟩ := Option.map_eq_some_iff.mp h
  have hmatches := List.find?_some hfind
  rw [Request.matches, Bool.and_eq_true, decide_eq_true_eq] at hmatches
  exact ⟨stored, List.mem_of_find?_eq_some hfind, hmatches.1⟩

theorem held_of_cachesMatch {b : Browser} {req : Request} {r : Response} (h : b.cachesMatch req = some r) :
    ∃ name stored, name ∈ b.names ∧ b.Held name (stored, r) ∧ stored.url = req.url := by
  obtain ⟨⟨name, cache⟩, hcache, hmatch⟩ := List.exists_of_findSome?_eq_some h
  obtain ⟨stored, hmem, hurl⟩ := mem_of_match? hmatch
  exact ⟨name, stored, List.mem_map_of_mem hcache, ⟨cache, hcache, hmem⟩, hurl⟩

theorem held_of_match? {b : Browser} {name : Text} {req : Request} {r : Response}
    (h : (b.cache name).match? req = some r) : ∃ stored, b.Held name (stored, r) ∧ stored.url = req.url := by
  obtain ⟨stored, hmem, hurl⟩ := mem_of_match? h
  refine ⟨stored, ?_, hurl⟩
  unfold Browser.cache at hmem
  cases hfind : b.caches.find? fun c => c.1 = name with
  | none =>
    rw [hfind] at hmem
    exact absurd hmem List.not_mem_nil
  | some c =>
    rw [hfind] at hmem
    have hname : c.1 = name := of_decide_eq_true (List.find?_some (p := fun c : Text × Cache => decide (c.1 = name)) hfind)
    exact ⟨c.2, hname ▸ List.mem_of_find?_eq_some hfind, hmem⟩

/-! ### What stays available -/

/-- An answer for this URL is in the worker's cache, whatever the headers of the request. -/
def Browser.Available (b : Browser) (url : Text) : Prop :=
  ∃ req r, b.Held CACHE_NAME (req, r) ∧ req.url = url ∧ r.vary = []

theorem matches_of_vary {req : Request} {x : Request × Response} (hurl : x.1.url = req.url) (hvary : x.2.vary = []) :
    req.matches x = true := by
  rw [Request.matches, hurl, hvary, decide_eq_true rfl]
  rfl

theorem Browser.Available.matched {b : Browser} {req : Request} (h : b.Available req.url) :
    b.cachesMatch req ≠ none := by
  obtain ⟨stored, r, ⟨cache, hcache, hmem⟩, hurl, hvary⟩ := h
  intro hnone
  have hmiss := List.findSome?_eq_none_iff.mp hnone _ hcache
  rw [Cache.match?, Option.map_eq_none_iff, List.find?_eq_none] at hmiss
  exact hmiss _ hmem (matches_of_vary hurl hvary)

/-- A put leaves an answer for every URL that had one, and for that of what is put. -/
theorem exists_mem_put {cache : Cache} {x : Request × Response} (hx : x.2.vary = []) {url : Text}
    (h : (∃ e ∈ cache, e.1.url = url ∧ e.2.vary = []) ∨ x.1.url = url) :
    ∃ e ∈ cache.put x, e.1.url = url ∧ e.2.vary = [] := by
  have hput : x ∈ cache.put x := List.mem_append_right _ (List.mem_singleton_self x)
  rcases h with ⟨e, he, hurl, hvary⟩ | hurl
  · by_cases hmatch : x.1.matches e = true
    · rw [Request.matches, Bool.and_eq_true, decide_eq_true_eq] at hmatch
      exact ⟨x, hput, hmatch.1.symm.trans hurl, hx⟩
    · refine ⟨e, List.mem_append_left _ (List.mem_filter.mpr ⟨he, ?_⟩), hurl, hvary⟩
      rw [Bool.not_eq_true] at hmatch
      rw [hmatch]
      rfl
  · exact ⟨x, hput, hurl, hx⟩

theorem exists_mem_foldl_put {stored : List (Request × Response)} (hstored : ∀ x ∈ stored, x.2.vary = [])
    (cache : Cache) {url : Text}
    (h : (∃ e ∈ cache, e.1.url = url ∧ e.2.vary = []) ∨ ∃ x ∈ stored, x.1.url = url) :
    ∃ e ∈ stored.foldl Cache.put cache, e.1.url = url ∧ e.2.vary = [] := by
  induction stored generalizing cache with
  | nil => exact h.resolve_right fun ⟨_, hx, _⟩ => List.not_mem_nil hx
  | cons x stored ih =>
    have hx := hstored x List.mem_cons_self
    refine ih (fun x hx => hstored x (List.mem_cons_of_mem _ hx)) (cache.put x) ?_
    rcases h with h | ⟨y, hy, hurl⟩
    · exact .inl (exists_mem_put hx (.inl h))
    · rcases List.mem_cons.mp hy with rfl | hy
      · exact .inl (exists_mem_put hx (.inr hurl))
      · exact .inr ⟨y, hy, hurl⟩

/-- **What is available stays so**, and what is put becomes so, where no answer varies. -/
theorem available_answer {r : SwOp} {b : Browser} {url : Text} (hr : r ≠ .deleteCache CACHE_NAME)
    (hplain : ∀ name stored, r = .cachePut name stored → ∀ x ∈ stored, x.2.vary = [])
    (h : b.Available url) : (answer r b).2.Available url := by
  obtain ⟨req, resp, ⟨cache, hcache, hmem⟩, hurl, hvary⟩ := h
  cases r with
  | openCache n =>
    simp only [answer, Browser.openCache]
    split
    · exact ⟨req, resp, ⟨cache, hcache, hmem⟩, hurl, hvary⟩
    · exact ⟨req, resp, ⟨cache, List.mem_append_left _ hcache, hmem⟩, hurl, hvary⟩
  | deleteCache n =>
    have hne : CACHE_NAME ≠ n := fun heq => hr (heq ▸ rfl)
    exact ⟨req, resp, ⟨cache, List.mem_filter.mpr ⟨hcache, decide_eq_true hne⟩, hmem⟩, hurl, hvary⟩
  | cachePut n stored =>
    simp only [answer]
    split
    · exact ⟨req, resp, ⟨cache, hcache, hmem⟩, hurl, hvary⟩
    · by_cases hn : CACHE_NAME = n
      · obtain ⟨e, he, heurl, hevary⟩ := exists_mem_foldl_put (hplain n stored rfl) cache
          (.inl ⟨(req, resp), hmem, hurl, hvary⟩)
        refine ⟨e.1, e.2, ⟨_, List.mem_map.mpr ⟨_, hcache, ?_⟩, he⟩, heurl, hevary⟩
        exact if_pos hn
      · exact ⟨req, resp, ⟨cache, List.mem_map.mpr ⟨_, hcache, if_neg hn⟩, hmem⟩, hurl, hvary⟩
  | _ => exact ⟨req, resp, ⟨cache, hcache, hmem⟩, hurl, hvary⟩

theorem available_put {b : Browser} {stored : List (Request × Response)} (hname : CACHE_NAME ∈ b.names)
    (hstored : ∀ x ∈ stored, x.2.vary = []) (hdone : (answer (.cachePut CACHE_NAME stored) b).1 = true)
    {x : Request × Response} (hx : x ∈ stored) :
    (answer (.cachePut CACHE_NAME stored) b).2.Available x.1.url := by
  obtain ⟨⟨n, cache⟩, hcache, rfl⟩ := List.mem_map.mp hname
  simp only [answer] at hdone ⊢
  split at hdone
  · cases hdone
  · rename_i hroom
    rw [if_neg hroom]
    obtain ⟨e, he, hurl, hvary⟩ := exists_mem_foldl_put hstored cache (.inr ⟨x, hx, rfl⟩)
    exact ⟨e.1, e.2, ⟨_, List.mem_map.mpr ⟨_, hcache, if_pos rfl⟩, he⟩, hurl, hvary⟩

/-! ## Runs -/

namespace Worker
variable {here : Location} {reqs : ℕ → Request} {P : (Request → Option Response) → Prop}
  {found : List (Text × Cache)} {w : Worker}

theorem next_act (w : Worker) (e : Event) : ∃ a, next here w e = Pool.next answer w a := by
  cases e with
  | install => exact ⟨.start (install here), rfl⟩
  | activate => exact ⟨.start activate, rfl⟩
  | fetch req =>
    cases hp : onFetch here req with
    | none => exact ⟨.outside w.state, by rw [next, hp]; rfl⟩
    | some p => exact ⟨.start p, by rw [next, hp]⟩
  | step task => exact ⟨.answer task, rfl⟩
  | outside network full => exact ⟨.outside { w.state with network := network, full := full }, rfl⟩

/-- What holds of the worker at any time. -/
structure Alive (here : Location) (reqs : ℕ → Request) (P : (Request → Option Response) → Prop) (w : Worker) :
    Prop where
  abiding : w.Abiding (fun _ past r => Past.May past r) (fun i past result => Past.Ends past here reqs i result)
    fun i _ _ => i = 0
  installed : 2 ≤ w.tasks.length → w.Installed
  activated : 3 ≤ w.tasks.length → w.Activated
  network : P w.state.network

/-- A handler that has ended stays so. -/
theorem ended_next (here : Location) {i : ℕ} {result : Option Response}
    (h : w.tasks[i]? = some (.pure result)) (e : Event) :
    (next here w e).tasks[i]? = some (.pure result) := by
  have hstart : ∀ p, (Pool.next answer w (.start p)).tasks[i]? = some (.pure result) := fun p =>
    (List.getElem?_append_left (List.getElem?_eq_some_iff.mp h).1).trans h
  cases e with
  | install => exact hstart _
  | activate => exact hstart _
  | fetch req =>
    dsimp only [next]
    split
    · exact h
    · exact hstart _
  | step task =>
    show (Pool.next answer w (.answer task)).tasks[i]? = _
    rcases Pool.next_answer_cases (h := answer) w task with heq | ⟨r, k, hp, heq⟩
    · rw [heq]
      exact h
    · rw [heq]
      have hne : task ≠ i := by
        rintro rfl
        cases hp.symm.trans h
      exact (List.getElem?_set_ne hne).trans h
  | outside network full => exact h

theorem network_answer (r : SwOp) (b : Browser) : (answer r b).2.network = b.network := by
  cases r with
  | openCache n =>
    simp only [answer, Browser.openCache]
    split <;> rfl
  | cachePut n stored =>
    simp only [answer]
    split <;> rfl
  | _ => rfl

theorem Alive.ended (hw : Alive here reqs P w) {i : ℕ} (hi : 2 ≤ i) {result : Option Response}
    (hend : w.tasks[i]? = some (.pure result)) :
    Past.Answered (Pool.history i w.trace) here (reqs i) result := by
  obtain ⟨n, rfl⟩ := Nat.exists_eq_add_of_le' hi
  exact hw.abiding.each.own (n + 2) _ hend

/-- No handler of a request throws. -/
theorem Alive.not_throws (hw : Alive here reqs P w) {i : ℕ} (hi : 2 ≤ i) (e : SwError) :
    w.tasks[i]? ≠ some (.throw e) := by
  intro hthrow
  have hinstall : i = 0 := hw.abiding.each.own i _ hthrow
  omega

theorem length_start (w : Worker) (p : Handler (Option Response)) :
    (Pool.next answer w (.start p)).tasks.length = w.tasks.length + 1 := by
  rw [Pool.next, List.length_append, List.length_singleton]

/-- A step begins no handler, and leaves the network alone. -/
theorem step_kept (here : Location) (w : Worker) (task : ℕ) :
    (next here w (.step task)).tasks.length = w.tasks.length ∧
      (next here w (.step task)).state.network = w.state.network := by
  rw [next]
  rcases Pool.next_answer_cases (h := answer) w task with heq | ⟨r, k, -, heq⟩
  · rw [heq]
    exact ⟨rfl, rfl⟩
  · rw [heq]
    exact ⟨List.length_set .., network_answer _ _⟩

/-- The handlers go on abiding, if one begins that abides by the rule of its place. -/
theorem Alive.begun (hw : Alive here reqs P w) {p : Handler (Option Response)}
    (hp : p.Abides Past.May (fun past result => Past.Ends past here reqs w.tasks.length result)
      (fun _ _ => w.tasks.length = 0) []) :
    (Pool.next answer w (.start p)).Abiding (fun _ past r => Past.May past r)
      (fun i past result => Past.Ends past here reqs i result) fun i _ _ => i = 0 := by
  refine Pool.Abiding.next (h := answer) hw.abiding fun p' hp' => ?_
  cases hp'
  exact hp

/-- An event keeps this, if the handlers that begin are the right ones. -/
theorem Alive.next (hw : Alive here reqs P w) {e : Event} (he : w.Lives reqs P e) :
    Alive here reqs P (w.next here e) := by
  cases e with
  | install =>
    have hnone : w.tasks.length = 0 := List.length_eq_zero_iff.mpr he
    have habiding := hw.begun (p := install here) <| by
      rw [hnone]
      exact abides_install.mono (fun _ _ h => h) (fun _ _ h => h) fun _ _ _ => rfl
    have hlength : (w.next here .install).tasks.length = 1 := by
      rw [Worker.next, length_start, hnone]
    exact ⟨habiding, fun h => absurd h (by omega), fun h => absurd h (by omega), hw.network⟩
  | activate =>
    obtain ⟨hinstalled, hone⟩ : w.Installed ∧ w.tasks.length = 1 := he
    have habiding := hw.begun (p := activate) <| by
      rw [hone]
      exact abides_activate.mono (fun _ _ h => h) (fun _ _ h => h) fun _ _ h => h.elim
    have hlength : (w.next here .activate).tasks.length = 2 := by
      rw [Worker.next, length_start, hone]
    exact ⟨habiding, fun _ => ended_next here hinstalled .activate, fun h => absurd h (by omega), hw.network⟩
  | fetch req =>
    obtain ⟨hactivated, hreq⟩ : w.Activated ∧ reqs w.tasks.length = req := he
    cases hp : onFetch here req with
    | none =>
      rw [Worker.next, hp]
      exact hw
    | some p =>
      have htwo : 2 ≤ w.tasks.length := (List.getElem?_eq_some_iff.mp hactivated).1
      have habiding := hw.begun (p := p) <| by
        obtain ⟨n, hn⟩ := Nat.exists_eq_add_of_le' htwo
        rw [hn]
        refine (onFetch_abides hp).mono (fun _ _ h => h) (fun past result h => ?_) fun _ _ h => h.elim
        show Past.Answered past here (reqs (n + 2)) result
        rw [← hn, hreq]
        exact h
      have hinstalled := ended_next here (hw.installed htwo) (.fetch req)
      have hactivated := ended_next here hactivated (.fetch req)
      rw [Worker.next, hp] at hinstalled hactivated ⊢
      exact ⟨habiding, fun _ => hinstalled, fun _ => hactivated, hw.network⟩
  | step task =>
    have habiding := Pool.Abiding.next (h := answer) hw.abiding (a := .answer task) fun _ h => by cases h
    obtain ⟨hlength, hnetwork⟩ := step_kept here w task
    refine ⟨habiding, fun h => ended_next here (hw.installed (hlength ▸ h)) (.step task),
      fun h => ended_next here (hw.activated (hlength ▸ h)) (.step task), ?_⟩
    rw [hnetwork]
    exact hw.network
  | outside network full =>
    have habiding := Pool.Abiding.next (h := answer) hw.abiding
      (a := .outside { w.state with network := network, full := full }) fun _ h => by cases h
    exact ⟨habiding, hw.installed, hw.activated, he⟩

theorem Reached.alive (hw : w.Reached here reqs P found) : Alive here reqs P w := by
  obtain ⟨network, full, hP, hreach⟩ := hw
  refine hreach.invariant ?_ fun w e hw he => hw.next he
  exact ⟨Pool.Abiding.idle _, fun h => absurd h (Nat.not_le_of_gt Nat.zero_lt_two),
    fun h => absurd h (Nat.not_le_of_gt (Nat.zero_lt_succ 2)), hP⟩

/-- What is deleted is gone, and what is not in a list of the caches comes later only as the worker's. -/
structure Tidy (w : Worker) : Prop where
  deleted : ∀ e ∈ w.trace, ∀ key, e.exchange = ⟨.deleteCache key, ()⟩ → key ≠ CACHE_NAME ∧ key ∉ w.state.names
  listed : ∀ e ∈ w.trace, ∀ keys, e.exchange = ⟨.cacheKeys, keys⟩ →
    ∀ name ∈ w.state.names, name = CACHE_NAME ∨ name ∈ keys

theorem Tidy.answered (hw : w.Tidy) {i : ℕ} {r : SwOp} {k : r.Reply → Handler (Option Response)} {past : Past}
    (hmay : past.May r) : Tidy (w.answered answer i r k) := by
  have hnames : ∀ name ∈ (answer r w.state).2.names,
      (name ∈ w.state.names ∨ name = CACHE_NAME) ∧ r ≠ .deleteCache name := by
    intro name hname
    obtain ⟨hheld, hkept⟩ := names_answer hname
    refine ⟨hheld.imp_right ?_, hkept⟩
    rintro rfl
    exact hmay
  constructor
  · intro e he key hkey
    rcases List.mem_cons.mp he with rfl | he
    · obtain ⟨rfl, -⟩ := Exchange.mk.inj hkey
      exact ⟨hmay, fun hname => (hnames _ hname).2 rfl⟩
    · obtain ⟨hne, hgone⟩ := hw.deleted e he key hkey
      exact ⟨hne, fun hname => (hnames _ hname).1.elim hgone hne⟩
  · intro e he keys hkeys name hname
    rcases List.mem_cons.mp he with rfl | he
    · cases r with
      | cacheKeys =>
        obtain ⟨-, rfl⟩ := Exchange.mk.inj hkeys
        exact .inr hname
      | _ => cases (Exchange.mk.inj hkeys).1
    · rcases (hnames name hname).1 with hname | rfl
      · exact hw.listed e he keys hkeys name hname
      · exact .inl rfl

/-- **What every request that is answered keeps, always holds**, if it is about the caches and the trace. -/
theorem Reached.holds {I : Worker → Prop} (hw : w.Reached here reqs P found)
    (hsame : ∀ t t' : Worker, t'.trace = t.trace → t'.state.caches = t.state.caches → I t → I t')
    (hidle : ∀ network full, I (Pool.idle ⟨found, network, full⟩))
    (hanswered : ∀ t : Worker, t.Reached here reqs P found → I t → ∀ i r k,
      t.tasks[i]? = some (.request r k) → I (t.answered answer i r k)) : I w := by
  obtain ⟨network, full, hP, hreach⟩ := hw
  have hboth : w.Reached here reqs P found ∧ I w := by
    refine hreach.invariant (I := fun w => w.Reached here reqs P found ∧ I w)
      ⟨⟨network, full, hP, .refl _⟩, hidle network full⟩ fun t e ht he => ?_
    obtain ⟨⟨network', full', hP', hreach'⟩, hI⟩ := ht
    refine ⟨⟨network', full', hP', hreach'.tail he⟩, ?_⟩
    cases e with
    | install => exact hsame t _ rfl rfl hI
    | activate => exact hsame t _ rfl rfl hI
    | fetch req =>
      rw [Worker.next]
      split
      · exact hI
      · exact hsame t _ rfl rfl hI
    | step task =>
      show I (Pool.next answer t (.answer task))
      rcases Pool.next_answer_cases (h := answer) t task with heq | ⟨r, k, hp, heq⟩
      · rw [heq]
        exact hI
      · rw [heq]
        exact hanswered t ⟨network', full', hP', hreach'⟩ hI task r k hp
    | outside network full => exact hsame t _ rfl rfl hI
  exact hboth.2

theorem Reached.tidy (hw : w.Reached here reqs P found) : Tidy w := by
  refine hw.holds (I := Tidy) (fun t t' htrace hcaches ht => ?_) (fun _ _ => ?_) fun t ht htidy i r k hp => ?_
  · have hnames : t'.state.names = t.state.names := congrArg (List.map Prod.fst) hcaches
    constructor
    · rw [htrace, hnames]
      exact ht.deleted
    · rw [htrace, hnames]
      exact ht.listed
  · exact ⟨fun e he => absurd he List.not_mem_nil, fun e he => absurd he List.not_mem_nil⟩
  · exact htidy.answered (ht.alive.abiding.may_issue hp)

/-- **Once it is activated, there is only the worker's cache.** -/
theorem Reached.names (hw : w.Reached here reqs P found) (hactivated : w.Activated) :
    ∀ name ∈ w.state.names, name = CACHE_NAME := by
  intro name hname
  obtain ⟨keys, hkeys, hcleared⟩ : Past.Cleared _ := hw.alive.abiding.each.own 1 _ hactivated
  obtain ⟨e, he, -, hexchange⟩ := Pool.mem_history.mp hkeys
  rcases hw.tidy.listed e he keys hexchange name hname with h | hlisted
  · exact h
  · by_contra hne
    obtain ⟨e', he', -, hexchange'⟩ := Pool.mem_history.mp (hcleared name hlisted hne)
    exact (hw.tidy.deleted e' he' name hexchange').2 hname

theorem Reached.moment (hw : w.Reached here reqs P found) {e : Entry SwOp SwOp.Reply Browser}
    {earlier : Trace} (he : e :: earlier <:+ w.trace) :
    ∃ t : Worker, t.Reached here reqs P found ∧ t.trace = earlier ∧ t.Adding answer e := by
  obtain ⟨network, full, hP, hreach⟩ := hw
  obtain ⟨t, ht, hrest⟩ := Pool.moment next_act hreach rfl he
  exact ⟨t, ⟨network, full, hP, ht⟩, hrest⟩

theorem Reached.answered (hw : w.Reached here reqs P found) : Pool.Answered answer w.trace := by
  obtain ⟨network, full, -, hreach⟩ := hw
  exact Pool.answered_trace next_act hreach rfl

/-- The answer was found in the worker's cache when it was installed, or was given by the network to a
request for this URL, and was ok. -/
def Stored (found : List (Text × Cache)) (l : Trace) (url : Text) (r : Response) : Prop :=
  (∃ cache req, (CACHE_NAME, cache) ∈ found ∧ (req, r) ∈ cache ∧ req.url = url) ∨
    r.ok = true ∧ ∃ e ∈ l, ∃ req : Request, e.exchange = ⟨.fetch req, some r⟩ ∧ req.url = url

theorem Stored.mono {l l' : Trace} {url : Text} {r : Response} (h : Stored found l url r) (hl : l ⊆ l') :
    Stored found l' url r := by
  refine h.imp_right fun ⟨hok, e, he, hrest⟩ => ⟨hok, e, hl he, hrest⟩

/-- **What the worker's cache has is ok, and the network's** for this URL. -/
theorem Reached.stored (hw : w.Reached here reqs P found) {req : Request} {r : Response}
    (h : w.state.Held CACHE_NAME (req, r)) : Stored found w.trace req.url r := by
  by_cases hfound : ∃ cache, (CACHE_NAME, cache) ∈ found ∧ (req, r) ∈ cache
  · obtain ⟨cache, hcache, hmem⟩ := hfound
    exact .inl ⟨cache, req, hcache, hmem, rfl⟩
  · obtain ⟨network, full, hP, hreach⟩ := hw
    have hput : ∃ e ∈ w.trace, ∃ stored, e.request = .cachePut CACHE_NAME stored ∧ (req, r) ∈ stored := by
      refine Pool.recorded (h := answer) (fun b x => b.Held CACHE_NAME x ∧
          ¬ ∃ cache, (CACHE_NAME, cache) ∈ found ∧ x ∈ cache)
        (fun e x => ∃ stored, e.request = .cachePut CACHE_NAME stored ∧ x ∈ stored)
        (fun i r b x hx => ?_) (fun w e _ => ?_) hreach (fun x hx => hx.2 hx.1) ⟨h, hfound⟩
      · rcases held_answer hx.1 with hheld | hmade
        · exact .inl ⟨hheld, hx.2⟩
        · exact .inr hmade
      · cases e with
        | install => exact .inr ⟨rfl, fun _ h => h⟩
        | activate => exact .inr ⟨rfl, fun _ h => h⟩
        | fetch req =>
          refine .inr ?_
          rw [Worker.next]
          split
          · exact ⟨rfl, fun _ h => h⟩
          · exact ⟨rfl, fun _ h => h⟩
        | step task => exact .inl ⟨task, rfl⟩
        | outside network full => exact .inr ⟨rfl, fun _ h => h⟩
    obtain ⟨e, he, stored, hrequest, hmem⟩ := hput
    obtain ⟨earlier, hsuffix⟩ := Pool.exists_suffix he
    obtain ⟨t, ht, rfl, hadding⟩ := Reached.moment ⟨network, full, hP, hreach⟩ hsuffix
    obtain ⟨k, hwaiting⟩ := hadding.waiting
    have hmay := ht.alive.abiding.may_issue hwaiting
    rw [hrequest] at hmay
    obtain ⟨hok, htold⟩ := hmay.2.2 _ hmem
    obtain ⟨e', he', -, hexchange⟩ := Pool.mem_history.mp htold
    have hsub : t.trace ⊆ w.trace := fun x hx => hsuffix.subset (List.mem_cons_of_mem _ hx)
    exact .inr ⟨hok, e', hsub he', req, hexchange, rfl⟩

/-- What a handler was told, the caches and the network said at some time while it was under way. -/
theorem Reached.told (hw : w.Reached here reqs P found) {i : ℕ} {r : SwOp} {x : r.Reply}
    (h : (Pool.history i w.trace).Told r x) : ∃ t : Worker, t.Reached here reqs P found ∧
      t.trace ⊆ w.trace ∧ i < t.tasks.length ∧ (answer r t.state).1 = x := by
  obtain ⟨e, he, rfl, hexchange⟩ := Pool.mem_history.mp h
  obtain ⟨earlier, hsuffix⟩ := Pool.exists_suffix he
  obtain ⟨t, ht, rfl, hadding⟩ := hw.moment hsuffix
  obtain ⟨j, b, r', x'⟩ := e
  cases hexchange
  obtain ⟨k, hwaiting⟩ := hadding.waiting
  obtain rfl : t.state = b := hadding.state
  exact ⟨t, ht, fun x hx => hsuffix.subset (List.mem_cons_of_mem _ hx),
    (List.getElem?_eq_some_iff.mp hwaiting).1, hadding.reply.symm⟩

/-- What `caches.match` gives to a request is the worker's own. -/
theorem Reached.cached (hw : w.Reached here reqs P found) {i : ℕ} (hi : 2 ≤ i) {req : Request} {r : Response}
    (h : (Pool.history i w.trace).Told (.cachesMatch req) (some r)) : Stored found w.trace req.url r := by
  obtain ⟨t, ht, hsub, hlt, hmatch⟩ := hw.told h
  obtain ⟨name, stored, hname, hheld, hurl⟩ := held_of_cachesMatch hmatch
  obtain rfl := ht.names (ht.alive.activated (Nat.lt_of_le_of_lt hi hlt)) name hname
  exact hurl ▸ (ht.stored hheld).mono hsub

/-- How the request `req` of task `i` was answered. -/
structure Accounted (found : List (Text × Cache)) (here : Location) (l : Trace) (i : ℕ) (req : Request)
    (result : Option Response) : Prop where
  /-- A page is the network's, one that the network gave before, or the offline page. -/
  page : req.navigate = true →
    (∃ r, (Pool.history i l).Told (.fetch req) (some r) ∧ result = some r) ∨
      (Pool.history i l).Told (.fetch req) none ∧ (result = none ∨ ∃ r, result = some r ∧
        (Stored found l req.url r ∨ Stored found l (here.request OFFLINE_URL).url r))
  /-- An asset is one that the network gave before, whatever it would now be; or else the network's. -/
  asset : req.navigate = false →
    (∃ r, result = some r ∧ (Pool.Seen l i fun b => (b.cache CACHE_NAME).match? req = some r) ∧
        Stored found l req.url r) ∨
      (Pool.Seen l i fun b => (b.cache CACHE_NAME).match? req = none) ∧
        (Pool.history i l).Told (.fetch req) result

/-- **Every answer is accounted for.** -/
theorem answers_accounted (hw : w.Reached here reqs P found) {i : ℕ} (hi : 2 ≤ i) {result : Option Response}
    (hend : w.tasks[i]? = some (.pure result)) : Accounted found here w.trace i (reqs i) result := by
  have hanswered : Past.Answered (Pool.history i w.trace) here (reqs i) result := hw.alive.ended hi hend
  rw [Past.Answered] at hanswered
  refine ⟨fun hnavigate => ?_, fun hnavigate => ?_⟩
  · rw [if_pos hnavigate] at hanswered
    rcases hanswered with hgiven | ⟨hfailed, ⟨r, hr, rfl⟩ | ⟨-, hoffline⟩⟩
    · exact .inl hgiven
    · exact .inr ⟨hfailed, .inr ⟨r, rfl, .inl (hw.cached hi hr)⟩⟩
    · cases result with
      | none => exact .inr ⟨hfailed, .inl rfl⟩
      | some r => exact .inr ⟨hfailed, .inr ⟨r, rfl, .inr (hw.cached hi hoffline)⟩⟩
  · rw [if_neg (by rw [hnavigate]; exact Bool.false_ne_true)] at hanswered
    rcases hanswered with ⟨r, hr, hresult⟩ | ⟨hnone, hfetched⟩
    · obtain ⟨t, ht, hsub, -, hmatch⟩ := hw.told hr
      obtain ⟨stored, hheld, hurl⟩ := held_of_match? hmatch
      have hstored : Stored found w.trace (reqs i).url r := hurl ▸ (ht.stored hheld).mono hsub
      exact .inl ⟨r, hresult, Pool.seen_of_told hw.answered hr, hstored⟩
    · exact .inr ⟨Pool.seen_of_told hw.answered hnone, hfetched⟩

/-! ### Pages that are always there -/

/-- No answer of the network varies with the headers of a request. -/
def Plain (network : Request → Option Response) : Prop := ∀ req r, network req = some r → r.vary = []

/-- The worker's cache is there once it was opened, and has what was put there. -/
structure Provided (w : Worker) : Prop where
  opened : (∃ e ∈ w.trace, e.exchange = ⟨.openCache CACHE_NAME, ()⟩) → CACHE_NAME ∈ w.state.names
  available : ∀ e ∈ w.trace, ∀ stored, e.exchange = ⟨.cachePut CACHE_NAME stored, true⟩ →
    ∀ x ∈ stored, w.state.Available x.1.url

theorem mem_names_answer {r : SwOp} {b : Browser} {name : Text} (hr : r ≠ .deleteCache name)
    (h : name ∈ b.names ∨ r = .openCache name) : name ∈ (answer r b).2.names := by
  cases r with
  | openCache n =>
    refine mem_names_openCache.mpr (h.imp_right fun heq => ?_)
    cases heq
    rfl
  | deleteCache n =>
    have hname : name ∈ b.names := h.resolve_right fun heq => by cases heq
    obtain ⟨c, hc, rfl⟩ := List.mem_map.mp hname
    exact List.mem_map_of_mem (List.mem_filter.mpr ⟨hc, decide_eq_true fun heq => hr (heq ▸ rfl)⟩)
  | cachePut n stored =>
    have hname : name ∈ b.names := h.resolve_right fun heq => by cases heq
    simp only [answer]
    split
    · exact hname
    · exact (names_putAll b n stored).symm ▸ hname
  | _ => exact h.resolve_right fun heq => by cases heq

theorem Reached.provided (hw : w.Reached here reqs Plain found) : Provided w := by
  refine hw.holds (I := Provided) (fun t t' htrace hcaches ht => ?_) (fun _ _ => ?_)
    fun t ht hprovided i r k hp => ?_
  · have hnames : t'.state.names = t.state.names := congrArg (List.map Prod.fst) hcaches
    have havailable : ∀ url, t.state.Available url → t'.state.Available url := by
      rintro url ⟨req, r, ⟨cache, hcache, hmem⟩, hrest⟩
      exact ⟨req, r, ⟨cache, hcaches ▸ hcache, hmem⟩, hrest⟩
    constructor
    · rw [htrace, hnames]
      exact ht.opened
    · rw [htrace]
      exact fun e he stored hput x hx => havailable _ (ht.available e he stored hput x hx)
  · exact ⟨fun ⟨e, he, _⟩ => absurd he List.not_mem_nil, fun e he => absurd he List.not_mem_nil⟩
  · have hmay := ht.alive.abiding.may_issue hp
    have hkept : r ≠ .deleteCache CACHE_NAME := by
      rintro rfl
      exact hmay rfl
    -- what is put was fetched, and does not vary
    have hplain : ∀ name stored, r = .cachePut name stored → ∀ x ∈ stored, x.2.vary = [] := by
      rintro name stored rfl x hx
      obtain ⟨t', ht', -, -, hfetched⟩ := ht.told (hmay.2.2 x hx).2
      exact ht'.alive.network _ _ hfetched
    constructor
    · rintro ⟨e, he, hopen⟩
      refine mem_names_answer hkept ?_
      rcases List.mem_cons.mp he with rfl | he
      · exact .inr (Exchange.mk.inj hopen).1
      · exact .inl (hprovided.opened ⟨e, he, hopen⟩)
    · intro e he stored hput x hx
      rcases List.mem_cons.mp he with rfl | he
      · obtain ⟨rfl, hdone⟩ := Exchange.mk.inj hput
        obtain ⟨e', he', -, hopened⟩ := Pool.mem_history.mp hmay.2.1
        exact available_put (hprovided.opened ⟨e', he', hopened⟩) (hplain _ _ rfl) (eq_of_heq hdone) hx
      · exact available_answer hkept hplain (hprovided.available e he stored hput x hx)

/-- Once it is installed, the worker's assets are available. -/
theorem Reached.precached (hw : w.Reached here reqs Plain found) (hinstalled : w.Installed) {path : Text}
    (hpath : path ∈ PRECACHE_ASSETS) : w.state.Available (here.request path).url := by
  obtain ⟨stored, hreqs, hput⟩ : Past.Precached _ here := hw.alive.abiding.each.own 0 _ hinstalled
  obtain ⟨e, he, -, hexchange⟩ := Pool.mem_history.mp hput
  have hmem : here.request path ∈ stored.map Prod.fst := by
    rw [hreqs]
    exact List.mem_map_of_mem hpath
  obtain ⟨x, hx, hxreq⟩ := List.mem_map.mp hmem
  exact hxreq ▸ hw.provided.available e he stored hexchange x hx

/-- What a request looks for among the assets, it finds. -/
theorem Reached.finds (hw : w.Reached here reqs Plain found) {i : ℕ} (hi : 2 ≤ i) {req : Request} {path : Text}
    (hpath : path ∈ PRECACHE_ASSETS) (hurl : req.url = (here.request path).url)
    (h : (Pool.history i w.trace).Told (.cachesMatch req) none) : False := by
  obtain ⟨t, ht, -, hlt, hmatch⟩ := hw.told h
  have havailable := ht.precached (ht.alive.installed (Nat.le_of_lt (Nat.lt_of_le_of_lt hi hlt))) hpath
  rw [← hurl] at havailable
  exact havailable.matched hmatch

/-- **No navigation fails**: its handler does not throw, and ends with an answer.  Where the network
fails, a page that was installed is itself the answer. -/
theorem navigations_answered (hw : w.Reached here reqs Plain found) {i : ℕ} (hi : 2 ≤ i)
    (hnavigate : (reqs i).navigate = true) :
    (∀ e, w.tasks[i]? ≠ some (.throw e)) ∧
    ∀ result, w.tasks[i]? = some (.pure result) →
      ∃ r, result = some r ∧ ((Pool.history i w.trace).Told (.fetch (reqs i)) (some r) ∨
        Stored found w.trace (here.request OFFLINE_URL).url r ∨ Stored found w.trace (reqs i).url r) ∧
        ∀ path ∈ PRECACHE_ASSETS, (reqs i).url = (here.request path).url →
          (Pool.history i w.trace).Told (.fetch (reqs i)) (some r) ∨ Stored found w.trace (reqs i).url r := by
  refine ⟨hw.alive.not_throws hi, fun result hend => ?_⟩
  have hanswered : Past.Answered (Pool.history i w.trace) here (reqs i) result := hw.alive.ended hi hend
  rw [Past.Answered, if_pos hnavigate] at hanswered
  have hoffline : OFFLINE_URL ∈ PRECACHE_ASSETS := List.mem_cons_self
  rcases hanswered with ⟨r, hr, hresult⟩ | ⟨-, ⟨r, hr, hresult⟩ | ⟨hmissed, hlast⟩⟩
  · exact ⟨r, hresult, .inl hr, fun _ _ _ => .inl hr⟩
  · have hstored := hw.cached hi hr
    exact ⟨r, hresult, .inr (.inr hstored), fun _ _ _ => .inr hstored⟩
  · cases result with
    | none => exact (hw.finds hi hoffline rfl hlast).elim
    | some r =>
      exact ⟨r, rfl, .inr (.inl (hw.cached hi hlast)),
        fun path hpath hurl => (hw.finds hi hpath hurl hmissed).elim⟩

end Worker

namespace Sample
open Worker

def here : Location := ⟨"https://winkd.app".toList, "winkd.app".toList⟩

/-- The browser goes to the login page. -/
def toLogin : Request := { here.request "/login.html".toList with navigate := true }

/-- A cache of an older version, which has the app under the URL of the login page. -/
def older : List (Text × Cache) := [("winkd-v2".toList, [(toLogin, ⟨200, [], "app".toList⟩)])]

/-- Every page has its URL as its body. -/
def online (req : Request) : Option Response := some ⟨200, [], req.url⟩

/-- The worker is installed and activated; then the network is gone. -/
def offline : List Event :=
  .install :: List.replicate 5 (.step 0) ++ .activate :: List.replicate 2 (.step 1) ++
    [.outside (fun _ => none) false, .fetch toLogin, .step 2, .step 2]

def afterOffline : Worker := offline.foldl (next here) (Pool.idle ⟨older, online, false⟩)

theorem afterOffline_reached : afterOffline.Reached here (fun _ => toLogin) Plain older := by
  have hplain : Plain online := fun req r hr => by cases hr; rfl
  have hadmits : Transitions.Admits (next here) (Lives (fun _ => toLogin) Plain)
      (Pool.idle ⟨older, online, false⟩) offline := by
    refine ⟨rfl, trivial, trivial, trivial, trivial, trivial, ⟨rfl, rfl⟩, trivial, trivial, ?_, ⟨rfl, rfl⟩,
      trivial, trivial, trivial⟩
    exact fun req r hr => by cases hr
  exact ⟨online, false, hplain, hadmits.reaches⟩

end Sample

namespace Worker
open Sample

theorem answers_accounted_offline :
    Accounted older here afterOffline.trace 2 toLogin (some ⟨200, [], (here.request "/login.html".toList).url⟩) :=
  answers_accounted afterOffline_reached (Nat.le_refl 2) rfl

theorem navigations_answered_offline : (∀ e, afterOffline.tasks[2]? ≠ some (.throw e)) ∧
    ∃ r, some ⟨200, [], (here.request "/login.html".toList).url⟩ = some r ∧
      ((Pool.history 2 afterOffline.trace).Told (.fetch toLogin) (some r) ∨
        Stored older afterOffline.trace (here.request OFFLINE_URL).url r ∨
        Stored older afterOffline.trace toLogin.url r) ∧
      ∀ path ∈ PRECACHE_ASSETS, toLogin.url = (here.request path).url →
        (Pool.history 2 afterOffline.trace).Told (.fetch toLogin) (some r) ∨
          Stored older afterOffline.trace toLogin.url r :=
  have h := navigations_answered afterOffline_reached (Nat.le_refl 2) rfl
  ⟨h.1, h.2 _ rfl⟩

end Worker
end Winkd.ServiceWorker
