import Winkd.ServiceWorker

/-!
# What the worker's handlers do

The rule for what a handler of the worker asks, by what it has been told (`Past.May`): it stores what a
fetch has answered, in the worker's cache, and deletes only the others.  Of what it ends with
(`Past.Ends`): the handler of `install` with the assets in the cache, that of `activate` with the other caches
deleted, and that of a request with an answer that it got in one of the ways that there are.
-/

namespace Winkd.ServiceWorker
open Winkd.Server Threads

/-- What a handler has asked and been answered. -/
abbrev Past : Type := History SwOp SwOp.Reply

/-! ## What a handler may do, and what it ends with -/

namespace Past
variable (past : Past)

/-- A handler stores what a fetch has answered, if it is ok, in the worker's cache, and deletes only others. -/
def May : SwOp → Prop
  | .openCache name => name = CACHE_NAME
  | .deleteCache name => name ≠ CACHE_NAME
  | .cachePut name stored =>
      name = CACHE_NAME ∧ past.Told (.openCache CACHE_NAME) () ∧
        ∀ e ∈ stored, e.2.ok = true ∧ past.Told (.fetch e.1) (some e.2)
  | _ => True

/-- The assets are in the cache. -/
def Precached (here : Location) : Prop :=
  ∃ stored : List (Request × Response), stored.map Prod.fst = PRECACHE_ASSETS.map here.request ∧
    past.Told (.cachePut CACHE_NAME stored) true

/-- The other caches have been deleted. -/
def Cleared : Prop :=
  ∃ keys : List Text, past.Told .cacheKeys keys ∧ ∀ key ∈ keys, key ≠ CACHE_NAME → past.Told (.deleteCache key) ()

/-- A page: the network's, the one that is cached, or the offline page. -/
def AnsweredPage (here : Location) (req : Request) (result : Option Response) : Prop :=
  (∃ r, past.Told (.fetch req) (some r) ∧ result = some r) ∨
    past.Told (.fetch req) none ∧
      ((∃ r, past.Told (.cachesMatch req) (some r) ∧ result = some r) ∨
        past.Told (.cachesMatch req) none ∧ past.Told (.cachesMatch (here.request OFFLINE_URL)) result)

/-- An asset: the one that is cached, or else the network's. -/
def AnsweredAsset (req : Request) (result : Option Response) : Prop :=
  (∃ r, past.Told (.cacheMatch CACHE_NAME req) (some r) ∧ result = some r) ∨
    past.Told (.cacheMatch CACHE_NAME req) none ∧ past.Told (.fetch req) result

def Answered (here : Location) (req : Request) (result : Option Response) : Prop :=
  if req.navigate then past.AnsweredPage here req result else past.AnsweredAsset req result

/-- What task `i` has done when it ends. -/
def Ends (here : Location) (reqs : ℕ → Request) : ℕ → Option Response → Prop
  | 0, _ => past.Precached here
  | 1, _ => past.Cleared
  | i, result => past.Answered here (reqs i) result

end Past

section Handlers
variable {here : Location} {past : Past} {α β : Type}

/-- The handler does what it may, ends with `Q`, and does not throw unless `E`. -/
abbrev Abides (past : Past) (p : Handler α) (Q : Past → α → Prop) (E : Prop) : Prop :=
  p.Abides Past.May Q (fun _ _ => E) past

theorem abides_fetchAll (reqs : List Request) {Q : Past → List (Request × Response) → Prop}
    (hQ : ∀ later stored, past ⊆ later → stored.map Prod.fst = reqs →
      (∀ e ∈ stored, e.2.ok = true ∧ later.Told (.fetch e.1) (some e.2)) → Q later stored) :
    Abides past (fetchAll reqs) Q True := by
  induction reqs generalizing past Q with
  | nil => exact hQ past [] (List.Subset.refl _) rfl fun e he => absurd he List.not_mem_nil
  | cons req reqs ih =>
    refine ⟨trivial, fun response => ?_⟩
    cases response with
    | none => exact trivial
    | some response =>
      show Abides _ (if _ then _ else _) _ _
      split
      · rename_i hok
        rw [Bool.and_eq_true] at hok
        rw [Abides, Prog.abides_bind]
        refine ih fun later stored hsub hreqs hstored => ?_
        refine hQ later _ (List.Subset.trans (past.subset_seen _ _) hsub) (congrArg _ hreqs) ?_
        intro e he
        rcases List.mem_cons.mp he with rfl | he
        · exact ⟨hok.1, hsub (past.told_seen _ _)⟩
        · exact hstored e he
      · exact trivial

/-- **When it is installed, the worker has its assets.** -/
theorem abides_install : Abides [] (install here) (fun past _ => past.Precached here) True := by
  refine ⟨rfl, fun _ => ?_⟩
  show Abides _ (addAll _ _ >>= _) _ _
  rw [Abides, Prog.abides_bind, addAll, Prog.abides_bind]
  refine abides_fetchAll _ fun later stored hsub hreqs hstored => ?_
  refine ⟨⟨rfl, hsub (History.told_seen _ _ _), hstored⟩, fun done => ?_⟩
  cases done with
  | false => exact trivial
  | true => exact ⟨stored, hreqs, later.told_seen _ _⟩

/-- **When it is activated, the other caches are gone.** -/
theorem abides_activate : Abides [] activate (fun past _ => past.Cleared) False := by
  have hdelete : ∀ (keys : List Text) (past : Past), (∀ key ∈ keys, key ≠ CACHE_NAME) →
      Abides past (deleteCaches keys)
        (fun later _ => past ⊆ later ∧ ∀ key ∈ keys, later.Told (.deleteCache key) ()) False := by
    intro keys
    induction keys with
    | nil => exact fun past _ => ⟨List.Subset.refl _, fun key hkey => absurd hkey List.not_mem_nil⟩
    | cons key keys ih =>
      intro past hkeys
      refine ⟨hkeys key List.mem_cons_self, fun _ => ?_⟩
      refine (ih _ fun key hkey => hkeys key (List.mem_cons_of_mem _ hkey)).mono (fun _ _ h => h) ?_
        fun _ _ h => h
      rintro later - ⟨hsub, hdeleted⟩
      refine ⟨List.Subset.trans (past.subset_seen _ _) hsub, fun k hk => ?_⟩
      rcases List.mem_cons.mp hk with rfl | hk
      · exact hsub (past.told_seen _ _)
      · exact hdeleted k hk
  refine ⟨trivial, fun keys => ?_⟩
  show Abides _ (deleteCaches _ >>= _) _ _
  rw [Abides, Prog.abides_bind]
  refine (hdelete _ _ fun key hkey => of_decide_eq_true (List.mem_filter.mp hkey).2).mono (fun _ _ h => h) ?_
    fun _ _ h => h
  rintro later - ⟨hsub, hdeleted⟩
  refine ⟨keys, hsub (History.told_seen _ _ _), fun key hkey hne => ?_⟩
  exact hdeleted key (List.mem_filter.mpr ⟨hkey, decide_eq_true hne⟩)

theorem abides_store (req : Request) {response : Response} (hok : response.ok = true)
    (htold : past.Told (.fetch req) (some response)) :
    Abides past (store req response) (fun later _ => past ⊆ later) False := by
  refine ⟨rfl, fun _ => ⟨⟨rfl, past.told_seen _ _, fun e he => ?_⟩, fun done => ?_⟩⟩
  · obtain rfl := List.mem_singleton.mp he
    exact ⟨hok, List.mem_cons_of_mem _ htold⟩
  · exact List.Subset.trans (List.subset_cons_self _ _) (List.subset_cons_self _ _)

theorem abides_navigation {req : Request} (hnavigate : req.navigate = true) :
    Abides [] (navigation here req) (fun past result => past.Answered here req result) False := by
  have hpage : ∀ (past : Past) result, past.AnsweredPage here req result → past.Answered here req result := by
    intro past result h
    rwa [Past.Answered, if_pos hnavigate]
  refine ⟨trivial, fun response => ?_⟩
  cases response with
  | some response =>
    have htold := History.told_seen ([] : Past) (.fetch req) (some response)
    show Abides _ (if _ then _ else _) _ _
    split
    · rename_i hok
      rw [Abides, Prog.abides_bind]
      refine (abides_store req hok htold).mono (fun _ _ h => h) (fun later _ hsub => ?_) fun _ _ h => h
      exact hpage _ _ (.inl ⟨response, hsub htold, rfl⟩)
    · exact hpage _ _ (.inl ⟨response, htold, rfl⟩)
  | none =>
    have htold := History.told_seen ([] : Past) (.fetch req) none
    refine ⟨trivial, fun cached => ?_⟩
    cases cached with
    | some r =>
      refine hpage _ _ (.inr ⟨List.mem_cons_of_mem _ htold, .inl ⟨r, ?_, rfl⟩⟩)
      exact History.told_seen _ _ _
    | none =>
      refine ⟨trivial, fun offline => hpage _ _ (.inr ⟨?_, .inr ⟨?_, ?_⟩⟩)⟩
      · exact List.mem_cons_of_mem _ (List.mem_cons_of_mem _ htold)
      · exact List.mem_cons_of_mem _ (History.told_seen _ _ _)
      · exact History.told_seen _ _ _

theorem abides_revalidate {req : Request} (hnavigate : req.navigate = false) :
    Abides [] (revalidate req) (fun past result => past.Answered here req result) False := by
  have hasset : ∀ (past : Past) result, past.AnsweredAsset req result → past.Answered here req result := by
    intro past result h
    rwa [Past.Answered, if_neg (by rw [hnavigate]; exact Bool.false_ne_true)]
  -- what was cached counts, and only without it what is fetched
  have hended : ∀ (past : Past) (cached fetched : Option Response),
      past.Told (.cacheMatch CACHE_NAME req) cached → past.Told (.fetch req) fetched →
        past.Answered here req (cached.or fetched) := by
    intro past cached fetched hcached hfetched
    cases cached with
    | some r => exact hasset past _ (.inl ⟨r, hcached, rfl⟩)
    | none => exact hasset past _ (.inr ⟨hcached, hfetched⟩)
  refine ⟨rfl, fun _ => ⟨trivial, fun cached => ⟨trivial, fun response => ?_⟩⟩⟩
  have hfetched := History.told_seen
    (History.seen (History.seen ([] : Past) (.openCache CACHE_NAME) ()) (.cacheMatch CACHE_NAME req) cached)
    (.fetch req) response
  have hcached := List.mem_cons_of_mem (⟨.fetch req, response⟩ : Exchange SwOp SwOp.Reply)
    (History.told_seen (History.seen ([] : Past) (.openCache CACHE_NAME) ()) (.cacheMatch CACHE_NAME req) cached)
  have hopened := List.mem_cons_of_mem (⟨.fetch req, response⟩ : Exchange SwOp SwOp.Reply)
    (List.mem_cons_of_mem (⟨.cacheMatch CACHE_NAME req, cached⟩ : Exchange SwOp SwOp.Reply)
      (History.told_seen ([] : Past) (.openCache CACHE_NAME) ()))
  cases response with
  | none =>
    have h := hended _ cached none hcached hfetched
    rw [Option.or_none] at h
    exact h
  | some response =>
    show Abides _ (if _ then _ else _) _ _
    split
    · rename_i hok
      refine ⟨⟨rfl, hopened, fun e he => ?_⟩, fun done => ?_⟩
      · obtain rfl := List.mem_singleton.mp he
        exact ⟨hok, hfetched⟩
      · exact hended _ _ _ (List.mem_cons_of_mem _ hcached) (List.mem_cons_of_mem _ hfetched)
    · exact hended _ _ _ hcached hfetched

theorem onFetch_abides {req : Request} {p : Handler (Option Response)} (hp : onFetch here req = some p) :
    Abides [] p (fun past result => past.Answered here req result) False := by
  unfold onFetch at hp
  split at hp
  · cases hp
  · split at hp
    · cases hp
    · split at hp
      · rename_i hnavigate
        obtain rfl := Option.some.inj hp
        exact abides_navigation hnavigate
      · rename_i hnavigate
        obtain rfl := Option.some.inj hp
        exact abides_revalidate (Bool.eq_false_iff.mpr hnavigate)

end Handlers

end Winkd.ServiceWorker
