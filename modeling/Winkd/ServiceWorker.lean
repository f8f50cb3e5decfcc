import Winkd.Histories
import Winkd.Strings

/-!
# The service worker

`sw.js`: what it installs, which caches it deletes when it is activated, and how it answers the
requests of the pages.  Its handlers are programs on the caches and the network, and their steps
interleave.

The caches are those of the specification.  A cache is searched by URL, and by the request headers that
a stored answer's `Vary` names; `put` replaces what it finds, and rejects a partial answer and one that varies on
everything.  What the network would answer can change at any time, and so can the room that there is.

`cache.put` is not awaited: that it comes before the answer here is one of the orders in which the page can see
them.
-/

namespace Winkd.ServiceWorker
open Winkd.Server Threads

/-! ## Requests and caches -/

structure Request where
  method : Text
  origin : Text
  hostname : Text
  /-- Without the fragment. -/
  url : Text
  /-- `mode==='navigate'` -/
  navigate : Bool
  headers : Text → Option Text

structure Response where
  status : ℕ
  /-- The header names of `Vary`. -/
  vary : List Text
  body : Text

def Response.ok (r : Response) : Bool := 200 ≤ r.status && r.status ≤ 299

/-- `put` and `addAll` accept the answer. -/
def Response.storable (r : Response) : Bool := r.status ≠ 206 && !r.vary.contains "*".toList

abbrev Cache : Type := List (Request × Response)

/-- The request matches what is stored. -/
def Request.matches (req : Request) (stored : Request × Response) : Bool :=
  stored.1.url = req.url && stored.2.vary.all fun header => stored.1.headers header = req.headers header

def Cache.match? (cache : Cache) (req : Request) : Option Response :=
  (cache.find? req.matches).map Prod.snd

def Cache.put (cache : Cache) (stored : Request × Response) : Cache :=
  (cache.filter fun e => !stored.1.matches e) ++ [stored]

/-- The caches of the origin, and what is outside. -/
structure Browser where
  /-- In the order in which they were made. -/
  caches : List (Text × Cache)
  /-- What a request would now be answered, unless it fails. -/
  network : Request → Option Response
  /-- There is no room. -/
  full : Bool

namespace Browser

def names (b : Browser) : List Text := b.caches.map Prod.fst

def openCache (b : Browser) (name : Text) : Browser :=
  if b.caches.any fun c => c.1 = name then b else { b with caches := b.caches ++ [(name, [])] }

def deleteCache (b : Browser) (name : Text) : Browser :=
  { b with caches := b.caches.filter fun c => c.1 ≠ name }

def cache (b : Browser) (name : Text) : Cache := ((b.caches.find? fun c => c.1 = name).map Prod.snd).getD []

/-- `caches.match(request)` -/
def cachesMatch (b : Browser) (req : Request) : Option Response :=
  b.caches.findSome? fun c => c.2.match? req

def putAll (b : Browser) (name : Text) (stored : List (Request × Response)) : Browser :=
  { b with caches := b.caches.map fun c => if c.1 = name then (c.1, stored.foldl Cache.put c.2) else c }

end Browser

/-! ## What a handler asks for -/

inductive SwOp where
  | fetch (req : Request)
  | openCache (name : Text)
  | cacheKeys
  | deleteCache (name : Text)
  | cacheMatch (name : Text) (req : Request)
  | cachesMatch (req : Request)
  /-- A put, or the puts that `addAll` ends with, which are done together or not at all. -/
  | cachePut (name : Text) (stored : List (Request × Response))

abbrev SwOp.Reply : SwOp → Type
  | .fetch _ => Option Response
  | .openCache _ => Unit
  | .cacheKeys => List Text
  | .deleteCache _ => Unit
  | .cacheMatch _ _ => Option Response
  | .cachesMatch _ => Option Response
  | .cachePut _ _ => Bool

def answer : Prog.Handler SwOp SwOp.Reply Browser
  | .fetch req, b => (b.network req, b)
  | .openCache name, b => ((), b.openCache name)
  | .cacheKeys, b => (b.names, b)
  | .deleteCache name, b => ((), b.deleteCache name)
  | .cacheMatch name req, b => ((b.cache name).match? req, b)
  | .cachesMatch req, b => (b.cachesMatch req, b)
  | .cachePut name stored, b =>
    if b.full || !stored.all fun e => e.2.storable then (false, b) else (true, b.putAll name stored)

/-- What a promise rejects with. -/
inductive SwError where
  | typeError
  | quotaExceeded

/-- A handler of the worker; a fetch is answered with `none` where the page gets a network error. -/
abbrev Handler (α : Type) : Type := Prog SwOp SwOp.Reply SwError α

/-! ## `sw.js` -/

def CACHE_NAME : Text := "winkd-v3".toList

def OFFLINE_URL : Text := "/app.html".toList

def PRECACHE_ASSETS : List Text := ["/app.html".toList, "/login.html".toList, "/manifest.json".toList]

/-- Where the worker runs. -/
structure Location where
  origin : Text
  hostname : Text

/-- `new Request(path)` -/
def Location.request (here : Location) (path : Text) : Request :=
  ⟨"GET".toList, here.origin, here.hostname, here.origin ++ path, false, fun _ => none⟩

/-- The fetches of `addAll`, which it waits for. -/
def fetchAll : List Request → Handler (List (Request × Response))
  | [] => pure []
  | req :: reqs => do
    match ← Prog.ask (SwOp.fetch req) with
    | none => .throw .typeError
    | some response =>
      if response.ok && response.storable then do
        let stored ← fetchAll reqs
        pure ((req, response) :: stored)
      else .throw .typeError

/-- `cache.addAll(requests)` -/
def addAll (name : Text) (reqs : List Request) : Handler Unit := do
  let stored ← fetchAll reqs
  let done ← Prog.ask (SwOp.cachePut name stored)
  if done then pure () else .throw .quotaExceeded

/-- The handler of `install`. -/
def install (here : Location) : Handler (Option Response) := do
  Prog.ask (SwOp.openCache CACHE_NAME)
  addAll CACHE_NAME (PRECACHE_ASSETS.map here.request)
  pure none

def deleteCaches : List Text → Handler Unit
  | [] => pure ()
  | key :: keys => do
    Prog.ask (SwOp.deleteCache key)
    deleteCaches keys

/-- The handler of `activate`. -/
def activate : Handler (Option Response) := do
  let keys ← Prog.ask SwOp.cacheKeys
  deleteCaches (keys.filter (· ≠ CACHE_NAME))
  pure none

/-- `caches.open(CACHE_NAME).then(cache => cache.put(request,response))`; a rejection is not seen. -/
def store (req : Request) (response : Response) : Handler Unit := do
  Prog.ask (SwOp.openCache CACHE_NAME)
  let _ ← Prog.ask (SwOp.cachePut CACHE_NAME [(req, response)])
  pure ()

/-- Network first, then the page that is cached, then the offline page. -/
def navigation (here : Location) (req : Request) : Handler (Option Response) := do
  match ← Prog.ask (SwOp.fetch req) with
  | some response => do
    if response.ok then store req response else pure ()
    pure (some response)
  | none => do
    match ← Prog.ask (SwOp.cachesMatch req) with
    | some cached => pure (some cached)
    | none => Prog.ask (SwOp.cachesMatch (here.request OFFLINE_URL))

/-- Stale while revalidate. -/
def revalidate (req : Request) : Handler (Option Response) := do
  Prog.ask (SwOp.openCache CACHE_NAME)
  let cached ← Prog.ask (SwOp.cacheMatch CACHE_NAME req)
  match ← Prog.ask (SwOp.fetch req) with
  | some response => do
    let _ ← if response.ok then Prog.ask (SwOp.cachePut CACHE_NAME [(req, response)]) else pure false
    pure (cached.or (some response))
  | none => pure cached

/-- The handler of `fetch`, where it calls `respondWith`. -/
def onFetch (here : Location) (req : Request) : Option (Handler (Option Response)) :=
  if req.method ≠ "GET".toList then none
  else if req.origin ≠ here.origin ∧ ¬ "imgur.com".toList <:+: req.hostname then none
  else if req.navigate then some (navigation here req)
  else some (revalidate req)

/-! ## The worker -/

/-- The worker: its handlers on the caches.  The first is that of `install`, the second that of
`activate`, the others are those of the requests. -/
abbrev Worker : Type := Pool SwOp SwOp.Reply SwError (Option Response) Browser

abbrev Trace : Type := List (Entry SwOp SwOp.Reply Browser)

inductive Event where
  | install
  | activate
  | fetch (req : Request)
  | step (task : ℕ)
  /-- The network, or the room that there is, changes. -/
  | outside (network : Request → Option Response) (full : Bool)

namespace Worker
variable (here : Location)

def next (w : Worker) : Event → Worker
  | .install => Pool.next answer w (.start (install here))
  | .activate => Pool.next answer w (.start activate)
  | .fetch req =>
    match onFetch here req with
    | none => w
    | some p => Pool.next answer w (.start p)
  | .step task => Pool.next answer w (.answer task)
  | .outside network full => Pool.next answer w (.outside { w.state with network := network, full := full })

/-- The handler of `install` has ended, and has not thrown. -/
def Installed (w : Worker) : Prop := w.tasks[0]? = some (.pure none)

/-- The handler of `activate` has ended. -/
def Activated (w : Worker) : Prop := w.tasks[1]? = some (.pure none)

/-- The life of a worker: it is installed, then activated, and then gets the requests, of which
request `i` is `reqs i`.  The network is always as `P` says. -/
def Lives (reqs : ℕ → Request) (P : (Request → Option Response) → Prop) (w : Worker) : Event → Prop
  | .install => w.tasks = []
  | .activate => w.Installed ∧ w.tasks.length = 1
  | .fetch req => w.Activated ∧ reqs w.tasks.length = req
  | .step _ => True
  | .outside network _ => P network

/-- The states that a worker can come to which finds these caches. -/
def Reached (reqs : ℕ → Request) (P : (Request → Option Response) → Prop) (found : List (Text × Cache))
    (w : Worker) : Prop :=
  ∃ network full, P network ∧
    Transitions.Reaches (next here) (Lives reqs P) (Pool.idle ⟨found, network, full⟩) w

end Worker
end Winkd.ServiceWorker
