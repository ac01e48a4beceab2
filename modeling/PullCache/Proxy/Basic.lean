import PullCache.Config.Basic
import PullCache.Cooperation.Basic
import PullCache.Proxy.Exchange
import PullCache.Remote
import PullCache.Store.Basic
/-!
# Proxy.Basic

The proxy: a get is answered from the store while the copy there is fresh; otherwise the origin is
asked, by one call for all that want the same, and what it sends is kept.

A run is a sequence of events, each of which is one step of one get, of one fetch, or of a change
of settings, so that any number of them can be interleaved in any order. An event that is not
possible in a state has no result. The store is anything with the operations of a store.
-/

namespace PullCache

/-- What a fetch is doing. `copy` is the copy that was in the store when the fetch started. -/
inductive FetchPhase where
  /-- After a takeover: about to look at the store again. -/
  | recheck
  | rejudge (copy : Option Content)
  /-- About to send a request. -/
  | ask (copy : Option Content)
  | waiting (copy : Option Content) (request : OriginRequest)
  /-- An answer is there and has not been read yet. -/
  | answered (copy : Option Content) (request : OriginRequest)
      (answer : Except OriginFault OriginResponse)
  /-- The store is taking new content. -/
  | storing (copy : Option Content) (response : OriginResponse) (remote : Content)
  /-- Content that the store gave back unread is being read, so that every waiter can have it. -/
  | copying (copy : Option Content) (response : OriginResponse) (kept : Content)
  /-- The store is noting that the copy is unchanged. -/
  | verifying (copy : Content) (response : OriginResponse) (stamp : Stamp)
  /-- Done, with an outcome that nobody knows yet; without one after a panic. -/
  | ended (outcome : Option (Except Fault (Option Content)))
  /-- The outcome is published, and the key is still held. -/
  | published
  | closed

/-- The work of finding a resource at the origin, for a lease or inside a call. -/
structure Fetch where
  place : WorkPlace
  resource : Resource
  /-- Whether the outcome may have several readers. -/
  sharing : Bool
  phase : FetchPhase

/-- What a get is doing. -/
inductive GetPhase where
  | lookUp
  /-- The copy is there, and its freshness has not been looked at. -/
  | judge (cached : Option Content)
  /-- The copy is stale, and no call has been made yet. -/
  | enter (cached : Option Content)
  /-- Waits as one of the calls that share work. -/
  | called (call : Nat)
  | returned (result : Except Fault (Option Content))
  /-- The client went away before a call was made. -/
  | dropped

structure Get where
  resource : Resource
  phase : GetPhase

/-- A small step of a change of settings. -/
inductive ChangeStep where
  | setMaxAge (category : Category) (seconds : Int)
  | rotate (category : Category)
  deriving DecidableEq, Repr

/-- The proxy with a store whose states are in `σ`. -/
structure Proxy (σ : Type) where
  store : σ
  streams : Streams := .empty
  controllers : Controllers
  remote : Url
  passive : Duration
  active : Duration
  coop : Cooperation (Option Content) := {}
  gets : List Get := []
  fetches : List Fetch := []
  /-- What is left to do of each change of settings. -/
  changes : List (List ChangeStep) := []
  /-- The time on the wall when the clock of the run stands at zero. -/
  origin : Instant

/-- The steps of a run. Gets, fetches and changes are numbered in order. -/
inductive ProxyEvent where
  | request (resource : Resource)
  | lookUp (get : Nat)
  | judge (get : Nat)
  | enter (get : Nat)
  /-- A get sees the outcome of the work it waits on. -/
  | deliver (get : Nat)
  | exhaust (get : Nat)
  | takeOver (get : Nat)
  | timeOut (get : Nat)
  | drop (get : Nat)
  | recheck (fetch : Nat)
  | rejudge (fetch : Nat)
  | ask (fetch : Nat)
  /-- The origin answers, or the exchange fails. -/
  | answer (fetch : Nat) (reply : Except OriginFault Reply)
  /-- The exchange panics. -/
  | crash (fetch : Nat)
  | handle (fetch : Nat)
  | stored (fetch : Nat)
  | copied (fetch : Nat)
  | verified (fetch : Nat)
  | publish (fetch : Nat)
  | release (fetch : Nat)
  /-- A fetch inside a call ends the call. -/
  | finish (fetch : Nat)
  /-- New settings are put in place, and the rest of the change begins. -/
  | update (remote : Url) (passive active : Duration) (contentMaxAge metadataMaxAge : Int)
  | invalidate
  /-- A change of settings goes on by one step. -/
  | change (number : Nat)
  | tick (nanos : Nat)

namespace Proxy

variable {σ : Type}

/-! ## Looking at a state -/

/-- The present time. -/
def wall (p : Proxy σ) : Instant :=
  p.origin.addNanos p.coop.now

def controller (p : Proxy σ) (r : Resource) : Controller :=
  p.controllers.of r.category

/-- Whether the copy of a resource is stale at the present time. -/
def isStale (p : Proxy σ) (r : Resource) (copy : Option Content) : Bool :=
  (p.controller r).isContentStale copy p.wall

/-- The call that a get waits as. -/
def callOf? (p : Proxy σ) (g : Nat) : Option Nat :=
  match p.gets[g]?.map Get.phase with
  | some (.called c) => some c
  | _ => none

/-! ## Changing parts of a state -/

def setGet (p : Proxy σ) (g : Nat) (phase : GetPhase) : Proxy σ :=
  { p with gets := p.gets.modify g fun get => { get with phase } }

def setFetch (p : Proxy σ) (i : Nat) (phase : FetchPhase) : Proxy σ :=
  { p with fetches := p.fetches.modify i fun fetch => { fetch with phase } }

def addFetch (p : Proxy σ) (place : WorkPlace) (r : Resource) (sharing : Bool)
    (phase : FetchPhase) : Proxy σ :=
  { p with fetches := p.fetches ++ [⟨place, r, sharing, phase⟩] }

/-- The copy that a lookup found; a record without its bytes counts as no copy. -/
def foundCopy (found : Except StoreFault (Option Content)) : Except Fault (Option Content) :=
  match found with
  | .ok copy => .ok copy
  | .error fault => if fault.isInconsistency then .ok none else .error (.store fault)

/-- Ends a fetch with what it brought, and settles the body of the answer. -/
def conclude (p : Proxy σ) (i : Nat) (copy : Option Content) (response : OriginResponse)
    (fetched : Except Fault (Option Content)) : Proxy σ :=
  let (outcome, streams) := Exchange.conclude copy response fetched p.streams
  { p with streams }.setFetch i (.ended (some outcome))

/-! ## Steps of a get -/

/-- Looks the resource of a get up in the store. -/
def lookUp (ops : StoreOps σ) (p : Proxy σ) (g : Nat) : Option (Proxy σ) := do
  let get ← p.gets[g]?
  match get.phase with
  | .lookUp =>
    let (found, store) := ops.lookup p.store get.resource
    let p := { p with store }
    match foundCopy found with
    | .ok copy => some (p.setGet g (.judge copy))
    | .error fault => some (p.setGet g (.returned (.error fault)))
  | _ => none

/-- Returns a fresh copy, and goes on with a stale one. -/
def judge (p : Proxy σ) (g : Nat) : Option (Proxy σ) := do
  let get ← p.gets[g]?
  match get.phase with
  | .judge cached =>
    if p.isStale get.resource cached then some (p.setGet g (.enter cached))
    else some (p.setGet g (.returned (.ok cached)))
  | _ => none

/-- Makes a call for the resource of a get: its work starts at once if nobody else does it. -/
def enter (p : Proxy σ) (g : Nat) : Option (Proxy σ) := do
  let get ← p.gets[g]?
  match get.phase with
  | .enter cached =>
    let c := p.coop.calls.length
    let coop := p.coop.arrive get.resource.key p.passive p.active
    let p := { p with coop }.setGet g (.called c)
    match coop.calls[c]?.map Call.phase with
    | some (.leading l) => some (p.addFetch (.lease l) get.resource true (.ask cached))
    | some .alone => some (p.addFetch (.call c) get.resource false (.ask cached))
    | _ => some p
  | _ => none

/-- A step of the call that a get waits as. -/
def callStep (p : Proxy σ) (g : Nat) (e : Nat → CoopEvent (Option Content)) :
    Option (Proxy σ) := do
  let c ← p.callOf? g
  let coop ← p.coop.step (e c)
  some { p with coop }

/-- A get whose passive wait ran out takes over, with a look at the store first, or joins. -/
def takeOver (p : Proxy σ) (g : Nat) : Option (Proxy σ) := do
  let get ← p.gets[g]?
  let c ← p.callOf? g
  let l := p.coop.leases.length
  let coop ← p.coop.takeOver c
  let p := { p with coop }
  if l < coop.leases.length then some (p.addFetch (.lease l) get.resource true .recheck)
  else some p

/-- A client goes away while its get waits. -/
def drop (p : Proxy σ) (g : Nat) : Option (Proxy σ) := do
  let get ← p.gets[g]?
  match get.phase with
  | .lookUp => some (p.setGet g .dropped)
  | .called _ => p.callStep g .drop
  | _ => none

/-! ## Steps of a fetch -/

/-- A fetch that still goes on. -/
def fetch? (p : Proxy σ) (i : Nat) : Option Fetch :=
  p.fetches[i]?.filter fun fetch => p.coop.goesOn fetch.place

/-- Looks the resource up again after a takeover. -/
def recheck (ops : StoreOps σ) (p : Proxy σ) (i : Nat) : Option (Proxy σ) := do
  let fetch ← p.fetch? i
  match fetch.phase with
  | .recheck =>
    let (found, store) := ops.lookup p.store fetch.resource
    let p := { p with store }
    match foundCopy found with
    | .ok copy => some (p.setFetch i (.rejudge copy))
    | .error fault => some (p.setFetch i (.ended (some (.error fault))))
  | _ => none

/-- Ends with a copy that has become fresh in the meantime. -/
def rejudge (p : Proxy σ) (i : Nat) : Option (Proxy σ) := do
  let fetch ← p.fetch? i
  match fetch.phase with
  | .rejudge copy =>
    if p.isStale fetch.resource copy then some (p.setFetch i (.ask copy))
    else some (p.setFetch i (.ended (some (.ok copy))))
  | _ => none

/-- Sends the request, if the resource lies below the remote. -/
def ask (p : Proxy σ) (i : Nat) : Option (Proxy σ) := do
  let fetch ← p.fetch? i
  match fetch.phase with
  | .ask copy =>
    match Remote.resolve p.remote fetch.resource with
    | .error fault => some (p.setFetch i (.ended (some (.error fault))))
    | .ok url =>
      let request : OriginRequest := { url }
      some (p.setFetch i (.waiting copy (request.revalidating copy)))
  | _ => none

/-- Takes the answer in. -/
def answer (p : Proxy σ) (i : Nat) (reply : Except OriginFault Reply) : Option (Proxy σ) := do
  let fetch ← p.fetch? i
  match fetch.phase with
  | .waiting copy request =>
    match reply with
    | .error fault => some (p.setFetch i (.answered copy request (.error fault)))
    | .ok reply =>
      let (response, streams) := reply.receive p.streams
      some ({ p with streams }.setFetch i (.answered copy request (.ok response)))
  | _ => none

def crash (p : Proxy σ) (i : Nat) : Option (Proxy σ) := do
  let fetch ← p.fetch? i
  match fetch.phase with
  | .waiting .. => some (p.setFetch i (.ended none))
  | _ => none

/-- Reads the answer and begins to keep or to confirm what it brought. -/
def handle (p : Proxy σ) (i : Nat) : Option (Proxy σ) := do
  let fetch ← p.fetch? i
  match fetch.phase with
  | .answered copy _ (.error fault) =>
    some (p.setFetch i (.ended (some (Exchange.degrade copy (.ofOrigin fault)))))
  | .answered copy request (.ok response) =>
    let stamp := (p.controller fetch.resource).stampAt p.wall
    match Exchange.judge request response copy stamp with
    | .keep remote => some (p.setFetch i (.storing copy response remote))
    | .confirm copy stamp => some (p.setFetch i (.verifying copy response stamp))
    | .nothing => some (p.conclude i copy response (.ok none))
    | .fail fault => some (p.conclude i copy response (.error fault))
  | _ => none

/-- The store has taken the new content, or refused it. -/
def stored (ops : StoreOps σ) (p : Proxy σ) (i : Nat) : Option (Proxy σ) := do
  let fetch ← p.fetch? i
  match fetch.phase with
  | .storing copy response remote =>
    let (kept, store, streams) := ops.store p.store p.streams fetch.resource remote
    let p := { p with store, streams }
    match kept with
    | .error fault => some (p.conclude i copy response (.error (.store fault)))
    | .ok kept =>
      if fetch.sharing && kept.sharesStream remote then
        some (p.setFetch i (.copying copy response kept))
      else some (p.conclude i copy response (.ok (some kept)))
  | _ => none

/-- Content that the store gave back unread has been read. -/
def copied (p : Proxy σ) (i : Nat) : Option (Proxy σ) := do
  let fetch ← p.fetch? i
  match fetch.phase with
  | .copying copy response kept =>
    let (read, streams) := kept.materialize p.streams
    let p := { p with streams }
    match read with
    | .ok content => some (p.conclude i copy response (.ok (some content)))
    | .error fault => some (p.conclude i copy response (.error (.store (.ofRead fault))))
  | _ => none

/-- The store has noted that the copy is unchanged, or failed to. -/
def verified (ops : StoreOps σ) (p : Proxy σ) (i : Nat) : Option (Proxy σ) := do
  let fetch ← p.fetch? i
  match fetch.phase with
  | .verifying copy response stamp =>
    let (done, store) := ops.verify p.store fetch.resource stamp
    let p := { p with store }
    match done with
    | .ok _ => some (p.conclude i (some (copy.withStamp stamp)) response (.ok none))
    | .error fault => some (p.conclude i (some copy) response (.error (.store fault)))
  | _ => none

/-- The outcome of a fetch for a lease is published. -/
def publish (p : Proxy σ) (i : Nat) : Option (Proxy σ) := do
  let fetch ← p.fetch? i
  match fetch.phase, fetch.place with
  | .ended outcome, .lease l =>
    let coop ← p.coop.publish l outcome
    some ({ p with coop }.setFetch i .published)
  | _, _ => none

/-- A fetch for a lease gives up its key. -/
def release (p : Proxy σ) (i : Nat) : Option (Proxy σ) := do
  let fetch ← p.fetch? i
  match fetch.phase, fetch.place with
  | .published, .lease l =>
    let coop ← p.coop.release l
    some ({ p with coop }.setFetch i .closed)
  | _, _ => none

/-- A fetch inside a call ends the call. -/
def finish (p : Proxy σ) (i : Nat) : Option (Proxy σ) := do
  let fetch ← p.fetch? i
  match fetch.phase, fetch.place with
  | .ended outcome, .call c =>
    let coop ← p.coop.finish c outcome
    some ({ p with coop }.setFetch i .closed)
  | _, _ => none

/-! ## Settings -/

/-- Makes every stamp issued so far stale, one category after the other. -/
def invalidationSteps : List ChangeStep :=
  [.rotate .content, .rotate .metadata]

/-- Puts a remote and timeouts in place. Maximum ages follow, and if the remote is another one, all
copies become stale after that. -/
def beginUpdate (p : Proxy σ) (remote : Url) (passive active : Duration)
    (contentMaxAge metadataMaxAge : Int) : Proxy σ :=
  let steps := [.setMaxAge .content contentMaxAge, .setMaxAge .metadata metadataMaxAge]
    ++ (if p.remote.text = remote.text then [] else invalidationSteps)
  { p with remote, passive, active, changes := p.changes ++ [steps] }

def applyChange (cs : Controllers) : ChangeStep → Controllers
  | .setMaxAge category seconds => cs.setMaxAge category seconds
  | .rotate category => cs.rotate category

/-- The next step of a change of settings. -/
def change (p : Proxy σ) (n : Nat) : Option (Proxy σ) := do
  match ← p.changes[n]? with
  | [] => none
  | step :: rest =>
    some { p with
      controllers := applyChange p.controllers step
      changes := p.changes.set n rest }

/-! ## Runs -/

/-- The state after an event, if the event is possible. -/
def step (ops : StoreOps σ) (p : Proxy σ) : ProxyEvent → Option (Proxy σ)
  | .request resource => some { p with gets := p.gets ++ [⟨resource, .lookUp⟩] }
  | .lookUp g => p.lookUp ops g
  | .judge g => p.judge g
  | .enter g => p.enter g
  | .deliver g => p.callStep g .deliver
  | .exhaust g => p.callStep g .exhaust
  | .takeOver g => p.takeOver g
  | .timeOut g => p.callStep g .timeOut
  | .drop g => p.drop g
  | .recheck i => p.recheck ops i
  | .rejudge i => p.rejudge i
  | .ask i => p.ask i
  | .answer i reply => p.answer i reply
  | .crash i => p.crash i
  | .handle i => p.handle i
  | .stored i => p.stored ops i
  | .copied i => p.copied i
  | .verified i => p.verified ops i
  | .publish i => p.publish i
  | .release i => p.release i
  | .finish i => p.finish i
  | .update remote passive active contentMaxAge metadataMaxAge =>
    some (p.beginUpdate remote passive active contentMaxAge metadataMaxAge)
  | .invalidate => some { p with changes := p.changes ++ [invalidationSteps] }
  | .change n => p.change n
  | .tick nanos => some { p with coop := { p.coop with now := p.coop.now + nanos } }

/-- The state after a sequence of events, if all of them are possible in turn. -/
def run (ops : StoreOps σ) (p : Proxy σ) : List ProxyEvent → Option (Proxy σ)
  | [] => some p
  | e :: rest => do
    let p ← p.step ops e
    run ops p rest

/-- The state after an event that is known to be possible; an impossible event changes nothing. -/
def after (ops : StoreOps σ) (p : Proxy σ) (e : ProxyEvent) : Proxy σ :=
  (p.step ops e).getD p

/-- What a get has come to: nothing yet, a panic of its own work, or a result. -/
inductive GetState where
  | running
  | panicked
  | dropped
  | returned (result : Except Fault (Option Content))

/-- The state of a get. -/
def getState (p : Proxy σ) (g : Nat) : GetState :=
  match p.gets[g]?.map Get.phase with
  | some (.returned result) => .returned result
  | some .dropped => .dropped
  | some (.called c) =>
    match p.coop.calls[c]?.map Call.phase with
    | some (.returned result) => .returned result
    | some .panicked => .panicked
    | some .dropped => .dropped
    | _ => .running
  | _ => .running

/-! ## Starting and changing -/

/-- A proxy with given settings, at a given time. -/
def new (config : Config) (store : σ) (origin : Instant) : Except Fault (Proxy σ) :=
  match Remote.normalize config.proxy.remoteUrl with
  | .error fault => .error fault
  | .ok remote => .ok {
      store, remote, origin
      controllers := .new config.proxy.contentMaxAge config.proxy.metadataMaxAge
      passive := config.cooperation.passiveTimeout
      active := config.cooperation.activeTimeout }

/-- Performs all that is left of a change of settings. -/
def completeChange (p : Proxy σ) (n : Nat) : Proxy σ :=
  { p with
    controllers := ((p.changes[n]?.getD []).foldl applyChange p.controllers)
    changes := p.changes.set n [] }

/-- Puts new settings in place as a whole, and tells whether their remote can be used. -/
def update (p : Proxy σ) (config : Config) : Except Fault Unit × Proxy σ :=
  match Remote.normalize config.proxy.remoteUrl with
  | .error fault => (.error fault, p)
  | .ok remote =>
    (.ok (), (p.beginUpdate remote config.cooperation.passiveTimeout
      config.cooperation.activeTimeout config.proxy.contentMaxAge
      config.proxy.metadataMaxAge).completeChange p.changes.length)

/-- Makes every copy stale. -/
def invalidate (p : Proxy σ) : Proxy σ :=
  { p with changes := p.changes ++ [invalidationSteps] }.completeChange p.changes.length

/-- The proxy as diagnostics show it. -/
def describe (p : Proxy σ) : String :=
  "ProxyFacet \x7b remote_url: " ++ String.ofList (Text.quoted p.remote.text.toList)
    ++ ", cooperation: " ++ p.coop.describe p.passive p.active ++ ", .. \x7d"

end Proxy

end PullCache
