import PullCache.Origin.Http
import PullCache.Proxy.Basic
import PullCache.Store.Memory
/-!
# Proxy.Single

One get from its start to its end with nobody else around. The origin is a function with a state of
its own, which also says how many nanoseconds it takes for its answer.
-/

namespace PullCache.Proxy

variable {σ ω : Type} (ops : StoreOps σ)

/-- Lets events happen in turn, each if it is possible. -/
def afterAll (p : Proxy σ) (events : List ProxyEvent) : Proxy σ :=
  events.foldl (after ops) p

/-- Lets the origin answer the request of a fetch, if the fetch has made one. -/
def exchange (origin : OriginRequest → ω → Except OriginFault Reply × Nat × ω) (p : Proxy σ)
    (w : ω) (i : Nat) : Proxy σ × ω :=
  match p.fetches[i]?.map Fetch.phase with
  | some (.waiting _ request) =>
    let (reply, nanos, w) := origin request w
    (p.afterAll ops [.tick nanos, .answer i reply], w)
  | _ => (p, w)

/-- Gets a resource. -/
def get (origin : OriginRequest → ω → Except OriginFault Reply × Nat × ω) (p : Proxy σ) (w : ω)
    (r : Resource) : Except Fault (Option Content) × Proxy σ × ω :=
  let g := p.gets.length
  let i := p.fetches.length
  let p := p.afterAll ops [.request r, .lookUp g, .judge g, .enter g, .ask i]
  let (p, w) := p.exchange ops origin w i
  let p := p.afterAll ops
    [.handle i, .stored i, .copied i, .verified i, .publish i, .release i, .finish i, .deliver g]
  match p.getState g with
  | .returned result => (result, p, w)
  | _ => (.error (.aborted r.key.text), p, w)

end PullCache.Proxy

namespace PullCache

/-- The proxy as it runs: a store in memory and the origin over HTTP. -/
structure Service where
  proxy : Proxy MemoryStore
  origin : HttpOrigin

namespace Service

/-- A proxy with given settings, or the messages that tell why there is none, outermost first. -/
def new (config : Config) (now : Instant) : Except (List String) Service := do
  let block := AutoBlock.new config.proxy.remoteUrl config.autoBlock.policy
  let origin ← HttpOrigin.new config.http block
  match Proxy.new config (MemoryStore.empty config.storage.maxBlobBytes.toNat) now with
  | .ok proxy => .ok ⟨proxy, origin⟩
  | .error fault => .error ["Failed to create proxy facet", fault.message]

/-- Gets a resource at a time. -/
def get (carry : Carrier) (now : Instant) (s : Service) (r : Resource) :
    Except Fault (Option Content) × Service :=
  let fetch (request : OriginRequest) (origin : HttpOrigin) :=
    let (reply, origin) := origin.fetch carry now request
    (reply, 0, origin)
  let (result, proxy, origin) :=
    Proxy.get MemoryStore.ops fetch { s.proxy with origin := now } s.origin r
  (result, ⟨proxy, origin⟩)

end Service

end PullCache
