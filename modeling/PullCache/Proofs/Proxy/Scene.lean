import PullCache.Proofs.Content.Body
import PullCache.Proofs.Cooperation.Step
import PullCache.Proofs.Freshness
import PullCache.Proofs.Proxy.Exchange
import PullCache.Proofs.Proxy.Step
import PullCache.Proofs.Store.Memory
/-!
# Proofs.Proxy.Scene

Gets that want the same resource. A *scene* is a proxy over a store in memory that is idle, a resource
of which it has no copy, and the answers that the origin gives, each with a body that the store can
take. `Shared` says what the proxy looks like in the middle of any number of gets for the resource:
every copy that anyone holds was brought by an answer, all leases but the last have given up the key,
and the table holds the last one for as long as its fetch goes on.

`Move` lists what a step can do in such a state. It is much less than what a step can do at all.
-/

namespace PullCache

/-! ## Answers that a store can take -/

/-- The length of a body that is known before it is read, true or not. -/
def BodySource.declared? : BodySource → Option Nat
  | .bytes all => some all.length
  | .chunks _ declared => declared

/-- The answer brings bytes that a store of a certain capacity can take. -/
structure Reply.Brings (reply : Reply) (capacity : Nat) (bytes : Bytes) : Prop where
  status : reply.status = 200
  body : reply.body.bind BodySource.bytes? = some bytes
  fits : bytes.length ≤ capacity
  declared : ∀ n, reply.body.bind BodySource.declared? = some n → n ≤ capacity

/-- An answer of certain bytes and nothing else. -/
def Reply.ofBytes (bytes : Bytes) : Reply := { status := 200, body := some (.bytes bytes) }

/-- A reply made of bytes that fit brings those bytes. -/
theorem Reply.ofBytes_brings {capacity : Nat} {bytes : Bytes} (h : bytes.length ≤ capacity) :
    (ofBytes bytes).Brings capacity bytes where
  status := rfl
  body := rfl
  fits := h
  declared n hn := by
    cases hn
    exact h

/-- An answer brings only one body. -/
theorem Reply.Brings.unique {reply : Reply} {capacity : Nat} {bytes bytes' : Bytes}
    (h : reply.Brings capacity bytes) (h' : reply.Brings capacity bytes') : bytes' = bytes :=
  Option.some.inj (h'.body.symm.trans h.body)

/-- The content that an answer brings with its bytes, under a stamp. -/
def Reply.content (reply : Reply) (bytes : Bytes) (stamp : Stamp) : Content :=
  ⟨.buffered bytes, ⟨reply.lastModified, reply.etag, reply.contentType, some stamp⟩⟩

/-- The answer as the fetch sees it, with its body opened. -/
def Reply.opened (reply : Reply) (body : Payload) : OriginResponse :=
  { status := 200, body := some body, lastModified := reply.lastModified, etag := reply.etag,
    contentType := reply.contentType }

/-- An answer that the store can take is opened with a body that the store can read. -/
theorem Reply.Brings.receive {reply : Reply} {capacity : Nat} {bytes : Bytes}
    (h : reply.Brings capacity bytes) (s : Streams) :
    ∃ body, (reply.receive s).1 = reply.opened body ∧
      (body.readLimited capacity (reply.receive s).2).1 = .ok (some bytes) := by
  obtain ⟨status, body, lastModified, etag, contentType⟩ := reply
  obtain rfl : status = 200 := h.status
  cases body with
  | none => exact absurd h.body (by simp)
  | some source =>
    cases source with
    | bytes all =>
      cases h.body
      exact ⟨.buffered bytes, rfl, by rw [Payload.readLimited_buffered h.fits]⟩
    | chunks list declared =>
      have hread : Chunk.readAll list = .ok bytes := by
        have hbytes := h.body
        simp only [Option.bind_some, BodySource.bytes?] at hbytes
        cases hr : Chunk.readAll list with
        | error fault => rw [hr] at hbytes; contradiction
        | ok all => rw [hr] at hbytes; cases hbytes; rfl
      refine ⟨.streaming ⟨s.open?.length, declared⟩, rfl, ?_⟩
      refine Payload.readLimited_streaming (fun n hn => h.declared n hn) hread h.fits ?_
      simp [Reply.receive, BodySource.payload, Streams.add, Streams.take]

/-! ## Leases by what waiters see of them -/

/-- The key of a lease, its outcome, and whether its work has given up the key. -/
def Lease.tag {α : Type} (lease : Lease α) : Key × Option (Except Fault α) × Bool :=
  (lease.key, lease.outcome, lease.released)

def Cooperation.tags {α : Type} (s : Cooperation α) :
    List (Key × Option (Except Fault α) × Bool) :=
  s.leases.map Lease.tag

namespace Cooperation

variable {α : Type} {s : Cooperation α}

theorem length_tags : s.tags.length = s.leases.length := by
  rw [tags, List.length_map]

/-- The tag of a lease is its key, its outcome and whether it gave up the key. -/
theorem tags_eq_some {l : Nat} {k : Key} {outcome : Option (Except Fault α)} {released : Bool} :
    s.tags[l]? = some (k, outcome, released) ↔ ∃ lease, s.leases[l]? = some lease ∧
      lease.key = k ∧ lease.outcome = outcome ∧ lease.released = released := by
  rw [tags, List.getElem?_map, Option.map_eq_some_iff]
  simp only [Lease.tag, Prod.mk.injEq]

/-- A change of one lease changes at most its tag. -/
theorem tags_modify (l : Nat) (change : Lease α → Lease α)
    (next : Key × Option (Except Fault α) × Bool → Key × Option (Except Fault α) × Bool)
    (h : ∀ lease, (change lease).tag = next lease.tag) :
    (s.leases.modify l change).map Lease.tag = s.tags.modify l next := by
  apply List.ext_getElem?
  intro i
  rw [List.getElem?_map, List.getElem?_modify, List.getElem?_modify, tags, List.getElem?_map]
  cases s.leases[i]? with
  | none => rfl
  | some lease => by_cases hi : l = i <;> simp [hi, h]

theorem tags_countWaiter (l : Nat) (change : Int) : (s.countWaiter l change).tags = s.tags :=
  (tags_modify l (fun lease => { lease with waiters := lease.waiters + change }) id
    fun _ => rfl).trans (List.modify_id ..)

theorem tags_leave (c : Nat) (phase next : CallPhase α) : (s.leave c phase next).tags = s.tags := by
  rw [leave_eq]
  cases phase.followed? with
  | none => rfl
  | some l => exact tags_countWaiter l (-1)

end Cooperation

/-! ## Scenes -/

/-- A lookup in a store in memory never fails: at worst it finds no copy. -/
theorem Proxy.foundCopy_lookup (m : MemoryStore) (r : Resource) :
    ∃ copy, foundCopy (m.lookup r) = .ok copy := by
  unfold MemoryStore.lookup
  cases m.record? r with
  | none => exact ⟨none, rfl⟩
  | some record =>
    cases hb : m.blob? record.blob with
    | none => exact ⟨none, by simp [hb, MemoryStore.copyOf, Except.map, foundCopy,
        StoreFault.isInconsistency]⟩
    | some bytes => exact ⟨_, by simp [hb, MemoryStore.copyOf, Except.map, foundCopy]; rfl⟩

/-- An idle proxy, a resource that many want, and the answers of the origin. -/
structure Scene where
  start : Proxy MemoryStore
  resource : Resource
  replies : List Reply

/-- Nothing comes between the gets for a resource and answers that the store can take: no wait runs
out, no client leaves, the origin always answers, and settings stay. -/
def Undisturbed (capacity : Nat) (r : Resource) : ProxyEvent → Prop
  | .request r' => r' = r
  | .answer _ reply => ∃ answer bytes, reply = .ok answer ∧ answer.Brings capacity bytes
  | .exhaust _ | .drop _ | .crash _ | .update .. | .invalidate | .change _ => False
  | _ => True

/-- Nobody has asked the proxy for anything yet. It shares work, it has no copy of the resource, and
the resource lies below its remote. -/
structure Idle (start : Proxy MemoryStore) (r : Resource) : Prop where
  gets : start.gets = []
  fetches : start.fetches = []
  coop : start.coop = {}
  sharing : start.passive.nanos ≠ 0
  numbered : start.store.WellNumbered
  uncached : ∀ c, start.store.lookup r ≠ .ok (some c)
  below : ∃ url, Remote.resolve start.remote r = .ok url

namespace Scene

variable (S : Scene)

/-- The capacity of the store. -/
def capacity : Nat := S.start.store.capacity

/-- The controller of the resource. -/
def controller : Controller := S.start.controller S.resource

/-- An answer of the scene brought the content, and it was stamped after the start. -/
def Brought (c : Content) : Prop :=
  ∃ reply bytes, ∃ taken : Int, reply ∈ S.replies ∧ reply.Brings S.capacity bytes ∧ 0 ≤ taken ∧
    c = reply.content bytes (S.controller.stampAt (S.start.origin.addNanos taken))

/-- An answer of the scene whose body has been opened and not been read. -/
def Opened (s : Streams) (response : OriginResponse) : Prop :=
  ∃ reply bytes body, reply ∈ S.replies ∧ reply.Brings S.capacity bytes ∧
    response = reply.opened body ∧ (body.readLimited S.capacity s).1 = .ok (some bytes)

/-- Content that an answer of the scene brought, as soon as the store has read it. -/
def Readable (s : Streams) (remote : Content) : Prop :=
  ∃ bytes, (remote.payload.readLimited S.capacity s).1 = .ok (some bytes) ∧
    S.Brought ⟨.buffered bytes, remote.attributes⟩

/-- What a fetch can be doing, together with the outcome of its lease and whether it is released. -/
inductive Stage (s : Streams) :
    FetchPhase → Option (Except Fault (Option Content)) → Bool → Prop where
  | ask : Stage s (.ask none) none false
  | waiting (request : OriginRequest) : Stage s (.waiting none request) none false
  | answered (request : OriginRequest) (response : OriginResponse) (opened : S.Opened s response) :
    Stage s (.answered none request (.ok response)) none false
  | storing (response : OriginResponse) (remote : Content) (readable : S.Readable s remote) :
    Stage s (.storing none response remote) none false
  | ended (c : Content) (brought : S.Brought c) : Stage s (.ended (some (.ok (some c)))) none false
  | published (c : Content) (brought : S.Brought c) :
    Stage s .published (some (.ok (some c))) false
  | closed (c : Content) (brought : S.Brought c) : Stage s .closed (some (.ok (some c))) true

/-- What a get can be doing when there are that many calls. -/
inductive GetStage (calls : Nat) : GetPhase → Prop where
  | lookUp : GetStage calls .lookUp
  | judge (copy : Option Content) (brought : ∀ c, copy = some c → S.Brought c) :
    GetStage calls (.judge copy)
  | enter : GetStage calls (.enter none)
  | called (c : Nat) (there : c < calls) : GetStage calls (.called c)
  | returned (c : Content) (brought : S.Brought c) : GetStage calls (.returned (.ok (some c)))

/-- What a call can be doing when there are that many leases. -/
inductive CallStage (leases : Nat) : CallPhase (Option Content) → Prop where
  | leading (l : Nat) (there : l < leases) : CallStage leases (.leading l)
  | following (l deadline : Nat) (there : l < leases) : CallStage leases (.following l deadline)
  | returned (c : Content) (brought : S.Brought c) : CallStage leases (.returned (.ok (some c)))

/-- Fetches and leases belong together. The first `done` of them are over; there is at most one
more, and the table holds it. -/
structure Works (p : Proxy MemoryStore) (done : Nat) : Prop where
  fetches : ∀ (i : Nat) (fetch : Fetch), p.fetches[i]? = some fetch → ∃ outcome released,
    fetch = ⟨.lease i, S.resource, true, fetch.phase⟩ ∧
    p.coop.tags[i]? = some (S.resource.key, outcome, released) ∧
    S.Stage p.streams fetch.phase outcome released
  closed : ∀ (i : Nat) (fetch : Fetch), p.fetches[i]? = some fetch → (fetch.phase = .closed ↔ i < done)
  length : p.coop.leases.length = p.fetches.length
  table : p.coop.table = [] ∧ p.fetches.length = done ∨
    p.coop.table = [(S.resource.key, done)] ∧ p.fetches.length = done + 1

/-- The proxy in the middle of a scene. -/
structure Shared (p : Proxy MemoryStore) : Prop where
  remote : p.remote = S.start.remote
  controllers : p.controllers = S.start.controllers
  passive : p.passive = S.start.passive
  origin : p.origin = S.start.origin
  capacity : p.store.capacity = S.capacity
  numbered : p.store.WellNumbered
  found : ∀ c, p.store.lookup S.resource = .ok (some c) → S.Brought c
  gets : ∀ (g : Nat) (get : Get), p.gets[g]? = some get →
    get.resource = S.resource ∧ S.GetStage p.coop.calls.length get.phase
  calls : ∀ (c : Nat) (call : Call (Option Content)), p.coop.calls[c]? = some call →
    S.CallStage p.coop.leases.length call.phase
  works : ∃ done, S.Works p done

/-! ## Moves -/

/-- How a get goes on without a call. -/
inductive GetTurn (g : Nat) : GetPhase → ProxyEvent → GetPhase → Prop where
  | found (copy : Option Content) (brought : ∀ c, copy = some c → S.Brought c) :
    GetTurn g .lookUp (.lookUp g) (.judge copy)
  | stale : GetTurn g (.judge none) (.judge g) (.enter none)
  | fresh (c : Content) (brought : S.Brought c) :
    GetTurn g (.judge (some c)) (.judge g) (.returned (.ok (some c)))

/-- How a fetch goes on, and what the state is but for the new phase of the fetch. -/
inductive FetchTurn (p : Proxy MemoryStore) (i : Nat) :
    FetchPhase → ProxyEvent → FetchPhase → Proxy MemoryStore → Prop where
  | asked (request : OriginRequest) :
    FetchTurn p i (.ask none) (.ask i) (.waiting none request) p
  | answered (request : OriginRequest) (reply : Reply) (response : OriginResponse)
      (streams : Streams) (opened : S.Opened streams response) :
    FetchTurn p i (.waiting none request) (.answer i (.ok reply))
      (.answered none request (.ok response)) { p with streams }
  | handled (request : OriginRequest) (response : OriginResponse) (remote : Content)
      (readable : S.Readable p.streams remote) :
    FetchTurn p i (.answered none request (.ok response)) (.handle i)
      (.storing none response remote) p
  | stored (response : OriginResponse) (remote : Content) (bytes : Bytes) (attributes : Attributes)
      (streams : Streams) (brought : S.Brought ⟨.buffered bytes, attributes⟩) :
    FetchTurn p i (.storing none response remote) (.stored i)
      (.ended (some (.ok (some ⟨.buffered bytes, attributes⟩))))
      { p with store := p.store.keep S.resource bytes attributes, streams }
  | published (c : Content) (brought : S.Brought c) :
    FetchTurn p i (.ended (some (.ok (some c)))) (.publish i) .published
      { p with coop := { p.coop with leases := p.coop.leases.modify i fun lease =>
        { lease with outcome := some (.ok (some c)) } } }
  | released :
    FetchTurn p i .published (.release i) .closed
      { p with coop := { p.coop with
        leases := p.coop.leases.modify i fun lease => { lease with released := true }
        table := [] } }

/-- What a step does in the middle of a scene. -/
inductive Move (p : Proxy MemoryStore) : ProxyEvent → Proxy MemoryStore → Prop where
  | request : Move p (.request S.resource) { p with gets := p.gets ++ [⟨S.resource, .lookUp⟩] }
  | get {before after : GetPhase} {e : ProxyEvent} (g : Nat)
      (found : p.gets[g]? = some ⟨S.resource, before⟩) (turn : S.GetTurn g before e after) :
    Move p e (p.setGet g after)
  | follow (g l : Nat) (call : Call (Option Content))
      (found : p.gets[g]? = some ⟨S.resource, .enter none⟩) (there : l < p.coop.leases.length)
      (phase : call.phase = .following l (p.coop.now + p.passive.nanos))
      (held : p.coop.table ≠ []) :
    Move p (.enter g) ({ p with coop := { p.coop.countWaiter l 1 with
      calls := p.coop.calls ++ [call] } }.setGet g (.called p.coop.calls.length))
  | lead (g : Nat) (call : Call (Option Content))
      (found : p.gets[g]? = some ⟨S.resource, .enter none⟩)
      (phase : call.phase = .leading p.coop.leases.length) (free : p.coop.table = []) :
    Move p (.enter g)
      (({ p with coop := { p.coop.startLease S.resource.key p.coop.calls.length false with
        calls := p.coop.calls ++ [call] } }.setGet g (.called p.coop.calls.length)).addFetch
          (.lease p.coop.leases.length) S.resource true (.ask none))
  | deliver (g c : Nat) (call : Call (Option Content)) (content : Content)
      (found : p.coop.calls[c]? = some call) (live : call.phase.isLive = true)
      (brought : S.Brought content) :
    Move p (.deliver g)
      { p with coop := p.coop.leave c call.phase (.returned (.ok (some content))) }
  | fetch {before after : FetchPhase} {e : ProxyEvent} {next : Proxy MemoryStore} (i : Nat)
      (found : p.fetches[i]? = some ⟨.lease i, S.resource, true, before⟩)
      (turn : S.FetchTurn p i before e after next) :
    Move p e (next.setFetch i after)
  | tick (nanos : Nat) :
    Move p (.tick nanos) { p with coop := { p.coop with now := p.coop.now + nanos } }

/-! ## Looking into a scene -/

variable {S} {p p' : Proxy MemoryStore} {done g i : Nat}

/-- No time has passed in which a copy could have become stale. -/
def Young (S : Scene) (p : Proxy MemoryStore) : Prop :=
  (p.coop.now : Int) < S.controller.maxAge * 1000000000

/-- Every copy that an answer of the scene brought is fresh. -/
theorem Shared.isStale_eq_false (h : S.Shared p) (young : S.Young p) {c : Content}
    (brought : S.Brought c) : p.isStale S.resource (some c) = false := by
  obtain ⟨reply, bytes, taken, -, -, htaken, rfl⟩ := brought
  have hcontroller : p.controller S.resource = S.controller := by
    rw [Proxy.controller, h.controllers]
    rfl
  have hage : 0 < S.controller.maxAge := by
    unfold Young at young
    omega
  rw [Proxy.isStale, hcontroller, Proxy.wall, h.origin]
  refine Controller.isStale_stampAt S.start.origin hage ?_
  unfold Young at young
  omega

/-- Every get of a shared run is for the resource, and at one of its stages. -/
theorem Shared.get_eq (h : S.Shared p) {get : Get} (found : p.gets[g]? = some get) :
    p.gets[g]? = some ⟨S.resource, get.phase⟩ ∧ S.GetStage p.coop.calls.length get.phase := by
  obtain ⟨hresource, hstage⟩ := h.gets g get found
  exact ⟨hresource ▸ found, hstage⟩

/-- A fetch that is not over is the last, and the table holds its lease. -/
theorem Works.last_of_on (h : S.Works p done) {fetch : Fetch} (found : p.fetches[i]? = some fetch)
    (on : fetch.phase ≠ .closed) :
    i = done ∧ p.fetches.length = done + 1 ∧ p.coop.table = [(S.resource.key, done)] := by
  have hlt : i < p.fetches.length := (List.getElem?_eq_some_iff.mp found).1
  have hopen : ¬ i < done := fun hi => on ((h.closed i fetch found).mpr hi)
  obtain ⟨-, hlength⟩ | ⟨htable, hlength⟩ := h.table
  · omega
  · exact ⟨by omega, hlength, htable⟩

/-- Every fetch of a shared run is the work of the lease with its number. -/
theorem Shared.fetch_eq (h : S.Shared p) {fetch : Fetch} (found : p.fetch? i = some fetch) :
    ∃ outcome released, fetch = ⟨.lease i, S.resource, true, fetch.phase⟩ ∧
      p.fetches[i]? = some ⟨.lease i, S.resource, true, fetch.phase⟩ ∧
      p.coop.tags[i]? = some (S.resource.key, outcome, released) ∧
      S.Stage p.streams fetch.phase outcome released := by
  obtain ⟨done, hworks⟩ := h.works
  have hfound := (Proxy.fetch?_eq_some.mp found).1
  obtain ⟨outcome, released, heq, htag, hstage⟩ := hworks.fetches i fetch hfound
  exact ⟨outcome, released, heq, heq ▸ hfound, htag, hstage⟩

/-- Every fetch of a shared run is at a stage that its lease allows. -/
theorem Shared.stage (h : S.Shared p) {fetch : Fetch} (found : p.fetch? i = some fetch) :
    ∃ outcome released, S.Stage p.streams fetch.phase outcome released := by
  obtain ⟨outcome, released, -, -, -, hstage⟩ := h.fetch_eq found
  exact ⟨outcome, released, hstage⟩

/-- Whatever a lease of the scene has for an outcome was brought by an answer. -/
theorem Shared.outcome_brought (h : S.Shared p) {l : Nat}
    {outcome : Except Fault (Option Content)} (ho : p.coop.outcome? l = some outcome) :
    ∃ c, outcome = .ok (some c) ∧ S.Brought c := by
  obtain ⟨done, hworks⟩ := h.works
  unfold Cooperation.outcome? at ho
  obtain ⟨lease, hlease, ho⟩ := Option.bind_eq_some_iff.mp ho
  have hlt : l < p.fetches.length := hworks.length ▸ (List.getElem?_eq_some_iff.mp hlease).1
  obtain ⟨outcome', released, -, htag, hstage⟩ :=
    hworks.fetches l _ (List.getElem?_eq_getElem hlt)
  obtain ⟨lease', hlease', -, ho', -⟩ := Cooperation.tags_eq_some.mp htag
  obtain rfl : lease = lease' := Option.some.inj (hlease.symm.trans hlease')
  rw [← ho', ho] at hstage
  generalize (p.fetches[l]).phase = phase at hstage
  cases hstage with
  | published c brought | closed c brought => exact ⟨c, rfl, brought⟩

end Scene

end PullCache
