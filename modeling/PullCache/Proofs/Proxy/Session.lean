import PullCache.Proofs.Proxy.Invalidation
import PullCache.Proofs.Proxy.Course
/-!
# Proofs.Proxy.Session

Operations on a proxy one after the other: gets, each of which comes to its end before anything else
begins, changes of settings, content that is dropped, and time that passes. A session keeps a history
of what matters for copies. `Turn` lists what one operation can do to a session in which nothing is
under way, and every operation makes one of these turns (`turn_step`).
-/

namespace PullCache

/-- The maximum age for a category under these settings. -/
def ProxySection.maxAge (p : ProxySection) : Category → Int
  | .content => p.contentMaxAge
  | .metadata => p.metadataMaxAge

namespace Proxy

/-! ## Operations -/

/-- What clients and operators do. The origin has an answer for each get, should the get ask for it,
and takes some time. -/
inductive Operation where
  | get (resource : Resource) (reply : Except OriginFault Reply) (nanos : Nat)
  | invalidate
  | update (config : Config)
  | discard (resource : Resource)
  | delete (resource : Resource)
  | pass (nanos : Nat)

/-- What happened and matters for copies. -/
inductive Incident where
  /-- The origin was asked, with this copy in the store, and answered. -/
  | asked (resource : Resource) (copy : Option Content) (request : OriginRequest)
      (reply : Except OriginFault Reply)
  | invalidated
  /-- The remote is another one from now on. -/
  | moved
  /-- The blob for a key was discarded or deleted. -/
  | lost (key : Key)

structure Entry where
  /-- Nanoseconds since the start. -/
  time : Nat
  incident : Incident

/-- A proxy, the settings in effect, and what happened so far. -/
structure Session where
  proxy : Proxy MemoryStore
  settings : Config
  history : List Entry

/-- An origin that gives one answer after some time and remembers the requests that it saw. -/
def answering (reply : Except OriginFault Reply) (nanos : Nat) (request : OriginRequest)
    (seen : List OriginRequest) : Except OriginFault Reply × Nat × List OriginRequest :=
  (reply, nanos, seen ++ [request])

/-- What became of a get: its result, the proxy after it, and the requests that the origin saw. -/
structure Visit where
  result : Except Fault (Option Content)
  proxy : Proxy MemoryStore
  requests : List OriginRequest

def visit (p : Proxy MemoryStore) (r : Resource) (reply : Except OriginFault Reply) (nanos : Nat) :
    Visit :=
  let got := p.get MemoryStore.ops (answering reply nanos) [] r
  ⟨got.1, got.2.1, got.2.2⟩

namespace Session

/-- A proxy that was just made with its settings. -/
def begin (config : Config) (start : Proxy MemoryStore) : Session :=
  ⟨start, config, []⟩

def now (s : Session) : Nat := s.proxy.coop.now

def store (s : Session) : MemoryStore := s.proxy.store

/-- The session with another proxy and a longer history. -/
def goOn (s : Session) (proxy : Proxy MemoryStore) (incidents : List Incident) : Session :=
  { s with proxy, history := s.history ++ incidents.map fun i => ⟨proxy.coop.now, i⟩ }

def step (s : Session) : Operation → Session
  | .get r reply nanos =>
    let visit := s.proxy.visit r reply nanos
    s.goOn visit.proxy
      (visit.requests.map fun request => .asked r (s.store.copy? r) request reply)
  | .invalidate => s.goOn s.proxy.invalidate [.invalidated]
  | .update config =>
    match s.proxy.update config with
    | (.error _, proxy) => s.goOn proxy []
    | (.ok (), proxy) =>
      { s with settings := config }.goOn proxy
        (if s.proxy.remote.text = proxy.remote.text then [] else [.moved])
  | .discard r => s.goOn { s.proxy with store := (s.store.discard r).2 } [.lost r.key]
  | .delete r => s.goOn { s.proxy with store := (s.store.delete r).2 } [.lost r.key]
  | .pass nanos => s.goOn (s.proxy.after MemoryStore.ops (.tick nanos)) []

def run (s : Session) (operations : List Operation) : Session :=
  operations.foldl step s

end Session

/-! ## What incidents mean for a key -/

namespace Incident

/-- The origin was asked for a resource. -/
def Asks (i : Incident) (r : Resource) : Prop :=
  ∃ copy request reply, i = .asked r copy request reply

/-- The origin sent bytes for a key that the store could take. -/
def Brings (i : Incident) (capacity : Nat) (k : Key) (answer : Reply) (bytes : Bytes) : Prop :=
  ∃ r copy request, i = .asked r copy request (.ok answer) ∧ r.key = k ∧
    answer.Brings capacity bytes

/-- A body for the key was fetched and stored. -/
def Stores (i : Incident) (capacity : Nat) (k : Key) : Prop :=
  ∃ answer bytes, i.Brings capacity k answer bytes

/-- The copy for the key was confirmed. -/
def Confirms (i : Incident) (k : Key) : Prop :=
  ∃ r copy request reply, i = .asked r copy request reply ∧ r.key = k ∧ Confirmed copy reply

/-- An exchange for the key was successful. -/
def Succeeds (i : Incident) (capacity : Nat) (k : Key) : Prop :=
  i.Stores capacity k ∨ i.Confirms k

/-- All copies became stale. -/
def Invalidates (i : Incident) : Prop :=
  i = .invalidated ∨ i = .moved

def Loses (i : Incident) (k : Key) : Prop :=
  i = .lost k

/-- Only the origin can make an exchange successful. -/
theorem Succeeds.asks {i : Incident} {capacity : Nat} {k : Key} (h : i.Succeeds capacity k) :
    ∃ r, i.Asks r ∧ r.key = k := by
  obtain ⟨answer, bytes, r, copy, request, rfl, hkey, -⟩ | ⟨r, copy, request, reply, rfl, hkey, -⟩ := h
  · exact ⟨r, ⟨_, _, _, rfl⟩, hkey⟩
  · exact ⟨r, ⟨_, _, _, rfl⟩, hkey⟩

/-- A question is about one resource. -/
theorem Asks.unique {i : Incident} {r r' : Resource} (h : i.Asks r) (h' : i.Asks r') : r = r' := by
  obtain ⟨copy, request, reply, rfl⟩ := h
  obtain ⟨_, _, _, ⟨⟩⟩ := h'
  rfl

/-- A question is no invalidation. -/
theorem Asks.not_invalidates {i : Incident} {r : Resource} (h : i.Asks r) : ¬ i.Invalidates := by
  obtain ⟨copy, request, reply, rfl⟩ := h
  rintro (h | h) <;> contradiction

/-- A question loses no copy. -/
theorem Asks.not_loses {i : Incident} {r : Resource} (h : i.Asks r) (k : Key) : ¬ i.Loses k := by
  obtain ⟨copy, request, reply, rfl⟩ := h
  rintro ⟨⟩

/-- Copies that are made stale are not lost. -/
theorem Invalidates.not_loses {i : Incident} (h : i.Invalidates) (k : Key) : ¬ i.Loses k := by
  obtain rfl | rfl := h <;> rintro ⟨⟩

/-- An answer that confirms a copy brings none. -/
theorem Confirms.not_stores {i : Incident} {k : Key} (h : i.Confirms k) (capacity : Nat) (k' : Key) :
    ¬ i.Stores capacity k' := by
  obtain ⟨r, copy, request, reply, rfl, -, answer, rfl, hstatus, -⟩ := h
  rintro ⟨answer', bytes, _, _, _, ⟨⟩, -, hbrings⟩
  have := hbrings.status
  omega

/-- A successful exchange makes no copy stale. -/
theorem Succeeds.not_invalidates {i : Incident} {capacity : Nat} {k : Key}
    (h : i.Succeeds capacity k) : ¬ i.Invalidates := by
  obtain ⟨r, hasks, -⟩ := h.asks
  exact hasks.not_invalidates

/-- A successful exchange drops no copy. -/
theorem Succeeds.not_loses {i : Incident} {capacity : Nat} {k : Key} (h : i.Succeeds capacity k)
    (k' : Key) : ¬ i.Loses k' := by
  obtain ⟨r, hasks, -⟩ := h.asks
  exact hasks.not_loses k'

end Incident

/-! ## Changes of settings as a whole -/

/-- A change of settings leaves the tokens as they are, or gives every category a new one. -/
inductive Renewed (before after : Controllers) : List Incident → Prop where
  | kept (tokens : ∀ category, (after.of category).token = (before.of category).token) :
    Renewed before after []
  | renewed (i : Incident) (invalidates : i.Invalidates)
      (tokens : ∀ category, after.IssuedSince before.nextToken category) : Renewed before after [i]

/-- An invalidation rotates the tokens of both categories. -/
theorem controllers_invalidate {σ : Type} (p : Proxy σ) :
    p.invalidate.controllers = p.controllers.rotateAll := by
  simp [invalidate, completeChange, invalidationSteps, applyChange, Controllers.rotateAll]

/-- An update fails if its remote cannot be used, and then everything stays as it is. -/
theorem update_eq_error_iff {σ : Type} {p q : Proxy σ} {config : Config} {fault : Fault} :
    p.update config = (.error fault, q) ↔
      Remote.normalize config.proxy.remoteUrl = .error fault ∧ q = p := by
  unfold update
  split <;> simp [*, @eq_comm _ q]

/-- An update that succeeds puts the maximum ages in place, and rotates the tokens if the remote is
another one. -/
theorem update_eq_ok {σ : Type} {p q : Proxy σ} {config : Config}
    (h : p.update config = (.ok (), q)) :
    Remote.normalize config.proxy.remoteUrl = .ok q.remote ∧
    q.store = p.store ∧ q.coop = p.coop ∧ q.origin = p.origin ∧
    q.controllers = if p.remote.text = q.remote.text
      then p.controllers.setMaxAges config.proxy.contentMaxAge config.proxy.metadataMaxAge
      else (p.controllers.setMaxAges config.proxy.contentMaxAge
        config.proxy.metadataMaxAge).rotateAll := by
  unfold update at h
  split at h
  · cases h
  · next remote hremote =>
    cases h
    refine ⟨hremote, rfl, rfl, rfl, ?_⟩
    simp only [completeChange, beginUpdate, List.getElem?_concat_length, Option.getD_some]
    split <;> rfl

namespace Session

variable {s s' : Session}

/-- What an operation does to a session in which nothing is under way. -/
inductive Turn (s : Session) : Session → Prop where
  | quiet (q : Proxy MemoryStore) (rests : Rests s.proxy q) (store : q.store = s.store)
      (later : s.now ≤ q.coop.now) : Turn s (s.goOn q [])
  | asked (r : Resource) (request : OriginRequest) (reply : Except OriginFault Reply)
      (result : Except Fault (Option Content)) (q : Proxy MemoryStore) (rests : Rests s.proxy q)
      (later : s.now ≤ q.coop.now)
      (settled : Settled s.store r (s.store.copy? r) (q.stampNow r) reply result q.store) :
    Turn s (s.goOn q [.asked r (s.store.copy? r) request reply])
  | lost (r : Resource) (m : MemoryStore) (dropped : MemoryStore.Dropped s.store r m) :
    Turn s (s.goOn { s.proxy with store := m } [.lost r.key])
  | configured (q : Proxy MemoryStore) (settings : Config) (incidents : List Incident)
      (store : q.store = s.store) (coop : q.coop = s.proxy.coop) (origin : q.origin = s.proxy.origin)
      (base : s.proxy.remote.isBase = true → q.remote.isBase = true)
      (issued : s.proxy.controllers.Issued → q.controllers.Issued)
      (ages : (∀ category, (s.proxy.controllers.of category).maxAge =
          s.settings.proxy.maxAge category) →
        ∀ category, (q.controllers.of category).maxAge = settings.proxy.maxAge category)
      (renewed : Renewed s.proxy.controllers q.controllers incidents) :
    Turn s ({ s with settings }.goOn q incidents)

/-- The store keeps its capacity, and the clock its start. -/
theorem Turn.same (h : Turn s s') :
    s'.store.capacity = s.store.capacity ∧ s'.proxy.origin = s.proxy.origin := by
  cases h with
  | quiet q rests store later => exact ⟨congrArg MemoryStore.capacity store, rests.origin⟩
  | asked r request reply result q rests later settled => exact ⟨settled.capacity_eq, rests.origin⟩
  | lost r m dropped => exact ⟨dropped.capacity, rfl⟩
  | configured q settings incidents store coop origin base issued ages renewed =>
    exact ⟨congrArg MemoryStore.capacity store, origin⟩

end Session

end Proxy

end PullCache
