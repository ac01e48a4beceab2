import PullCache.Proofs.Proxy.Scene
import PullCache.Proofs.Proxy.Solo
import PullCache.Proofs.Store.Copies
/-!
# Proofs.Proxy.Settlement

What an exchange with the origin comes to, for the get that asked and for the store. An answer 200 with
a body that the store can take is kept, an answer 304 confirms the copy, and everything else leaves the
store as it is and gives the old copy or a fault (`Settled`).
-/

namespace PullCache.Proxy

/-! ## What an exchange comes to -/

/-- The origin answers with content that the store can take. -/
def Stored (capacity : Nat) (reply : Except OriginFault Reply) : Prop :=
  ∃ answer bytes, reply = .ok answer ∧ answer.Brings capacity bytes

/-- The origin answers that the copy is unchanged. -/
def Confirmed (copy : Option Content) (reply : Except OriginFault Reply) : Prop :=
  ∃ answer, reply = .ok answer ∧ answer.status = 304 ∧ copy ≠ none

/-- What a get returns after an exchange, and what is in the store then. -/
inductive Settled (m : MemoryStore) (r : Resource) (copy : Option Content) (stamp : Stamp)
    (reply : Except OriginFault Reply) : Except Fault (Option Content) → MemoryStore → Prop where
  | stored (answer : Reply) (bytes : Bytes) (replied : reply = .ok answer)
      (brings : answer.Brings m.capacity bytes) :
    Settled m r copy stamp reply (.ok (some (answer.content bytes stamp)))
      (m.keep r bytes (answer.content bytes stamp).attributes)
  | confirmed (answer : Reply) (c : Content) (replied : reply = .ok answer)
      (status : answer.status = 304) (known : copy = some c) :
    Settled m r copy stamp reply (.ok (some (c.withStamp stamp))) (m.verify r stamp)
  | unchanged (result : Except Fault (Option Content)) (failed : ¬ Stored m.capacity reply)
      (unconfirmed : ¬ Confirmed copy reply)
      (kept : result = .ok copy ∨ ∃ fault, result = .error fault) :
    Settled m r copy stamp reply result m

section Settled

variable {m m' : MemoryStore} {r : Resource} {copy : Option Content} {stamp : Stamp}
  {reply : Except OriginFault Reply} {result : Except Fault (Option Content)}

/-- Whatever an exchange comes to, the store stays tidy. -/
theorem Settled.tidy (h : Settled m r copy stamp reply result m') (hm : m.Tidy) : m'.Tidy := by
  cases h with
  | stored answer bytes replied brings => exact hm.keep r bytes _
  | confirmed answer c replied status known => exact hm.verify r stamp
  | unchanged result failed unconfirmed kept => exact hm

/-- Whatever an exchange comes to, the store keeps its capacity. -/
theorem Settled.capacity_eq (h : Settled m r copy stamp reply result m') :
    m'.capacity = m.capacity := by
  cases h with
  | stored answer bytes replied brings => exact MemoryStore.keep_capacity bytes _
  | confirmed answer c replied status known => exact MemoryStore.verify_capacity stamp
  | unchanged result failed unconfirmed kept => rfl

/-- Unless it fails, a get returns the copy that is in the store afterwards. -/
theorem Settled.copy?_eq (h : Settled m r (m.copy? r) stamp reply result m') (hm : m.Tidy)
    (room : m.capacity ≠ 0) {found : Option Content} (hresult : result = .ok found) :
    m'.copy? r = found := by
  cases h with
  | stored answer bytes replied brings =>
    cases hresult
    exact MemoryStore.copy?_keep_self hm room rfl bytes _
  | confirmed answer c replied status known =>
    cases hresult
    rw [MemoryStore.copy?_verify_self rfl, known]
    rfl
  | unchanged result failed unconfirmed kept =>
    obtain rfl | ⟨fault, rfl⟩ := kept
    · exact Except.ok.inj hresult
    · contradiction

end Settled

/-- What the store makes of new content, as the fetch sees it. -/
def keptOf : Except StoreFault Content → Except Fault (Option Content)
  | .ok kept => .ok (some kept)
  | .error fault => .error (.store fault)

/-- What an answer comes to: the outcome of the exchange, the store and the streams. -/
def settle (m : MemoryStore) (s : Streams) (r : Resource) (stamp : Stamp) (request : OriginRequest)
    (copy : Option Content) :
    Except OriginFault OriginResponse → Except Fault (Option Content) × MemoryStore × Streams
  | .error fault => (Exchange.degrade copy (.ofOrigin fault), m, s)
  | .ok response =>
    let conclude (copy : Option Content) (fetched : Except Fault (Option Content)) (m : MemoryStore)
        (s : Streams) :=
      (Exchange.outcome copy fetched, m, (Exchange.conclude copy response fetched s).2)
    match Exchange.judge request response copy stamp with
    | .keep remote =>
      let (kept, m, s) := m.store s r remote
      conclude copy (keptOf kept) m s
    | .confirm known stamp => conclude (some (known.withStamp stamp)) (.ok none) (m.verify r stamp) s
    | .nothing => conclude copy (.ok none) m s
    | .fail fault => conclude copy (.error fault) m s

/-- What of a proxy bears on what it serves. -/
structure Outward where
  store : MemoryStore
  streams : Streams
  controllers : Controllers
  remote : Url
  origin : Instant
  now : Nat

def outward (p : Proxy MemoryStore) : Outward :=
  ⟨p.store, p.streams, p.controllers, p.remote, p.origin, p.coop.now⟩

namespace Outward

/-- The present time. -/
def wall (v : Outward) : Instant :=
  v.origin.addNanos v.now

def isStale (v : Outward) (r : Resource) (copy : Option Content) : Bool :=
  (v.controllers.of r.category).isContentStale copy v.wall

/-- The stamp of content that is fetched or confirmed now. -/
def stampNow (v : Outward) (r : Resource) : Stamp :=
  (v.controllers.of r.category).stampAt v.wall

/-- A get all in one piece: the copy while it is fresh, or else what the origin has to say, unless the
resource does not lie below the remote. -/
def serve {ω : Type} (origin : OriginRequest → ω → Except OriginFault Reply × Nat × ω) (v : Outward)
    (w : ω) (r : Resource) : Except Fault (Option Content) × Outward × ω :=
  let copy := v.store.copy? r
  if v.isStale r copy then
    match Remote.resolve v.remote r with
    | .error fault => (.error fault, v, w)
    | .ok url =>
      let request := OriginRequest.revalidating { url } copy
      let (reply, nanos, w) := origin request w
      let (answer, streams) := received v.streams reply
      let later := { v with now := v.now + nanos }
      let (result, store, streams) :=
        settle v.store streams r (later.stampNow r) request copy answer
      (result, { later with store, streams }, w)
  else (.ok copy, v, w)

end Outward

end PullCache.Proxy
