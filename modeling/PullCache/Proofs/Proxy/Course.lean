import PullCache.Proofs.Proxy.Settlement
/-!
# Proofs.Proxy.Course

A get alone over a store in memory. It comes to its end with what it serves in one piece (`get_serves`),
so it runs one of three courses: a fresh copy is served; or the resource is refused, because it does not
lie below the remote; or the origin is asked once, and the exchange is settled.
-/

namespace PullCache.Proxy

variable {p : Proxy MemoryStore} {r : Resource}

/-! ## The store in memory -/

/-- A lookup in memory never fails, and finds the copy. -/
theorem foundCopy_eq (m : MemoryStore) (r : Resource) : foundCopy (m.lookup r) = .ok (m.copy? r) := by
  obtain ⟨copy, hcopy⟩ := foundCopy_lookup m r
  rw [hcopy, MemoryStore.copy?]
  congr 1
  cases hl : m.lookup r with
  | ok found => rw [hl] at hcopy; cases hcopy; rfl
  | error fault =>
    rw [hl, foundCopy] at hcopy
    split at hcopy
    · cases hcopy; rfl
    · contradiction

/-- The store gives back no content that is still to be read. -/
theorem lent_store (sharing : Bool) (m : MemoryStore) (s : Streams) (r : Resource) (remote : Content) :
    lent sharing remote (m.store s r remote).1 (m.store s r remote).2.2 =
      (keptOf (m.store s r remote).1, (m.store s r remote).2.2) := by
  obtain ⟨bytes, -, hkept, -⟩ | ⟨⟨fault, hkept⟩, -⟩ := MemoryStore.store_cases m s r remote
  · have hshares : Content.sharesStream ⟨.buffered bytes, remote.attributes⟩ remote = false := rfl
    rw [hkept, lent, hshares, Bool.and_false, if_neg Bool.false_ne_true, keptOf]
  · rw [hkept, lent, keptOf]

/-- Whether there may be several readers makes no difference. -/
theorem dealWith_memory (sharing : Bool) (m : MemoryStore) (s : Streams) (r : Resource) (stamp : Stamp)
    (request : OriginRequest) (copy : Option Content)
    (answer : Except OriginFault OriginResponse) :
    dealWith MemoryStore.ops sharing m s r stamp request copy answer =
      settle m s r stamp request copy answer := by
  cases answer with
  | error fault => rfl
  | ok response =>
    simp only [dealWith, settle]
    cases Exchange.judge request response copy stamp with
    | keep remote =>
      have hlent := lent_store sharing m s r remote
      simp only [actOn, MemoryStore.ops, hlent]
    | confirm known stamp => rfl
    | nothing => rfl
    | fail fault => rfl

/-! ## What a get serves -/

section Whole

variable {ω : Type} {origin : OriginRequest → ω → Except OriginFault Reply × Nat × ω}

/-- The course of a get alone: a fresh copy is served; else the resource may not lie below the remote;
else the origin is asked once, about the copy if there is one. -/
inductive Course (origin : OriginRequest → ω → Except OriginFault Reply × Nat × ω)
    (p : Proxy MemoryStore) (w : ω) (r : Resource) (q : Proxy MemoryStore) :
    Except Fault (Option Content) → ω → Prop where
  | served (fresh : p.isStale r (p.store.copy? r) = false) (store : q.store = p.store)
      (now : q.coop.now = p.coop.now) : Course origin p w r q (.ok (p.store.copy? r)) w
  | refused (stale : p.isStale r (p.store.copy? r) = true) (fault : Fault)
      (outside : Remote.resolve p.remote r = .error fault) (store : q.store = p.store)
      (now : q.coop.now = p.coop.now) : Course origin p w r q (.error fault) w
  | asked (stale : p.isStale r (p.store.copy? r) = true) (url : Url)
      (below : Remote.resolve p.remote r = .ok url) (reply : Except OriginFault Reply) (nanos : Nat)
      (result : Except Fault (Option Content)) (w' : ω)
      (replied : origin (OriginRequest.revalidating { url } (p.store.copy? r)) w =
        (reply, nanos, w'))
      (now : q.coop.now = p.coop.now + nanos)
      (settled : Settled p.store r (p.store.copy? r) (q.stampNow r) reply result q.store) :
    Course origin p w r q result w'

/-- The get comes to its end with what it serves in one piece, and nothing is under way then. -/
def Serves (origin : OriginRequest → ω → Except OriginFault Reply × Nat × ω)
    (p : Proxy MemoryStore) (w : ω) (r : Resource) : Prop :=
  ∃ q, p.get MemoryStore.ops origin w r =
      ((p.outward.serve origin w r).1, q, (p.outward.serve origin w r).2.2) ∧
    q.getState p.gets.length = .returned (p.outward.serve origin w r).1 ∧ Rests p q ∧
    q.outward = (p.outward.serve origin w r).2.1

/-- A fresh copy is served without a word to the origin. -/
theorem serve_fresh (fresh : p.isStale r (p.store.copy? r) = false) (w : ω) :
    p.outward.serve origin w r = (.ok (p.store.copy? r), p.outward, w) :=
  if_neg (Bool.not_eq_true _ ▸ fresh)

/-- For anything else the origin is asked. -/
theorem serve_stale (origin : OriginRequest → ω → Except OriginFault Reply × Nat × ω)
    (stale : p.isStale r (p.store.copy? r) = true) (w : ω) :
    p.outward.serve origin w r = match Remote.resolve p.remote r with
      | .error fault => (.error fault, p.outward, w)
      | .ok url =>
        let request := OriginRequest.revalidating { url } (p.store.copy? r)
        let (reply, nanos, w) := origin request w
        let (answer, streams) := received p.streams reply
        let later := { p.outward with now := p.coop.now + nanos }
        let (result, store, streams) :=
          settle p.store streams r (later.stampNow r) request (p.store.copy? r) answer
        (result, { later with store, streams }, w) :=
  if_pos stale

/-- A get that ends with a result, a store, streams and a time serves these in one piece. -/
theorem serves_of_ends {w w' : ω} {result : Except Fault (Option Content)} {m : MemoryStore}
    {s : Streams} {now : Nat} (h : Ends MemoryStore.ops origin p w r result m s now w')
    (hserve : p.outward.serve origin w r =
      (result, { p.outward with store := m, streams := s, now }, w')) : Serves origin p w r := by
  obtain ⟨q, hget, hreturned, hrests, hstore, hstreams, hnow⟩ := h
  rw [Serves, hserve]
  refine ⟨q, hget, hreturned, hrests, ?_⟩
  rw [outward, hstore, hstreams, hnow, hrests.controllers, hrests.remote, hrests.origin]
  rfl

/-- A get that nobody else disturbs comes to its end with what it serves in one piece. -/
theorem get_serves (origin : OriginRequest → ω → Except OriginFault Reply × Nat × ω)
    (free : p.coop.table = []) (w : ω) (r : Resource) : Serves origin p w r := by
  have hfound : foundCopy (MemoryStore.ops.lookup p.store r).1 = .ok (p.store.copy? r) :=
    foundCopy_eq p.store r
  cases hstale : p.isStale r (p.store.copy? r) with
  | false => exact serves_of_ends (ends_fresh free hfound hstale w) (serve_fresh hstale w)
  | true =>
    have hserve := serve_stale origin hstale w
    cases hurl : Remote.resolve p.remote r with
    | error fault =>
      simp only [hurl] at hserve
      exact serves_of_ends (ends_outside free hfound hstale hurl w) hserve
    | ok url =>
      obtain ⟨reply, nanos, w', hreply⟩ : ∃ reply nanos w',
          origin (OriginRequest.revalidating { url } (p.store.copy? r)) w = (reply, nanos, w') :=
        ⟨_, _, _, rfl⟩
      simp only [hurl, hreply] at hserve
      have hends := ends_asked free hfound hstale hurl hreply
      simp only [dealt, dealWith_memory] at hends
      exact serves_of_ends hends hserve

end Whole

end PullCache.Proxy
