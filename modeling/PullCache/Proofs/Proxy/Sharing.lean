import PullCache.Proofs.Proxy.Scene
/-!
# Proofs.Proxy.Sharing

In the middle of a scene only moves happen, and moves stay in the scene. The first part goes through
the events and finds that each of them is a move or cannot happen; the second part goes through the
moves, first for the fetches and leases, which have to stay in order, and then for everything else.
-/

namespace PullCache.Scene

variable {S : Scene} {p p' : Proxy MemoryStore} {done g i : Nat}

/-! ## Only moves happen -/

/-- A lookup finds nothing, or the copy that was brought. -/
theorem Shared.move_lookUp (h : S.Shared p) (hs : p.lookUp MemoryStore.ops g = some p') :
    S.Move p (.lookUp g) p' := by
  obtain ⟨get, found, hp, ⟨copy, hf, rfl⟩ | ⟨fault, hf, -⟩⟩ := Proxy.lookUp_cases hs
  · have hresource := (h.gets g get found).1
    have hget := (h.get_eq found).1
    rw [hp] at hget
    refine .get g hget (.found copy fun c hc => ?_)
    rw [hc, hresource] at hf
    exact h.found c (Proxy.lookup_of_foundCopy hf)
  · obtain ⟨copy, hcopy⟩ := Proxy.foundCopy_lookup p.store get.resource
    exact absurd (hcopy.symm.trans hf) (by simp)

/-- A copy that was brought is returned while it is young. -/
theorem Shared.move_judge (h : S.Shared p) (young : S.Young p) (hs : p.judge g = some p') :
    S.Move p (.judge g) p' := by
  obtain ⟨get, cached, found, hp, hs⟩ := Proxy.judge_cases hs
  obtain ⟨hget, hstage⟩ := h.get_eq found
  rw [(h.gets g get found).1] at hs
  rw [hp] at hget hstage
  cases cached with
  | none =>
    obtain ⟨-, rfl⟩ | ⟨hfresh, -⟩ := hs
    · exact .get g hget .stale
    · contradiction
  | some c =>
    have hbrought : S.Brought c := by
      cases hstage with
      | judge copy brought => exact brought c rfl
    have hfresh := h.isStale_eq_false young hbrought
    obtain ⟨hstale, -⟩ | ⟨-, rfl⟩ := hs
    · rw [hfresh] at hstale
      contradiction
    · exact .get g hget (.fresh c hbrought)

/-- A get leads if the key is free, and follows otherwise. -/
theorem Shared.move_enter (h : S.Shared p) (on : S.start.passive.nanos ≠ 0)
    (hs : p.enter g = some p') : S.Move p (.enter g) p' := by
  obtain ⟨get, cached, found, hp, next, hnext, hs⟩ := Proxy.enter_cases hs
  obtain ⟨hget, hstage⟩ := h.get_eq found
  obtain ⟨done, hworks⟩ := h.works
  have hon : p.passive.nanos ≠ 0 := h.passive ▸ on
  rw [hp] at hget hstage
  obtain rfl : cached = none := by
    cases hstage
    rfl
  rw [(h.gets g get found).1] at hs hnext
  obtain ⟨htable, -⟩ | ⟨htable, hlength⟩ := hworks.table
  · have hfree : p.coop.registered? S.resource.key = none := by
      rw [Cooperation.registered?, htable]
      rfl
    obtain ⟨hoff, -⟩ | ⟨-, l, hl, -⟩ | ⟨-, -, ha⟩ :=
      Cooperation.arrive_cases p.coop S.resource.key p.passive p.active
    · exact absurd hoff hon
    · simp [hfree] at hl
    · obtain ⟨hoff, -⟩ | ⟨-, ⟨l, hl⟩, -⟩ | ⟨-, -, rfl⟩ := hs
      · exact absurd hoff hon
      · simp [hfree] at hl
      · rw [hnext, ha]
        exact .lead g _ hget rfl htable
  · have hheld : p.coop.registered? S.resource.key = some done := by
      rw [Cooperation.registered?, htable]
      simp
    obtain ⟨hoff, -⟩ | ⟨-, l, hl, ha⟩ | ⟨-, hfree, -⟩ :=
      Cooperation.arrive_cases p.coop S.resource.key p.passive p.active
    · exact absurd hoff hon
    · obtain rfl : done = l := Option.some.inj (hheld.symm.trans hl)
      obtain ⟨hoff, -⟩ | ⟨-, -, rfl⟩ | ⟨-, hfree, -⟩ := hs
      · exact absurd hoff hon
      · rw [hnext, ha]
        exact .follow g done _ hget (by rw [hworks.length]; omega) rfl (by simp [htable])
      · simp [hheld] at hfree
    · simp [hheld] at hfree

/-- A call returns what the lease of its key came to. -/
theorem Shared.move_deliver (h : S.Shared p) (hs : p.callStep g .deliver = some p') :
    S.Move p (.deliver g) p' := by
  obtain ⟨c, coop, -, hd, rfl⟩ := Proxy.callStep_eq_some.mp hs
  obtain ⟨call, l, outcome, hcall, hl, ho, rfl⟩ := Cooperation.deliver_eq_some.mp hd
  obtain ⟨content, rfl, hbrought⟩ := h.outcome_brought ho
  refine .deliver g c call content hcall ?_ hbrought
  cases hp : call.phase <;> simp [hp, CallPhase.lease?, CallPhase.isLive] at hl ⊢

/-- The origin is asked for the resource. -/
theorem Shared.move_ask (h : S.Shared p)
    (below : ∃ url, Remote.resolve S.start.remote S.resource = .ok url)
    (hs : p.ask i = some p') : S.Move p (.ask i) p' := by
  obtain ⟨fetch, copy, found, hp, hs⟩ := Proxy.ask_cases hs
  obtain ⟨outcome, released, heq, hfetch, -, hstage⟩ := h.fetch_eq found
  have hresource : fetch.resource = S.resource := by rw [heq]
  rw [hp] at hfetch hstage
  cases hstage
  obtain ⟨url, hurl⟩ := below
  obtain ⟨fault, hfault, -⟩ | ⟨url', -, rfl⟩ := hs
  · rw [h.remote, hresource, hurl] at hfault
    contradiction
  · exact .fetch i hfetch (.asked _)

/-- The answer brings the bytes. -/
theorem Shared.move_answer (h : S.Shared p) {reply : Reply} {bytes : Bytes}
    (there : reply ∈ S.replies) (brings : reply.Brings S.capacity bytes)
    (hs : p.answer i (.ok reply) = some p') : S.Move p (.answer i (.ok reply)) p' := by
  obtain ⟨fetch, copy, request, found, hp, ⟨fault, hfault, -⟩ | ⟨answer, hanswer, rfl⟩⟩ :=
    Proxy.answer_cases hs
  · contradiction
  · cases hanswer
    obtain ⟨outcome, released, -, hfetch, -, hstage⟩ := h.fetch_eq found
    rw [hp] at hfetch hstage
    cases hstage
    obtain ⟨body, hresponse, hread⟩ := brings.receive p.streams
    exact .fetch i hfetch (.answered request reply _ _
      ⟨reply, bytes, body, there, brings, hresponse, hread⟩)

/-- The answer is kept. -/
theorem Shared.move_handle (h : S.Shared p) (hs : p.handle i = some p') :
    S.Move p (.handle i) p' := by
  obtain ⟨fetch, copy, request, answer, found, hp, hs⟩ := Proxy.handle_cases hs
  obtain ⟨outcome, released, heq, hfetch, -, hstage⟩ := h.fetch_eq found
  have hresource : fetch.resource = S.resource := by rw [heq]
  rw [hp] at hfetch hstage
  cases hstage with
  | answered request response opened =>
    obtain ⟨reply, bytes, body, hreply, hbrings, rfl, hread⟩ := opened
    obtain ⟨fault, hfault, -⟩ | ⟨response, hresponse, verdict, hverdict, hs⟩ := hs
    · contradiction
    · cases hresponse
      have hkeep : verdict = .keep (Exchange.contentOf (reply.opened body) body
          ((p.controller fetch.resource).stampAt p.wall)) := hverdict
      have hcontroller : p.controller fetch.resource = S.controller := by
        rw [Proxy.controller, h.controllers, hresource]
        rfl
      subst hkeep
      obtain ⟨remote, hremote, rfl⟩ | ⟨known, stamp, hconfirm, -⟩ | ⟨hnothing, -⟩ |
        ⟨fault, hfail, -⟩ := hs
      · cases hremote
        refine .fetch i hfetch (.handled request _ _ ⟨bytes, hread, reply, bytes,
          (p.coop.now : Int), hreply, hbrings, by omega, ?_⟩)
        rw [hcontroller, Proxy.wall, h.origin]
        rfl
      · contradiction
      · contradiction
      · contradiction

/-- The store takes the bytes. -/
theorem Shared.move_stored (h : S.Shared p) (hs : p.stored MemoryStore.ops i = some p') :
    S.Move p (.stored i) p' := by
  obtain ⟨fetch, copy, response, remote, found, hp, kept, next, hkept, hnext, hs⟩ :=
    Proxy.stored_cases hs
  obtain ⟨outcome, released, heq, hfetch, -, hstage⟩ := h.fetch_eq found
  have hresource : fetch.resource = S.resource := by rw [heq]
  rw [hp] at hfetch hstage
  cases hstage with
  | storing response remote readable =>
    obtain ⟨bytes, hread, hbrought⟩ := readable
    rw [← h.capacity] at hread
    have hstore : (MemoryStore.ops.store p.store p.streams S.resource remote).1 =
          .ok ⟨.buffered bytes, remote.attributes⟩ ∧
        (MemoryStore.ops.store p.store p.streams S.resource remote).2.1 =
          p.store.keep S.resource bytes remote.attributes :=
      MemoryStore.store_of_read hread
    rw [hresource, hstore.1] at hkept
    rw [hresource, hstore.2] at hnext
    obtain ⟨fault, hfault, -⟩ | ⟨content, hcontent, hs⟩ := hs
    · rw [hkept] at hfault
      contradiction
    · rw [hkept] at hcontent
      cases hcontent
      obtain ⟨hshares, -⟩ | ⟨-, rfl⟩ := hs
      · simp [Content.sharesStream, Payload.sharesStream] at hshares
      · rw [Proxy.conclude_eq, hnext]
        exact .fetch i hfetch (.stored response remote bytes remote.attributes _ hbrought)

/-- The lease gets the copy that was stored as its outcome. -/
theorem Shared.move_publish (h : S.Shared p) (hs : p.publish i = some p') :
    S.Move p (.publish i) p' := by
  obtain ⟨fetch, told, l, coop, found, hp, hplace, hpublish, rfl⟩ := Proxy.publish_eq_some.mp hs
  obtain ⟨outcome, released, heq, hfetch, -, hstage⟩ := h.fetch_eq found
  obtain rfl : l = i := by
    rw [heq] at hplace
    cases hplace
    rfl
  rw [hp] at hfetch hstage
  cases hstage with
  | ended c brought =>
    obtain ⟨lease, -, -, rfl⟩ := Cooperation.publish_eq_some.mp hpublish
    exact .fetch l hfetch (.published c brought)

/-- The last lease takes its entry with it, and there is no other. -/
theorem Shared.move_release (h : S.Shared p) (hs : p.release i = some p') :
    S.Move p (.release i) p' := by
  obtain ⟨fetch, l, coop, found, hp, hplace, hrelease, rfl⟩ := Proxy.release_eq_some.mp hs
  obtain ⟨outcome, released, heq, hfetch, htag, -⟩ := h.fetch_eq found
  obtain rfl : l = i := by
    rw [heq] at hplace
    cases hplace
    rfl
  obtain ⟨lease, hlease, hkey, -⟩ := Cooperation.tags_eq_some.mp htag
  obtain ⟨lease', hlease', -, -, rfl⟩ := Cooperation.release_eq_some.mp hrelease
  obtain rfl : lease = lease' := Option.some.inj (hlease.symm.trans hlease')
  obtain ⟨done, hworks⟩ := h.works
  rw [hp] at hfetch
  obtain ⟨rfl, -, htable⟩ := hworks.last_of_on hfetch (by simp)
  have hempty : p.coop.table.filter
      (fun entry => ¬ (entry.1 = lease.key ∧ entry.2 = l)) = [] := by
    rw [htable, hkey]
    simp
  rw [hempty]
  exact .fetch l hfetch .released

/-- Where nothing disturbs a scene, a step is one of its moves. -/
theorem Shared.move (h : S.Shared p) (idle : Idle S.start S.resource) (young : S.Young p)
    {e : ProxyEvent} (plain : Undisturbed S.capacity S.resource e)
    (replies : ∀ i reply, e = .answer i (.ok reply) → reply ∈ S.replies)
    (hs : p.step MemoryStore.ops e = some p') : S.Move p e p' := by
  obtain ⟨done, hworks⟩ := h.works
  cases e with
  | request r =>
    cases hs
    obtain rfl : r = S.resource := plain
    exact .request
  | lookUp g => exact h.move_lookUp hs
  | judge g => exact h.move_judge young hs
  | enter g => exact h.move_enter idle.sharing hs
  | deliver g => exact h.move_deliver hs
  | ask i => exact h.move_ask idle.below hs
  | answer i reply =>
    obtain ⟨answer, bytes, rfl, brings⟩ := plain
    exact h.move_answer (replies i answer rfl) brings hs
  | handle i => exact h.move_handle hs
  | stored i => exact h.move_stored hs
  | publish i => exact h.move_publish hs
  | release i => exact h.move_release hs
  | tick nanos =>
    cases hs
    exact .tick nanos
  | takeOver g =>
    obtain ⟨get, c, coop, -, -, htake, -⟩ := Proxy.takeOver_cases hs
    obtain ⟨call, l, hcall, hphase, -⟩ := Cooperation.takeOver_cases htake
    have hstage := h.calls c call hcall
    rw [hphase] at hstage
    contradiction
  | timeOut g =>
    obtain ⟨c, coop, -, htime, -⟩ := Proxy.callStep_eq_some.mp hs
    obtain ⟨call, l, deadline, hcall, hphase, -⟩ := Cooperation.timeOut_eq_some.mp htime
    have hstage := h.calls c call hcall
    obtain hphase | hphase := hphase
    · rw [hphase] at hstage
      contradiction
    · rw [hphase] at hstage
      contradiction
  | recheck i =>
    obtain ⟨fetch, found, hp, -⟩ := Proxy.recheck_cases (show p.recheck MemoryStore.ops i = _ from hs)
    obtain ⟨outcome, released, hstage⟩ := h.stage found
    rw [hp] at hstage
    contradiction
  | rejudge i =>
    obtain ⟨fetch, copy, found, hp, -⟩ := Proxy.rejudge_cases hs
    obtain ⟨outcome, released, hstage⟩ := h.stage found
    rw [hp] at hstage
    contradiction
  | copied i =>
    obtain ⟨fetch, copy, response, kept, found, hp, -⟩ := Proxy.copied_cases hs
    obtain ⟨outcome, released, hstage⟩ := h.stage found
    rw [hp] at hstage
    contradiction
  | verified i =>
    obtain ⟨fetch, copy, response, stamp, found, hp, -⟩ := Proxy.verified_cases (show p.verified MemoryStore.ops i = _ from hs)
    obtain ⟨outcome, released, hstage⟩ := h.stage found
    rw [hp] at hstage
    contradiction
  | finish i =>
    obtain ⟨fetch, outcome, c, coop, found, -, hplace, -⟩ := Proxy.finish_eq_some.mp hs
    obtain ⟨-, -, heq, -⟩ := h.fetch_eq found
    rw [heq] at hplace
    contradiction
  | exhaust | drop | crash | update | invalidate | change => exact plain.elim

/-! ## Moves keep the fetches in order -/

/-- A fetch that is over does not care about streams. -/
theorem Stage.of_closed {s s' : Streams} {outcome : Option (Except Fault (Option Content))}
    {released : Bool} (h : S.Stage s .closed outcome released) :
    S.Stage s' .closed outcome released := by
  cases h with
  | closed c brought => exact .closed c brought

/-- The stages of the fetches hang on little of the state. -/
theorem Works.congr (h : S.Works p done) (fetches : p'.fetches = p.fetches)
    (tags : p'.coop.tags = p.coop.tags) (table : p'.coop.table = p.coop.table)
    (streams : p'.streams = p.streams) : S.Works p' done where
  fetches i fetch hi := by
    rw [tags, streams]
    exact h.fetches i fetch (fetches ▸ hi)
  closed i fetch hi := h.closed i fetch (fetches ▸ hi)
  length := by rw [← Cooperation.length_tags, tags, Cooperation.length_tags, h.length, fetches]
  table := by
    rw [table, fetches]
    exact h.table

/-- While nothing is in the table, a fetch can begin. -/
theorem Works.lead (h : S.Works p done) (free : p.coop.table = []) {lease : Lease (Option Content)}
    (tag : lease.tag = (S.resource.key, none, false))
    (fetches : p'.fetches =
      p.fetches ++ [⟨.lease p.coop.leases.length, S.resource, true, .ask none⟩])
    (leases : p'.coop.leases = p.coop.leases ++ [lease])
    (table : p'.coop.table = [(S.resource.key, p.coop.leases.length)])
    (streams : p'.streams = p.streams) : S.Works p' done := by
  have hdone : p.fetches.length = done := by
    obtain ⟨-, hlength⟩ | ⟨hheld, -⟩ := h.table
    · exact hlength
    · simp [free] at hheld
  have htags : p'.coop.tags = p.coop.tags ++ [(S.resource.key, none, false)] := by
    rw [Cooperation.tags, leases, List.map_append, List.map_singleton, tag]
    rfl
  have hsplit : ∀ (i : Nat) (fetch : Fetch), p'.fetches[i]? = some fetch →
      i < done ∧ p.fetches[i]? = some fetch ∨
        i = done ∧ fetch = ⟨.lease done, S.resource, true, .ask none⟩ := by
    intro i fetch hi
    rw [fetches, h.length, hdone] at hi
    by_cases hlt : i < done
    · rw [List.getElem?_append_left (hdone.symm ▸ hlt)] at hi
      exact .inl ⟨hlt, hi⟩
    · have hle := (List.getElem?_eq_some_iff.mp hi).1
      rw [List.length_append, List.length_singleton] at hle
      obtain rfl : i = p.fetches.length := by omega
      rw [List.getElem?_concat_length, Option.some.injEq] at hi
      exact .inr ⟨hdone, hi.symm⟩
  constructor
  · intro i fetch hi
    obtain ⟨hlt, hbefore⟩ | ⟨rfl, rfl⟩ := hsplit i fetch hi
    · obtain ⟨outcome, released, heq, htag, hstage⟩ := h.fetches i fetch hbefore
      refine ⟨outcome, released, heq, ?_, streams ▸ hstage⟩
      rw [htags, List.getElem?_append_left (List.getElem?_eq_some_iff.mp htag).1]
      exact htag
    · refine ⟨none, false, rfl, ?_, .ask⟩
      rw [htags, ← hdone, ← h.length, ← Cooperation.length_tags, List.getElem?_concat_length]
  · intro i fetch hi
    obtain ⟨hlt, hbefore⟩ | ⟨rfl, rfl⟩ := hsplit i fetch hi
    · exact h.closed i fetch hbefore
    · simp
  · rw [leases, fetches, List.length_append, List.length_append, h.length]
    rfl
  · right
    rw [table, fetches, List.length_append, h.length, hdone]
    exact ⟨rfl, rfl⟩

/-- The fetch that is not over goes on, and the table loses its lease when it is. -/
theorem Works.turn (h : S.Works p done) {before after : FetchPhase} {next : Proxy MemoryStore}
    (found : p.fetches[i]? = some ⟨.lease i, S.resource, true, before⟩) (on : before ≠ .closed)
    {outcome : Option (Except Fault (Option Content))} {released : Bool}
    (fetches : next.fetches = p.fetches)
    (tag : next.coop.tags[i]? = some (S.resource.key, outcome, released))
    (others : ∀ j, j ≠ i → next.coop.tags[j]? = p.coop.tags[j]?)
    (leases : next.coop.leases.length = p.coop.leases.length)
    (stage : S.Stage next.streams after outcome released)
    (table : after ≠ .closed ∧ next.coop.table = p.coop.table ∨
      after = .closed ∧ next.coop.table = []) :
    ∃ done, S.Works (next.setFetch i after) done := by
  obtain ⟨rfl, hlength, hheld⟩ := h.last_of_on found on
  have hsplit : ∀ (j : Nat) (fetch : Fetch), (next.setFetch i after).fetches[j]? = some fetch →
      j = i ∧ fetch = ⟨.lease i, S.resource, true, after⟩ ∨
        j < i ∧ p.fetches[j]? = some fetch := by
    intro j fetch hj
    rw [Proxy.setFetch_fetches, fetches] at hj
    by_cases hij : i = j
    · subst hij
      rw [List.getElem?_modify_eq, found, Option.map_eq_map, Option.map_some,
        Option.some.injEq] at hj
      exact .inl ⟨rfl, hj.symm⟩
    · rw [List.getElem?_modify_ne _ _ hij] at hj
      have hbound := (List.getElem?_eq_some_iff.mp hj).1
      exact .inr ⟨by omega, hj⟩
  have hfetches : ∀ (j : Nat) (fetch : Fetch), (next.setFetch i after).fetches[j]? = some fetch →
      ∃ outcome released, fetch = ⟨.lease j, S.resource, true, fetch.phase⟩ ∧
        next.coop.tags[j]? = some (S.resource.key, outcome, released) ∧
        S.Stage next.streams fetch.phase outcome released := by
    intro j fetch hj
    obtain ⟨rfl, rfl⟩ | ⟨hlt, hbefore⟩ := hsplit j fetch hj
    · exact ⟨outcome, released, rfl, tag, stage⟩
    · obtain ⟨outcome', released', heq, htag, hstage⟩ := h.fetches j fetch hbefore
      have hclosed := (h.closed j fetch hbefore).mpr hlt
      rw [hclosed] at hstage
      refine ⟨outcome', released', heq, ?_, hclosed ▸ hstage.of_closed⟩
      rw [others j (Nat.ne_of_lt hlt), htag]
  have hclosed : ∀ (j : Nat) (fetch : Fetch), (next.setFetch i after).fetches[j]? = some fetch →
      (fetch.phase = .closed ↔ j < i ∨ j = i ∧ after = .closed) := by
    intro j fetch hj
    obtain ⟨rfl, rfl⟩ | ⟨hlt, hbefore⟩ := hsplit j fetch hj
    · simp
    · simp [hlt, h.closed j fetch hbefore]
  have hleases : next.coop.leases.length = (next.setFetch i after).fetches.length := by
    rw [leases, h.length, Proxy.setFetch_fetches, List.length_modify, fetches]
  have hlength : (next.setFetch i after).fetches.length = i + 1 := by
    rw [Proxy.setFetch_fetches, List.length_modify, fetches, hlength]
  obtain ⟨hafter, htable⟩ | ⟨rfl, htable⟩ := table
  · refine ⟨i, hfetches, fun j fetch hj => ?_, hleases, .inr ⟨htable.trans hheld, hlength⟩⟩
    rw [hclosed j fetch hj]
    simp [hafter]
  · refine ⟨i + 1, hfetches, fun j fetch hj => ?_, hleases, .inl ⟨htable, hlength⟩⟩
    rw [hclosed j fetch hj, and_iff_left rfl]
    omega

/-- The outcome of a lease is not there before it is published. -/
theorem Stage.pending {s : Streams} {phase : FetchPhase}
    {outcome : Option (Except Fault (Option Content))} {released : Bool}
    (h : S.Stage s phase outcome released) (before : phase ≠ .published) (on : phase ≠ .closed) :
    outcome = none ∧ released = false := by
  cases h with
  | published => exact absurd rfl before
  | closed => exact absurd rfl on
  | _ => exact ⟨rfl, rfl⟩

/-- Without any change of the leases, a fetch that works for its lease goes on. -/
theorem Works.work (h : S.Works p done) {before after : FetchPhase} {next : Proxy MemoryStore}
    (found : p.fetches[i]? = some ⟨.lease i, S.resource, true, before⟩)
    (pending : before ≠ .published ∧ before ≠ .closed)
    (fetches : next.fetches = p.fetches) (coop : next.coop = p.coop)
    (stage : S.Stage next.streams after none false) :
    ∃ done, S.Works (next.setFetch i after) done := by
  obtain ⟨outcome, released, -, htag, hstage⟩ := h.fetches i _ found
  obtain ⟨rfl, rfl⟩ := hstage.pending pending.1 pending.2
  refine h.turn found pending.2 fetches (coop ▸ htag) (fun j _ => by rw [coop]) (by rw [coop]) stage
    (.inl ⟨?_, by rw [coop]⟩)
  rintro rfl
  contradiction

/-- A turn takes a fetch from one stage to the next. -/
theorem Works.of_turn (h : S.Works p done) {before after : FetchPhase} {e : ProxyEvent}
    {next : Proxy MemoryStore}
    (found : p.fetches[i]? = some ⟨.lease i, S.resource, true, before⟩)
    (turn : S.FetchTurn p i before e after next) :
    ∃ done, S.Works (next.setFetch i after) done := by
  obtain ⟨outcome, released, -, htag, hstage⟩ := h.fetches i _ found
  cases turn with
  | asked request =>
    exact h.work found (by simp) rfl rfl (.waiting request)
  | answered request reply response streams opened =>
    exact h.work found (by simp) rfl rfl (.answered request response opened)
  | handled request response remote readable =>
    exact h.work found (by simp) rfl rfl (.storing response remote readable)
  | stored response remote bytes attributes streams brought =>
    exact h.work found (by simp) rfl rfl (.ended _ brought)
  | published c brought =>
    have htags := Cooperation.tags_modify (s := p.coop) i
      (fun lease => { lease with outcome := some (.ok (some c)) })
      (fun tag => (tag.1, some (.ok (some c)), tag.2.2)) fun _ => rfl
    cases hstage
    refine h.turn found (by simp) rfl ?_ (fun j hj => ?_) (List.length_modify ..)
      (.published c brought) (.inl ⟨by simp, rfl⟩)
    · rw [Cooperation.tags, htags, List.getElem?_modify_eq, htag]
      rfl
    · rw [Cooperation.tags, htags, List.getElem?_modify_ne _ _ (Ne.symm hj)]
  | released =>
    have htags := Cooperation.tags_modify (s := p.coop) i
      (fun lease => { lease with released := true })
      (fun tag => (tag.1, tag.2.1, true)) fun _ => rfl
    cases hstage with
    | published c brought =>
      refine h.turn found (by simp) rfl ?_ (fun j hj => ?_) (List.length_modify ..)
        (.closed c brought) (.inr ⟨rfl, rfl⟩)
      · rw [Cooperation.tags, htags, List.getElem?_modify_eq, htag]
        rfl
      · rw [Cooperation.tags, htags, List.getElem?_modify_ne _ _ (Ne.symm hj)]

/-- Every move keeps the fetches in order. -/
theorem Works.of_move {e : ProxyEvent} (h : S.Works p done) (move : S.Move p e p') :
    ∃ done, S.Works p' done := by
  cases move with
  | request => exact ⟨done, h.congr rfl rfl rfl rfl⟩
  | get g found turn => exact ⟨done, h.congr rfl rfl rfl rfl⟩
  | follow g l call found there phase held =>
    exact ⟨done, h.congr rfl (Cooperation.tags_countWaiter l 1) rfl rfl⟩
  | lead g call found phase free =>
    refine ⟨done, h.lead free rfl rfl rfl ?_ rfl⟩
    change List.filter _ p.coop.table ++ _ = _
    rw [free]
    rfl
  | deliver g c call content found live brought =>
    exact ⟨done, h.congr rfl (Cooperation.tags_leave ..) (Cooperation.leave_table ..) rfl⟩
  | tick nanos => exact ⟨done, h.congr rfl rfl rfl rfl⟩
  | fetch i found turn => exact h.of_turn found turn

/-! ## Moves keep the rest -/

/-- More calls do not change the stage of a get. -/
theorem GetStage.mono {calls calls' : Nat} {phase : GetPhase} (h : S.GetStage calls phase)
    (le : calls ≤ calls') : S.GetStage calls' phase := by
  cases h with
  | lookUp => exact .lookUp
  | judge copy brought => exact .judge copy brought
  | enter => exact .enter
  | called c there => exact .called c (Nat.lt_of_lt_of_le there le)
  | returned c brought => exact .returned c brought

/-- More leases do not change the stage of a call. -/
theorem CallStage.mono {leases leases' : Nat} {phase : CallPhase (Option Content)}
    (h : S.CallStage leases phase) (le : leases ≤ leases') : S.CallStage leases' phase := by
  cases h with
  | leading l there => exact .leading l (Nat.lt_of_lt_of_le there le)
  | following l deadline there => exact .following l deadline (Nat.lt_of_lt_of_le there le)
  | returned c brought => exact .returned c brought

/-- After its turn a get is at the next stage. -/
theorem GetTurn.stage {before after : GetPhase} {e : ProxyEvent} (h : S.GetTurn g before e after)
    (calls : Nat) : S.GetStage calls after := by
  cases h with
  | found copy brought => exact .judge copy brought
  | stale => exact .enter
  | fresh c brought => exact .returned c brought

/-- After a get goes to another phase, all gets are where they can be. -/
theorem Shared.gets_modify (h : S.Shared p) {calls : Nat} (le : p.coop.calls.length ≤ calls)
    {after : GetPhase} (stage : S.GetStage calls after) {j : Nat} {get : Get}
    (hj : (p.gets.modify g fun get => { get with phase := after })[j]? = some get) :
    get.resource = S.resource ∧ S.GetStage calls get.phase := by
  by_cases hgj : g = j
  · subst hgj
    rw [List.getElem?_modify_eq, Option.map_eq_map] at hj
    obtain ⟨before, hbefore, rfl⟩ := Option.map_eq_some_iff.mp hj
    exact ⟨(h.gets g before hbefore).1, stage⟩
  · rw [List.getElem?_modify_ne _ _ hgj] at hj
    obtain ⟨hresource, hstage⟩ := h.gets j get hj
    exact ⟨hresource, hstage.mono le⟩

/-- A fetch that goes on leaves gets and calls alone. -/
theorem FetchTurn.frame {before after : FetchPhase} {e : ProxyEvent} {next : Proxy MemoryStore}
    (h : S.FetchTurn p i before e after next) :
    next = { p with coop := next.coop, store := next.store, streams := next.streams } ∧
      next.coop.calls = p.coop.calls ∧ next.coop.leases.length = p.coop.leases.length := by
  cases h with
  | published c brought => exact ⟨rfl, rfl, List.length_modify ..⟩
  | released => exact ⟨rfl, rfl, List.length_modify ..⟩
  | _ => exact ⟨rfl, rfl, rfl⟩

/-- A move keeps all gets at their stages. -/
theorem Shared.gets_of_move (h : S.Shared p) {e : ProxyEvent} (move : S.Move p e p') :
    ∀ (j : Nat) (get : Get), p'.gets[j]? = some get →
      get.resource = S.resource ∧ S.GetStage p'.coop.calls.length get.phase := by
  intro j get hj
  cases move with
  | request =>
    obtain hold | hnew := List.mem_append.mp (List.mem_of_getElem? hj)
    · obtain ⟨k, hk⟩ := List.getElem?_of_mem hold
      exact h.gets k get hk
    · rw [List.mem_singleton.mp hnew]
      exact ⟨rfl, .lookUp⟩
  | get g found turn => exact h.gets_modify (Nat.le_refl _) (turn.stage _) hj
  | follow g l call found there phase held =>
    have hlength : (p.coop.calls ++ [call]).length = p.coop.calls.length + 1 := List.length_append
    refine h.gets_modify ?_ (.called _ ?_) hj
    · exact hlength ▸ Nat.le_succ _
    · exact hlength ▸ Nat.lt_succ_self _
  | lead g call found phase free =>
    have hlength : (p.coop.calls ++ [call]).length = p.coop.calls.length + 1 := List.length_append
    refine h.gets_modify ?_ (.called _ ?_) hj
    · exact hlength ▸ Nat.le_succ _
    · exact hlength ▸ Nat.lt_succ_self _
  | deliver g c call content found live brought =>
    have hlength : (p.coop.leave c call.phase (.returned (.ok (some content)))).calls.length =
        p.coop.calls.length := by
      rw [Cooperation.leave_calls, List.length_modify]
    rw [hlength]
    exact h.gets j get hj
  | tick nanos => exact h.gets j get hj
  | @fetch before after e next i found turn =>
    obtain ⟨hnext, hcalls, -⟩ := turn.frame
    have hgets : next.gets = p.gets := by rw [hnext]
    rw [Proxy.setFetch_gets, hgets] at hj
    rw [Proxy.setFetch_coop, hcalls]
    exact h.gets j get hj

/-- A move keeps all calls at their stages. -/
theorem Shared.calls_of_move (h : S.Shared p) {e : ProxyEvent} (move : S.Move p e p') :
    ∀ (c : Nat) (call : Call (Option Content)), p'.coop.calls[c]? = some call →
      S.CallStage p'.coop.leases.length call.phase := by
  intro j call' hj
  cases move with
  | request => exact h.calls j call' hj
  | get g found turn => exact h.calls j call' hj
  | follow g l call found there phase held =>
    have hlength : (p.coop.countWaiter l 1).leases.length = p.coop.leases.length :=
      List.length_modify ..
    change S.CallStage (p.coop.countWaiter l 1).leases.length _
    rw [hlength]
    obtain hold | hnew := List.mem_append.mp (List.mem_of_getElem? hj)
    · obtain ⟨k, hk⟩ := List.getElem?_of_mem hold
      exact h.calls k call' hk
    · rw [List.mem_singleton.mp hnew, phase]
      exact .following l _ there
  | lead g call found phase free =>
    have hlength : (p.coop.startLease S.resource.key p.coop.calls.length false).leases.length =
        p.coop.leases.length + 1 := List.length_append
    change S.CallStage
      (p.coop.startLease S.resource.key p.coop.calls.length false).leases.length _
    rw [hlength]
    obtain hold | hnew := List.mem_append.mp (List.mem_of_getElem? hj)
    · obtain ⟨k, hk⟩ := List.getElem?_of_mem hold
      exact (h.calls k call' hk).mono (Nat.le_succ _)
    · rw [List.mem_singleton.mp hnew, phase]
      exact .leading _ (Nat.lt_succ_self _)
  | deliver g c call content found live brought =>
    have hlength : (p.coop.leave c call.phase (.returned (.ok (some content)))).leases.length =
        p.coop.leases.length := by
      rw [← Cooperation.length_tags, Cooperation.tags_leave, Cooperation.length_tags]
    change (p.coop.leave c call.phase _).calls[j]? = _ at hj
    rw [Cooperation.leave_calls] at hj
    rw [hlength]
    by_cases hcj : c = j
    · subst hcj
      rw [List.getElem?_modify_eq, Option.map_eq_map] at hj
      obtain ⟨before, -, rfl⟩ := Option.map_eq_some_iff.mp hj
      exact .returned content brought
    · rw [List.getElem?_modify_ne _ _ hcj] at hj
      exact h.calls j call' hj
  | tick nanos => exact h.calls j call' hj
  | fetch i found turn =>
    obtain ⟨-, hcalls, hleases⟩ := turn.frame
    rw [Proxy.setFetch_coop, hcalls] at hj
    rw [Proxy.setFetch_coop, hleases]
    exact h.calls j call' hj

/-- The store has no copy of the resource but those that answers brought. -/
theorem Shared.store_of_move (h : S.Shared p) {e : ProxyEvent} (move : S.Move p e p') :
    p'.store.capacity = S.capacity ∧ p'.store.WellNumbered ∧
      ∀ c, p'.store.lookup S.resource = .ok (some c) → S.Brought c := by
  have hsame : p'.store = p.store → p'.store.capacity = S.capacity ∧ p'.store.WellNumbered ∧
      ∀ c, p'.store.lookup S.resource = .ok (some c) → S.Brought c := by
    intro hstore
    rw [hstore]
    exact ⟨h.capacity, h.numbered, h.found⟩
  cases move with
  | fetch i found turn =>
    cases turn with
    | stored response remote bytes attributes streams brought =>
      change (p.store.keep S.resource bytes attributes).capacity = _ ∧ _
      refine ⟨?_, MemoryStore.wellNumbered_keep h.numbered bytes attributes, fun c hc => ?_⟩
      · rw [MemoryStore.keep_eq]
        exact h.capacity
      · obtain ⟨-, rfl⟩ | ⟨hother, -⟩ := MemoryStore.lookup_of_keep h.numbered hc
        · exact brought
        · exact absurd rfl hother
    | _ => exact hsame rfl
  | _ => exact hsame rfl

/-- No move changes the settings. -/
theorem Shared.settings_of_move {e : ProxyEvent} (move : S.Move p e p') :
    p'.remote = p.remote ∧ p'.controllers = p.controllers ∧ p'.passive = p.passive ∧
      p'.origin = p.origin := by
  cases move with
  | @fetch before after e next i found turn =>
    have hnext := turn.frame.1
    change next.remote = _ ∧ next.controllers = _ ∧ next.passive = _ ∧ next.origin = _
    rw [hnext]
    exact ⟨rfl, rfl, rfl, rfl⟩
  | _ => exact ⟨rfl, rfl, rfl, rfl⟩

/-- A scene stays a scene. -/
theorem Shared.of_move (h : S.Shared p) {e : ProxyEvent} (move : S.Move p e p') : S.Shared p' := by
  obtain ⟨hremote, hcontrollers, hpassive, horigin⟩ := settings_of_move move
  obtain ⟨hcapacity, hnumbered, hfound⟩ := h.store_of_move move
  obtain ⟨done, hworks⟩ := h.works
  exact ⟨hremote.trans h.remote, hcontrollers.trans h.controllers, hpassive.trans h.passive,
    horigin.trans h.origin, hcapacity, hnumbered, hfound, h.gets_of_move move,
    h.calls_of_move move, hworks.of_move move⟩

/-- A shared run begins with nothing under way. -/
theorem shared_start (idle : Idle S.start S.resource) : S.Shared S.start where
  remote := rfl
  controllers := rfl
  passive := rfl
  origin := rfl
  capacity := rfl
  numbered := idle.numbered
  found c hc := absurd hc (idle.uncached c)
  gets g get hg := by simp [idle.gets] at hg
  calls c call hc := by simp [idle.coop] at hc
  works := by
    refine ⟨0, ?_, ?_, ?_, .inl ⟨?_, ?_⟩⟩
    · intro i fetch hi
      simp [idle.fetches] at hi
    · intro i fetch hi
      simp [idle.fetches] at hi
    · rw [idle.coop, idle.fetches]
      rfl
    · rw [idle.coop]
    · rw [idle.fetches]
      rfl

end PullCache.Scene
