import PullCache.Proofs.Proxy.Effect
import PullCache.Proofs.Proxy.Exchange
import PullCache.Proofs.Store.Copies
/-!
# Proofs.Proxy.Provenance

Where a stored copy and its stamp come from. In a run that starts with an empty store, every copy
that a get finds carries the stamp of an exchange with the origin for its key: either the exchange
brought the copy, or the origin answered it that a copy had not changed (`recorded_of_run`).

An exchange is placed in a run by two events, the one that sends the request and the one that reads
the answer and issues the stamp. Between them any number of other events may lie.
-/

namespace PullCache.Proxy

variable {σ : Type} (ops : StoreOps σ) (start : Proxy σ) (events : List ProxyEvent)

/-! ## Exchanges in a run -/

/-- An exchange of a fetch with the origin. The two numbers are the places in a run of the event that
sends the request and of the event that reads the answer. -/
structure Contact where
  fetch : Nat
  resource : Resource
  copy : Option Content
  request : OriginRequest
  response : OriginResponse
  stamp : Stamp
  asked : Nat
  handled : Nat

/-- The event at a place of a run sends the request of a fetch, below the remote of that moment. -/
structure Sent (i : Nat) (r : Resource) (copy : Option Content) (request : OriginRequest) (k : Nat) :
    Prop where
  event : events[k]? = some (.ask i)
  before : ∃ q fetch, start.run ops (events.take k) = some q ∧ q.fetches[i]? = some fetch ∧
    fetch.resource = r ∧ fetch.phase = .ask copy ∧ Remote.resolve q.remote r = .ok request.url

/-- The exchange is part of a run. -/
structure Contact.Happened (x : Contact) : Prop where
  sent : Sent ops start events x.fetch x.resource x.copy x.request x.asked
  order : x.asked < x.handled
  event : events[x.handled]? = some (.handle x.fetch)
  read : ∃ q fetch, start.run ops (events.take x.handled) = some q ∧
    q.fetches[x.fetch]? = some fetch ∧ fetch.resource = x.resource ∧
    fetch.phase = .answered x.copy x.request (.ok x.response) ∧
    x.stamp = (q.controller x.resource).stampAt q.wall

/-- The exchange brought the content: the origin answered 200, and the content is what the store gave
back when it took in the body. -/
structure Contact.Brought (x : Contact) (c : Content) : Prop where
  isOk : x.response.isOk = true
  kept : ∃ body k q, x.response.body = some body ∧ x.handled < k ∧
    events[k]? = some (.stored x.fetch) ∧ start.run ops (events.take k) = some q ∧
    (ops.store q.store q.streams x.resource
      (Exchange.contentOf x.response body x.stamp)).1 = .ok c

/-- The exchange was answered 304, for a copy. -/
def Contact.Unchanged (x : Contact) : Prop :=
  x.response.isNotModified = true ∧ x.copy.isSome = true

/-- The content is under a key with the stamp of an exchange for that key. -/
def Stamped (key : Key) (c : Content) : Prop :=
  ∃ x : Contact, x.Happened ops start events ∧ x.resource.key = key ∧
    c.attributes.stamp = some x.stamp ∧ (x.Brought ops start events c ∨ x.Unchanged)

/-- What has happened when a fetch is in a phase. -/
def Progress (i : Nat) (r : Resource) : FetchPhase → Prop
  | .rejudge (some c) => Stamped ops start events r.key c
  | .waiting copy request | .answered copy request _ =>
    ∃ k, Sent ops start events i r copy request k
  | .storing _ response remote => ∃ x : Contact, ∃ body, x.Happened ops start events ∧ x.fetch = i ∧
    x.resource = r ∧ x.response = response ∧ response.isOk = true ∧ response.body = some body ∧
    remote = Exchange.contentOf response body x.stamp
  | .verifying copy response stamp => ∃ x : Contact, x.Happened ops start events ∧ x.fetch = i ∧
    x.resource = r ∧ x.response = response ∧ response.isNotModified = true ∧
    x.copy = some copy ∧ x.stamp = stamp
  | _ => True

/-! ## Longer runs -/

variable {ops start events} {e : ProxyEvent}

theorem getElem?_concat_of_some {k : Nat} {a : ProxyEvent} (h : events[k]? = some a) :
    (events ++ [e])[k]? = some a := by
  rw [List.getElem?_append_left (List.getElem?_eq_some_iff.mp h).1, h]

theorem take_concat_of_some {k : Nat} {a : ProxyEvent} (h : events[k]? = some a) :
    (events ++ [e]).take k = events.take k :=
  List.take_append_of_le_length (Nat.le_of_lt (List.getElem?_eq_some_iff.mp h).1)

theorem Sent.concat {i k : Nat} {r : Resource} {copy : Option Content} {request : OriginRequest}
    (h : Sent ops start events i r copy request k) :
    Sent ops start (events ++ [e]) i r copy request k where
  event := getElem?_concat_of_some h.event
  before := by
    rw [take_concat_of_some h.event]
    exact h.before

/-- An exchange that happened stays part of the run. -/
theorem Contact.Happened.concat {x : Contact} (h : x.Happened ops start events) :
    x.Happened ops start (events ++ [e]) where
  sent := h.sent.concat
  order := h.order
  event := getElem?_concat_of_some h.event
  read := by
    rw [take_concat_of_some h.event]
    exact h.read

theorem Contact.Brought.concat {x : Contact} {c : Content} (h : x.Brought ops start events c) :
    x.Brought ops start (events ++ [e]) c where
  isOk := h.isOk
  kept := by
    obtain ⟨body, k, q, hbody, hk, hevent, hq, hkept⟩ := h.kept
    refine ⟨body, k, q, hbody, hk, getElem?_concat_of_some hevent, ?_, hkept⟩
    rw [take_concat_of_some hevent]
    exact hq

/-- A stamp that was given stays given. -/
theorem Stamped.concat {key : Key} {c : Content} (h : Stamped ops start events key c) :
    Stamped ops start (events ++ [e]) key c := by
  obtain ⟨x, hx, hkey, hstamp, hsource⟩ := h
  exact ⟨x, hx.concat, hkey, hstamp, hsource.imp_left Contact.Brought.concat⟩

/-- What is known about a fetch goes on being known. -/
theorem Progress.concat {i : Nat} {r : Resource} {phase : FetchPhase}
    (h : Progress ops start events i r phase) : Progress ops start (events ++ [e]) i r phase := by
  cases phase with
  | rejudge copy =>
    cases copy with
    | none => trivial
    | some c => exact Stamped.concat h
  | waiting copy request =>
    obtain ⟨k, hk⟩ := h
    exact ⟨k, hk.concat⟩
  | answered copy request answer =>
    obtain ⟨k, hk⟩ := h
    exact ⟨k, hk.concat⟩
  | storing copy response remote =>
    obtain ⟨x, body, hx, h⟩ := h
    exact ⟨x, body, hx.concat, h⟩
  | verifying copy response stamp =>
    obtain ⟨x, hx, h⟩ := h
    exact ⟨x, hx.concat, h⟩
  | _ => trivial

/-! ## The invariant -/

variable {start q q' : Proxy MemoryStore} {i g : Nat}

/-- What the store holds and what gets and fetches carry around all comes from exchanges of the
run. -/
structure Recorded (start : Proxy MemoryStore) (events : List ProxyEvent) (q : Proxy MemoryStore) :
    Prop where
  numbered : q.store.WellNumbered
  store : ∀ (r : Resource) (c : Content), q.store.lookup r = .ok (some c) →
    Stamped MemoryStore.ops start events r.key c
  gets : ∀ (g : Nat) (get : Get) (c : Content), q.gets[g]? = some get →
    get.phase = .judge (some c) → Stamped MemoryStore.ops start events get.resource.key c
  fetches : ∀ (i : Nat) (fetch : Fetch), q.fetches[i]? = some fetch →
    Progress MemoryStore.ops start events i fetch.resource fetch.phase

/-! ## Writes -/

/-- In a step the store takes in what an exchange brought: the answer was 200, and the content has the
bytes of its body and what the answer says about them. -/
structure Contact.Keeps (x : Contact) (q : Proxy MemoryStore) (e : ProxyEvent) (c : Content) :
    Prop where
  event : e = .stored x.fetch
  isOk : x.response.isOk = true
  kept : ∃ body bytes, x.response.body = some body ∧
    (body.readLimited q.store.capacity q.streams).1 = .ok (some bytes) ∧
    c = ⟨.buffered bytes, (Exchange.contentOf x.response body x.stamp).attributes⟩

/-- In a step the store notes that an exchange was answered 304, on the copy that it has then. -/
structure Contact.Notes (x : Contact) (q : Proxy MemoryStore) (e : ProxyEvent) (copy : Content) :
    Prop where
  event : e = .verified x.fetch
  unchanged : x.Unchanged
  verifying : ∃ fetch known, q.fetches[x.fetch]? = some fetch ∧
    fetch.phase = .verifying known x.response x.stamp
  found : q.store.copy? x.resource = some copy

/-- In a step an exchange gives its key this copy: with content that it brought, or with its stamp on
the copy that is there. -/
structure Contact.Writes (x : Contact) (q : Proxy MemoryStore) (e : ProxyEvent) (key : Key)
    (c : Content) : Prop where
  key : x.resource.key = key
  stamp : c.attributes.stamp = some x.stamp
  source : x.Keeps q e c ∨ ∃ before, x.Notes q e before ∧ c = before.withStamp x.stamp

/-- A copy that is there after a step was there before, or an exchange of the run wrote it. -/
theorem Recorded.written_of_step (h : Recorded start events q)
    (hstep : StoreStep MemoryStore.ops q q' e) {r : Resource} {c : Content}
    (hc : q'.store.copy? r = some c) :
    q.store.copy? r = some c ∨
      ∃ x : Contact, x.Happened MemoryStore.ops start events ∧ x.Writes q e r.key c := by
  cases hstep with
  | same store => exact .inl (store ▸ hc)
  | lookup r' store =>
    have hsame : q'.store = q.store := store
    exact .inl (hsame ▸ hc)
  | store i fetch copy response remote found phase store =>
    have hprogress := h.fetches i fetch found
    rw [phase] at hprogress
    obtain ⟨x, body, hx, rfl, hresource, rfl, hok, hbody, hremote⟩ := hprogress
    have hkept : q'.store = (q.store.store q.streams fetch.resource remote).2.1 := store
    rw [MemoryStore.copy?_eq_some, hkept] at hc
    obtain ⟨bytes, hread, -, hkeep⟩ | ⟨-, hsame⟩ :=
      MemoryStore.store_cases q.store q.streams fetch.resource remote
    · rw [hkeep] at hc
      obtain ⟨hkey, rfl⟩ | ⟨-, hbefore⟩ := MemoryStore.lookup_of_keep h.numbered hc
      · rw [hremote] at hread ⊢
        exact .inr ⟨x, hx, by rw [hresource, hkey], rfl,
          .inl ⟨rfl, hok, body, bytes, hbody, hread, rfl⟩⟩
      · exact .inl (MemoryStore.copy?_eq_some.mpr hbefore)
    · exact .inl (MemoryStore.copy?_eq_some.mpr (hsame ▸ hc))
  | verify i fetch copy response stamp found phase store =>
    have hprogress := h.fetches i fetch found
    rw [phase] at hprogress
    obtain ⟨x, hx, rfl, hresource, rfl, hunchanged, hcopy, rfl⟩ := hprogress
    have hnoted : q'.store = q.store.verify fetch.resource x.stamp := store
    rw [MemoryStore.copy?_eq_some, hnoted] at hc
    obtain ⟨hkey, before, hbefore, rfl⟩ | ⟨-, hbefore⟩ := MemoryStore.lookup_of_verify hc
    · rw [← MemoryStore.copy?_eq_some, MemoryStore.copy?_congr hkey, ← hresource] at hbefore
      exact .inr ⟨x, hx, by rw [hresource, hkey], rfl, .inr ⟨before,
        ⟨rfl, ⟨hunchanged, by simp [hcopy]⟩, ⟨fetch, copy, found, phase⟩, hbefore⟩, rfl⟩⟩
    · exact .inl (MemoryStore.copy?_eq_some.mpr hbefore)

/-- What an exchange writes at the end of a run came from it. -/
theorem Contact.Happened.stamped_of_writes {x : Contact} {key : Key} {c : Content}
    (hx : x.Happened MemoryStore.ops start events) (hq : start.run MemoryStore.ops events = some q)
    (hwrites : x.Writes q e key c) : Stamped MemoryStore.ops start (events ++ [e]) key c := by
  refine ⟨x, hx.concat, hwrites.key, hwrites.stamp, ?_⟩
  obtain ⟨rfl, hok, body, bytes, hbody, hread, rfl⟩ | ⟨before, hnotes, -⟩ := hwrites.source
  · have hlt : x.handled < events.length := (List.getElem?_eq_some_iff.mp hx.event).1
    have hkept := (MemoryStore.store_of_read (m := q.store) (r := x.resource)
      (c := Exchange.contentOf x.response body x.stamp) hread).1
    refine .inl ⟨hok, body, events.length, q, hbody, hlt, List.getElem?_concat_length, ?_, hkept⟩
    rw [List.take_left]
    exact hq
  · exact .inr hnotes.unchanged

/-- What the store holds after a step it held before, or has from an exchange of the run. -/
theorem Recorded.store_step (h : Recorded start events q)
    (hq : start.run MemoryStore.ops events = some q) (hstep : StoreStep MemoryStore.ops q q' e)
    (r : Resource) (c : Content) (hc : q'.store.lookup r = .ok (some c)) :
    Stamped MemoryStore.ops start (events ++ [e]) r.key c := by
  obtain hbefore | ⟨x, hx, hwrites⟩ := h.written_of_step hstep (MemoryStore.copy?_eq_some.mpr hc)
  · exact (h.store r c (MemoryStore.copy?_eq_some.mp hbefore)).concat
  · exact hx.stamped_of_writes hq hwrites

/-- No step spoils the numbers of the blobs. -/
theorem wellNumbered_of_step (h : q.store.WellNumbered) (hstep : StoreStep MemoryStore.ops q q' e) :
    q'.store.WellNumbered := by
  cases hstep with
  | same store => exact store ▸ h
  | lookup r store =>
    have hsame : q'.store = q.store := store
    exact hsame ▸ h
  | store i fetch copy response remote found phase store =>
    have hkept : q'.store = (q.store.store q.streams fetch.resource remote).2.1 := store
    rw [hkept]
    obtain ⟨bytes, -, -, hkeep⟩ | ⟨-, hsame⟩ :=
      MemoryStore.store_cases q.store q.streams fetch.resource remote
    · exact hkeep ▸ MemoryStore.wellNumbered_keep h bytes remote.attributes
    · exact hsame.symm ▸ h
  | verify i fetch copy response stamp found phase store =>
    have hnoted : q'.store = q.store.verify fetch.resource stamp := store
    exact hnoted ▸ MemoryStore.wellNumbered_verify h stamp

/-- The copies that gets hold were stamped by exchanges of the run. -/
theorem Recorded.gets_step (h : Recorded start events q) (hstep : GetStep MemoryStore.ops q q' e) :
    ∀ (g : Nat) (get : Get) (c : Content), q'.gets[g]? = some get → get.phase = .judge (some c) →
      Stamped MemoryStore.ops start (events ++ [e]) get.resource.key c := by
  intro g get c hget hphase
  obtain hbefore | ⟨-, hnew⟩ | ⟨before, phase, found, move, rfl⟩ := hstep.before hget
  · exact (h.gets g get c hbefore hphase).concat
  · rw [hnew] at hphase
    contradiction
  · cases move with
    | found copy hlookUp lookup =>
      cases hphase
      exact (h.store before.resource c (lookup_of_foundCopy lookup)).concat
    | _ => contradiction

/-- A fetch that moves has come about in one of the ways that its phase allows. -/
theorem Recorded.fetches_step (h : Recorded start events q)
    (hq : start.run MemoryStore.ops events = some q) (hstep : FetchStep MemoryStore.ops q q' e) :
    ∀ (i : Nat) (fetch : Fetch), q'.fetches[i]? = some fetch →
      Progress MemoryStore.ops start (events ++ [e]) i fetch.resource fetch.phase := by
  intro i fetch hfetch
  obtain hbefore | ⟨-, begun⟩ | ⟨before, phase, found, move, rfl⟩ := hstep.before hfetch
  · exact (h.fetches i fetch hbefore).concat
  · cases begun <;> trivial
  · have hprogress := h.fetches i before found
    have hnow : start.run MemoryStore.ops ((events ++ [e]).take events.length) = some q := by
      rw [List.take_left]
      exact hq
    -- What is known about the phase before goes into what is known about the next one.
    cases move with
    | found copy hrecheck lookup =>
      cases copy with
      | none => trivial
      | some c => exact (h.store before.resource c (lookup_of_foundCopy lookup)).concat
    | sent copy url hask resolve =>
      refine ⟨events.length, List.getElem?_concat_length, q, before, hnow, found, rfl, hask, ?_⟩
      rw [OriginRequest.url_revalidating]
      exact resolve
    | unreached copy request fault hwaiting =>
      rw [hwaiting] at hprogress
      obtain ⟨k, hk⟩ := hprogress
      exact ⟨k, hk.concat⟩
    | reached copy request reply hwaiting =>
      rw [hwaiting] at hprogress
      obtain ⟨k, hk⟩ := hprogress
      exact ⟨k, hk.concat⟩
    | keep copy request response remote hanswered verdict =>
      rw [hanswered] at hprogress
      obtain ⟨k, hk⟩ := hprogress
      obtain ⟨hok, body, hbody, hremote⟩ := Exchange.judge_eq_keep verdict
      have hlt : k < events.length := (List.getElem?_eq_some_iff.mp hk.event).1
      let x : Contact := ⟨i, before.resource, copy, request, response,
        (q.controller before.resource).stampAt q.wall, k, events.length⟩
      refine ⟨x, body, ⟨hk.concat, hlt, List.getElem?_concat_length, ?_⟩, rfl, rfl, rfl, hok, hbody,
        hremote⟩
      exact ⟨q, before, hnow, found, rfl, hanswered, rfl⟩
    | confirm copy request response known stamp hanswered verdict =>
      rw [hanswered] at hprogress
      obtain ⟨k, hk⟩ := hprogress
      obtain ⟨hsame, hcopy, hstamp⟩ := Exchange.judge_eq_confirm verdict
      have hlt : k < events.length := (List.getElem?_eq_some_iff.mp hk.event).1
      let x : Contact := ⟨i, before.resource, copy, request, response,
        (q.controller before.resource).stampAt q.wall, k, events.length⟩
      refine ⟨x, ⟨hk.concat, hlt, List.getElem?_concat_length, ?_⟩, rfl, rfl, rfl, hsame, hcopy,
        hstamp.symm⟩
      exact ⟨q, before, hnow, found, rfl, hanswered, rfl⟩
    | _ => trivial

/-- The provenance of all copies is kept from step to step. -/
theorem Recorded.step (h : Recorded start events q)
    (hq : start.run MemoryStore.ops events = some q) (hstep : q.step MemoryStore.ops e = some q') :
    Recorded start (events ++ [e]) q' where
  numbered := wellNumbered_of_step h.numbered (step_effect hstep).store
  store := h.store_step hq (step_effect hstep).store
  gets := h.gets_step (step_effect hstep).gets
  fetches := h.fetches_step hq (step_effect hstep).fetches

/-- In a run from an empty store with nothing under way, every copy has the stamp of an exchange. -/
theorem recorded_of_run {capacity : Nat} (hstore : start.store = .empty capacity)
    (hgets : start.gets = []) (hfetches : start.fetches = [])
    (h : start.run MemoryStore.ops events = some q) : Recorded start events q := by
  have hstart : Recorded start [] start := by
    constructor
    · rw [hstore]
      exact MemoryStore.wellNumbered_empty capacity
    · intro r c hc
      rw [hstore, MemoryStore.lookup_empty] at hc
      cases hc
    · intro g get c hget
      simp [hgets] at hget
    · intro i fetch hfetch
      simp [hfetches] at hfetch
  exact run_invariant hstart (fun hq hrecorded hstep => Recorded.step hrecorded hq hstep) h

end PullCache.Proxy
