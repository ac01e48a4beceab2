import PullCache.Proofs.Proxy.Bodies
import PullCache.Proofs.Proxy.Lending
/-!
# Proofs.Proxy.Readers

Clients that read what their gets have returned, whenever they like and as often as they like, while the
proxy goes on (`Readership`). Gets that wait for the same work return the same content, and a payload
can be a stream that only its first reader gets. While sharing is on, over a store that lends, no such
payload is ever returned: each read gives all the bytes and takes nothing from anybody
(`everyone_reads`).
-/

namespace PullCache

variable {σ : Type}

/-! ## Stores that lend -/

/-- A store that reads what it is given and copies it, or gives it back unread, or fails, lends. -/
theorem StoreOps.Treats.handsBack {ops : StoreOps σ} {m : σ} {s : Streams} {r : Resource} {c : Content}
    (h : ops.Treats m s r c) : ops.HandsBack m s r c where
  answer kept hkept := by
    cases h with
    | copied copy reusable answer streams =>
      obtain rfl : copy = kept := Except.ok.inj (answer.symm.trans hkept)
      exact .inl reusable
    | givenBack answer streams =>
      obtain rfl : c = kept := Except.ok.inj (answer.symm.trans hkept)
      exact .inr rfl
    | refused fault answer streams =>
      rw [answer] at hkept
      contradiction
    | failed fault answer streams =>
      rw [answer] at hkept
      contradiction
  streams := .of_takesOnly h.takesOnly

/-- The store in memory lends whatever happens. -/
theorem MemoryStore.lends (p : Proxy MemoryStore) (e : ProxyEvent) : p.Lends MemoryStore.ops e where
  lookups r c _ hfound := by
    obtain ⟨record, bytes, -, -, rfl⟩ := lookup_eq_ok_some.mp hfound
    rfl
  stores r c _ := (orderly p.store p.streams r c).handsBack

/-- The store that gives everything back unread lends as long as it is empty when it is asked. -/
theorem EchoStore.lends_of_empty {p : Proxy EchoStore} {e : ProxyEvent}
    (h : p.sought? e = none ∨ p.store.entries = []) : p.Lends EchoStore.ops e where
  lookups r c hsought hfound := by
    obtain hnone | hempty := h
    · rw [hnone] at hsought
      contradiction
    · have hlookup : (EchoStore.ops.lookup p.store r).1 = .ok none := by
        change Except.ok (MemoryStore.find? r.key p.store.entries) = _
        rw [hempty]
        rfl
      rw [hlookup] at hfound
      cases hfound
  stores r c _ := (orderly p.store p.streams r c).handsBack

/-! ## Gets that have returned -/

/-- The get has nothing to do any more but to wait. -/
def GetPhase.isHandedOn : GetPhase → Bool
  | called _ | returned _ => true
  | _ => false

namespace Proxy

variable {ops : StoreOps σ} {start p p' q : Proxy σ} {e : ProxyEvent} {events : List ProxyEvent}
  {g i l : Nat} {result : Except Fault (Option Content)}

theorem get_of_step {get : Get} (h : p.step ops e = some p') (hget : p.gets[g]? = some get)
    (handedOn : get.phase.isHandedOn = true) : p'.gets[g]? = some get := by
  cases (step_effect h).gets with
  | same gets => rw [gets, hget]
  | request r gets =>
    have hlt : g < p.gets.length := (List.getElem?_eq_some_iff.mp hget).1
    rw [gets, List.getElem?_append_left hlt, hget]
  | move j before phase found move gets =>
    by_cases hj : j = g
    · subst hj
      obtain rfl : before = get := Option.some.inj (found.symm.trans hget)
      cases move <;> simp [*, GetPhase.isHandedOn] at handedOn
    · rw [gets, List.getElem?_modify_ne _ _ hj, hget]

/-- What a get has returned stays. -/
theorem returned_of_step (h : p.step ops e = some p') (hreturned : p.getState g = .returned result) :
    p'.getState g = .returned result := by
  obtain ⟨get, hget, hphase | ⟨c, call, hcalled, hcall, hended⟩⟩ :=
    getState_eq_returned.mp hreturned
  · have hget' := get_of_step h hget (by rw [hphase]; rfl)
    exact getState_eq_returned.mpr ⟨get, hget', .inl hphase⟩
  · have hget' := get_of_step h hget (by rw [hcalled]; rfl)
    obtain hsame | ⟨event, -, hcoop⟩ := coop_of_step h
    · exact getState_eq_returned.mpr ⟨get, hget', .inr ⟨c, call, hcalled, hsame ▸ hcall, hended⟩⟩
    · obtain ⟨phase, hcall', hover⟩ := Cooperation.call_of_step hcoop hcall
      have hphase := hover (by rw [hended]; rfl)
      exact getState_eq_returned.mpr
        ⟨get, hget', .inr ⟨c, { call with phase }, hcalled, hcall', hphase.trans hended⟩⟩

/-- The get sees the outcome of a lease that it waits on, and returns it. -/
def AnsweredBy (ops : StoreOps σ) (start : Proxy σ) (events : List ProxyEvent) (g l : Nat) : Prop :=
  ∃ k p c call, Occurs ops start events k p (.deliver g) ∧ p.callOf? g = some c ∧
    p.coop.calls[c]? = some call ∧ call.phase.lease? = some l

/-- A get that sees the outcome of a lease returns it. -/
theorem returned_of_deliver {c : Nat} {call : Call (Option Content)}
    (h : p.step ops (.deliver g) = some p') (hc : p.callOf? g = some c)
    (hcall : p.coop.calls[c]? = some call) (hl : call.phase.lease? = some l) :
    ∃ result, p'.coop.outcome? l = some result ∧ p'.getState g = .returned result := by
  have hdelivered : p.callStep g .deliver = some p' := h
  obtain ⟨c', coop, hc', hcoop, rfl⟩ := callStep_eq_some.mp hdelivered
  obtain rfl : c' = c := Option.some.inj (hc'.symm.trans hc)
  obtain ⟨get, hget, hphase⟩ := callOf?_eq_some.mp hc
  have hoverall : p.coop.deliver c' = some coop := hcoop
  obtain ⟨call', l', outcome, hcall', hl', houtcome, rfl⟩ := Cooperation.deliver_eq_some.mp hoverall
  obtain rfl : call' = call := Option.some.inj (hcall'.symm.trans hcall)
  obtain rfl : l' = l := Option.some.inj (hl'.symm.trans hl)
  refine ⟨outcome, Cooperation.outcome?_of_step hcoop houtcome, getState_eq_returned.mpr ?_⟩
  refine ⟨get, hget, .inr ⟨c', { call' with phase := .returned outcome }, hphase, ?_, rfl⟩⟩
  rw [Cooperation.leave_calls, List.getElem?_modify_eq, hcall]
  rfl

/-- All gets that a lease answers return its outcome. -/
theorem AnsweredBy.returned (h : AnsweredBy ops start events g l)
    (hrun : start.run ops events = some q) :
    ∃ result, q.coop.outcome? l = some result ∧ q.getState g = .returned result := by
  obtain ⟨k, p, c, call, ⟨hevent, hp⟩, hc, hcall, hl⟩ := h
  have hk : k + 1 ≤ events.length := (List.getElem?_eq_some_iff.mp hevent).1
  rw [← List.take_length (l := events)] at hrun
  obtain ⟨p', hp'⟩ := run_prefix hk hrun
  obtain ⟨result, houtcome, hreturned⟩ :=
    returned_of_deliver (step_of_run hevent hp hp') hc hcall hl
  refine place_induction (I := fun _ q => ∃ result, q.coop.outcome? l = some result ∧
    q.getState g = .returned result) hp' ⟨result, houtcome, hreturned⟩ ?_ hk (Nat.le_refl _) hrun
  rintro _ p p' e - - - hstep ⟨result, houtcome, hreturned⟩
  refine ⟨result, ?_, returned_of_step hstep hreturned⟩
  obtain hsame | ⟨event, -, hcoop⟩ := coop_of_step hstep
  · rw [hsame, houtcome]
  · exact Cooperation.outcome?_of_step hcoop houtcome

end Proxy

/-! ## Clients -/

/-- What happens around a proxy: a step of its own, or a client reads what its get has returned. -/
inductive ReaderEvent where
  | proxy (e : ProxyEvent)
  | read (get : Nat)

namespace ReaderEvent

def proxy? : ReaderEvent → Option ProxyEvent
  | proxy e => some e
  | read _ => none

/-- The steps of the proxy alone. -/
def steps (events : List ReaderEvent) : List ProxyEvent :=
  events.filterMap proxy?

end ReaderEvent

/-- A proxy and what has been read so far: for each read the get, and what came of it. -/
structure Readership (σ : Type) where
  proxy : Proxy σ
  readings : List (Nat × Except ReadFault Bytes) := []

namespace Readership

variable {ops : StoreOps σ} {x y : Readership σ} {start : Proxy σ} {g : Nat} {c : Content}
  {bytes : Bytes} {outcome : Except ReadFault Bytes} {events before : List ReaderEvent}
  {e : ReaderEvent}

/-- A client reads the content that its get has returned. -/
def read (x : Readership σ) (g : Nat) : Option (Readership σ) :=
  match x.proxy.getState g with
  | .returned (.ok (some c)) =>
    let (outcome, streams) := c.payload.readAll x.proxy.streams
    some ⟨{ x.proxy with streams }, x.readings ++ [(g, outcome)]⟩
  | _ => none

def step (ops : StoreOps σ) (x : Readership σ) : ReaderEvent → Option (Readership σ)
  | .proxy e => (x.proxy.step ops e).map fun proxy => { x with proxy }
  | .read g => x.read g

/-- The state after a sequence of events, if all of them are possible in turn. -/
def run (ops : StoreOps σ) (x : Readership σ) : List ReaderEvent → Option (Readership σ)
  | [] => some x
  | e :: rest => (x.step ops e).bind fun x => x.run ops rest

theorem run_concat_eq_some :
    x.run ops (events ++ [e]) = some y ↔ ∃ z, x.run ops events = some z ∧ z.step ops e = some y := by
  induction events generalizing x with
  | nil => simp [run]
  | cons first rest ih =>
    simp only [List.cons_append, run, Option.bind_eq_some_iff, ih]
    constructor
    · rintro ⟨next, hnext, z, hz, hstep⟩
      exact ⟨z, ⟨next, hnext, hz⟩, hstep⟩
    · rintro ⟨z, ⟨next, hnext, hz⟩, hstep⟩
      exact ⟨next, hnext, z, hz, hstep⟩

/-- The get has returned content that has its bytes in memory, and the read has given them. -/
def Whole (x : Readership σ) (g : Nat) (outcome : Except ReadFault Bytes) : Prop :=
  ∃ c bytes, x.proxy.getState g = .returned (.ok (some c)) ∧ c.payload = .buffered bytes ∧
    outcome = .ok bytes

/-- Who reads content that has its bytes in memory gets them, and changes nothing. -/
theorem read_of_buffered (returned : x.proxy.getState g = .returned (.ok (some c)))
    (payload : c.payload = .buffered bytes) :
    x.read g = some ⟨x.proxy, x.readings ++ [(g, .ok bytes)]⟩ := by
  simp only [read, returned, payload, Payload.readAll]

theorem exists_of_read (h : x.read g = some y) :
    ∃ c, x.proxy.getState g = .returned (.ok (some c)) := by
  unfold read at h
  split at h
  · next c hreturned => exact ⟨c, hreturned⟩
  · contradiction

/-! ## Every run -/

/-- What can be returned at a place of a run has its bytes in memory. -/
theorem stocked_of_prefix {config : Config} {store : σ} {now : Instant} {p : Proxy σ}
    (hnew : Proxy.new config store now = .ok start)
    (hon : Proxy.SharesThroughout ops start (ReaderEvent.steps events))
    (lends : Proxy.LendsThroughout ops start (ReaderEvent.steps events))
    (hearlier : before <+: events) (hrun : start.run ops (ReaderEvent.steps before) = some p) :
    Proxy.Stocked (Proxy.Provided ops start (ReaderEvent.steps events)) p := by
  have hsteps : ReaderEvent.steps before <+: ReaderEvent.steps events := hearlier.filterMap _
  rw [List.prefix_iff_eq_take.mp hsteps] at hrun
  exact Proxy.stocked_of_run hnew hon lends hsteps.length_le hrun

/-- The proxy takes no notice of the clients that read, and all of them get all the bytes. -/
theorem whole_of_run {config : Config} {store : σ} {now : Instant}
    (hnew : Proxy.new config store now = .ok start)
    (hon : Proxy.SharesThroughout ops start (ReaderEvent.steps events))
    (lends : Proxy.LendsThroughout ops start (ReaderEvent.steps events))
    (hearlier : before <+: events) (hrun : Readership.run ops { proxy := start } before = some x) :
    start.run ops (ReaderEvent.steps before) = some x.proxy ∧
      ∀ g outcome, (g, outcome) ∈ x.readings → x.Whole g outcome := by
  induction before using List.reverseRecOn generalizing x with
  | nil =>
    cases hrun
    exact ⟨rfl, by simp⟩
  | append_singleton before e ih =>
    obtain ⟨y, hy, hstep⟩ := run_concat_eq_some.mp hrun
    have hbefore : before <+: events := (List.prefix_append before [e]).trans hearlier
    obtain ⟨hproxy, hwhole⟩ := ih hbefore hy
    cases e with
    | proxy e =>
      obtain ⟨p, hp, rfl⟩ := Option.map_eq_some_iff.mp hstep
      refine ⟨?_, fun g outcome hread => ?_⟩
      · have hsteps : ReaderEvent.steps (before ++ [.proxy e]) = ReaderEvent.steps before ++ [e] :=
          List.filterMap_append
        rw [hsteps, Proxy.run_append, hproxy, Option.bind_some, Proxy.run_cons, hp]
        rfl
      · obtain ⟨c, bytes, hreturned, hpayload, rfl⟩ := hwhole g outcome hread
        exact ⟨c, bytes, Proxy.returned_of_step hp hreturned, hpayload, rfl⟩
    | read g =>
      have hstocked := stocked_of_prefix hnew hon lends hbefore hproxy
      obtain ⟨c, hreturned⟩ := exists_of_read hstep
      obtain ⟨get, hget, -⟩ := Proxy.getState_eq_returned.mp hreturned
      obtain ⟨bytes, hpayload, -⟩ := hstocked.holds_of_getState hget hreturned
      have hread := read_of_buffered hreturned hpayload
      obtain rfl := Option.some.inj (hread.symm.trans hstep)
      refine ⟨?_, fun g' outcome hmem => ?_⟩
      · have hsteps : ReaderEvent.steps (before ++ [.read g]) = ReaderEvent.steps before := by
          rw [ReaderEvent.steps, List.filterMap_append]
          exact List.append_nil _
        rw [hsteps, hproxy]
      · obtain hmem | hmem := List.mem_append.mp hmem
        · exact hwhole g' outcome hmem
        · rw [List.mem_singleton] at hmem
          cases hmem
          exact ⟨c, bytes, hreturned, hpayload, rfl⟩

/-- **Readers.** Clients read what their gets have returned, in any order and any number of times, while
the proxy goes on in any way in which sharing is on and the store lends. Then:

* The proxy does just what it would do without the readers.
* All content that a get has returned can be handed to several readers. Its bytes came in for the key of
  the get, and if the client reads now, it gets them, and nothing else changes.
* Each read so far has given all the bytes of the content that the get has returned.
* The clients of all gets that one lease has answered have read the same. -/
theorem everyone_reads {config : Config} {store : σ} {now : Instant}
    (hnew : Proxy.new config store now = .ok start)
    (hon : Proxy.SharesThroughout ops start (ReaderEvent.steps events))
    (lends : Proxy.LendsThroughout ops start (ReaderEvent.steps events))
    (hrun : Readership.run ops { proxy := start } events = some x) :
    start.run ops (ReaderEvent.steps events) = some x.proxy ∧
    (∀ g get c, x.proxy.gets[g]? = some get → x.proxy.getState g = .returned (.ok (some c)) →
      c.isReusable = true ∧ ∃ bytes, c.payload = .buffered bytes ∧
        Proxy.Provided ops start (ReaderEvent.steps events) get.resource.key bytes ∧
        x.read g = some ⟨x.proxy, x.readings ++ [(g, .ok bytes)]⟩) ∧
    (∀ g outcome, (g, outcome) ∈ x.readings → x.Whole g outcome) ∧
    ∀ l g g' outcome outcome', Proxy.AnsweredBy ops start (ReaderEvent.steps events) g l →
      Proxy.AnsweredBy ops start (ReaderEvent.steps events) g' l → (g, outcome) ∈ x.readings →
      (g', outcome') ∈ x.readings → outcome = outcome' := by
  obtain ⟨hproxy, hwhole⟩ := whole_of_run hnew hon lends (List.prefix_refl events) hrun
  refine ⟨hproxy, fun g get c hget hreturned => ?_, hwhole, ?_⟩
  · have hstocked := stocked_of_prefix hnew hon lends (List.prefix_refl events) hproxy
    obtain ⟨bytes, hpayload, hprovided⟩ := hstocked.holds_of_getState hget hreturned
    have hreusable := Content.isReusable_iff_buffered.mpr ⟨bytes, hpayload⟩
    exact ⟨hreusable, bytes, hpayload, hprovided, read_of_buffered hreturned hpayload⟩
  · intro l g g' outcome outcome' hg hg' hread hread'
    obtain ⟨result, hresult, hstate⟩ := hg.returned hproxy
    obtain ⟨result', hresult', hstate'⟩ := hg'.returned hproxy
    -- Both were answered by one lease, so both hold the same content.
    obtain rfl : result = result' := Option.some.inj (hresult.symm.trans hresult')
    obtain ⟨c, bytes, hreturned, hpayload, rfl⟩ := hwhole g outcome hread
    obtain ⟨c', bytes', hreturned', hpayload', rfl⟩ := hwhole g' outcome' hread'
    rw [hstate] at hreturned
    rw [hstate'] at hreturned'
    cases hreturned
    cases hreturned'
    obtain rfl : bytes = bytes' := Payload.buffered.inj (hpayload.symm.trans hpayload')
    rfl

/-- Two gets for a file whose body arrives in pieces, over a store that gives everything back unread. The
fetch of the first get reads the body. -/
def twoGets : List ProxyEvent :=
  Proxy.asked ++ [.request Proxy.jar, .lookUp 1, .judge 1, .enter 1,
    .answer 0 (.ok Proxy.pieces), .handle 0, .stored 0, .copied 0, .publish 0]

/-- The client of the second get reads before the first get has returned, and once more after the
client of that has read. -/
def twoClients : List ReaderEvent :=
  twoGets.map .proxy ++
    [.proxy (.deliver 1), .read 1, .proxy (.deliver 0), .read 0, .read 1]

/-- All three reads give the whole body. -/
theorem twoClients_read_whole :
    ∃ x, Readership.run EchoStore.ops { proxy := Proxy.echoing (.ofSeconds 600) } twoClients =
        some x ∧
      x.readings.map Prod.fst = [1, 0, 1] ∧
      ∀ g outcome, (g, outcome) ∈ x.readings → outcome = .ok [1, 2] := by
  have hnew : Proxy.new Proxy.oldConfig ({} : EchoStore) (.ofMillis 0) =
      .ok (Proxy.echoing (.ofSeconds 600)) := by
    unfold Proxy.new
    rw [show Proxy.oldConfig.proxy.remoteUrl = "https://old.test/repo/" from rfl,
      Proxy.normalize_oldRemote]
    rfl
  have hshares : Proxy.SharesThroughout EchoStore.ops (Proxy.echoing (.ofSeconds 600))
      (ReaderEvent.steps twoClients) := by decide
  have hempty : ∀ k < (ReaderEvent.steps twoClients).length,
      ((Proxy.echoing (.ofSeconds 600)).run EchoStore.ops
        ((ReaderEvent.steps twoClients).take k)).all fun p =>
          ((ReaderEvent.steps twoClients)[k]?.bind p.sought?).isNone || p.store.entries.isEmpty := by
    decide
  have hlends : Proxy.LendsThroughout EchoStore.ops (Proxy.echoing (.ofSeconds 600))
      (ReaderEvent.steps twoClients) := by
    rintro k p e ⟨hevent, hbefore⟩
    have hplace := hempty k (List.getElem?_eq_some_iff.mp hevent).1
    rw [hbefore, hevent, Option.all_some, Option.bind_some, Bool.or_eq_true, Option.isNone_iff_eq_none,
      List.isEmpty_iff] at hplace
    exact EchoStore.lends_of_empty hplace
  obtain ⟨x, hrun, hreaders, hzero, hone⟩ :
      ∃ x, Readership.run EchoStore.ops { proxy := Proxy.echoing (.ofSeconds 600) } twoClients =
          some x ∧
        x.readings.map Prod.fst = [1, 0, 1] ∧
        x.proxy.getState 0 = .returned (.ok (some (Proxy.echoed (.buffered [1, 2])))) ∧
        x.proxy.getState 1 = .returned (.ok (some (Proxy.echoed (.buffered [1, 2])))) :=
    ⟨_, rfl, rfl, rfl, rfl⟩
  obtain ⟨-, -, hwhole, -⟩ := everyone_reads hnew hshares hlends hrun
  refine ⟨x, hrun, hreaders, fun g outcome hread => ?_⟩
  have hclients : ∀ g ∈ [1, 0, 1], g = 0 ∨ g = 1 := by decide
  have hclient := hclients g (hreaders ▸ List.mem_map_of_mem hread)
  obtain ⟨c, bytes, hreturned, hpayload, rfl⟩ := hwhole g outcome hread
  have hcontent : c = Proxy.echoed (.buffered [1, 2]) := by
    obtain rfl | rfl := hclient
    · rw [hzero] at hreturned
      cases hreturned
      rfl
    · rw [hone] at hreturned
      cases hreturned
      rfl
  rw [hcontent] at hpayload
  cases hpayload
  rfl

end Readership

end PullCache
