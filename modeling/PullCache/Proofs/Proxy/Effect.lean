import PullCache.Proofs.Proxy.Step
/-!
# Proofs.Proxy.Effect

What an event does to each part of the state of the proxy. Gets and fetches go from phase to phase;
`GetMove` and `FetchMove` list every way in which an event takes one of them to its next phase, with
what was read on the way. A step moves at most one get and one fetch (`step_effect`), so an invariant
about all of them needs a look at one move only.
-/

namespace PullCache

/-- How far a fetch is on its way from its start to its end. -/
def FetchPhase.rank : FetchPhase → Nat
  | recheck => 0
  | rejudge _ => 1
  | ask _ => 2
  | waiting .. => 3
  | answered .. => 4
  | storing .. | verifying .. => 5
  | copying .. => 6
  | ended _ => 7
  | published => 8
  | closed => 9

namespace Proxy

variable {σ : Type} {ops : StoreOps σ} {p p' : Proxy σ} {g i : Nat}

/-! ## Moves -/

/-- How an event takes a get to its next phase. -/
inductive GetMove (ops : StoreOps σ) (p : Proxy σ) (g : Nat) (get : Get) :
    ProxyEvent → GetPhase → Prop where
  | found (copy : Option Content) (phase : get.phase = .lookUp)
      (lookup : foundCopy (ops.lookup p.store get.resource).1 = .ok copy) :
    GetMove ops p g get (.lookUp g) (.judge copy)
  | failed (fault : Fault) (phase : get.phase = .lookUp)
      (lookup : foundCopy (ops.lookup p.store get.resource).1 = .error fault) :
    GetMove ops p g get (.lookUp g) (.returned (.error fault))
  | stale (cached : Option Content) (phase : get.phase = .judge cached)
      (verdict : p.isStale get.resource cached = true) :
    GetMove ops p g get (.judge g) (.enter cached)
  | fresh (cached : Option Content) (phase : get.phase = .judge cached)
      (verdict : p.isStale get.resource cached = false) :
    GetMove ops p g get (.judge g) (.returned (.ok cached))
  | called (cached : Option Content) (phase : get.phase = .enter cached) :
    GetMove ops p g get (.enter g) (.called p.coop.calls.length)
  | dropped (phase : get.phase = .lookUp) : GetMove ops p g get (.drop g) .dropped

/-- A step leaves the gets alone, lets a new one in, or moves one. -/
inductive GetStep (ops : StoreOps σ) (p p' : Proxy σ) : ProxyEvent → Prop where
  | same {e : ProxyEvent} (gets : p'.gets = p.gets) : GetStep ops p p' e
  | request (r : Resource) (gets : p'.gets = p.gets ++ [⟨r, .lookUp⟩]) :
    GetStep ops p p' (.request r)
  | move {e : ProxyEvent} (g : Nat) (get : Get) (phase : GetPhase) (found : p.gets[g]? = some get)
      (move : GetMove ops p g get e phase)
      (gets : p'.gets = p.gets.modify g fun get => { get with phase }) :
    GetStep ops p p' e

/-- How an event takes a fetch to its next phase. -/
inductive FetchMove (ops : StoreOps σ) (p : Proxy σ) (i : Nat) (fetch : Fetch) :
    ProxyEvent → FetchPhase → Prop where
  | found (copy : Option Content) (phase : fetch.phase = .recheck)
      (lookup : foundCopy (ops.lookup p.store fetch.resource).1 = .ok copy) :
    FetchMove ops p i fetch (.recheck i) (.rejudge copy)
  | failedLookup (fault : Fault) (phase : fetch.phase = .recheck)
      (lookup : foundCopy (ops.lookup p.store fetch.resource).1 = .error fault) :
    FetchMove ops p i fetch (.recheck i) (.ended (some (.error fault)))
  | stale (copy : Option Content) (phase : fetch.phase = .rejudge copy)
      (verdict : p.isStale fetch.resource copy = true) :
    FetchMove ops p i fetch (.rejudge i) (.ask copy)
  | fresh (copy : Option Content) (phase : fetch.phase = .rejudge copy)
      (verdict : p.isStale fetch.resource copy = false) :
    FetchMove ops p i fetch (.rejudge i) (.ended (some (.ok copy)))
  | refused (copy : Option Content) (fault : Fault) (phase : fetch.phase = .ask copy)
      (resolve : Remote.resolve p.remote fetch.resource = .error fault) :
    FetchMove ops p i fetch (.ask i) (.ended (some (.error fault)))
  | sent (copy : Option Content) (url : Url) (phase : fetch.phase = .ask copy)
      (resolve : Remote.resolve p.remote fetch.resource = .ok url) :
    FetchMove ops p i fetch (.ask i) (.waiting copy (OriginRequest.revalidating { url } copy))
  | unreached (copy : Option Content) (request : OriginRequest) (fault : OriginFault)
      (phase : fetch.phase = .waiting copy request) :
    FetchMove ops p i fetch (.answer i (.error fault)) (.answered copy request (.error fault))
  | reached (copy : Option Content) (request : OriginRequest) (reply : Reply)
      (phase : fetch.phase = .waiting copy request) :
    FetchMove ops p i fetch (.answer i (.ok reply))
      (.answered copy request (.ok (reply.receive p.streams).1))
  | crashed (copy : Option Content) (request : OriginRequest)
      (phase : fetch.phase = .waiting copy request) :
    FetchMove ops p i fetch (.crash i) (.ended none)
  | degraded (copy : Option Content) (request : OriginRequest) (fault : OriginFault)
      (phase : fetch.phase = .answered copy request (.error fault)) :
    FetchMove ops p i fetch (.handle i) (.ended (some (Exchange.degrade copy (.ofOrigin fault))))
  | keep (copy : Option Content) (request : OriginRequest) (response : OriginResponse)
      (remote : Content) (phase : fetch.phase = .answered copy request (.ok response))
      (verdict : Exchange.judge request response copy
        ((p.controller fetch.resource).stampAt p.wall) = .keep remote) :
    FetchMove ops p i fetch (.handle i) (.storing copy response remote)
  | confirm (copy : Option Content) (request : OriginRequest) (response : OriginResponse)
      (known : Content) (stamp : Stamp) (phase : fetch.phase = .answered copy request (.ok response))
      (verdict : Exchange.judge request response copy
        ((p.controller fetch.resource).stampAt p.wall) = .confirm known stamp) :
    FetchMove ops p i fetch (.handle i) (.verifying known response stamp)
  | nothing (copy : Option Content) (request : OriginRequest) (response : OriginResponse)
      (phase : fetch.phase = .answered copy request (.ok response))
      (verdict : Exchange.judge request response copy
        ((p.controller fetch.resource).stampAt p.wall) = .nothing) :
    FetchMove ops p i fetch (.handle i) (.ended (some (Exchange.outcome copy (.ok none))))
  | fail (copy : Option Content) (request : OriginRequest) (response : OriginResponse)
      (fault : Fault) (phase : fetch.phase = .answered copy request (.ok response))
      (verdict : Exchange.judge request response copy
        ((p.controller fetch.resource).stampAt p.wall) = .fail fault) :
    FetchMove ops p i fetch (.handle i) (.ended (some (Exchange.outcome copy (.error fault))))
  | rejected (copy : Option Content) (response : OriginResponse) (remote : Content)
      (fault : StoreFault) (phase : fetch.phase = .storing copy response remote)
      (kept : (ops.store p.store p.streams fetch.resource remote).1 = .error fault) :
    FetchMove ops p i fetch (.stored i)
      (.ended (some (Exchange.outcome copy (.error (.store fault)))))
  | unread (copy : Option Content) (response : OriginResponse) (remote content : Content)
      (phase : fetch.phase = .storing copy response remote)
      (kept : (ops.store p.store p.streams fetch.resource remote).1 = .ok content)
      (shared : (fetch.sharing && content.sharesStream remote) = true) :
    FetchMove ops p i fetch (.stored i) (.copying copy response content)
  | kept (copy : Option Content) (response : OriginResponse) (remote content : Content)
      (phase : fetch.phase = .storing copy response remote)
      (kept : (ops.store p.store p.streams fetch.resource remote).1 = .ok content)
      (shared : (fetch.sharing && content.sharesStream remote) = false) :
    FetchMove ops p i fetch (.stored i)
      (.ended (some (Exchange.outcome copy (.ok (some content)))))
  | read (copy : Option Content) (response : OriginResponse) (kept content : Content)
      (phase : fetch.phase = .copying copy response kept)
      (read : (kept.materialize p.streams).1 = .ok content) :
    FetchMove ops p i fetch (.copied i)
      (.ended (some (Exchange.outcome copy (.ok (some content)))))
  | unreadable (copy : Option Content) (response : OriginResponse) (kept : Content)
      (fault : ReadFault) (phase : fetch.phase = .copying copy response kept)
      (read : (kept.materialize p.streams).1 = .error fault) :
    FetchMove ops p i fetch (.copied i)
      (.ended (some (Exchange.outcome copy (.error (.store (.ofRead fault))))))
  | noted (copy : Content) (response : OriginResponse) (stamp : Stamp)
      (phase : fetch.phase = .verifying copy response stamp) :
    FetchMove ops p i fetch (.verified i)
      (.ended (some (Exchange.outcome (some (copy.withStamp stamp)) (.ok none))))
  | unnoted (copy : Content) (response : OriginResponse) (stamp : Stamp) (fault : StoreFault)
      (phase : fetch.phase = .verifying copy response stamp) :
    FetchMove ops p i fetch (.verified i)
      (.ended (some (Exchange.outcome (some copy) (.error (.store fault)))))
  | publish (outcome : Option (Except Fault (Option Content))) (l : Nat)
      (phase : fetch.phase = .ended outcome) (place : fetch.place = .lease l) :
    FetchMove ops p i fetch (.publish i) .published
  | release (l : Nat) (phase : fetch.phase = .published) (place : fetch.place = .lease l) :
    FetchMove ops p i fetch (.release i) .closed
  | finish (outcome : Option (Except Fault (Option Content))) (c : Nat)
      (phase : fetch.phase = .ended outcome) (place : fetch.place = .call c) :
    FetchMove ops p i fetch (.finish i) .closed

/-- How an event begins a fetch: with the stale copy of the get that makes a call, or, after a
takeover, with another look at the store. -/
inductive FetchStart (p : Proxy σ) : ProxyEvent → Fetch → Prop where
  | entered (g : Nat) (get : Get) (cached : Option Content) (place : WorkPlace) (sharing : Bool)
      (found : p.gets[g]? = some get) (phase : get.phase = .enter cached) :
    FetchStart p (.enter g) ⟨place, get.resource, sharing, .ask cached⟩
  | tookOver (g : Nat) (place : WorkPlace) (r : Resource) (sharing : Bool) :
    FetchStart p (.takeOver g) ⟨place, r, sharing, .recheck⟩

/-- A step leaves the fetches alone, begins one, or moves one. -/
inductive FetchStep (ops : StoreOps σ) (p p' : Proxy σ) (e : ProxyEvent) : Prop where
  | same (fetches : p'.fetches = p.fetches)
  | added (fetch : Fetch) (start : FetchStart p e fetch)
      (fetches : p'.fetches = p.fetches ++ [fetch])
  | move (i : Nat) (fetch : Fetch) (phase : FetchPhase) (found : p.fetches[i]? = some fetch)
      (move : FetchMove ops p i fetch e phase)
      (fetches : p'.fetches = p.fetches.modify i fun fetch => { fetch with phase })

/-- A step leaves the store alone, looks something up, lets the store take content in, or lets it
note a stamp. -/
inductive StoreStep (ops : StoreOps σ) (p p' : Proxy σ) : ProxyEvent → Prop where
  | same {e : ProxyEvent} (store : p'.store = p.store) : StoreStep ops p p' e
  | lookup {e : ProxyEvent} (r : Resource) (store : p'.store = (ops.lookup p.store r).2) :
    StoreStep ops p p' e
  | store (i : Nat) (fetch : Fetch) (copy : Option Content) (response : OriginResponse)
      (remote : Content) (found : p.fetches[i]? = some fetch)
      (phase : fetch.phase = .storing copy response remote)
      (store : p'.store = (ops.store p.store p.streams fetch.resource remote).2.1) :
    StoreStep ops p p' (.stored i)
  | verify (i : Nat) (fetch : Fetch) (copy : Content) (response : OriginResponse) (stamp : Stamp)
      (found : p.fetches[i]? = some fetch) (phase : fetch.phase = .verifying copy response stamp)
      (store : p'.store = (ops.verify p.store fetch.resource stamp).2) :
    StoreStep ops p p' (.verified i)

/-- Settings change only by events made for it. -/
inductive SettingsStep (p p' : Proxy σ) : ProxyEvent → Prop where
  | same {e : ProxyEvent} (remote : p'.remote = p.remote)
      (controllers : p'.controllers = p.controllers) (changes : p'.changes = p.changes) :
    SettingsStep p p' e
  | update (remote : Url) (passive active : Duration) (contentMaxAge metadataMaxAge : Int)
      (state : p' = p.beginUpdate remote passive active contentMaxAge metadataMaxAge) :
    SettingsStep p p' (.update remote passive active contentMaxAge metadataMaxAge)
  | invalidate (state : p' = { p with changes := p.changes ++ [invalidationSteps] }) :
    SettingsStep p p' .invalidate
  | change (n : Nat) (first : ChangeStep) (rest : List ChangeStep)
      (found : p.changes[n]? = some (first :: rest))
      (state : p' = { p with
        controllers := applyChange p.controllers first
        changes := p.changes.set n rest }) :
    SettingsStep p p' (.change n)

/-- All that a step does apart from the calls that share work and the streams. -/
structure Effect (ops : StoreOps σ) (p p' : Proxy σ) (e : ProxyEvent) : Prop where
  origin : p'.origin = p.origin
  settings : SettingsStep p p' e
  store : StoreStep ops p p' e
  gets : GetStep ops p p' e
  fetches : FetchStep ops p p' e

/-! ## The effect of each event -/

/-- A step that a get makes as a call is a step of that call, and of nothing else. -/
theorem effect_callStep {e : Nat → CoopEvent (Option Content)} {event : ProxyEvent}
    (h : p.callStep g e = some p') : Effect ops p p' event := by
  obtain ⟨c, coop, -, -, rfl⟩ := callStep_eq_some.mp h
  exact ⟨rfl, .same rfl rfl rfl, .same rfl, .same rfl, .same rfl⟩

variable {q : Proxy σ} {fetch : Fetch} {e : ProxyEvent}

/-- A step that moves a fetch, and apart from that changes no more than the store. -/
theorem effect_setFetch {phase : FetchPhase} (found : p.fetch? i = some fetch)
    (move : FetchMove ops p i fetch e phase)
    (hq : q = { p with store := q.store, streams := q.streams, coop := q.coop })
    (store : StoreStep ops p (q.setFetch i phase) e) : Effect ops p (q.setFetch i phase) e where
  origin := by rw [hq]; rfl
  settings := .same (by rw [hq]; rfl) (by rw [hq]; rfl) (by rw [hq]; rfl)
  store := store
  gets := .same (by rw [hq]; rfl)
  fetches := .move i fetch phase (fetch?_eq_some.mp found).1 move (by rw [hq]; rfl)

/-- The end of an exchange moves the fetch to its end and takes the body, and touches nothing else.
-/
theorem effect_conclude {copy : Option Content} {response : OriginResponse}
    {fetched : Except Fault (Option Content)} (found : p.fetch? i = some fetch)
    (move : FetchMove ops p i fetch e (.ended (some (Exchange.outcome copy fetched))))
    (hq : q = { p with store := q.store, streams := q.streams, coop := q.coop })
    (store : ∀ p', p'.store = q.store → StoreStep ops p p' e) :
    Effect ops p (q.conclude i copy response fetched) e := by
  rw [conclude_eq]
  exact effect_setFetch found move (by rw [hq]) (store _ rfl)

/-- A lookup moves the get to what was found, or ends it with the fault of the store. -/
theorem effect_lookUp (h : p.lookUp ops g = some p') : Effect ops p p' (.lookUp g) := by
  obtain ⟨get, found, hp, ⟨copy, hf, rfl⟩ | ⟨fault, hf, rfl⟩⟩ := lookUp_cases h
  · exact ⟨rfl, .same rfl rfl rfl, .lookup _ rfl, .move g get _ found (.found copy hp hf) rfl,
      .same rfl⟩
  · exact ⟨rfl, .same rfl rfl rfl, .lookup _ rfl, .move g get _ found (.failed fault hp hf) rfl,
      .same rfl⟩

/-- A judgement returns a fresh copy, or sends the get on to the cooperation. -/
theorem effect_judge (h : p.judge g = some p') : Effect ops p p' (.judge g) := by
  obtain ⟨get, cached, found, hp, ⟨hs, rfl⟩ | ⟨hs, rfl⟩⟩ := judge_cases h
  · exact ⟨rfl, .same rfl rfl rfl, .same rfl, .move g get _ found (.stale cached hp hs) rfl,
      .same rfl⟩
  · exact ⟨rfl, .same rfl rfl rfl, .same rfl, .move g get _ found (.fresh cached hp hs) rfl,
      .same rfl⟩

/-- A get enters as a call; if it leads or runs alone, a fetch comes with it. -/
theorem effect_enter (h : p.enter g = some p') : Effect ops p p' (.enter g) := by
  obtain ⟨get, cached, found, hp, next, rfl, ⟨-, rfl⟩ | ⟨-, -, rfl⟩ | ⟨-, -, rfl⟩⟩ := enter_cases h
  · exact ⟨rfl, .same rfl rfl rfl, .same rfl, .move g get _ found (.called cached hp) rfl,
      .added _ (.entered g get cached _ _ found hp) rfl⟩
  · exact ⟨rfl, .same rfl rfl rfl, .same rfl, .move g get _ found (.called cached hp) rfl,
      .same rfl⟩
  · exact ⟨rfl, .same rfl rfl rfl, .same rfl, .move g get _ found (.called cached hp) rfl,
      .added _ (.entered g get cached _ _ found hp) rfl⟩

/-- A call that takes over brings a fetch that looks at the cache again. -/
theorem effect_takeOver (h : p.takeOver g = some p') : Effect ops p p' (.takeOver g) := by
  obtain ⟨get, c, coop, -, -, -, ⟨-, rfl⟩ | ⟨-, rfl⟩⟩ := takeOver_cases h
  · exact ⟨rfl, .same rfl rfl rfl, .same rfl, .same rfl, .added _ (.tookOver g _ _ _) rfl⟩
  · exact ⟨rfl, .same rfl rfl rfl, .same rfl, .same rfl, .same rfl⟩

/-- A client that goes away ends its get, and the call that it waits as. -/
theorem effect_drop (h : p.drop g = some p') : Effect ops p p' (.drop g) := by
  obtain ⟨get, found, ⟨hp, rfl⟩ | h⟩ := drop_cases h
  · exact ⟨rfl, .same rfl rfl rfl, .same rfl, .move g get _ found (.dropped hp) rfl, .same rfl⟩
  · exact effect_callStep h

/-- The second lookup moves the fetch to what was found, or ends it. -/
theorem effect_recheck (h : p.recheck ops i = some p') : Effect ops p p' (.recheck i) := by
  obtain ⟨fetch, found, hp, ⟨copy, hf, rfl⟩ | ⟨fault, hf, rfl⟩⟩ := recheck_cases h
  · exact effect_setFetch found (.found copy hp hf) rfl (.lookup _ rfl)
  · exact effect_setFetch found (.failedLookup fault hp hf) rfl (.lookup _ rfl)

/-- The second judgement ends the fetch with a fresh copy, or sends it on to the origin. -/
theorem effect_rejudge (h : p.rejudge i = some p') : Effect ops p p' (.rejudge i) := by
  obtain ⟨fetch, copy, found, hp, ⟨hs, rfl⟩ | ⟨hs, rfl⟩⟩ := rejudge_cases h
  · exact effect_setFetch found (.stale copy hp hs) rfl (.same rfl)
  · exact effect_setFetch found (.fresh copy hp hs) rfl (.same rfl)

/-- A fetch asks the origin about its copy, or fails because there is nowhere to ask. -/
theorem effect_ask (h : p.ask i = some p') : Effect ops p p' (.ask i) := by
  obtain ⟨fetch, copy, found, hp, ⟨fault, hr, rfl⟩ | ⟨url, hr, rfl⟩⟩ := ask_cases h
  · exact effect_setFetch found (.refused copy fault hp hr) rfl (.same rfl)
  · exact effect_setFetch found (.sent copy url hp hr) rfl (.same rfl)

/-- An answer opens its body and moves the fetch; a failed exchange ends it. -/
theorem effect_answer {reply : Except OriginFault Reply} (h : p.answer i reply = some p') :
    Effect ops p p' (.answer i reply) := by
  obtain ⟨fetch, copy, request, found, hp, ⟨fault, rfl, rfl⟩ | ⟨answer, rfl, rfl⟩⟩ := answer_cases h
  · exact effect_setFetch found (.unreached copy request fault hp) rfl (.same rfl)
  · exact effect_setFetch found (.reached copy request answer hp) rfl (.same rfl)

/-- An answer that was judged is kept, confirms the copy, or ends the exchange. -/
theorem effect_handle (h : p.handle i = some p') : Effect ops p p' (.handle i) := by
  obtain ⟨fetch, copy, request, answer, found, hp, ⟨fault, rfl, rfl⟩ | ⟨response, rfl, verdict,
    hv, ⟨remote, rfl, rfl⟩ | ⟨known, stamp, rfl, rfl⟩ | ⟨rfl, rfl⟩ | ⟨fault, rfl, rfl⟩⟩⟩ :=
    handle_cases h
  · exact effect_setFetch found (.degraded copy request fault hp) rfl (.same rfl)
  · exact effect_setFetch found (.keep copy request response remote hp hv.symm) rfl (.same rfl)
  · exact effect_setFetch found (.confirm copy request response known stamp hp hv.symm) rfl
      (.same rfl)
  · exact effect_conclude found (.nothing copy request response hp hv.symm) rfl fun _ => .same
  · exact effect_conclude found (.fail copy request response fault hp hv.symm) rfl fun _ => .same

/-- After the store the content is lent out, copied for the waiting calls, or refused. -/
theorem effect_stored (h : p.stored ops i = some p') : Effect ops p p' (.stored i) := by
  obtain ⟨fetch, copy, response, remote, found, hp, kept, next, hk, rfl,
    ⟨fault, rfl, rfl⟩ | ⟨content, rfl, ⟨hs, rfl⟩ | ⟨hs, rfl⟩⟩⟩ := stored_cases h
  · exact effect_conclude found (.rejected copy response remote fault hp hk.symm) rfl
      fun _ => .store i fetch copy response remote (fetch?_eq_some.mp found).1 hp
  · exact effect_setFetch found (.unread copy response remote content hp hk.symm hs) rfl
      (.store i fetch copy response remote (fetch?_eq_some.mp found).1 hp rfl)
  · exact effect_conclude found (.kept copy response remote content hp hk.symm hs) rfl
      fun _ => .store i fetch copy response remote (fetch?_eq_some.mp found).1 hp

/-- After the copy for the waiting calls the exchange ends. -/
theorem effect_copied (h : p.copied i = some p') : Effect ops p p' (.copied i) := by
  obtain ⟨fetch, copy, response, kept, found, hp, next, rfl,
    ⟨content, hm, rfl⟩ | ⟨fault, hm, rfl⟩⟩ := copied_cases h
  · exact effect_conclude found (.read copy response kept content hp hm) rfl
      fun _ store => .same store
  · exact effect_conclude found (.unreadable copy response kept fault hp hm) rfl
      fun _ store => .same store

/-- After the confirmation the exchange ends. -/
theorem effect_verified (h : p.verified ops i = some p') : Effect ops p p' (.verified i) := by
  obtain ⟨fetch, copy, response, stamp, found, hp, next, rfl,
    ⟨done, -, rfl⟩ | ⟨fault, -, rfl⟩⟩ := verified_cases h
  · exact effect_conclude found (.noted copy response stamp hp) rfl
      fun _ => .verify i fetch copy response stamp (fetch?_eq_some.mp found).1 hp
  · exact effect_conclude found (.unnoted copy response stamp fault hp) rfl
      fun _ => .verify i fetch copy response stamp (fetch?_eq_some.mp found).1 hp

/-- Every step has one of these effects. -/
theorem step_effect (h : p.step ops e = some p') : Effect ops p p' e := by
  cases e with
  | request r => cases h; exact ⟨rfl, .same rfl rfl rfl, .same rfl, .request r rfl, .same rfl⟩
  | lookUp g => exact effect_lookUp h
  | judge g => exact effect_judge h
  | enter g => exact effect_enter h
  | deliver g => exact effect_callStep h
  | exhaust g => exact effect_callStep h
  | takeOver g => exact effect_takeOver h
  | timeOut g => exact effect_callStep h
  | drop g => exact effect_drop h
  | recheck i => exact effect_recheck h
  | rejudge i => exact effect_rejudge h
  | ask i => exact effect_ask h
  | answer i reply => exact effect_answer h
  | crash i =>
    obtain ⟨fetch, copy, request, found, hp, rfl⟩ := crash_eq_some.mp h
    exact effect_setFetch found (.crashed copy request hp) rfl (.same rfl)
  | handle i => exact effect_handle h
  | stored i => exact effect_stored h
  | copied i => exact effect_copied h
  | verified i => exact effect_verified h
  | publish i =>
    obtain ⟨fetch, outcome, l, coop, found, hp, hl, -, rfl⟩ := publish_eq_some.mp h
    exact effect_setFetch found (.publish outcome l hp hl) rfl (.same rfl)
  | release i =>
    obtain ⟨fetch, l, coop, found, hp, hl, -, rfl⟩ := release_eq_some.mp h
    exact effect_setFetch found (.release l hp hl) rfl (.same rfl)
  | finish i =>
    obtain ⟨fetch, outcome, c, coop, found, hp, hl, -, rfl⟩ := finish_eq_some.mp h
    exact effect_setFetch found (.finish outcome c hp hl) rfl (.same rfl)
  | update remote passive active contentMaxAge metadataMaxAge =>
    cases h
    exact ⟨rfl, .update remote passive active contentMaxAge metadataMaxAge rfl, .same rfl,
      .same rfl, .same rfl⟩
  | invalidate => cases h; exact ⟨rfl, .invalidate rfl, .same rfl, .same rfl, .same rfl⟩
  | change n =>
    obtain ⟨first, rest, found, rfl⟩ := change_eq_some.mp h
    exact ⟨rfl, .change n first rest found rfl, .same rfl, .same rfl, .same rfl⟩
  | tick nanos => cases h; exact ⟨rfl, .same rfl rfl rfl, .same rfl, .same rfl, .same rfl⟩

/-! ## Before a step -/

/-- A get that is there after a step was there before, is new, or was moved by the step. -/
theorem GetStep.before {get : Get} (h : GetStep ops p p' e) (hg : p'.gets[g]? = some get) :
    p.gets[g]? = some get ∨ (g = p.gets.length ∧ get.phase = .lookUp) ∨
      ∃ before phase, p.gets[g]? = some before ∧ GetMove ops p g before e phase ∧
        get = { before with phase } := by
  cases h with
  | same gets => exact .inl (gets ▸ hg)
  | request r gets =>
    rw [gets] at hg
    by_cases hlt : g < p.gets.length
    · rw [List.getElem?_append_left hlt] at hg
      exact .inl hg
    · have hlen := (List.getElem?_eq_some_iff.mp hg).1
      rw [List.length_append, List.length_singleton] at hlen
      obtain rfl : g = p.gets.length := by omega
      rw [List.getElem?_concat_length, Option.some.injEq] at hg
      subst hg
      exact .inr (.inl ⟨rfl, rfl⟩)
  | move j before phase found move gets =>
    by_cases hj : j = g
    · subst hj
      rw [gets, List.getElem?_modify_eq, found, Option.map_eq_map, Option.map_some,
        Option.some.injEq] at hg
      exact .inr (.inr ⟨before, phase, found, move, hg.symm⟩)
    · rw [gets, List.getElem?_modify_ne _ _ hj] at hg
      exact .inl hg

/-- A fetch that is there after a step was there before, is new, or was moved by the step. -/
theorem FetchStep.before (h : FetchStep ops p p' e) (hi : p'.fetches[i]? = some fetch) :
    p.fetches[i]? = some fetch ∨ (i = p.fetches.length ∧ FetchStart p e fetch) ∨
      ∃ before phase, p.fetches[i]? = some before ∧ FetchMove ops p i before e phase ∧
        fetch = { before with phase } := by
  cases h with
  | same fetches => exact .inl (fetches ▸ hi)
  | added new start fetches =>
    rw [fetches] at hi
    by_cases hlt : i < p.fetches.length
    · rw [List.getElem?_append_left hlt] at hi
      exact .inl hi
    · have hlen := (List.getElem?_eq_some_iff.mp hi).1
      rw [List.length_append, List.length_singleton] at hlen
      obtain rfl : i = p.fetches.length := by omega
      rw [List.getElem?_concat_length, Option.some.injEq] at hi
      subst hi
      exact .inr (.inl ⟨rfl, start⟩)
  | move j before phase found move fetches =>
    by_cases hj : j = i
    · subst hj
      rw [fetches, List.getElem?_modify_eq, found, Option.map_eq_map,
        Option.map_some, Option.some.injEq] at hi
      exact .inr (.inr ⟨before, phase, found, move, hi.symm⟩)
    · rw [fetches, List.getElem?_modify_ne _ _ hj] at hi
      exact .inl hi

/-! ## Fetches go forward -/

/-- A fetch only moves forward. -/
theorem FetchMove.rank_lt {phase : FetchPhase} (h : FetchMove ops p i fetch e phase) :
    fetch.phase.rank < phase.rank := by
  cases h <;> simp [*, FetchPhase.rank]

/-- A fetch stays where it is, for the same resource, and never goes back. -/
theorem fetch_of_step (h : p.step ops e = some p') (hi : p.fetches[i]? = some fetch) :
    ∃ fetch', p'.fetches[i]? = some fetch' ∧ fetch'.place = fetch.place ∧
      fetch'.resource = fetch.resource ∧ fetch'.sharing = fetch.sharing ∧
      fetch.phase.rank ≤ fetch'.phase.rank := by
  cases (step_effect h).fetches with
  | same fetches => exact ⟨fetch, by rw [fetches, hi], rfl, rfl, rfl, Nat.le_refl _⟩
  | added new start fetches =>
    have hlt : i < p.fetches.length := (List.getElem?_eq_some_iff.mp hi).1
    exact ⟨fetch, by rw [fetches, List.getElem?_append_left hlt, hi], rfl, rfl, rfl, Nat.le_refl _⟩
  | move j moved phase found move fetches =>
    by_cases hj : j = i
    · subst hj
      obtain rfl : moved = fetch := Option.some.inj (found.symm.trans hi)
      exact ⟨{ moved with phase }, by rw [fetches, List.getElem?_modify_eq, hi]; rfl, rfl, rfl, rfl,
        Nat.le_of_lt move.rank_lt⟩
    · exact ⟨fetch, by rw [fetches, List.getElem?_modify_ne _ _ hj, hi], rfl, rfl, rfl,
        Nat.le_refl _⟩

end Proxy

end PullCache
