import PullCache.Proofs.Lists
import PullCache.Proofs.Proxy.Step
import PullCache.Proxy.Single
/-!
# Proofs.Proxy.Solo

A get from its start to its end with nobody else around, over any store: it fails with the store, or
returns a fresh copy, or is refused because the resource does not lie below the remote, or asks the
origin once (`get_asked`) and deals with the answer in one go (`dealWith`).

While it runs, all that is new in the state is the get itself, the call that it makes, and one fetch on
behalf of that; `withGet` and `withJob` put them beside everything that was there before. The events
of the get are followed through these states.
-/

namespace PullCache.Proxy

variable {σ : Type} {ops : StoreOps σ} {p q : Proxy σ} {e : ProxyEvent} {events : List ProxyEvent}

/-! ## Events that happen if they can -/

theorem after_of_some (h : p.step ops e = some q) : p.after ops e = q := by
  rw [after, h, Option.getD_some]

theorem after_of_none (h : p.step ops e = none) : p.after ops e = p := by
  rw [after, h, Option.getD_none]

theorem afterAll_cons : p.afterAll ops (e :: events) = (p.after ops e).afterAll ops events := rfl

theorem afterAll_nil : p.afterAll ops [] = p := rfl

theorem afterAll_append (before after : List ProxyEvent) :
    p.afterAll ops (before ++ after) = (p.afterAll ops before).afterAll ops after :=
  List.foldl_append ..

/-- Events that are not possible change nothing. -/
theorem afterAll_of_none (h : ∀ e ∈ events, p.step ops e = none) : p.afterAll ops events = p := by
  induction events with
  | nil => rfl
  | cons e rest ih =>
    rw [afterAll_cons, after_of_none (h e List.mem_cons_self)]
    exact ih fun e' he' => h e' (List.mem_cons_of_mem e he')

/-! ## One get more -/

/-- The proxy with one get more. -/
def withGet (p : Proxy σ) (r : Resource) (phase : GetPhase) : Proxy σ :=
  { p with gets := p.gets ++ [⟨r, phase⟩] }

/-- What a get has set going: the call that it waits as, and where the fetch for it runs. -/
structure Job where
  resource : Resource
  call : Nat
  place : WorkPlace
  sharing : Bool

/-- The proxy with one get more, which waits as a call, and the fetch for it. -/
def withJob (p : Proxy σ) (j : Job) (phase : FetchPhase) : Proxy σ :=
  { p with
    gets := p.gets ++ [⟨j.resource, .called j.call⟩]
    fetches := p.fetches ++ [⟨j.place, j.resource, j.sharing, phase⟩] }

variable {r : Resource} {j : Job}

theorem getElem?_withGet (phase : GetPhase) :
    (p.withGet r phase).gets[p.gets.length]? = some ⟨r, phase⟩ :=
  List.getElem?_concat_length

theorem setGet_withGet (before after : GetPhase) :
    (p.withGet r before).setGet p.gets.length after = p.withGet r after := by
  simp only [setGet, withGet, modify_concat_length]

theorem fetch?_withGet (phase : GetPhase) : (p.withGet r phase).fetch? p.fetches.length = none := by
  simp [fetch?, withGet]

/-- The fetch of the job is the last one, as long as its call goes on. -/
theorem fetch?_withJob (hon : p.coop.goesOn j.place = true) (phase : FetchPhase) :
    (p.withJob j phase).fetch? p.fetches.length =
      some ⟨j.place, j.resource, j.sharing, phase⟩ :=
  fetch?_eq_some.mpr ⟨List.getElem?_concat_length, hon⟩

theorem setFetch_withJob (before after : FetchPhase) :
    (p.withJob j before).setFetch p.fetches.length after =
      p.withJob j after := by
  simp only [setFetch, withJob, modify_concat_length]

/-- The get waits as the call that does the job. -/
theorem callOf?_withJob (phase : FetchPhase) :
    (p.withJob j phase).callOf? p.gets.length = some j.call :=
  callOf?_eq_some.mpr ⟨⟨j.resource, .called j.call⟩, List.getElem?_concat_length, rfl⟩

/-! ## Looking up and judging -/

/-- The proxy after a lookup, which a store may remember. -/
def lookedUp (ops : StoreOps σ) (p : Proxy σ) (r : Resource) : Proxy σ :=
  { p with store := (ops.lookup p.store r).2 }

/-- A lookup judges what is found, or returns the fault. -/
theorem lookUp_withGet (ops : StoreOps σ) (p : Proxy σ) (r : Resource) :
    (p.withGet r .lookUp).step ops (.lookUp p.gets.length) = some ((p.lookedUp ops r).withGet r
      (match foundCopy (ops.lookup p.store r).1 with
        | .ok copy => .judge copy
        | .error fault => .returned (.error fault))) := by
  have hlookup : ops.lookup (p.withGet r .lookUp).store r = ops.lookup p.store r := rfl
  simp only [step, lookUp, getElem?_withGet, Option.bind_eq_bind, Option.bind_some, hlookup]
  cases foundCopy (ops.lookup p.store r).1 <;>
    exact congrArg some (setGet_withGet (p := p.lookedUp ops r) .lookUp _)

/-- A stale copy goes on to the cooperation, and a fresh one is returned. -/
theorem judge_withGet (copy : Option Content) :
    (p.withGet r (.judge copy)).step ops (.judge p.gets.length) = some (p.withGet r
      (if p.isStale r copy then .enter copy else .returned (.ok copy))) := by
  have hsame : (p.withGet r (.judge copy)).isStale r copy = p.isStale r copy := rfl
  simp only [step, judge, getElem?_withGet, Option.bind_eq_bind, Option.bind_some, hsame]
  cases p.isStale r copy <;> simp only [setGet_withGet, if_true, if_false, Bool.false_eq_true]

/-- A get looks its resource up, and returns the copy if it is fresh. -/
theorem afterAll_found {copy : Option Content}
    (found : foundCopy (ops.lookup p.store r).1 = .ok copy) :
    p.afterAll ops [.request r, .lookUp p.gets.length, .judge p.gets.length] =
    (p.lookedUp ops r).withGet r
      (if p.isStale r copy then .enter copy else .returned (.ok copy)) := by
  have hrequest : p.step ops (.request r) = some (p.withGet r .lookUp) := rfl
  have hlookUp := lookUp_withGet ops p r
  rw [found] at hlookUp
  have hjudge : ((p.lookedUp ops r).withGet r (.judge copy)).step ops (.judge p.gets.length) = some _ :=
    judge_withGet (p := p.lookedUp ops r) copy
  rw [afterAll_cons, after_of_some hrequest, afterAll_cons, after_of_some hlookUp, afterAll_cons,
    after_of_some hjudge, afterAll_nil]
  rfl

/-- A get ends with a lookup that fails. -/
theorem afterAll_failed {fault : Fault}
    (failed : foundCopy (ops.lookup p.store r).1 = .error fault) :
    p.afterAll ops [.request r, .lookUp p.gets.length, .judge p.gets.length] =
    (p.lookedUp ops r).withGet r (.returned (.error fault)) := by
  have hrequest : p.step ops (.request r) = some (p.withGet r .lookUp) := rfl
  have hlookUp := lookUp_withGet ops p r
  rw [failed] at hlookUp
  have hget := getElem?_withGet (p := p.lookedUp ops r) (r := r) (.returned (.error fault))
  have hjudge : ((p.lookedUp ops r).withGet r (.returned (.error fault))).step ops
      (.judge p.gets.length) = none := by
    simp only [step, judge]
    rw [show p.gets.length = (p.lookedUp ops r).gets.length from rfl, hget]
    rfl
  rw [afterAll_cons, after_of_some hrequest, afterAll_cons, after_of_some hlookUp, afterAll_cons,
    after_of_none hjudge, afterAll_nil]

/-- The events that can come after a get has judged its copy. -/
def restOf (g i : Nat) : List ProxyEvent :=
  [.enter g, .ask i, .handle i, .stored i, .copied i, .verified i, .publish i, .release i, .finish i,
    .deliver g]

/-- After a get has returned, nothing is left to be done for it. -/
theorem step_withGet_returned (result : Except Fault (Option Content))
    (he : e ∈ restOf p.gets.length p.fetches.length) :
    (p.withGet r (.returned result)).step ops e = none := by
  have hget := getElem?_withGet (p := p) (r := r) (.returned result)
  have hfetch := fetch?_withGet (p := p) (r := r) (.returned result)
  simp only [restOf, List.mem_cons, List.not_mem_nil, or_false] at he
  obtain rfl | rfl | rfl | rfl | rfl | rfl | rfl | rfl | rfl | rfl := he
  · simp [step, enter, hget]
  · simp [step, ask, hfetch]
  · simp [step, handle, hfetch]
  · simp [step, stored, hfetch]
  · simp [step, copied, hfetch]
  · simp [step, verified, hfetch]
  · simp [step, publish, hfetch]
  · simp [step, release, hfetch]
  · simp [step, finish, hfetch]
  · simp [step, callStep, callOf?, hget]

/-! ## The call -/

/-- A call that comes in when the table has nothing for its key runs alone or leads. -/
inductive CallMade {α : Type} (s : Cooperation α) (r : Resource) (passive active : Duration) :
    Cooperation α → Job → Prop where
  | alone (off : passive.nanos = 0) :
    CallMade s r passive active
      { s with calls := s.calls ++ [⟨r.key, passive, active, s.now, .alone⟩] }
      ⟨r, s.calls.length, .call s.calls.length, false⟩
  | leading (on : passive.nanos ≠ 0) :
    CallMade s r passive active
      { s.startLease r.key s.calls.length false with
        calls := s.calls ++ [⟨r.key, passive, active, s.now, .leading s.leases.length⟩] }
      ⟨r, s.calls.length, .lease s.leases.length, true⟩

/-- With the key free, the get has to do the job itself. -/
theorem enter_withGet (hfree : p.coop.registered? r.key = none) (copy : Option Content) :
    ∃ coop j, CallMade p.coop r p.passive p.active coop j ∧
      (p.withGet r (.enter copy)).enter p.gets.length =
        some ({ p with coop }.withJob j (.ask copy)) := by
  obtain ⟨off, harrive⟩ | ⟨-, l, held, -⟩ | ⟨on, -, harrive⟩ :=
    Cooperation.arrive_cases p.coop r.key p.passive p.active
  · refine ⟨_, _, .alone off, ?_⟩
    simp only [enter, getElem?_withGet, Option.bind_eq_bind, Option.bind_some]
    simp [withGet, withJob, setGet, addFetch, harrive, modify_concat_length]
  · rw [hfree] at held
    contradiction
  · refine ⟨_, _, .leading on, ?_⟩
    simp only [enter, getElem?_withGet, Option.bind_eq_bind, Option.bind_some]
    simp [withGet, withJob, setGet, addFetch, harrive, modify_concat_length]

variable {coop s : Cooperation (Option Content)} {passive active : Duration}

/-- The work of the call goes on while the call does, however much time passes. -/
theorem CallMade.goesOn (h : CallMade s r passive active coop j) (nanos : Nat) :
    Cooperation.goesOn { coop with now := coop.now + nanos } j.place = true := by
  cases h with
  | alone off => simp [Cooperation.goesOn, CallPhase.isLive]
  | leading on => rfl

theorem CallMade.now_eq (h : CallMade s r passive active coop j) : coop.now = s.now := by
  cases h with
  | alone off => rfl
  | leading on => rfl

theorem CallMade.resource_eq (h : CallMade s r passive active coop j) : j.resource = r := by
  cases h with
  | alone off => rfl
  | leading on => rfl

/-! ## The exchange -/

/-- The job asks for the resource, about the copy that is there, or fails. -/
theorem ask_withJob (hon : q.coop.goesOn j.place = true) (copy : Option Content) :
    (q.withJob j (.ask copy)).ask q.fetches.length =
      some (q.withJob j (match Remote.resolve q.remote j.resource with
        | .error fault => .ended (some (.error fault))
        | .ok url => .waiting copy (OriginRequest.revalidating { url } copy))) := by
  simp only [ask, fetch?_withJob hon, Option.bind_eq_bind, Option.bind_some]
  have hremote : (q.withJob j (.ask copy)).remote = q.remote := rfl
  rw [hremote]
  cases Remote.resolve q.remote j.resource <;> simp only [setFetch_withJob]

/-- The streams after an answer has come in, and the answer with its body opened. -/
def received (s : Streams) : Except OriginFault Reply → Except OriginFault OriginResponse × Streams
  | .error fault => (.error fault, s)
  | .ok reply => (.ok (reply.receive s).1, (reply.receive s).2)

/-- The answer is opened, and a failure is passed on. -/
theorem answer_withJob (hon : q.coop.goesOn j.place = true) (copy : Option Content)
    (request : OriginRequest) (reply : Except OriginFault Reply) :
    (q.withJob j (.waiting copy request)).answer q.fetches.length reply =
      some ({ q with streams := (received q.streams reply).2 }.withJob j
        (.answered copy request (received q.streams reply).1)) := by
  simp only [answer, fetch?_withJob hon, Option.bind_eq_bind, Option.bind_some]
  cases reply with
  | error fault => simp only [setFetch_withJob, received]
  | ok reply =>
    exact congrArg some (setFetch_withJob (p := { q with streams := (reply.receive q.streams).2 })
      (.waiting copy request) _)

/-- The steps of a fetch that deal with an answer. -/
def dealing (i : Nat) : List ProxyEvent :=
  [.handle i, .stored i, .copied i, .verified i]

/-- A fetch that has ended deals with nothing more. -/
theorem step_of_ended (hon : q.coop.goesOn j.place = true)
    (outcome : Option (Except Fault (Option Content))) (he : e ∈ dealing q.fetches.length) :
    (q.withJob j (.ended outcome)).step ops e = none := by
  have hfetch := fetch?_withJob hon (.ended outcome)
  simp only [dealing, List.mem_cons, List.not_mem_nil, or_false] at he
  obtain rfl | rfl | rfl | rfl := he
  · simp [step, handle, hfetch]
  · simp [step, stored, hfetch]
  · simp [step, copied, hfetch]
  · simp [step, verified, hfetch]

/-- The exchange ends with what it came to, and its body is given up if nobody gets it. -/
theorem conclude_withJob (before : FetchPhase) (copy : Option Content) (response : OriginResponse)
    (fetched : Except Fault (Option Content)) :
    (q.withJob j before).conclude q.fetches.length copy response fetched =
      { q with streams := (Exchange.conclude copy response fetched q.streams).2 }.withJob j
        (.ended (some (Exchange.outcome copy fetched))) := by
  rw [conclude_eq]
  exact setFetch_withJob
    (p := { q with streams := (Exchange.conclude copy response fetched q.streams).2 }) before _

/-! ## Dealing with the answer -/

/-- The stamp of content that is fetched or confirmed now. -/
def stampNow (p : Proxy σ) (r : Resource) : Stamp :=
  (p.controller r).stampAt p.wall

/-- What a fetch that has read content back has to show for it. -/
def readBack : Except ReadFault Content → Except Fault (Option Content)
  | .ok content => .ok (some content)
  | .error fault => .error (.store (.ofRead fault))

/-- What the store makes of new content, as the fetch sees it. Content that the store gave back unread
is read if there may be several readers. -/
def lent (sharing : Bool) (remote : Content) (kept : Except StoreFault Content) (s : Streams) :
    Except Fault (Option Content) × Streams :=
  match kept with
  | .error fault => (.error (.store fault), s)
  | .ok content =>
    if sharing && content.sharesStream remote then
      (readBack (content.materialize s).1, (content.materialize s).2)
    else (.ok (some content), s)

/-- What a fetch has once it has acted on an answer: its copy, what it fetched, the store and the
streams. -/
structure Brought (σ : Type) where
  copy : Option Content
  fetched : Except Fault (Option Content)
  store : σ
  streams : Streams

/-- What is brought by doing about an answer what is to be done. -/
def actOn (ops : StoreOps σ) (sharing : Bool) (m : σ) (s : Streams) (r : Resource)
    (copy : Option Content) : Exchange.Verdict → Brought σ
  | .keep remote =>
    let kept := ops.store m s r remote
    let fetched := lent sharing remote kept.1 kept.2.2
    ⟨copy, fetched.1, kept.2.1, fetched.2⟩
  | .confirm known stamp =>
    match ops.verify m r stamp with
    | (.ok _, m) => ⟨some (known.withStamp stamp), .ok none, m, s⟩
    | (.error fault, m) => ⟨some known, .error (.store fault), m, s⟩
  | .nothing => ⟨copy, .ok none, m, s⟩
  | .fail fault => ⟨copy, .error fault, m, s⟩

/-- What an answer comes to: the outcome of the exchange, the store and the streams. -/
def dealWith (ops : StoreOps σ) (sharing : Bool) (m : σ) (s : Streams) (r : Resource) (stamp : Stamp)
    (request : OriginRequest) (copy : Option Content) :
    Except OriginFault OriginResponse → Except Fault (Option Content) × σ × Streams
  | .error fault => (Exchange.degrade copy (.ofOrigin fault), m, s)
  | .ok response =>
    let brought := actOn ops sharing m s r copy (Exchange.judge request response copy stamp)
    (Exchange.outcome brought.copy brought.fetched, brought.store,
      (Exchange.conclude brought.copy response brought.fetched brought.streams).2)

/-- A fetch that the next event ends, and then has nothing left to deal with. -/
theorem afterAll_of_conclude {first : ProxyEvent} (rest : List ProxyEvent) {before : FetchPhase}
    {copy : Option Content} {response : OriginResponse} {fetched : Except Fault (Option Content)}
    (q' : Proxy σ) (hon : q'.coop.goesOn j.place = true)
    (hfirst : (q.withJob j before).step ops first =
      some ((q'.withJob j before).conclude q'.fetches.length copy response fetched))
    (hrest : ∀ e ∈ rest, e ∈ dealing q'.fetches.length) :
    (q.withJob j before).afterAll ops (first :: rest) =
      { q' with streams := (Exchange.conclude copy response fetched q'.streams).2 }.withJob j
        (.ended (some (Exchange.outcome copy fetched))) := by
  let ended := { q' with streams := (Exchange.conclude copy response fetched q'.streams).2 }
  rw [afterAll_cons, after_of_some hfirst, conclude_withJob]
  exact afterAll_of_none fun e he => step_of_ended (q := ended) hon _ (hrest e he)

/-- The step in which an answer is read goes by what is to be done about it. -/
theorem handle_answered (ops : StoreOps σ) (hon : q.coop.goesOn j.place = true) (copy : Option Content)
    (request : OriginRequest) (response : OriginResponse) :
    (q.withJob j (.answered copy request (.ok response))).step ops (.handle q.fetches.length) = some
        (match Exchange.judge request response copy (q.stampNow j.resource) with
        | .keep remote => q.withJob j (.storing copy response remote)
        | .confirm known stamp => q.withJob j (.verifying known response stamp)
        | .nothing => (q.withJob j (.answered copy request (.ok response))).conclude
            q.fetches.length copy response (.ok none)
        | .fail fault => (q.withJob j (.answered copy request (.ok response))).conclude
            q.fetches.length copy response (.error fault)) := by
  have hsame : ∀ phase, ((q.withJob j phase).controller j.resource).stampAt (q.withJob j phase).wall =
      q.stampNow j.resource := fun _ => rfl
  simp only [step, handle, fetch?_withJob hon, Option.bind_eq_bind, Option.bind_some, hsame]
  cases Exchange.judge request response copy (q.stampNow j.resource) <;> simp only [setFetch_withJob]

/-- The step in which content that the store gave back unread is read. -/
theorem copied_copying (ops : StoreOps σ) (hon : q.coop.goesOn j.place = true) (copy : Option Content)
    (response : OriginResponse) (kept : Content) :
    (q.withJob j (.copying copy response kept)).step ops (.copied q.fetches.length) =
      some (({ q with streams := (kept.materialize q.streams).2 }.withJob j
        (.copying copy response kept)).conclude q.fetches.length copy response
          (readBack (kept.materialize q.streams).1)) := by
  have hread : ∀ phase, kept.materialize (q.withJob j phase).streams = kept.materialize q.streams :=
    fun _ => rfl
  simp only [step, copied, fetch?_withJob hon, Option.bind_eq_bind, Option.bind_some, hread]
  cases kept.materialize q.streams with
  | mk read s => cases read <;> rfl

/-- The steps in which the store takes content, and content that it gave back unread is read. -/
theorem afterAll_storing (hon : q.coop.goesOn j.place = true) (copy : Option Content)
    (response : OriginResponse) (remote : Content) :
    (q.withJob j (.storing copy response remote)).afterAll ops
      [.stored q.fetches.length, .copied q.fetches.length, .verified q.fetches.length] =
    let kept := ops.store q.store q.streams j.resource remote
    let fetched := lent j.sharing remote kept.1 kept.2.2
    { q with
      store := kept.2.1
      streams := (Exchange.conclude copy response fetched.1 fetched.2).2 }.withJob j
      (.ended (some (Exchange.outcome copy fetched.1))) := by
  obtain ⟨kept, m, s, hkept⟩ : ∃ kept m s,
      ops.store q.store q.streams j.resource remote = (kept, m, s) := ⟨_, _, _, rfl⟩
  have hstore : ∀ phase, ops.store (q.withJob j phase).store (q.withJob j phase).streams j.resource
      remote = (kept, m, s) := fun _ => hkept
  let taken : Proxy σ := { q with store := m, streams := s }
  have hstored : (q.withJob j (.storing copy response remote)).step ops (.stored q.fetches.length) =
      match kept with
      | .error fault => some ((taken.withJob j (.storing copy response remote)).conclude
          q.fetches.length copy response (.error (.store fault)))
      | .ok kept =>
        if j.sharing && kept.sharesStream remote then
          some (taken.withJob j (.copying copy response kept))
        else some ((taken.withJob j (.storing copy response remote)).conclude
          q.fetches.length copy response (.ok (some kept))) := by
    have hcopying : ∀ kept : Content,
        (taken.withJob j (.storing copy response remote)).setFetch q.fetches.length
          (.copying copy response kept) = taken.withJob j (.copying copy response kept) :=
      fun _ => setFetch_withJob (p := taken) _ _
    simp only [step, stored, fetch?_withJob hon, Option.bind_eq_bind, Option.bind_some, hstore,
      ← hcopying]
    cases kept <;> rfl
  rw [hkept]
  dsimp only
  have hrest : ∀ e ∈ [ProxyEvent.copied q.fetches.length, .verified q.fetches.length],
      e ∈ dealing q.fetches.length :=
    fun e he => List.mem_cons_of_mem _ (List.mem_cons_of_mem _ he)
  cases kept with
  | error fault => exact afterAll_of_conclude _ taken hon hstored hrest
  | ok content =>
    cases hshares : j.sharing && content.sharesStream remote with
    | false =>
      rw [lent, hshares, if_neg Bool.false_ne_true]
      simp only [hshares, Bool.false_eq_true, if_false] at hstored
      exact afterAll_of_conclude _ taken hon hstored hrest
    | true =>
      rw [lent, hshares, if_pos rfl]
      simp only [hshares, if_true] at hstored
      have hcopied := copied_copying ops (q := taken) hon copy response content
      rw [afterAll_cons, after_of_some hstored]
      exact afterAll_of_conclude _ { taken with streams := (content.materialize s).2 } hon hcopied
        fun e he => hrest e (List.mem_cons_of_mem _ he)

/-- The step in which the store notes that the copy is unchanged. -/
theorem verified_verifying (ops : StoreOps σ) (hon : q.coop.goesOn j.place = true) (known : Content)
    (response : OriginResponse) (stamp : Stamp) :
    (q.withJob j (.verifying known response stamp)).step ops (.verified q.fetches.length) =
      some (match ops.verify q.store j.resource stamp with
        | (.ok _, store) => ({ q with store }.withJob j (.verifying known response stamp)).conclude
            q.fetches.length (some (known.withStamp stamp)) response (.ok none)
        | (.error fault, store) =>
          ({ q with store }.withJob j (.verifying known response stamp)).conclude
            q.fetches.length (some known) response (.error (.store fault))) := by
  have hverify : ∀ phase, ops.verify (q.withJob j phase).store j.resource stamp =
      ops.verify q.store j.resource stamp := fun _ => rfl
  simp only [step, verified, fetch?_withJob hon, Option.bind_eq_bind, Option.bind_some, hverify]
  cases ops.verify q.store j.resource stamp with
  | mk done store => cases done <;> rfl

/-- An answer that has come in is dealt with, and the fetch has ended then. -/
theorem afterAll_dealing (ops : StoreOps σ) (hon : q.coop.goesOn j.place = true) (copy : Option Content)
    (request : OriginRequest) (answer : Except OriginFault OriginResponse) :
    (q.withJob j (.answered copy request answer)).afterAll ops (dealing q.fetches.length) =
    let dealt := dealWith ops j.sharing q.store q.streams j.resource (q.stampNow j.resource) request
      copy answer
    { q with store := dealt.2.1, streams := dealt.2.2 }.withJob j (.ended (some dealt.1)) := by
  cases answer with
  | error fault =>
    have hhandle : (q.withJob j (.answered copy request (.error fault))).step ops
        (.handle q.fetches.length) = some (q.withJob j
          (.ended (some (Exchange.degrade copy (.ofOrigin fault))))) := by
      simp only [step, handle, fetch?_withJob hon, Option.bind_eq_bind, Option.bind_some,
        setFetch_withJob]
    rw [dealing, afterAll_cons, after_of_some hhandle]
    exact afterAll_of_none fun e he => step_of_ended hon _ (List.mem_cons_of_mem _ he)
  | ok response =>
    have hhandle := handle_answered ops hon copy request response
    simp only [dealWith]
    cases hverdict : Exchange.judge request response copy (q.stampNow j.resource) with
    | keep remote =>
      rw [hverdict] at hhandle
      rw [dealing, afterAll_cons, after_of_some hhandle]
      exact afterAll_storing hon copy response remote
    | confirm known stamp =>
      rw [hverdict] at hhandle
      have hfetch := fetch?_withJob hon (.verifying known response stamp)
      have hskip : ∀ e ∈ [ProxyEvent.stored q.fetches.length, .copied q.fetches.length],
          (q.withJob j (.verifying known response stamp)).step ops e = none := by
        simp [step, stored, copied, hfetch]
      have hverified := verified_verifying ops hon known response stamp
      rw [dealing, afterAll_cons, after_of_some hhandle]
      change afterAll _ _ ([.stored q.fetches.length, .copied q.fetches.length] ++
        [.verified q.fetches.length]) = _
      rw [afterAll_append, afterAll_of_none hskip]
      simp only [actOn]
      split at hverified
      · next m _ => exact afterAll_of_conclude [] { q with store := m } hon hverified (by simp)
      · next m _ => exact afterAll_of_conclude [] { q with store := m } hon hverified (by simp)
    | nothing =>
      rw [hverdict] at hhandle
      exact afterAll_of_conclude _ q hon hhandle fun e he => List.mem_cons_of_mem _ he
    | fail fault =>
      rw [hverdict] at hhandle
      exact afterAll_of_conclude _ q hon hhandle fun e he => List.mem_cons_of_mem _ he

/-! ## The end -/

/-- The work of a call that leads ends with a result. It gives up the key, and the call returns the
result. -/
theorem leading_ends {α : Type} {s : Cooperation α} {leases : List (Lease α)} {lease : Lease α}
    {calls : List (Call α)} {call : Call α} (hleases : s.leases = leases ++ [lease])
    (hcalls : s.calls = calls ++ [call]) (htable : s.table = [(lease.key, leases.length)])
    (pending : lease.outcome = none) (held : lease.released = false)
    (hphase : call.phase = .leading leases.length) (result : Except Fault α) :
    ∃ s₁ s₂ s₃, s.publish leases.length (some result) = some s₁ ∧
      s₁.release leases.length = some s₂ ∧ s₂.deliver calls.length = some s₃ ∧
      s₃.table = [] ∧ s₃.now = s.now ∧
      s₃.calls[calls.length]?.map Call.phase = some (.returned result) := by
  let published : Lease α := { lease with outcome := some result }
  let released : Lease α := { published with released := true }
  refine ⟨{ s with leases := leases ++ [published] },
    { s with leases := leases ++ [released], table := [] },
    { s with
      leases := leases ++ [released], table := []
      calls := calls ++ [{ call with phase := .returned result }] }, ?_, ?_, ?_, rfl, rfl, ?_⟩
  · refine Cooperation.publish_eq_some.mpr
      ⟨lease, hleases ▸ List.getElem?_concat_length, pending, ?_⟩
    rw [hleases, modify_concat_length]
    rfl
  · refine Cooperation.release_eq_some.mpr
      ⟨published, List.getElem?_concat_length, rfl, held, ?_⟩
    simp [modify_concat_length, htable, published, released]
  · refine Cooperation.deliver_eq_some.mpr ⟨call, leases.length, result,
      hcalls ▸ List.getElem?_concat_length, by rw [hphase]; rfl, ?_, ?_⟩
    · simp [Cooperation.outcome?, released, published]
    · simp [hphase, Cooperation.leave, CallPhase.followed?, Cooperation.setPhase, hcalls,
        modify_concat_length]
  · simp

/-- The work of a call that runs alone ends with a result, which the call returns at once. -/
theorem alone_ends {α : Type} {s : Cooperation α} {calls : List (Call α)} {call : Call α}
    (hcalls : s.calls = calls ++ [call]) (hphase : call.phase = .alone) (result : Except Fault α) :
    ∃ s₁, s.finish calls.length (some result) = some s₁ ∧ s₁.deliver calls.length = none ∧
      s₁.table = s.table ∧ s₁.now = s.now ∧
      s₁.calls[calls.length]?.map Call.phase = some (.returned result) := by
  refine ⟨{ s with calls := calls ++ [{ call with phase := .returned result }] }, ?_, ?_, rfl, rfl,
    ?_⟩
  · refine Cooperation.finish_eq_some.mpr ⟨call, hcalls ▸ List.getElem?_concat_length, hphase, ?_⟩
    simp [Cooperation.setPhase, hcalls, modify_concat_length]
  · simp [Cooperation.deliver, CallPhase.lease?]
  · simp

/-- The events that end a fetch, and the call that waits for it. -/
def closing (g i : Nat) : List ProxyEvent :=
  [.publish i, .release i, .finish i, .deliver g]

/-- The end of a fetch for a lease: the outcome is published, the key given up, and the call returns. -/
theorem afterAll_closing_lease {l : Nat} (hplace : j.place = .lease l)
    {outcome : Option (Except Fault (Option Content))} {s₁ s₂ s₃ : Cooperation (Option Content)}
    (hpublish : q.coop.publish l outcome = some s₁) (hrelease : s₁.release l = some s₂)
    (hdeliver : s₂.deliver j.call = some s₃) :
    (q.withJob j (.ended outcome)).afterAll ops (closing q.gets.length q.fetches.length) =
      { q with coop := s₃ }.withJob j .closed := by
  have hon : ∀ s : Cooperation (Option Content), s.goesOn j.place = true := fun _ => by rw [hplace]; rfl
  have hpublished : (q.withJob j (.ended outcome)).step ops (.publish q.fetches.length) =
      some ({ q with coop := s₁ }.withJob j .published) :=
    publish_eq_some.mpr ⟨_, _, l, s₁, fetch?_withJob (hon _) _, rfl, hplace, hpublish,
      (setFetch_withJob (p := { q with coop := s₁ }) _ _).symm⟩
  have hreleased : ({ q with coop := s₁ }.withJob j .published).step ops
      (.release q.fetches.length) = some ({ q with coop := s₂ }.withJob j .closed) :=
    release_eq_some.mpr ⟨_, l, s₂, fetch?_withJob (p := { q with coop := s₁ }) (hon _) _, rfl, hplace,
      hrelease, (setFetch_withJob (p := { q with coop := s₂ }) _ _).symm⟩
  have hfinish : ({ q with coop := s₂ }.withJob j .closed).step ops
      (.finish q.fetches.length) = none := by
    have hfetch := fetch?_withJob (p := { q with coop := s₂ }) (hon s₂) .closed
    simp only [step, finish, hfetch, Option.bind_eq_bind, Option.bind_some]
  have hdelivered : ({ q with coop := s₂ }.withJob j .closed).step ops (.deliver q.gets.length) =
      some ({ q with coop := s₃ }.withJob j .closed) :=
    callStep_eq_some.mpr ⟨_, s₃, callOf?_withJob (p := { q with coop := s₂ }) _, hdeliver, rfl⟩
  rw [closing, afterAll_cons, after_of_some hpublished, afterAll_cons, after_of_some hreleased,
    afterAll_cons, after_of_none hfinish, afterAll_cons, after_of_some hdelivered, afterAll_nil]

/-- The end of a fetch inside a call: it ends the call. -/
theorem afterAll_closing_call {c : Nat} (hplace : j.place = .call c) (hon : q.coop.goesOn j.place = true)
    {outcome : Option (Except Fault (Option Content))} {s₁ : Cooperation (Option Content)}
    (hfinish : q.coop.finish c outcome = some s₁) (hdeliver : s₁.deliver j.call = none) :
    (q.withJob j (.ended outcome)).afterAll ops (closing q.gets.length q.fetches.length) =
      { q with coop := s₁ }.withJob j .closed := by
  have hfetch := fetch?_withJob hon (.ended outcome)
  have hskip : ∀ e ∈ [ProxyEvent.publish q.fetches.length, .release q.fetches.length],
      (q.withJob j (.ended outcome)).step ops e = none := by
    simp [step, publish, release, hfetch, hplace]
  have hfinished : (q.withJob j (.ended outcome)).step ops (.finish q.fetches.length) =
      some ({ q with coop := s₁ }.withJob j .closed) :=
    finish_eq_some.mpr ⟨_, _, c, s₁, hfetch, rfl, hplace, hfinish,
      (setFetch_withJob (p := { q with coop := s₁ }) _ _).symm⟩
  have hdelivered : ({ q with coop := s₁ }.withJob j .closed).step ops (.deliver q.gets.length) =
      none := by
    refine Option.eq_none_iff_forall_ne_some.mpr fun q' h => ?_
    obtain ⟨d, coop, hcallOf, hstep, -⟩ := callStep_eq_some.mp h
    obtain rfl : j.call = d := Option.some.inj
      ((callOf?_withJob (p := { q with coop := s₁ }) .closed).symm.trans hcallOf)
    cases hdeliver.symm.trans hstep
  change afterAll _ _ ([.publish q.fetches.length, .release q.fetches.length] ++
    [.finish q.fetches.length, .deliver q.gets.length]) = _
  rw [afterAll_append, afterAll_of_none hskip, afterAll_cons, after_of_some hfinished,
    afterAll_cons, after_of_none hdelivered, afterAll_nil]

/-- Once its work has ended, the call returns the outcome, and nothing is left in the table. -/
theorem afterAll_closing (ops : StoreOps σ) (h : CallMade s r passive active coop j)
    (free : s.table = []) (nanos : Nat) (hcoop : q.coop = { coop with now := coop.now + nanos })
    (result : Except Fault (Option Content)) : ∃ s',
    (q.withJob j (.ended (some result))).afterAll ops (closing q.gets.length q.fetches.length) =
      { q with coop := s' }.withJob j .closed ∧
    s'.table = [] ∧ s'.now = q.coop.now ∧
    s'.calls[j.call]?.map Call.phase = some (.returned result) := by
  cases h with
  | leading on =>
    obtain ⟨s₁, s₂, s₃, hpublish, hrelease, hdeliver, htable, hnow, hcall⟩ :=
      leading_ends (s := q.coop) (by rw [hcoop]; rfl) (by rw [hcoop])
        (by rw [hcoop]; simp [Cooperation.startLease, free]) rfl rfl rfl result
    exact ⟨s₃, afterAll_closing_lease rfl hpublish hrelease hdeliver, htable, hnow, hcall⟩
  | alone off =>
    have hcalls : q.coop.calls = s.calls ++ [⟨r.key, passive, active, s.now, .alone⟩] := by
      rw [hcoop]
    have hfree : q.coop.table = [] := by
      rw [hcoop]
      exact free
    obtain ⟨s₁, hended, hdeliver, htable, hnow, hcall⟩ := alone_ends hcalls rfl result
    have hon : q.coop.goesOn (.call s.calls.length) = true := by
      simp [Cooperation.goesOn, hcalls, CallPhase.isLive]
    exact ⟨s₁, afterAll_closing_call rfl hon hended hdeliver, htable.trans hfree, hnow, hcall⟩

/-! ## The whole get -/

/-- A get that has returned shows its result. -/
theorem getState_withGet (result : Except Fault (Option Content)) :
    (p.withGet r (.returned result)).getState p.gets.length = .returned result := by
  rw [getState, getElem?_withGet]
  rfl

/-- A get whose call has returned shows the result of the call. -/
theorem getState_withJob (phase : FetchPhase) {result : Except Fault (Option Content)}
    (h : q.coop.calls[j.call]?.map Call.phase = some (.returned result)) :
    (q.withJob j phase).getState q.gets.length = .returned result := by
  simp [getState, withJob, h]

/-- Nothing is under way, and the settings are as they were. -/
structure Rests (p q : Proxy σ) : Prop where
  table : q.coop.table = []
  controllers : q.controllers = p.controllers
  remote : q.remote = p.remote
  passive : q.passive = p.passive
  active : q.active = p.active
  origin : q.origin = p.origin

/-- A get alone comes to its end: what it returns, what the store, the streams, the clock and the world
of the origin are then, and nothing is under way. -/
def Ends {ω : Type} (ops : StoreOps σ) (origin : OriginRequest → ω → Except OriginFault Reply × Nat × ω)
    (p : Proxy σ) (w : ω) (r : Resource) (result : Except Fault (Option Content)) (m : σ)
    (s : Streams) (now : Nat) (w' : ω) : Prop :=
  ∃ q, p.get ops origin w r = (result, q, w') ∧ q.getState p.gets.length = .returned result ∧
    Rests p q ∧ q.store = m ∧ q.streams = s ∧ q.coop.now = now

/-- The stamp of content that is fetched or confirmed after some time. -/
def stampAfter (p : Proxy σ) (r : Resource) (nanos : Nat) : Stamp :=
  (p.controller r).stampAt (p.origin.addNanos (p.coop.now + nanos))

/-- Whether gets for one resource share work. -/
def cooperates (p : Proxy σ) : Bool :=
  p.passive.nanos != 0

/-- What a get comes to if it asks about a copy and gets a reply after some time: its result, the store
and the streams. -/
def dealt (ops : StoreOps σ) (p : Proxy σ) (r : Resource) (copy : Option Content) (url : Url)
    (nanos : Nat) (reply : Except OriginFault Reply) :
    Except Fault (Option Content) × σ × Streams :=
  dealWith ops p.cooperates (ops.lookup p.store r).2 (received p.streams reply).2 r
    (p.stampAfter r nanos) (OriginRequest.revalidating { url } copy) copy
    (received p.streams reply).1

/-- The job is shared exactly if there is a passive timeout. -/
theorem CallMade.sharing_eq (h : CallMade s r passive active coop j) :
    j.sharing = (passive.nanos != 0) := by
  cases h with
  | alone off => simp [off]
  | leading on => exact (bne_iff_ne.mpr on).symm

section Whole

variable {ω : Type} {origin : OriginRequest → ω → Except OriginFault Reply × Nat × ω}
  {copy : Option Content}

/-- A get by the states that its parts lead to. -/
theorem get_eq {p₁ p₂ q : Proxy σ} {w w' : ω} {result : Except Fault (Option Content)}
    (before : (p.afterAll ops [.request r, .lookUp p.gets.length, .judge p.gets.length]).afterAll ops
      [.enter p.gets.length, .ask p.fetches.length] = p₁)
    (during : p₁.exchange ops origin w p.fetches.length = (p₂, w'))
    (after : (p₂.afterAll ops (dealing p.fetches.length)).afterAll ops
      (closing p.gets.length p.fetches.length) = q)
    (returned : q.getState p.gets.length = .returned result) :
    p.get ops origin w r = (result, q, w') := by
  rw [← afterAll_append] at before after
  unfold get
  simp only [List.cons_append, List.nil_append, dealing, closing] at before after
  simp only [before, during, after, returned]

/-- Without a request nothing comes from the origin. -/
theorem exchange_of_idle {i : Nat} (w : ω)
    (h : ∀ copy request, p.fetches[i]?.map Fetch.phase ≠ some (.waiting copy request)) :
    p.exchange ops origin w i = (p, w) := by
  unfold exchange
  split
  · next copy request hphase => exact absurd hphase (h copy request)
  · rfl

/-- A get that has returned before it made a call does nothing else. -/
theorem ends_of_returned (free : p.coop.table = []) {result : Except Fault (Option Content)}
    (early : p.afterAll ops [.request r, .lookUp p.gets.length, .judge p.gets.length] =
      (p.lookedUp ops r).withGet r (.returned result)) (w : ω) :
    Ends ops origin p w r result (ops.lookup p.store r).2 p.streams p.coop.now w := by
  let q := (p.lookedUp ops r).withGet r (.returned result)
  have hdone : ∀ events, (∀ e ∈ events, e ∈ restOf p.gets.length p.fetches.length) →
      q.afterAll ops events = q :=
    fun events h => afterAll_of_none fun e he =>
      step_withGet_returned (p := p.lookedUp ops r) result (h e he)
  have hreturned : q.getState p.gets.length = .returned result :=
    getState_withGet (p := p.lookedUp ops r) result
  refine ⟨q, get_eq ?_ (exchange_of_idle (p := q) w ?_) ?_ hreturned, hreturned,
    ⟨free, rfl, rfl, rfl, rfl, rfl⟩, rfl, rfl, rfl⟩
  · rw [early, hdone]
    simp [restOf]
  · simp [q, withGet, lookedUp]
  · rw [hdone _ (by simp [restOf, dealing]), hdone _ (by simp [restOf, closing])]

/-- A lookup that fails is the end of a get. -/
theorem ends_failed (free : p.coop.table = []) {fault : Fault}
    (failed : foundCopy (ops.lookup p.store r).1 = .error fault) (w : ω) :
    Ends ops origin p w r (.error fault) (ops.lookup p.store r).2 p.streams p.coop.now w :=
  ends_of_returned free (afterAll_failed failed) w

/-- A fresh copy is returned, and nobody is asked. -/
theorem ends_fresh (free : p.coop.table = []) (found : foundCopy (ops.lookup p.store r).1 = .ok copy)
    (fresh : p.isStale r copy = false) (w : ω) :
    Ends ops origin p w r (.ok copy) (ops.lookup p.store r).2 p.streams p.coop.now w :=
  ends_of_returned free (by rw [afterAll_found found, fresh, if_neg Bool.false_ne_true]) w

/-- For a stale copy a call is made, and its work asks the origin if the resource lies below the
remote. -/
theorem afterAll_stale (free : p.coop.table = [])
    (found : foundCopy (ops.lookup p.store r).1 = .ok copy) (stale : p.isStale r copy = true) :
    ∃ coop j, CallMade p.coop r p.passive p.active coop j ∧
      (p.afterAll ops [.request r, .lookUp p.gets.length, .judge p.gets.length]).afterAll ops
        [.enter p.gets.length, .ask p.fetches.length] =
      { p.lookedUp ops r with coop }.withJob j (match Remote.resolve p.remote r with
        | .error fault => .ended (some (.error fault))
        | .ok url => .waiting copy (OriginRequest.revalidating { url } copy)) := by
  obtain ⟨coop, j, hmade, henter⟩ := enter_withGet (p := p.lookedUp ops r) (r := r)
    (by rw [Cooperation.registered?, show (p.lookedUp ops r).coop.table = [] from free]; rfl) copy
  have hasked : ({ p.lookedUp ops r with coop }.withJob j (.ask copy)).step ops
      (.ask p.fetches.length) = some _ :=
    ask_withJob (q := { p.lookedUp ops r with coop }) (hmade.goesOn 0) copy
  rw [hmade.resource_eq] at hasked
  have hentered : ((p.lookedUp ops r).withGet r (.enter copy)).step ops (.enter p.gets.length) =
      some _ := henter
  refine ⟨coop, j, hmade, ?_⟩
  rw [afterAll_found found, stale, if_pos rfl, afterAll_cons, after_of_some hentered, afterAll_cons,
    after_of_some hasked, afterAll_nil]
  rfl

/-- The answer of the origin comes in after some time. -/
theorem exchange_waiting (ops : StoreOps σ) {w w' : ω} (copy : Option Content) {request : OriginRequest}
    {reply : Except OriginFault Reply} {nanos : Nat} (hreply : origin request w = (reply, nanos, w'))
    (hon : Cooperation.goesOn { q.coop with now := q.coop.now + nanos } j.place = true) :
    (q.withJob j (.waiting copy request)).exchange ops origin w q.fetches.length =
    ({ q with
        coop := { q.coop with now := q.coop.now + nanos }
        streams := (received q.streams reply).2 }.withJob j
      (.answered copy request (received q.streams reply).1), w') := by
  let later : Proxy σ := { q with coop := { q.coop with now := q.coop.now + nanos } }
  have hphase : (q.withJob j (.waiting copy request)).fetches[q.fetches.length]?.map Fetch.phase =
      some (.waiting copy request) := by
    simp [withJob]
  have htick : (q.withJob j (.waiting copy request)).step ops (.tick nanos) =
      some (later.withJob j (.waiting copy request)) := rfl
  have hanswer : (later.withJob j (.waiting copy request)).step ops
      (.answer q.fetches.length reply) = some _ := answer_withJob (q := later) hon copy request reply
  simp only [exchange, hphase, hreply]
  rw [afterAll_cons, after_of_some htick, afterAll_cons, after_of_some hanswer, afterAll_nil]

/-- A get ends once its work has, with the outcome of that. -/
theorem ends_of_ended {w w' : ω} {p₁ p₂ : Proxy σ} (free : p.coop.table = [])
    (hmade : CallMade p.coop r p.passive p.active coop j) (nanos : Nat) {m : σ} {streams : Streams}
    {result : Except Fault (Option Content)}
    (before : (p.afterAll ops [.request r, .lookUp p.gets.length, .judge p.gets.length]).afterAll ops
      [.enter p.gets.length, .ask p.fetches.length] = p₁)
    (during : p₁.exchange ops origin w p.fetches.length = (p₂, w'))
    (ended : p₂.afterAll ops (dealing p.fetches.length) =
      { p with store := m, streams, coop := { coop with now := coop.now + nanos } }.withJob j
        (.ended (some result))) :
    Ends ops origin p w r result m streams (p.coop.now + nanos) w' := by
  let q : Proxy σ := { p with store := m, streams, coop := { coop with now := coop.now + nanos } }
  obtain ⟨s', hclosing, htable, hnow, hcall⟩ :=
    afterAll_closing ops (q := q) hmade free nanos rfl result
  have hreturned : ({ q with coop := s' }.withJob j .closed).getState p.gets.length = _ :=
    getState_withJob (q := { q with coop := s' }) _ hcall
  have hafter : (p₂.afterAll ops (dealing p.fetches.length)).afterAll ops
      (closing p.gets.length p.fetches.length) = { q with coop := s' }.withJob j .closed := by
    rw [ended]
    exact hclosing
  exact ⟨_, get_eq before during hafter hreturned, hreturned, ⟨htable, rfl, rfl, rfl, rfl, rfl⟩, rfl,
    rfl, hnow.trans (congrArg (· + nanos) hmade.now_eq)⟩

/-- A resource that does not lie below the remote is refused, and nobody is asked. -/
theorem ends_outside (free : p.coop.table = [])
    (found : foundCopy (ops.lookup p.store r).1 = .ok copy) (stale : p.isStale r copy = true)
    {fault : Fault} (outside : Remote.resolve p.remote r = .error fault) (w : ω) :
    Ends ops origin p w r (.error fault) (ops.lookup p.store r).2 p.streams p.coop.now w := by
  obtain ⟨coop, j, hmade, hbefore⟩ := afterAll_stale free found stale
  rw [outside] at hbefore
  let q : Proxy σ := { p.lookedUp ops r with coop }
  let ended := q.withJob j (.ended (some (.error fault)))
  have hidle : ended.exchange ops origin w p.fetches.length = (ended, w) :=
    exchange_of_idle w (by simp [ended, q, withJob, lookedUp])
  exact ends_of_ended free hmade 0 hbefore hidle
    (afterAll_of_none fun e he => step_of_ended (q := q) (hmade.goesOn 0) _ he)

/-- Any other resource is asked for once. -/
theorem ends_asked (free : p.coop.table = [])
    (found : foundCopy (ops.lookup p.store r).1 = .ok copy) (stale : p.isStale r copy = true)
    {url : Url} (below : Remote.resolve p.remote r = .ok url) {w w' : ω}
    {reply : Except OriginFault Reply} {nanos : Nat}
    (replied : origin (OriginRequest.revalidating { url } copy) w = (reply, nanos, w')) :
    Ends ops origin p w r (p.dealt ops r copy url nanos reply).1
      (p.dealt ops r copy url nanos reply).2.1 (p.dealt ops r copy url nanos reply).2.2
      (p.coop.now + nanos) w' := by
  obtain ⟨coop, j, hmade, hbefore⟩ := afterAll_stale free found stale
  rw [below] at hbefore
  have hduring := exchange_waiting ops (q := { p.lookedUp ops r with coop }) copy replied
    (hmade.goesOn nanos)
  let later : Proxy σ := { p.lookedUp ops r with
    coop := { coop with now := coop.now + nanos }
    streams := (received p.streams reply).2 }
  have hstamp : later.stampNow r = p.stampAfter r nanos := by
    rw [stampAfter, ← hmade.now_eq]
    rfl
  have hdealing := afterAll_dealing ops (q := later) (hmade.goesOn nanos) copy
    (OriginRequest.revalidating { url } copy) (received p.streams reply).1
  rw [hmade.resource_eq, hmade.sharing_eq, hstamp] at hdealing
  exact ends_of_ended free hmade nanos hbefore hduring hdealing

end Whole

end PullCache.Proxy
