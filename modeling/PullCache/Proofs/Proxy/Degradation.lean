import PullCache.Proofs.Proxy.Course
import PullCache.Proofs.Proxy.Exchange
import PullCache.Proofs.Proxy.Invalidation
import PullCache.Store.Echo
/-!
# Proofs.Proxy.Degradation

Exchanges that fail. The origin may not be reached, or answer with a status that says it cannot serve,
or without the body or the copy that its status speaks of; and the store may fail to take the content,
or to note that the copy is unchanged, or give the content back in a form that cannot be read. A cause
that gives way leaves a get with the old copy as it is, if there is one; any other cause is reported
(`degradation_exact`). An answer that says nothing about the resource leaves the get with what it has.
-/

namespace PullCache

/-! ## Causes -/

/-- Why an exchange with the origin fails. -/
inductive Cause where
  /-- No answer came back. -/
  | unreached (fault : OriginFault)
  /-- The status says that the origin cannot serve. -/
  | status (status : Nat)
  /-- The status speaks of a body, and there is none. -/
  | noBody
  /-- The status speaks of a copy, and there is none. -/
  | noCopy
  | store (fault : StoreFault)

namespace Cause

/-- The fault that a client gets to see, after a request for an address. -/
def fault (url : Url) : Cause → Fault
  | unreached fault => .ofOrigin fault
  | status n => .originStatus n url.text
  | noBody => .invalidResponse (url.text ++ " returned 200 without a body")
  | noCopy => .invalidResponse (url.text ++ " returned 304 for an unconditional request")
  | store fault => .store fault

/-- An old copy may stand in: the transport failed, or the remote is blocked, or the origin cannot serve,
or the store failed for another reason than the content. -/
inductive GivesWay : Cause → Prop where
  | transient (url reason : String) : GivesWay (.unreached (.transient url reason))
  | blocked (remote : String) (till : Instant) : GivesWay (.unreached (.blocked remote till))
  | status (n : Nat) : GivesWay (.status n)
  | store (fault : StoreFault) (other : ∀ reason, fault ≠ .invalidContent reason) :
    GivesWay (.store fault)

/-- Which faults let an old copy be served, by their cause. -/
theorem isDegradable_iff (cause : Cause) (url : Url) :
    (cause.fault url).isDegradable = true ↔ cause.GivesWay := by
  constructor
  · intro h
    cases cause with
    | unreached fault =>
      cases fault with
      | transient url reason => exact .transient url reason
      | blocked remote till => exact .blocked remote till
      | invalidRequest reason => contradiction
    | status n => exact .status n
    | noBody => contradiction
    | noCopy => contradiction
    | store fault =>
      refine .store fault ?_
      rintro reason rfl
      contradiction
  · intro h
    cases h with
    | transient url reason => rfl
    | blocked remote till => rfl
    | status n => rfl
    | store fault other =>
      cases fault with
      | missingBlob path blob => rfl
      | io reason => rfl
      | invalidContent reason => exact absurd rfl (other reason)

end Cause

/-- A result after an exchange has failed: the copy as it is if there is one and the cause gives way, and
the fault otherwise. -/
structure Degrades (url : Url) (copy : Option Content) (cause : Cause)
    (result : Except Fault (Option Content)) : Prop where
  served : ∀ c, result = .ok (some c) ↔ copy = some c ∧ cause.GivesWay
  reported : copy = none ∨ ¬ cause.GivesWay → result = .error (cause.fault url)

/-- A fault comes to the copy if there is one and the cause gives way to it, and is passed on
otherwise. -/
theorem degrades_degrade (url : Url) (copy : Option Content) (cause : Cause) :
    Degrades url copy cause (Exchange.degrade copy (cause.fault url)) := by
  have hcause := cause.isDegradable_iff url
  unfold Exchange.degrade
  cases hgives : (cause.fault url).isDegradable with
  | false =>
    have hstays : ¬ cause.GivesWay := by
      rw [← hcause, hgives]
      exact Bool.false_ne_true
    exact ⟨fun c => ⟨nofun, fun h => absurd h.2 hstays⟩, fun _ => rfl⟩
  | true =>
    have hway : cause.GivesWay := hcause.mp hgives
    cases copy with
    | none => exact ⟨fun c => ⟨nofun, fun h => nomatch h.1⟩, fun _ => rfl⟩
    | some c =>
      refine ⟨fun c' => ?_, fun h => ?_⟩
      · simp [hway]
      · obtain h | h := h
        · contradiction
        · contradiction

/-! ## Answers -/

namespace Reply

/-- The origin refuses, or cannot serve. -/
def IsDefinitiveFailure (reply : Reply) : Prop :=
  reply.status = 401 ∨ reply.status = 402 ∨ reply.status = 407 ∨ 500 ≤ reply.status

/-- The origin has nothing to say about the resource. -/
structure SaysNothing (reply : Reply) : Prop where
  ok : reply.status ≠ 200
  notModified : reply.status ≠ 304
  failure : ¬ reply.IsDefinitiveFailure

/-- The content of an answer as the store is given it, with the body opened. -/
def offered (reply : Reply) (body : Payload) (stamp : Stamp) : Content :=
  ⟨body, ⟨reply.lastModified, reply.etag, reply.contentType, some stamp⟩⟩

end Reply

namespace Exchange

variable {reply : Reply} {s : Streams} {request : OriginRequest} {copy : Option Content}
  {stamp : Stamp}

/-- A body with status 200 is to be kept. -/
theorem judge_ok {source : BodySource} (ok : reply.status = 200) (body : reply.body = some source) :
    judge request (reply.receive s).1 copy stamp =
      .keep (reply.offered (source.payload s).1 stamp) := by
  simp [judge, Reply.receive, body, OriginResponse.isOk, ok, contentOf, Reply.offered]

/-- Status 200 without a body is a fault. -/
theorem judge_ok_of_none (ok : reply.status = 200) (body : reply.body = none) :
    judge request (reply.receive s).1 copy stamp = .fail (Cause.noBody.fault request.url) := by
  simp [judge, Reply.receive, body, OriginResponse.isOk, ok, Cause.fault]

/-- Status 304 confirms the copy. -/
theorem judge_notModified {known : Content} (notModified : reply.status = 304) :
    judge request (reply.receive s).1 (some known) stamp = .confirm known stamp := by
  simp [judge, OriginResponse.isOk, OriginResponse.isNotModified, notModified]

/-- Status 304 without a copy is a fault. -/
theorem judge_notModified_of_none (notModified : reply.status = 304) :
    judge request (reply.receive s).1 none stamp = .fail (Cause.noCopy.fault request.url) := by
  simp [judge, OriginResponse.isOk, OriginResponse.isNotModified, notModified, Cause.fault]

/-- A status that settles the matter is a fault. -/
theorem judge_definitive (failure : reply.IsDefinitiveFailure) :
    judge request (reply.receive s).1 copy stamp =
      .fail ((Cause.status reply.status).fault request.url) := by
  have hok : reply.status ≠ 200 := by rw [Reply.IsDefinitiveFailure] at failure; omega
  have hmodified : reply.status ≠ 304 := by rw [Reply.IsDefinitiveFailure] at failure; omega
  have hfailure : (reply.receive s).1.isDefinitiveFailure = true := by
    simpa [OriginResponse.isDefinitiveFailure, Reply.IsDefinitiveFailure, or_assoc] using failure
  simp [judge, OriginResponse.isOk, OriginResponse.isNotModified, hok, hmodified, hfailure,
    Cause.fault]

/-- The remaining statuses say nothing about the resource. -/
theorem judge_nothing (nothing : reply.SaysNothing) :
    judge request (reply.receive s).1 copy stamp = .nothing := by
  have hfailure : (reply.receive s).1.isDefinitiveFailure = false := by
    simpa [OriginResponse.isDefinitiveFailure, Reply.IsDefinitiveFailure, and_assoc] using
      nothing.failure
  simp [judge, OriginResponse.isOk, OriginResponse.isNotModified, nothing.ok, nothing.notModified,
    hfailure]

end Exchange

/-! ## Exchanges that fail -/

/-- A store that is given content for a resource leaves a stream alone that does not back it. -/
def StoreOps.Spares {σ : Type} (ops : StoreOps σ) (r : Resource) (n : Nat) : Prop :=
  ∀ m s c, c.payload.backing? ≠ some n → (ops.store m s r c).2.2.stream? n = s.stream? n

namespace Proxy

variable {σ ω : Type} {ops : StoreOps σ} {p : Proxy σ} {r : Resource} {copy : Option Content}
  {url : Url} {nanos : Nat} {reply : Except OriginFault Reply} {cause : Cause}

/-- What the store makes of the body of an answer that has come after some time. -/
def keeping (ops : StoreOps σ) (p : Proxy σ) (r : Resource) (nanos : Nat) (answer : Reply)
    (source : BodySource) : Except StoreFault Content × σ × Streams :=
  ops.store (ops.lookup p.store r).2 (source.payload p.streams).2 r
    (answer.offered (source.payload p.streams).1 (p.stampAfter r nanos))

/-- The ways in which an exchange about a copy fails, given the reply and the time it took. -/
inductive Fails (ops : StoreOps σ) (p : Proxy σ) (r : Resource) (copy : Option Content)
    (nanos : Nat) : Except OriginFault Reply → Cause → Prop where
  | unreached (fault : OriginFault) : Fails ops p r copy nanos (.error fault) (.unreached fault)
  | status (answer : Reply) (failure : answer.IsDefinitiveFailure) :
    Fails ops p r copy nanos (.ok answer) (.status answer.status)
  | noBody (answer : Reply) (ok : answer.status = 200) (body : answer.body = none) :
    Fails ops p r copy nanos (.ok answer) .noBody
  | noCopy (answer : Reply) (notModified : answer.status = 304) (unknown : copy = none) :
    Fails ops p r copy nanos (.ok answer) .noCopy
  | notStored (answer : Reply) (source : BodySource) (fault : StoreFault)
    (ok : answer.status = 200) (body : answer.body = some source)
    (failed : (p.keeping ops r nanos answer source).1 = .error fault) :
    Fails ops p r copy nanos (.ok answer) (.store fault)
  /-- The store gives back the body of the answer for several readers, and it cannot be read. -/
  | notRead (answer : Reply) (source : BodySource) (kept : Content) (fault : ReadFault)
    (ok : answer.status = 200) (body : answer.body = some source)
    (shared : p.cooperates = true) (taken : (p.keeping ops r nanos answer source).1 = .ok kept)
    (unread : kept.payload.sharesStream (source.payload p.streams).1 = true)
    (failed : (kept.materialize (p.keeping ops r nanos answer source).2.2).1 = .error fault) :
    Fails ops p r copy nanos (.ok answer) (.store (.ofRead fault))
  | notVerified (answer : Reply) (known : Content) (fault : StoreFault)
    (notModified : answer.status = 304) (copied : copy = some known)
    (failed : (ops.verify (ops.lookup p.store r).2 r (p.stampAfter r nanos)).1 = .error fault) :
    Fails ops p r copy nanos (.ok answer) (.store fault)

/-- What acting on an answer brings. -/
abbrev broughtBy (ops : StoreOps σ) (p : Proxy σ) (r : Resource) (copy : Option Content) (url : Url)
    (nanos : Nat) (answer : Reply) : Brought σ :=
  actOn ops p.cooperates (ops.lookup p.store r).2 (answer.receive p.streams).2 r copy
    (Exchange.judge (OriginRequest.revalidating { url } copy) (answer.receive p.streams).1 copy
      (p.stampAfter r nanos))

/-- An exchange that fails leaves the copy, and brings the fault. -/
theorem brought_of_fails {answer : Reply} (url : Url)
    (h : Fails ops p r copy nanos (.ok answer) cause) :
    (p.broughtBy ops r copy url nanos answer).copy = copy ∧
      (p.broughtBy ops r copy url nanos answer).fetched = .error (cause.fault url) := by
  have hurl : (OriginRequest.revalidating { url } copy).url = url := OriginRequest.url_revalidating _ _
  cases h with
  | status _ failure =>
    rw [broughtBy, Exchange.judge_definitive failure, hurl]
    exact ⟨rfl, rfl⟩
  | noBody _ ok body =>
    rw [broughtBy, Exchange.judge_ok_of_none ok body, hurl]
    exact ⟨rfl, rfl⟩
  | noCopy _ notModified unknown =>
    subst unknown
    rw [broughtBy, Exchange.judge_notModified_of_none notModified, hurl]
    exact ⟨rfl, rfl⟩
  | notStored _ source fault ok body failed =>
    have hstreams : (answer.receive p.streams).2 = (source.payload p.streams).2 := by
      rw [Reply.receive_snd, body]
      rfl
    rw [broughtBy, Exchange.judge_ok ok body, hstreams, actOn]
    rw [keeping] at failed
    rw [failed]
    exact ⟨rfl, rfl⟩
  | notRead _ source kept fault ok body shared taken unread failed =>
    have hstreams : (answer.receive p.streams).2 = (source.payload p.streams).2 := by
      rw [Reply.receive_snd, body]
      rfl
    rw [broughtBy, Exchange.judge_ok ok body, hstreams, actOn, shared]
    rw [keeping] at taken failed
    have hshares : kept.sharesStream (answer.offered (source.payload p.streams).1
        (p.stampAfter r nanos)) = true := unread
    refine ⟨rfl, ?_⟩
    dsimp only
    rw [taken, lent, hshares, Bool.and_self, if_pos rfl, failed]
    rfl
  | notVerified _ known fault notModified copied failed =>
    subst copied
    rw [broughtBy, Exchange.judge_notModified notModified, actOn]
    split
    · next hdone =>
      rw [hdone] at failed
      contradiction
    · next hdone =>
      rw [hdone] at failed
      cases failed
      exact ⟨rfl, rfl⟩

/-- A get that asks has the outcome of what the answer brings. -/
theorem dealt_ok (answer : Reply) : p.dealt ops r copy url nanos (.ok answer) =
    (Exchange.outcome (p.broughtBy ops r copy url nanos answer).copy
        (p.broughtBy ops r copy url nanos answer).fetched,
      (p.broughtBy ops r copy url nanos answer).store,
      (Exchange.conclude (p.broughtBy ops r copy url nanos answer).copy
        (answer.receive p.streams).1 (p.broughtBy ops r copy url nanos answer).fetched
        (p.broughtBy ops r copy url nanos answer).streams).2) := rfl

/-- A get whose question fails comes to what its cause allows. -/
theorem degrades_of_fails (h : Fails ops p r copy nanos reply cause) :
    Degrades url copy cause (p.dealt ops r copy url nanos reply).1 := by
  cases reply with
  | error fault =>
    cases h
    exact degrades_degrade url copy (.unreached fault)
  | ok answer =>
    obtain ⟨hcopy, hfetched⟩ := brought_of_fails url h
    rw [dealt_ok, hcopy, hfetched]
    exact degrades_degrade url copy cause

/-- An answer that says nothing leaves the get with the copy that it had. -/
theorem dealt_of_nothing {answer : Reply} (h : answer.SaysNothing) :
    (p.dealt ops r copy url nanos (.ok answer)).1 = .ok copy := by
  rw [dealt_ok, broughtBy, Exchange.judge_nothing h]
  rfl

/-! ## Streams that were there before -/

variable {n : Nat}

/-- Lending content out takes at most the stream behind it. -/
theorem takesOnly_lent (sharing : Bool) (remote : Content) (kept : Except StoreFault Content)
    (s : Streams) : s.TakesOnly remote.payload.backing? (lent sharing remote kept s).2 := by
  cases kept with
  | error fault => exact .refl s _
  | ok content =>
    rw [lent]
    split
    · next hshares =>
      rw [Bool.and_eq_true] at hshares
      obtain ⟨k, hcontent, hremote⟩ := Payload.sharesStream_iff.mp hshares.2
      rw [hremote, ← hcontent]
      exact .materialize content s
    · exact .refl s _

/-- Acting on an answer spares the streams that the store spares. -/
theorem stream?_actOn {sharing : Bool} {m : σ} {s : Streams} {verdict : Exchange.Verdict}
    (spares : ops.Spares r n)
    (h : ∀ remote, verdict = .keep remote → remote.payload.backing? ≠ some n) :
    (actOn ops sharing m s r copy verdict).streams.stream? n = s.stream? n := by
  cases verdict with
  | keep remote =>
    exact ((takesOnly_lent _ remote _ _).stream?_of_ne (h remote rfl)).trans
      (spares m s remote (h remote rfl))
  | confirm known stamp =>
    rw [actOn]
    split <;> rfl
  | nothing => rfl
  | fail fault => rfl

/-- A get that asks leaves the streams alone that were there before, if the store does. -/
theorem stream?_dealt (hn : n < p.streams.size) (spares : ops.Spares r n) :
    (p.dealt ops r copy url nanos reply).2.2.stream? n = p.streams.stream? n := by
  cases reply with
  | error fault => rfl
  | ok answer =>
    have hbacking : (answer.receive p.streams).1.backing? ≠ some n := by
      intro hbacking
      have hlast := (Reply.backing?_receive hbacking).1
      omega
    rw [dealt_ok, (Exchange.takesOnly_conclude ..).stream?_of_ne hbacking, broughtBy,
      stream?_actOn spares, Reply.stream?_receive (by omega)]
    intro remote hverdict
    obtain ⟨-, body, hbody, rfl⟩ := Exchange.judge_eq_keep hverdict
    rw [OriginResponse.backing?, hbody] at hbacking
    exact hbacking

/-! ## The store in memory -/

/-- A store in memory keeps the bytes of an answer, or refuses it and stays as it is. -/
theorem keeping_cases (p : Proxy MemoryStore) (r : Resource) (nanos : Nat) (answer : Reply)
    (source : BodySource) :
    (∃ bytes attributes, (p.keeping MemoryStore.ops r nanos answer source).1 =
      .ok ⟨.buffered bytes, attributes⟩) ∨
    (∃ fault, (p.keeping MemoryStore.ops r nanos answer source).1 = .error fault) ∧
      (p.keeping MemoryStore.ops r nanos answer source).2.1 = p.store := by
  obtain ⟨bytes, -, hkept, -⟩ | hrefused :=
    MemoryStore.store_cases p.store (source.payload p.streams).2 r
      (answer.offered (source.payload p.streams).1 (p.stampAfter r nanos))
  · exact .inl ⟨bytes, _, hkept⟩
  · exact .inr hrefused

/-- An exchange that fails leaves a store in memory as it is, and so does an answer that says
nothing. -/
theorem store_dealt {p : Proxy MemoryStore}
    (h : (∃ cause, Fails MemoryStore.ops p r copy nanos reply cause) ∨
      ∃ answer, reply = .ok answer ∧ answer.SaysNothing) :
    (p.dealt MemoryStore.ops r copy url nanos reply).2.1 = p.store := by
  obtain ⟨cause, h⟩ | ⟨answer, rfl, h⟩ := h
  · cases h with
    | unreached fault => rfl
    | status answer failure => rw [dealt_ok, broughtBy, Exchange.judge_definitive failure]; rfl
    | noBody answer ok body => rw [dealt_ok, broughtBy, Exchange.judge_ok_of_none ok body]; rfl
    | noCopy answer notModified unknown =>
      subst unknown
      rw [dealt_ok, broughtBy, Exchange.judge_notModified_of_none notModified]
      rfl
    | notStored answer source fault ok body failed =>
      obtain ⟨bytes, _, hkept⟩ | ⟨-, hsame⟩ := p.keeping_cases r nanos answer source
      · rw [hkept] at failed
        contradiction
      · rw [dealt_ok, broughtBy, Exchange.judge_ok ok body, Reply.receive_snd, body]
        exact hsame
    | notRead answer source kept fault ok body shared taken unread failed =>
      obtain ⟨bytes, _, hkept⟩ | ⟨⟨fault, hkept⟩, -⟩ := p.keeping_cases r nanos answer source
      · rw [hkept] at taken
        cases taken
        contradiction
      · rw [hkept] at taken
        contradiction
    | notVerified answer known fault notModified copied failed => contradiction
  · rw [dealt_ok, broughtBy, Exchange.judge_nothing h]
    rfl

/-! ## Degradation -/

/-- A get that nobody disturbs has found a copy that is not fresh, or none, and asks the origin, which
replies after some time. -/
structure AsksAlone (ops : StoreOps σ) (origin : OriginRequest → ω → Except OriginFault Reply × Nat × ω)
    (p : Proxy σ) (w : ω) (r : Resource) (copy : Option Content) (url : Url)
    (reply : Except OriginFault Reply) (nanos : Nat) (w' : ω) : Prop where
  free : p.coop.table = []
  found : foundCopy (ops.lookup p.store r).1 = .ok copy
  stale : p.isStale r copy = true
  below : Remote.resolve p.remote r = .ok url
  replied : origin (OriginRequest.revalidating { url } copy) w = (reply, nanos, w')

/-- **Degradation.** A get alone that asks the origin, whether gets share work or not.

* Over any store, if the exchange fails, the get returns the copy it had, as it was, if there is one and
  the cause gives way, and otherwise it reports the cause. If the answer says nothing about the
  resource, it returns the copy or that there is none. Streams that were there before are as they were,
  if the store leaves them alone.
* A store in memory is as it was after every such exchange. -/
theorem degradation_exact {origin : OriginRequest → ω → Except OriginFault Reply × Nat × ω}
    {w w' : ω} :
    (∀ {σ : Type} {ops : StoreOps σ} {p : Proxy σ},
      p.AsksAlone ops origin w r copy url reply nanos w' →
      ∃ result q, p.get ops origin w r = (result, q, w') ∧
        q.getState p.gets.length = .returned result ∧
        (∀ cause, Fails ops p r copy nanos reply cause → Degrades url copy cause result) ∧
        (∀ answer, reply = .ok answer → answer.SaysNothing → result = .ok copy) ∧
        ∀ n < p.streams.size, ops.Spares r n → q.streams.stream? n = p.streams.stream? n) ∧
    (∀ {p : Proxy MemoryStore}, p.AsksAlone MemoryStore.ops origin w r copy url reply nanos w' →
      ((∃ cause, Fails MemoryStore.ops p r copy nanos reply cause) ∨
        ∃ answer, reply = .ok answer ∧ answer.SaysNothing) →
      (p.get MemoryStore.ops origin w r).2.1.store = p.store) := by
  constructor
  · intro σ ops p h
    obtain ⟨q, hget, hreturned, -, -, hstreams, -⟩ :=
      ends_asked h.free h.found h.stale h.below h.replied
    refine ⟨_, q, hget, hreturned, fun cause hfails => degrades_of_fails hfails, ?_, ?_⟩
    · rintro answer rfl hnothing
      exact dealt_of_nothing hnothing
    · intro n hn hspares
      rw [hstreams]
      exact stream?_dealt hn hspares
  · intro p h hnothing
    obtain ⟨q, hget, -, -, hstore, -, -⟩ := ends_asked h.free h.found h.stale h.below h.replied
    rw [hget, hstore]
    exact store_dealt hnothing

/-- A day and an hour after a copy of the jar was fetched. -/
def dayOld {σ : Type} (store : σ) : Proxy σ :=
  { oldStart with store, origin := .ofMillis 90000000 }

def jarUrl : Url := { oldRemote with path := .segments ["repo", "a.jar"] }

/-- An origin that cannot serve. -/
def failing (_ : OriginRequest) (_ : Unit) : Except OriginFault Reply × Nat × Unit :=
  (.ok { status := 503, body := some (.chunks [.data [2]] none) }, 0, ())

/-- The jar that was confirmed a day ago is stale. -/
theorem isStale_dayOld {σ : Type} (store : σ) :
    (dayOld store).isStale jar (some (served [1] 0)) = true := by
  have hstale : (dayOld ()).isStale jar (some (served [1] 0)) = true := by decide
  exact hstale

theorem dayOld_asks {σ : Type} (ops : StoreOps σ) (store : σ)
    (found : foundCopy (ops.lookup store jar).1 = .ok (some (served [1] 0))) :
    (dayOld store).AsksAlone ops failing () jar (some (served [1] 0)) jarUrl
      (.ok { status := 503, body := some (.chunks [.data [2]] none) }) 0 () where
  free := rfl
  found := found
  stale := isStale_dayOld store
  below := rfl
  replied := rfl

/-- The old copy is served as it is, and a store in memory keeps it. -/
theorem dayOld_degrades :
    (((dayOld ⟨[(jar.key, served [1] 0)]⟩).get EchoStore.ops failing () jar).1 =
      .ok (some (served [1] 0))) ∧
    ((dayOld ⟨[(jar.key, ⟨0, (served [1] 0).attributes⟩)], [(0, [1])], 1, 1000⟩).get MemoryStore.ops
      failing () jar).2.1.store =
        ⟨[(jar.key, ⟨0, (served [1] 0).attributes⟩)], [(0, [1])], 1, 1000⟩ := by
  constructor
  · obtain ⟨result, q, hget, -, hfails, -⟩ :=
      degradation_exact.1 (dayOld_asks EchoStore.ops ⟨[(jar.key, served [1] 0)]⟩ rfl)
    have hdegrades := hfails _ (.status _ (by simp [Reply.IsDefinitiveFailure]))
    rw [hget]
    exact (hdegrades.served _).mpr ⟨rfl, .status 503⟩
  · have hasks := dayOld_asks MemoryStore.ops
      ⟨[(jar.key, ⟨0, (served [1] 0).attributes⟩)], [(0, [1])], 1, 1000⟩ rfl
    exact degradation_exact.2 hasks (.inl ⟨_, .status _ (by simp [Reply.IsDefinitiveFailure])⟩)

end Proxy

end PullCache
