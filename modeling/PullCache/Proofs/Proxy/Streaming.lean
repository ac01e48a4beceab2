import PullCache.Proofs.Lists
import PullCache.Proofs.Proxy.Effect
import PullCache.Proofs.Proxy.Exchange
/-!
# Proofs.Proxy.Streaming

What an event does to the streams. An answer opens at most one stream, for its body, and from then on
the fetch has the answer in hand until it ends. While it goes on with the answer, the store may read the
body, the fetch may read what the store gave back, and at the end the body is settled
(`Finds`, `Work`). No other step touches a stream (`body_step`).
-/

namespace PullCache

namespace FetchPhase

/-- The answer that a fetch has in hand. -/
def response? : FetchPhase → Option OriginResponse
  | answered _ _ (.ok response) => some response
  | storing _ response _ => some response
  | copying _ response _ => some response
  | verifying _ response _ => some response
  | _ => none

/-- The number of the stream that the answer in hand is read from. -/
def backing? (phase : FetchPhase) : Option Nat :=
  phase.response?.bind OriginResponse.backing?

/-- Without an answer in hand there is no body. -/
theorem backing?_of_none {phase : FetchPhase} (h : phase.response? = none) :
    phase.backing? = none := by
  rw [backing?, h]
  rfl

/-- A fetch has an answer in hand in the phases from the answer to the end. -/
theorem rank_of_response {phase : FetchPhase} {response : OriginResponse}
    (h : phase.response? = some response) : 4 ≤ phase.rank ∧ phase.rank < 7 := by
  cases phase with
  | answered copy request answer => simp [rank]
  | storing copy response remote => simp [rank]
  | copying copy response kept => simp [rank]
  | verifying copy response stamp => simp [rank]
  | _ => contradiction

end FetchPhase

namespace Proxy

variable {σ : Type} {ops : StoreOps σ} {p p' : Proxy σ} {i : Nat} {e : ProxyEvent}

/-! ## Going on with an answer -/

/-- How a fetch comes to its end with an answer in hand: the copy, the answer, what was fetched, and the
streams before the body is settled. -/
inductive Finds (ops : StoreOps σ) (p : Proxy σ) (fetch : Fetch) :
    Option Content → OriginResponse → Except Fault (Option Content) → Streams → Prop where
  | nothing (copy : Option Content) (request : OriginRequest) (response : OriginResponse)
      (phase : fetch.phase = .answered copy request (.ok response)) :
    Finds ops p fetch copy response (.ok none) p.streams
  | fail (copy : Option Content) (request : OriginRequest) (response : OriginResponse) (fault : Fault)
      (phase : fetch.phase = .answered copy request (.ok response)) :
    Finds ops p fetch copy response (.error fault) p.streams
  | rejected (copy : Option Content) (response : OriginResponse) (remote : Content)
      (fault : StoreFault) (phase : fetch.phase = .storing copy response remote)
      (kept : (ops.store p.store p.streams fetch.resource remote).1 = .error fault) :
    Finds ops p fetch copy response (.error (.store fault))
      (ops.store p.store p.streams fetch.resource remote).2.2
  | kept (copy : Option Content) (response : OriginResponse) (remote content : Content)
      (phase : fetch.phase = .storing copy response remote)
      (kept : (ops.store p.store p.streams fetch.resource remote).1 = .ok content) :
    Finds ops p fetch copy response (.ok (some content))
      (ops.store p.store p.streams fetch.resource remote).2.2
  | read (copy : Option Content) (response : OriginResponse) (kept content : Content)
      (phase : fetch.phase = .copying copy response kept)
      (read : (kept.materialize p.streams).1 = .ok content) :
    Finds ops p fetch copy response (.ok (some content)) (kept.materialize p.streams).2
  | unreadable (copy : Option Content) (response : OriginResponse) (kept : Content)
      (fault : ReadFault) (phase : fetch.phase = .copying copy response kept)
      (read : (kept.materialize p.streams).1 = .error fault) :
    Finds ops p fetch copy response (.error (.store (.ofRead fault)))
      (kept.materialize p.streams).2
  | noted (known : Content) (response : OriginResponse) (stamp : Stamp)
      (phase : fetch.phase = .verifying known response stamp) :
    Finds ops p fetch (some (known.withStamp stamp)) response (.ok none) p.streams
  | unnoted (known : Content) (response : OriginResponse) (stamp : Stamp) (fault : StoreFault)
      (phase : fetch.phase = .verifying known response stamp) :
    Finds ops p fetch (some known) response (.error (.store fault)) p.streams

/-- How a fetch goes on with an answer in hand: its next phase, and the streams then. -/
inductive Work (ops : StoreOps σ) (p : Proxy σ) (fetch : Fetch) : FetchPhase → Streams → Prop where
  | keep (copy : Option Content) (request : OriginRequest) (response : OriginResponse)
      (remote : Content) (phase : fetch.phase = .answered copy request (.ok response))
      (body : response.body = some remote.payload) :
    Work ops p fetch (.storing copy response remote) p.streams
  | confirm (request : OriginRequest) (response : OriginResponse) (known : Content) (stamp : Stamp)
      (phase : fetch.phase = .answered (some known) request (.ok response)) :
    Work ops p fetch (.verifying known response stamp) p.streams
  | unread (copy : Option Content) (response : OriginResponse) (remote content : Content)
      (phase : fetch.phase = .storing copy response remote)
      (kept : (ops.store p.store p.streams fetch.resource remote).1 = .ok content)
      (shares : content.sharesStream remote = true) :
    Work ops p fetch (.copying copy response content)
      (ops.store p.store p.streams fetch.resource remote).2.2
  | ends (copy : Option Content) (response : OriginResponse)
      (fetched : Except Fault (Option Content)) (s : Streams)
      (finds : Finds ops p fetch copy response fetched s) :
    Work ops p fetch (.ended (some (Exchange.outcome copy fetched)))
      (Exchange.conclude copy response fetched s).2

/-- A fetch that comes to its end with an answer has had it in hand. -/
theorem Finds.response?_eq {fetch : Fetch} {copy : Option Content} {response : OriginResponse}
    {fetched : Except Fault (Option Content)} {s : Streams}
    (h : Finds ops p fetch copy response fetched s) : fetch.phase.response? = some response := by
  cases h <;> simp only [*, FetchPhase.response?]

/-- Work is done with an answer in hand. -/
theorem Work.response? {fetch : Fetch} {next : FetchPhase} {s : Streams}
    (h : Work ops p fetch next s) : ∃ response, fetch.phase.response? = some response := by
  cases h with
  | keep copy request response remote phase body => exact ⟨response, by rw [phase]; rfl⟩
  | confirm request response known stamp phase => exact ⟨response, by rw [phase]; rfl⟩
  | unread copy response remote content phase kept shares => exact ⟨response, by rw [phase]; rfl⟩
  | ends copy response fetched s finds => exact ⟨response, finds.response?_eq⟩

/-! ## Steps -/

/-- A step has nothing to do with the streams, or opens one for an answer, or goes on with an answer. -/
inductive BodyStep (ops : StoreOps σ) (p p' : Proxy σ) : Prop where
  | quiet (streams : p'.streams = p.streams)
      (phases : ∀ (j : Nat) fetch', p'.fetches[j]? = some fetch' → p.fetches[j]? = some fetch' ∨
        fetch'.phase.response? = none ∧ ∀ fetch, p.fetches[j]? = some fetch →
          fetch.phase.response? = none ∧ fetch.phase.rank < fetch'.phase.rank)
  | opened (j : Nat) (fetch : Fetch) (copy : Option Content) (request : OriginRequest)
      (reply : Reply) (found : p.fetches[j]? = some fetch)
      (phase : fetch.phase = .waiting copy request)
      (streams : p'.streams = (reply.receive p.streams).2)
      (fetches : p'.fetches = p.fetches.modify j fun fetch =>
        { fetch with phase := .answered copy request (.ok (reply.receive p.streams).1) })
  | worked (j : Nat) (fetch : Fetch) (next : FetchPhase) (found : p.fetches[j]? = some fetch)
      (work : Work ops p fetch next p'.streams)
      (fetches : p'.fetches = p.fetches.modify j fun fetch => { fetch with phase := next })


/-- A step that moves a fetch which has no answer in hand before or after. -/
theorem quiet_of_move {fetch : Fetch} {next : FetchPhase} (streams : p'.streams = p.streams)
    (found : p.fetches[i]? = some fetch) (before : fetch.phase.response? = none)
    (after : next.response? = none) (forward : fetch.phase.rank < next.rank)
    (fetches : p'.fetches = p.fetches.modify i fun fetch => { fetch with phase := next }) :
    BodyStep ops p p' := by
  refine .quiet streams fun j fetch' hj => ?_
  rw [fetches] at hj
  obtain ⟨rfl, rfl⟩ | ⟨-, hj⟩ := getElem?_modify_cases found hj
  · refine .inr ⟨after, fun first hfirst => ?_⟩
    obtain rfl : fetch = first := Option.some.inj (found.symm.trans hfirst)
    exact ⟨before, forward⟩
  · exact .inl hj

/-- Whether an event has nothing to do with the answer that a fetch has in hand. -/
def isCalm : ProxyEvent → Bool
  | .answer .. | .handle _ | .stored _ | .copied _ | .verified _ => false
  | _ => true

/-- A calm event moves only fetches that have no answer in hand. -/
theorem FetchMove.response?_eq_none {fetch : Fetch} {next : FetchPhase}
    (h : FetchMove ops p i fetch e next) (calm : isCalm e = true) :
    fetch.phase.response? = none ∧ next.response? = none := by
  cases h with
  | found copy phase lookup => exact ⟨by rw [phase]; rfl, rfl⟩
  | failedLookup fault phase lookup => exact ⟨by rw [phase]; rfl, rfl⟩
  | stale copy phase verdict => exact ⟨by rw [phase]; rfl, rfl⟩
  | fresh copy phase verdict => exact ⟨by rw [phase]; rfl, rfl⟩
  | refused copy fault phase resolve => exact ⟨by rw [phase]; rfl, rfl⟩
  | sent copy url phase resolve => exact ⟨by rw [phase]; rfl, rfl⟩
  | crashed copy request phase => exact ⟨by rw [phase]; rfl, rfl⟩
  | publish outcome l phase place => exact ⟨by rw [phase]; rfl, rfl⟩
  | release l phase place => exact ⟨by rw [phase]; rfl, rfl⟩
  | finish outcome c phase place => exact ⟨by rw [phase]; rfl, rfl⟩
  | _ => contradiction

/-- A fetch begins without an answer. -/
theorem FetchStart.response?_eq_none {fetch : Fetch} (h : FetchStart p e fetch) :
    fetch.phase.response? = none := by
  cases h <;> rfl

/-- A calm step leaves the streams and the answers in hand alone. -/
theorem quiet_of_calm (h : FetchStep ops p p' e) (calm : isCalm e = true)
    (streams : p'.streams = p.streams) : BodyStep ops p p' := by
  cases h with
  | same fetches =>
    refine .quiet streams fun j fetch' hj => .inl ?_
    rw [← fetches]
    exact hj
  | added fetch start fetches =>
    refine .quiet streams fun j fetch' hj => ?_
    rw [fetches] at hj
    obtain hj | ⟨rfl, rfl⟩ := getElem?_concat_eq_some.mp hj
    · exact .inl hj
    · refine .inr ⟨start.response?_eq_none, fun first hfirst => ?_⟩
      rw [List.getElem?_eq_none (Nat.le_refl _)] at hfirst
      contradiction
  | move i fetch phase found move fetches =>
    obtain ⟨hbefore, hafter⟩ := move.response?_eq_none calm
    exact quiet_of_move streams found hbefore hafter move.rank_lt fetches

/-- A calm event leaves the streams alone. -/
theorem streams_of_calm (h : p.step ops e = some p') (calm : isCalm e = true) :
    p'.streams = p.streams := by
  cases e with
  | lookUp g => obtain ⟨get, -, -, ⟨copy, -, rfl⟩ | ⟨fault, -, rfl⟩⟩ := lookUp_cases h <;> rfl
  | judge g => obtain ⟨get, cached, -, -, ⟨-, rfl⟩ | ⟨-, rfl⟩⟩ := judge_cases h <;> rfl
  | enter g =>
    obtain ⟨get, cached, -, -, next, rfl, ⟨-, rfl⟩ | ⟨-, -, rfl⟩ | ⟨-, -, rfl⟩⟩ := enter_cases h <;>
      rfl
  | deliver g => obtain ⟨c, coop, -, -, rfl⟩ := callStep_eq_some.mp h; rfl
  | exhaust g => obtain ⟨c, coop, -, -, rfl⟩ := callStep_eq_some.mp h; rfl
  | takeOver g =>
    obtain ⟨get, c, coop, -, -, -, ⟨-, rfl⟩ | ⟨-, rfl⟩⟩ := takeOver_cases h <;> rfl
  | timeOut g => obtain ⟨c, coop, -, -, rfl⟩ := callStep_eq_some.mp h; rfl
  | drop g =>
    obtain ⟨get, -, ⟨-, rfl⟩ | h⟩ := drop_cases h
    · rfl
    · obtain ⟨c, coop, -, -, rfl⟩ := callStep_eq_some.mp h
      rfl
  | recheck i => obtain ⟨fetch, -, -, ⟨copy, -, rfl⟩ | ⟨fault, -, rfl⟩⟩ := recheck_cases h <;> rfl
  | rejudge i => obtain ⟨fetch, copy, -, -, ⟨-, rfl⟩ | ⟨-, rfl⟩⟩ := rejudge_cases h <;> rfl
  | ask i => obtain ⟨fetch, copy, -, -, ⟨fault, -, rfl⟩ | ⟨url, -, rfl⟩⟩ := ask_cases h <;> rfl
  | crash i => obtain ⟨fetch, copy, request, -, -, rfl⟩ := crash_eq_some.mp h; rfl
  | publish i => obtain ⟨fetch, outcome, l, coop, -, -, -, -, rfl⟩ := publish_eq_some.mp h; rfl
  | release i => obtain ⟨fetch, l, coop, -, -, -, -, rfl⟩ := release_eq_some.mp h; rfl
  | finish i => obtain ⟨fetch, outcome, c, coop, -, -, -, -, rfl⟩ := finish_eq_some.mp h; rfl
  | change n => obtain ⟨first, rest, -, rfl⟩ := change_eq_some.mp h; rfl
  | request r => cases h; rfl
  | update remote passive active contentMaxAge metadataMaxAge => cases h; rfl
  | invalidate => cases h; rfl
  | tick nanos => cases h; rfl
  | _ => contradiction

/-- Work that goes on is a step about the body of its own fetch. -/
theorem worked_of_setFetch {q : Proxy σ} {fetch : Fetch} {next : FetchPhase}
    (found : p.fetch? i = some fetch) (hq : q.fetches = p.fetches)
    (work : Work ops p fetch next q.streams) : BodyStep ops p (q.setFetch i next) :=
  .worked i fetch next (fetch?_eq_some.mp found).1 work (by rw [setFetch, hq])

/-- And so is work that ends. -/
theorem worked_of_conclude {q : Proxy σ} {fetch : Fetch} {copy : Option Content}
    {response : OriginResponse} {fetched : Except Fault (Option Content)}
    (found : p.fetch? i = some fetch) (hq : q.fetches = p.fetches)
    (finds : Finds ops p fetch copy response fetched q.streams) :
    BodyStep ops p (q.conclude i copy response fetched) := by
  rw [conclude_eq]
  exact worked_of_setFetch found hq (.ends copy response fetched q.streams finds)

/-- Each step is of one of the three kinds. -/
theorem body_step (h : p.step ops e = some p') : BodyStep ops p p' := by
  cases hcalm : isCalm e with
  | true => exact quiet_of_calm (step_effect h).fetches hcalm (streams_of_calm h hcalm)
  | false =>
    cases e with
    | answer i reply =>
      obtain ⟨fetch, copy, request, hi, hp, ⟨fault, -, rfl⟩ | ⟨answer, -, rfl⟩⟩ := answer_cases h
      · exact quiet_of_move rfl (fetch?_eq_some.mp hi).1 (by rw [hp]; rfl) rfl
          (by rw [hp]; exact Nat.lt_succ_self 3) rfl
      · exact .opened i fetch copy request answer (fetch?_eq_some.mp hi).1 hp rfl rfl
    | handle i =>
      obtain ⟨fetch, copy, request, answer, hi, hp, ⟨fault, rfl, rfl⟩ | ⟨response, rfl, verdict,
        hverdict, ⟨remote, rfl, rfl⟩ | ⟨known, stamp, rfl, rfl⟩ | ⟨rfl, rfl⟩ | ⟨fault, rfl, rfl⟩⟩⟩ :=
        handle_cases h
      · exact quiet_of_move rfl (fetch?_eq_some.mp hi).1 (by rw [hp]; rfl) rfl
          (by rw [hp]; simp [FetchPhase.rank]) rfl
      · obtain ⟨-, body, hbody, rfl⟩ := Exchange.judge_eq_keep hverdict.symm
        exact worked_of_setFetch hi rfl (.keep copy request response _ hp hbody)
      · obtain ⟨-, rfl, -⟩ := Exchange.judge_eq_confirm hverdict.symm
        exact worked_of_setFetch hi rfl (.confirm request response known stamp hp)
      · exact worked_of_conclude hi rfl (.nothing copy request response hp)
      · exact worked_of_conclude hi rfl (.fail copy request response fault hp)
    | stored i =>
      obtain ⟨fetch, copy, response, remote, hi, hp, kept, next, hkept, rfl,
        ⟨fault, rfl, rfl⟩ | ⟨content, rfl, ⟨hshares, rfl⟩ | ⟨-, rfl⟩⟩⟩ := stored_cases h
      · exact worked_of_conclude hi rfl (.rejected copy response remote fault hp hkept.symm)
      · rw [Bool.and_eq_true] at hshares
        exact worked_of_setFetch hi rfl (.unread copy response remote content hp hkept.symm hshares.2)
      · exact worked_of_conclude hi rfl (.kept copy response remote content hp hkept.symm)
    | copied i =>
      obtain ⟨fetch, copy, response, kept, hi, hp, next, rfl, ⟨content, hread, rfl⟩ |
        ⟨fault, hread, rfl⟩⟩ := copied_cases h
      · exact worked_of_conclude hi rfl (.read copy response kept content hp hread)
      · exact worked_of_conclude hi rfl (.unreadable copy response kept fault hp hread)
    | verified i =>
      obtain ⟨fetch, known, response, stamp, hi, hp, next, rfl, ⟨done, -, rfl⟩ | ⟨fault, -, rfl⟩⟩ :=
        verified_cases h
      · exact worked_of_conclude hi rfl (.noted known response stamp hp)
      · exact worked_of_conclude hi rfl (.unnoted known response stamp fault hp)
    | _ => contradiction

end Proxy

end PullCache
