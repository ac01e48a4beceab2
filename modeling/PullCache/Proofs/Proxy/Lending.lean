import PullCache.Proofs.Proxy.Exclusivity
import PullCache.Proofs.Proxy.Streaming
/-!
# Proofs.Proxy.Lending

Content for any number of readers. While sharing is on, all content that a get can return has its bytes
in memory, if two things hold of the store: what it looks up has its bytes in memory, and what it
answers when it is given content has so too, or is the very content that it was given (`Lends`).

The bytes are those of a copy that the store gave away, or all the bytes of a body that the origin sent
with an answer 200 (`Provided`). A body that is still to be read only promises its bytes, for nobody
knows who reads it first: whoever does gets all of them, or none.
-/

namespace PullCache

variable {σ : Type}

/-! ## Bytes in memory, and bytes to come -/

/-- The content has its bytes in memory, and they have the property. -/
def Content.Holds (P : Bytes → Prop) (c : Content) : Prop :=
  ∃ bytes, c.payload = .buffered bytes ∧ P bytes

/-- What is read from the payload, now or later, has the property. -/
def Payload.Promises (P : Bytes → Prop) (s : Streams) (payload : Payload) : Prop :=
  ∀ s' bytes, s.Later s' → (payload.readAll s').1 = .ok bytes → P bytes

/-- Content can be read again exactly if it lies in memory. -/
theorem Content.isReusable_iff_buffered {c : Content} :
    c.isReusable = true ↔ ∃ bytes, c.payload = .buffered bytes := by
  rw [isReusable]
  cases c.payload <;> simp

namespace Payload.Promises

variable {P Q : Bytes → Prop} {s s' : Streams} {payload : Payload} {c content : Content}

/-- A promise about a payload holds as long as the streams only go on. -/
theorem later (h : payload.Promises P s) (hs : s.Later s') : payload.Promises P s' :=
  fun s'' bytes hs' hread => h s'' bytes (hs.trans hs') hread

/-- Whatever promises more promises this as well. -/
theorem mono (h : payload.Promises P s) (hPQ : ∀ bytes, P bytes → Q bytes) :
    payload.Promises Q s :=
  fun s' bytes hs hread => hPQ bytes (h s' bytes hs hread)

/-- A promise about reusable content is kept by its bytes. -/
theorem holds (h : c.payload.Promises P s) (reusable : c.isReusable = true) : c.Holds P := by
  obtain ⟨bytes, hbytes⟩ := Content.isReusable_iff_buffered.mp reusable
  have hread : (c.payload.readAll s).1 = .ok bytes := by
    rw [hbytes]
    rfl
  exact ⟨bytes, hbytes, h s bytes (.refl s) hread⟩

/-- Content that has been read has the bytes that were promised. -/
theorem holds_of_materialize (h : c.payload.Promises P s)
    (read : (c.materialize s).1 = .ok content) : content.Holds P := by
  obtain ⟨payload, attributes⟩ := c
  cases payload with
  | buffered bytes =>
    cases read
    exact h.holds rfl
  | streaming body =>
    simp only [Content.materialize] at read
    split at read
    · next bytes after hread =>
      cases read
      exact ⟨bytes, rfl, h s bytes (.refl s) (congrArg Prod.fst hread)⟩
    · contradiction

end Payload.Promises

/-- A body promises all its bytes. -/
theorem BodySource.promises_payload (source : BodySource) (s : Streams) :
    (source.payload s).1.Promises (fun bytes => source.bytes? = some bytes)
      (source.payload s).2 := by
  intro s' bytes hlater hread
  cases source with
  | bytes all =>
    cases hread
    rfl
  | chunks list declared =>
    have hopened : s.size < (s.add list).2.size := by
      rw [Streams.size_add]
      exact Nat.lt_succ_self _
    have hadded : (s.add list).2.stream? s.size = some list := Streams.stream?_add_self
    have hread' : ((Payload.streaming ⟨s.size, declared⟩).readAll s').1 = .ok bytes := hread
    rw [Payload.readAll_streaming] at hread'
    obtain hsame | hgone := hlater.streams s.size hopened
    · have hthere : s'.stream? s.size = some list := hsame.trans hadded
      simp only [hthere] at hread'
      rw [bytes?, hread']
      rfl
    · simp only [hgone] at hread'
      contradiction

/-! ## What a store gives away -/

/-- A store that is given content answers with a copy that has its bytes in memory, or with the content
itself, or fails. Whatever it does, it can only take streams, and open new ones. -/
structure StoreOps.HandsBack (ops : StoreOps σ) (m : σ) (s : Streams) (r : Resource) (c : Content) :
    Prop where
  answer : ∀ kept, (ops.store m s r c).1 = .ok kept →
    kept.isReusable = true ∨ kept.payload = c.payload
  streams : s.Later (ops.store m s r c).2.2

namespace Proxy

variable {ops : StoreOps σ} {start p p' q : Proxy σ} {e : ProxyEvent} {events : List ProxyEvent}
  {g i k n : Nat} {fetch : Fetch} {c : Content}

/-- The resource that an event asks the store for. -/
def sought? (p : Proxy σ) : ProxyEvent → Option Resource
  | .lookUp g => p.gets[g]?.map Get.resource
  | .recheck i => p.fetches[i]?.map Fetch.resource
  | _ => none

/-- The content that an event gives the store, and the resource that it is for. -/
def given? (p : Proxy σ) : ProxyEvent → Option (Resource × Content)
  | .stored i => p.fetches[i]?.bind fun fetch => match fetch.phase with
    | .storing _ _ remote => some (fetch.resource, remote)
    | _ => none
  | _ => none

/-- What the store is asked for at an event it has in memory, and what it is given it hands back. -/
structure Lends (ops : StoreOps σ) (p : Proxy σ) (e : ProxyEvent) : Prop where
  lookups : ∀ r c, p.sought? e = some r → (ops.lookup p.store r).1 = .ok (some c) →
    c.isReusable = true
  stores : ∀ r c, p.given? e = some (r, c) → ops.HandsBack p.store p.streams r c

/-- The event at a place of a run, and the state before it. -/
structure Occurs (ops : StoreOps σ) (start : Proxy σ) (events : List ProxyEvent) (k : Nat)
    (p : Proxy σ) (e : ProxyEvent) : Prop where
  event : events[k]? = some e
  before : start.run ops (events.take k) = some p

/-- The store lends at every place of the run. -/
def LendsThroughout (ops : StoreOps σ) (start : Proxy σ) (events : List ProxyEvent) : Prop :=
  ∀ k p e, Occurs ops start events k p e → p.Lends ops e

/-- How bytes for a key come in: the store has them when it is asked for the key, or makes a copy of
what it is given for the key, or they are the whole body of an answer 200. -/
inductive Provided (ops : StoreOps σ) (start : Proxy σ) (events : List ProxyEvent) :
    Key → Bytes → Prop where
  | lookedUp (k : Nat) (p : Proxy σ) (e : ProxyEvent) (r : Resource) (c : Content) (bytes : Bytes)
      (occurs : Occurs ops start events k p e) (sought : p.sought? e = some r)
      (found : (ops.lookup p.store r).1 = .ok (some c)) (payload : c.payload = .buffered bytes) :
    Provided ops start events r.key bytes
  | copied (k : Nat) (p : Proxy σ) (e : ProxyEvent) (r : Resource) (c kept : Content) (bytes : Bytes)
      (occurs : Occurs ops start events k p e) (given : p.given? e = some (r, c))
      (answer : (ops.store p.store p.streams r c).1 = .ok kept)
      (payload : kept.payload = .buffered bytes) :
    Provided ops start events r.key bytes
  | arrived (k : Nat) (p : Proxy σ) (i : Nat) (fetch : Fetch) (reply : Reply) (bytes : Bytes)
      (occurs : Occurs ops start events k p (.answer i (.ok reply)))
      (found : p.fetches[i]? = some fetch) (status : reply.status = 200)
      (body : reply.body.bind BodySource.bytes? = some bytes) :
    Provided ops start events fetch.resource.key bytes

/-! ## Streams are only taken -/

/-- The end of an exchange opens and refills nothing. -/
theorem later_conclude {s : Streams} (h : s.Later p.streams) (i : Nat) (copy : Option Content)
    (response : OriginResponse) (fetched : Except Fault (Option Content)) :
    s.Later (p.conclude i copy response fetched).streams := by
  rw [conclude_eq]
  exact h.trans (.of_takesOnly (Exchange.takesOnly_conclude copy response fetched p.streams))

/-- What the store is given is what the exchange found to keep. -/
theorem given?_stored {copy : Option Content} {response : OriginResponse} {remote : Content}
    (found : p.fetches[i]? = some fetch) (phase : fetch.phase = .storing copy response remote) :
    p.given? (.stored i) = some (fetch.resource, remote) := by
  rw [given?, found, Option.bind_some, phase]

/-- No step alters a stream, if the store does not. -/
theorem later_of_step (h : p.step ops e = some p') (lends : p.Lends ops e) :
    p.streams.Later p'.streams := by
  cases hcalm : isCalm e with
  | true =>
    rw [streams_of_calm h hcalm]
    exact .refl _
  | false =>
    cases e with
    | answer i reply =>
      obtain ⟨fetch, copy, request, -, -, ⟨fault, -, rfl⟩ | ⟨answer, -, rfl⟩⟩ := answer_cases h
      · exact .refl _
      · exact Reply.later_receive answer p.streams
    | handle i =>
      obtain ⟨fetch, copy, request, answer, -, -, ⟨fault, -, rfl⟩ | ⟨response, -, verdict, -,
        ⟨remote, -, rfl⟩ | ⟨known, stamp, -, rfl⟩ | ⟨-, rfl⟩ | ⟨fault, -, rfl⟩⟩⟩ := handle_cases h
      · exact .refl _
      · exact .refl _
      · exact .refl _
      · exact later_conclude (.refl _) ..
      · exact later_conclude (.refl _) ..
    | stored i =>
      obtain ⟨fetch, copy, response, remote, hi, hp, kept, next, -, rfl, hnext⟩ := stored_cases h
      have hgiven := given?_stored (fetch?_eq_some.mp hi).1 hp
      have hlater := (lends.stores fetch.resource remote hgiven).streams
      obtain ⟨fault, -, rfl⟩ | ⟨content, -, ⟨-, rfl⟩ | ⟨-, rfl⟩⟩ := hnext
      · exact later_conclude hlater ..
      · exact hlater
      · exact later_conclude hlater ..
    | copied i =>
      obtain ⟨fetch, copy, response, kept, -, -, next, rfl, hnext⟩ := copied_cases h
      have hlater : p.streams.Later (kept.materialize p.streams).2 :=
        .of_takesOnly (.materialize kept p.streams)
      obtain ⟨content, -, rfl⟩ | ⟨fault, -, rfl⟩ := hnext
      · exact later_conclude hlater ..
      · exact later_conclude hlater ..
    | verified i =>
      obtain ⟨fetch, known, response, stamp, -, -, next, hnext, ⟨done, -, rfl⟩ | ⟨fault, -, rfl⟩⟩ :=
        verified_cases h
      · exact later_conclude (hnext ▸ .refl _) ..
      · exact later_conclude (hnext ▸ .refl _) ..
    | _ => contradiction

/-- An answer opens its body and touches no other stream. -/
theorem streams_of_answer {reply : Reply} (h : p.step ops (.answer i (.ok reply)) = some p') :
    p'.streams = (reply.receive p.streams).2 := by
  have hanswered : p.answer i (.ok reply) = some p' := h
  obtain ⟨fetch, copy, request, -, -, ⟨fault, hfault, -⟩ | ⟨answer, hanswer, rfl⟩⟩ :=
    answer_cases hanswered
  · contradiction
  · cases hanswer
    rfl

end Proxy

/-! ## What gets and fetches have to offer -/

/-- The content that a get has for its client. -/
def GetPhase.content? : GetPhase → Option Content
  | judge copy | enter copy => copy
  | returned (.ok content) => content
  | _ => none

/-- The content that a fetch has to offer: its copy, or what it has ended with. -/
def FetchPhase.content? : FetchPhase → Option Content
  | rejudge copy | ask copy | waiting copy _ | answered copy _ _ => copy
  | storing copy _ _ | copying copy _ _ => copy
  | verifying known _ _ => some known
  | ended (some (.ok content)) => content
  | _ => none

/-- The payload that a fetch is about to keep. -/
def FetchPhase.incoming? : FetchPhase → Option Payload
  | answered _ _ (.ok response) => if response.isOk then response.body else none
  | storing _ _ remote => some remote.payload
  | copying _ _ kept => some kept.payload
  | _ => none

/-- What a finished fetch has in hand is what it came to. -/
theorem FetchPhase.content?_ended {result : Except Fault (Option Content)} {c : Content}
    (h : (ended (some result)).content? = some c) : result = .ok (some c) := by
  cases result with
  | error fault => contradiction
  | ok found => exact congrArg Except.ok h

namespace Proxy

variable {ops : StoreOps σ} {start p p' q : Proxy σ} {e : ProxyEvent} {events : List ProxyEvent}
  {g i k n : Nat} {fetch : Fetch} {c : Content} {P : Key → Bytes → Prop}

/-- Where the content comes from that a fetch has to offer after a step: it had the payload before, or
has looked it up, or the store has answered with it, or it has been read. -/
inductive Offers (ops : StoreOps σ) (p : Proxy σ) (i : Nat) (fetch : Fetch) (c : Content) :
    ProxyEvent → Prop where
  | before {e : ProxyEvent} (old : Content) (held : fetch.phase.content? = some old)
      (payload : c.payload = old.payload) : Offers ops p i fetch c e
  | found (lookup : foundCopy (ops.lookup p.store fetch.resource).1 = .ok (some c)) :
    Offers ops p i fetch c (.recheck i)
  | kept (copy : Option Content) (response : OriginResponse) (remote : Content)
      (phase : fetch.phase = .storing copy response remote)
      (answer : (ops.store p.store p.streams fetch.resource remote).1 = .ok c)
      (shared : (fetch.sharing && c.sharesStream remote) = false) :
    Offers ops p i fetch c (.stored i)
  | read (copy : Option Content) (response : OriginResponse) (kept : Content)
      (phase : fetch.phase = .copying copy response kept)
      (read : (kept.materialize p.streams).1 = .ok c) : Offers ops p i fetch c (.copied i)

/-- Whatever a moving fetch has in hand was offered to it. -/
theorem FetchMove.offers {phase : FetchPhase} (move : FetchMove ops p i fetch e phase)
    (hc : phase.content? = some c) : Offers ops p i fetch c e := by
  cases move with
  | found copy phase lookup =>
    obtain rfl : copy = some c := hc
    exact .found lookup
  | stale copy phase => exact .before c (by rw [phase]; exact hc) rfl
  | fresh copy phase => exact .before c (by rw [phase]; exact hc) rfl
  | sent copy url phase => exact .before c (by rw [phase]; exact hc) rfl
  | unreached copy request fault phase => exact .before c (by rw [phase]; exact hc) rfl
  | reached copy request reply phase => exact .before c (by rw [phase]; exact hc) rfl
  | keep copy request response remote phase => exact .before c (by rw [phase]; exact hc) rfl
  | confirm copy request response known stamp phase verdict =>
    obtain ⟨-, rfl, -⟩ := Exchange.judge_eq_confirm verdict
    exact .before c (by rw [phase]; exact hc) rfl
  | nothing copy request response phase => exact .before c (by rw [phase]; exact hc) rfl
  | unread copy response remote content phase => exact .before c (by rw [phase]; exact hc) rfl
  | degraded copy request fault phase =>
    have hcopy := Exchange.degrade_eq_some (FetchPhase.content?_ended hc)
    exact .before c (by rw [phase]; exact hcopy) rfl
  | fail copy request response fault phase =>
    have hcopy := Exchange.outcome_error_eq_some (FetchPhase.content?_ended hc)
    exact .before c (by rw [phase]; exact hcopy) rfl
  | rejected copy response remote fault phase =>
    have hcopy := Exchange.outcome_error_eq_some (FetchPhase.content?_ended hc)
    exact .before c (by rw [phase]; exact hcopy) rfl
  | unreadable copy response kept fault phase =>
    have hcopy := Exchange.outcome_error_eq_some (FetchPhase.content?_ended hc)
    exact .before c (by rw [phase]; exact hcopy) rfl
  | unnoted known response stamp fault phase =>
    have hcopy := Exchange.outcome_error_eq_some (FetchPhase.content?_ended hc)
    exact .before c (by rw [phase]; exact hcopy) rfl
  | noted known response stamp phase =>
    -- The copy has a new stamp, and the payload it had.
    obtain rfl : known.withStamp stamp = c := Option.some.inj hc
    exact .before known (by rw [phase]; rfl) rfl
  | kept copy response remote content phase answer shared =>
    obtain rfl : content = c := Option.some.inj hc
    exact .kept copy response remote phase answer shared
  | read copy response kept content phase read =>
    obtain rfl : content = c := Option.some.inj hc
    exact .read copy response kept phase read
  | failedLookup | refused | crashed | publish | release | finish => contradiction

/-- All content that can be returned has its bytes in memory, and they are right for its key. Payloads
that are about to be kept promise such bytes. -/
structure Stocked (P : Key → Bytes → Prop) (p : Proxy σ) : Prop where
  matched : Matched p
  sharing : ∀ (i : Nat) (fetch : Fetch), p.fetches[i]? = some fetch → fetch.sharing = true
  gets : ∀ (g : Nat) (get : Get) (c : Content), p.gets[g]? = some get →
    get.phase.content? = some c → c.Holds (P get.resource.key)
  fetches : ∀ (i : Nat) (fetch : Fetch) (c : Content), p.fetches[i]? = some fetch →
    fetch.phase.content? = some c → c.Holds (P fetch.resource.key)
  incoming : ∀ (i : Nat) (fetch : Fetch) (payload : Payload), p.fetches[i]? = some fetch →
    fetch.phase.incoming? = some payload → payload.Promises (P fetch.resource.key) p.streams
  results : p.coop.Reports fun k result => ∀ c, result = .ok (some c) → c.Holds (P k)

/-- With sharing on, the work of a call that comes in is shared. -/
theorem sharing_of_enter (on : p.passive.nanos ≠ 0) (h : p.enter g = some p')
    (hi : p'.fetches[p.fetches.length]? = some fetch) : fetch.sharing = true := by
  obtain ⟨get, cached, -, -, next, rfl, ⟨off, -⟩ | ⟨-, -, rfl⟩ | ⟨-, -, rfl⟩⟩ := enter_cases h
  · exact absurd off on
  · have hlt := (List.getElem?_eq_some_iff.mp hi).1
    exact absurd hlt (Nat.lt_irrefl _)
  · rw [addFetch_fetches, setGet_fetches, List.getElem?_concat_length, Option.some.injEq] at hi
    rw [← hi]

/-- Work that is taken over is always shared. -/
theorem sharing_of_takeOver (h : p.takeOver g = some p')
    (hi : p'.fetches[p.fetches.length]? = some fetch) : fetch.sharing = true := by
  obtain ⟨get, c, coop, -, -, -, ⟨-, rfl⟩ | ⟨-, rfl⟩⟩ := takeOver_cases h
  · rw [addFetch_fetches, List.getElem?_concat_length, Option.some.injEq] at hi
    rw [← hi]
  · have hlt := (List.getElem?_eq_some_iff.mp hi).1
    exact absurd hlt (Nat.lt_irrefl _)

/-- While sharing is on, all fetches are for calls that share. -/
theorem sharing_of_step (on : p.passive.nanos ≠ 0)
    (h : ∀ (i : Nat) (fetch : Fetch), p.fetches[i]? = some fetch → fetch.sharing = true)
    (hstep : p.step ops e = some p') (i : Nat) (fetch : Fetch)
    (hi : p'.fetches[i]? = some fetch) : fetch.sharing = true := by
  obtain hbefore | ⟨rfl, begun⟩ | ⟨before, phase, found, -, rfl⟩ :=
    (step_effect hstep).fetches.before hi
  · exact h i fetch hbefore
  · cases begun with
    | entered g get cached place sharing found phase => exact sharing_of_enter on hstep hi
    | tookOver g place r sharing => exact sharing_of_takeOver hstep hi
  · exact h i before found

/-! ## One step -/

/-- Content that a store gives when it is asked has its bytes in memory. -/
theorem holds_of_lookup {r : Resource} (occurs : Occurs ops start events k p e)
    (lends : p.Lends ops e) (sought : p.sought? e = some r)
    (found : foundCopy (ops.lookup p.store r).1 = .ok (some c)) :
    c.Holds (Provided ops start events r.key) := by
  have hfound := lookup_of_foundCopy found
  have hreusable := lends.lookups r c sought hfound
  obtain ⟨bytes, hbytes⟩ := Content.isReusable_iff_buffered.mp hreusable
  exact ⟨bytes, hbytes, .lookedUp k p e r c bytes occurs sought hfound hbytes⟩

/-- A get that moves holds content that keeps its promise. -/
theorem Stocked.holds_of_getMove (h : Stocked (Provided ops start events) p)
    (occurs : Occurs ops start events k p e) (lends : p.Lends ops e) {get : Get}
    (found : p.gets[g]? = some get) {phase : GetPhase} (move : GetMove ops p g get e phase)
    (hc : phase.content? = some c) : c.Holds (Provided ops start events get.resource.key) := by
  have hget := h.gets g get c found
  cases move with
  | found copy hlookUp lookup =>
    obtain rfl : copy = some c := hc
    have hsought : p.sought? (.lookUp g) = some get.resource := by
      rw [sought?, found, Option.map_some]
    exact holds_of_lookup occurs lends hsought lookup
  | stale cached hjudge verdict =>
    rw [hjudge] at hget
    exact hget hc
  | fresh cached hjudge verdict =>
    rw [hjudge] at hget
    exact hget hc
  | failed | called | dropped => contradiction

/-- Content that the store keeps and that a fetch does not have to read has its bytes in memory. -/
theorem Stocked.holds_of_kept (h : Stocked (Provided ops start events) p)
    (occurs : Occurs ops start events k p (.stored i)) (lends : p.Lends ops (.stored i))
    (found : p.fetches[i]? = some fetch) {copy : Option Content} {response : OriginResponse}
    {remote : Content} (phase : fetch.phase = .storing copy response remote)
    (answer : (ops.store p.store p.streams fetch.resource remote).1 = .ok c)
    (shared : (fetch.sharing && c.sharesStream remote) = false) :
    c.Holds (Provided ops start events fetch.resource.key) := by
  have hgiven := given?_stored found phase
  have hreusable : c.isReusable = true := by
    obtain hreusable | hsame := (lends.stores fetch.resource remote hgiven).answer c answer
    · exact hreusable
    · rw [h.sharing i fetch found, Bool.true_and] at shared
      rw [Content.isReusable_iff]
      cases hbacking : c.payload.backing? with
      | none => rfl
      | some n =>
        have hshares : c.sharesStream remote = true :=
          Payload.sharesStream_iff.mpr ⟨n, hbacking, hsame ▸ hbacking⟩
        rw [hshares] at shared
        contradiction
  obtain ⟨bytes, hbytes⟩ := Content.isReusable_iff_buffered.mp hreusable
  exact ⟨bytes, hbytes, .copied k p (.stored i) _ remote c bytes occurs hgiven answer hbytes⟩

/-- What a fetch has to offer after a step has its bytes in memory. -/
theorem Stocked.holds_of_fetchMove (h : Stocked (Provided ops start events) p)
    (occurs : Occurs ops start events k p e) (lends : p.Lends ops e)
    (found : p.fetches[i]? = some fetch) {phase : FetchPhase}
    (move : FetchMove ops p i fetch e phase) (hc : phase.content? = some c) :
    c.Holds (Provided ops start events fetch.resource.key) := by
  cases move.offers hc with
  | before old held payload =>
    obtain ⟨bytes, hbytes, hprovided⟩ := h.fetches i fetch old found held
    exact ⟨bytes, payload.trans hbytes, hprovided⟩
  | found lookup =>
    have hsought : p.sought? (.recheck i) = some fetch.resource := by
      rw [sought?, found, Option.map_some]
    exact holds_of_lookup occurs lends hsought lookup
  | kept copy response remote before answer shared =>
    exact h.holds_of_kept occurs lends found before answer shared
  | read copy response kept before read =>
    have hincoming : fetch.phase.incoming? = some kept.payload := by
      rw [before]
      rfl
    exact (h.incoming i fetch kept.payload found hincoming).holds_of_materialize read

/-- What a fetch is about to keep after a step promises its bytes. -/
theorem Stocked.promises_of_fetchMove (h : Stocked (Provided ops start events) p)
    (occurs : Occurs ops start events k p e) (lends : p.Lends ops e)
    (hstep : p.step ops e = some p') (found : p.fetches[i]? = some fetch) {phase : FetchPhase}
    (move : FetchMove ops p i fetch e phase) {payload : Payload}
    (hpayload : phase.incoming? = some payload) :
    payload.Promises (Provided ops start events fetch.resource.key) p'.streams := by
  have hlater := later_of_step hstep lends
  have hincoming := fun payload => h.incoming i fetch payload found
  cases move with
  | reached copy request reply before =>
    rw [FetchPhase.incoming?, Option.ite_none_right_eq_some, Reply.body_receive,
      Option.map_eq_some_iff] at hpayload
    obtain ⟨hok, source, hsource, rfl⟩ := hpayload
    rw [OriginResponse.isOk, Reply.status_receive, beq_iff_eq] at hok
    rw [streams_of_answer hstep, Reply.receive_snd, hsource]
    refine (source.promises_payload p.streams).mono fun bytes hbytes => ?_
    have hbody : reply.body.bind BodySource.bytes? = some bytes := by
      rw [hsource, Option.bind_some, hbytes]
    exact .arrived k p i fetch reply bytes occurs found hok hbody
  | keep copy request response remote before verdict =>
    obtain ⟨hok, body, hbody, rfl⟩ := Exchange.judge_eq_keep verdict
    obtain rfl : body = payload := Option.some.inj hpayload
    have hbefore : fetch.phase.incoming? = some body := by
      rw [before, FetchPhase.incoming?, if_pos hok, hbody]
    exact (hincoming body hbefore).later hlater
  | unread copy response remote content before answer shared =>
    obtain rfl : content.payload = payload := Option.some.inj hpayload
    have hgiven := given?_stored found before
    obtain hreusable | hsame := (lends.stores fetch.resource remote hgiven).answer content answer
    · rw [Bool.and_eq_true] at shared
      obtain ⟨n, hbacking, -⟩ := Payload.sharesStream_iff.mp shared.2
      rw [Content.isReusable_iff.mp hreusable] at hbacking
      contradiction
    · have hbefore : fetch.phase.incoming? = some content.payload := by
        rw [before, hsame]
        rfl
      exact (hincoming content.payload hbefore).later hlater
  | _ => contradiction

/-- Every step keeps the promises, if the store lends what it was given. -/
theorem Stocked.step (h : Stocked (Provided ops start events) p) (on : p.passive.nanos ≠ 0)
    {shared : List (CoopEvent (Option Content))}
    (hshared : ({} : Cooperation (Option Content)).run shared = some p.coop)
    (occurs : Occurs ops start events k p e) (lends : p.Lends ops e)
    (hstep : p.step ops e = some p') : Stocked (Provided ops start events) p' where
  matched := h.matched.step hstep
  sharing := sharing_of_step on h.sharing hstep
  gets g get c hg hc := by
    obtain hbefore | ⟨-, hnew⟩ | ⟨before, phase, found, move, rfl⟩ :=
      (step_effect hstep).gets.before hg
    · exact h.gets g get c hbefore hc
    · rw [hnew] at hc
      contradiction
    · have hholds := h.holds_of_getMove occurs lends found move hc
      exact hholds
  fetches i fetch c hi hc := by
    obtain hbefore | ⟨-, begun⟩ | ⟨before, phase, found, move, rfl⟩ :=
      (step_effect hstep).fetches.before hi
    · exact h.fetches i fetch c hbefore hc
    · cases begun with
      | entered g get cached place sharing found phase =>
        exact h.gets g get c found (by rw [phase]; exact hc)
      | tookOver => contradiction
    · have hholds := h.holds_of_fetchMove occurs lends found move hc
      exact hholds
  incoming i fetch payload hi hpayload := by
    obtain hbefore | ⟨-, begun⟩ | ⟨before, phase, found, move, rfl⟩ :=
      (step_effect hstep).fetches.before hi
    · exact (h.incoming i fetch payload hbefore hpayload).later (later_of_step hstep lends)
    · cases begun <;> contradiction
    · have hpromises := h.promises_of_fetchMove occurs lends hstep found move hpayload
      exact hpromises
  results := by
    refine h.matched.reports_step h.results hshared hstep (fun _ _ _ => nofun) ?_
    rintro i fetch _ found phase c rfl
    exact h.fetches i fetch c found (by rw [phase]; rfl)

/-! ## Every run -/

/-- **Lending.** In a run in which sharing is on throughout, over a store that lends throughout, all
content that can be returned has its bytes in memory. -/
theorem stocked_of_run {config : Config} {store : σ} {now : Instant}
    (hnew : Proxy.new config store now = .ok start) (hon : SharesThroughout ops start events)
    (lends : LendsThroughout ops start events) (hn : n ≤ events.length)
    (hrun : start.run ops (events.take n) = some q) : Stocked (Provided ops start events) q := by
  have hcoop := new_coop hnew
  obtain ⟨-, hgets, hfetches, -⟩ := new_eq_ok hnew
  have hstart : Stocked (Provided ops start events) start := by
    constructor
    · exact ⟨by simp [hgets], by simp [hfetches]⟩
    · simp [hfetches]
    · simp [hgets]
    · simp [hfetches]
    · simp [hfetches]
    · rw [hcoop]
      exact ⟨by simp, by simp⟩
  refine (place_induction (I := fun _ q => Stocked (Provided ops start events) q ∧
    ∃ shared, ({} : Cooperation (Option Content)).run shared = some q.coop) rfl ⟨hstart, [], ?_⟩ ?_
    (Nat.zero_le _) hn hrun).1
  · rw [hcoop]
    rfl
  · rintro k p p' e - hevent hp hstep ⟨hstocked, shared, hshared⟩
    have on := hon.on (Nat.le_of_lt (List.getElem?_eq_some_iff.mp hevent).1) hp
    have hoccurs : Occurs ops start events k p e := ⟨hevent, hp⟩
    exact ⟨hstocked.step on hshared hoccurs (lends k p e hoccurs) hstep,
      coop_run_of_step hstep ⟨shared, hshared⟩⟩

/-- What a get has returned has its bytes in memory. -/
theorem Stocked.holds_of_getState (h : Stocked P p) {get : Get} (found : p.gets[g]? = some get)
    (hstate : p.getState g = .returned (.ok (some c))) : c.Holds (P get.resource.key) := by
  obtain ⟨get', found', hreturned | ⟨j, call, hcalled, hcall, hended⟩⟩ :=
    getState_eq_returned.mp hstate
  · obtain rfl : get' = get := Option.some.inj (found'.symm.trans found)
    exact h.gets g get' c found (by rw [hreturned]; rfl)
  · obtain rfl : get' = get := Option.some.inj (found'.symm.trans found)
    obtain ⟨call', hcall', hkey⟩ := h.matched.gets g get' j found hcalled
    obtain rfl : call' = call := Option.some.inj (hcall'.symm.trans hcall)
    exact hkey ▸ h.results.calls j call' _ hcall hended c rfl

end Proxy

end PullCache
