import PullCache.Proofs.Cooperation.Outcome
import PullCache.Proofs.Proxy.Attribution
/-!
# Proofs.Proxy.Flow

Where content goes. It comes into a proxy with an answer 200 and in no other way. From there it goes
to the store, to the gets that look it up, with the requests that ask about it, and by way of the
calls that share work to every get that waits. Its bytes are read on the way and it gets new stamps,
but what the origin said about it stays. So whatever is true of what the answers 200 say, each for
the key that was asked for, is true of all content anywhere (`flow_of_run`).
-/

namespace PullCache

/-! ## What the origin said -/

/-- What the origin said about content, without the stamp. -/
def Content.said (c : Content) : Attributes :=
  { c.attributes with stamp := none }

def OriginResponse.said (r : OriginResponse) : Attributes :=
  { lastModified := r.lastModified, etag := r.etag, contentType := r.contentType }

def Reply.said (r : Reply) : Attributes :=
  { lastModified := r.lastModified, etag := r.etag, contentType := r.contentType }

/-- What an answer says does not change when it is received. -/
theorem Reply.said_receive (r : Reply) (s : Streams) : (r.receive s).1.said = r.said := by
  unfold receive
  cases r.body <;> rfl

theorem Reply.isOk_receive (r : Reply) (s : Streams) : (r.receive s).1.isOk = (r.status == 200) := by
  unfold receive
  cases r.body <;> rfl

/-- Reading content does not change what was said about it. -/
theorem Content.said_of_materialize {c content : Content} {s : Streams}
    (h : (c.materialize s).1 = .ok content) : content.said = c.said := by
  obtain ⟨payload, attributes⟩ := c
  cases payload with
  | buffered bytes =>
    cases h
    rfl
  | streaming body =>
    simp only [materialize] at h
    split at h
    · cases h
      rfl
    · contradiction

/-! ## What gets, fetches and results have -/

section Carrying

variable {P : Attributes → Prop}

/-- The content of a result, if there is any, is as the origin said. -/
def Tells (P : Attributes → Prop) : Except Fault (Option Content) → Prop
  | .ok (some c) => P c.said
  | _ => True

def GetPhase.Carries (P : Attributes → Prop) : GetPhase → Prop
  | judge copy | enter copy => Tells P (.ok copy)
  | returned result => Tells P result
  | _ => True

def FetchPhase.Carries (P : Attributes → Prop) : FetchPhase → Prop
  | rejudge copy | ask copy | waiting copy _ => Tells P (.ok copy)
  | answered copy _ answer => Tells P (.ok copy) ∧
    ∀ response, answer = .ok response → response.isOk = true → P response.said
  | storing copy _ content | copying copy _ content => Tells P (.ok copy) ∧ P content.said
  | verifying copy _ _ => P copy.said
  | ended outcome => ∀ result, outcome = some result → Tells P result
  | _ => True

/-- A copy that tells what it should still does when it is fallen back on. -/
theorem tells_degrade {copy : Option Content} (h : Tells P (.ok copy)) (fault : Fault) :
    Tells P (Exchange.degrade copy fault) := by
  unfold Exchange.degrade
  split
  · cases copy with
    | none => trivial
    | some c => exact h
  · trivial

/-- An exchange tells what its copy and its answer tell. -/
theorem tells_outcome {copy : Option Content} {fetched : Except Fault (Option Content)}
    (hcopy : Tells P (.ok copy)) (hfetched : Tells P fetched) :
    Tells P (Exchange.outcome copy fetched) := by
  unfold Exchange.outcome
  split
  · exact hfetched
  · exact hcopy
  · exact tells_degrade hcopy _

/-- A fetch that ended carries its result. -/
theorem carries_ended {result : Except Fault (Option Content)} (h : Tells P result) :
    (FetchPhase.ended (some result)).Carries P := by
  rintro _ ⟨⟩
  exact h

end Carrying

namespace Proxy

variable {σ : Type} {ops : StoreOps σ} {p p' : Proxy σ} {g i : Nat} {e : ProxyEvent}

/-! ## Works and calls are for the right keys -/

/-- The call is one for the key. -/
def IsCallFor (s : Cooperation (Option Content)) (c : Nat) (k : Key) : Prop :=
  ∃ call, s.calls[c]? = some call ∧ call.key = k

/-- The work is one for the key. -/
def IsWorkFor (s : Cooperation (Option Content)) (k : Key) : WorkPlace → Prop
  | .lease l => s.IsFor l k
  | .call c => IsCallFor s c k

/-- Gets wait as calls for their keys, and fetches do works for theirs. -/
structure Matched (p : Proxy σ) : Prop where
  gets : ∀ (g : Nat) (get : Get) (c : Nat), p.gets[g]? = some get → get.phase = .called c →
    IsCallFor p.coop c get.resource.key
  fetches : ∀ (i : Nat) (fetch : Fetch), p.fetches[i]? = some fetch →
    IsWorkFor p.coop fetch.resource.key fetch.place

/-- A call stays the call of its key. -/
theorem isCallFor_of_step {c : Nat} {k : Key} (h : p.step ops e = some p')
    (hc : IsCallFor p.coop c k) : IsCallFor p'.coop c k := by
  obtain hsame | ⟨event, -, hstep⟩ := coop_of_step h
  · rwa [hsame]
  · obtain ⟨call, hcall, hkey⟩ := hc
    obtain ⟨phase, hcall', -⟩ := Cooperation.call_of_step hstep hcall
    exact ⟨_, hcall', hkey⟩

/-- Work stays the work of its key. -/
theorem isWorkFor_of_step {k : Key} {place : WorkPlace} (h : p.step ops e = some p')
    (hwork : IsWorkFor p.coop k place) : IsWorkFor p'.coop k place := by
  cases place with
  | call c => exact isCallFor_of_step h hwork
  | lease l =>
    obtain hsame | ⟨event, -, hstep⟩ := coop_of_step h
    · rwa [hsame]
    · exact Cooperation.IsFor.step hwork hstep

/-- A call that comes in is the last one. -/
theorem isCallFor_arrive (s : Cooperation (Option Content)) (k : Key) (passive active : Duration) :
    IsCallFor (s.arrive k passive active) s.calls.length k := by
  obtain ⟨-, h⟩ | ⟨-, l, -, h⟩ | ⟨-, -, h⟩ := Cooperation.arrive_cases s k passive active
  · rw [h]
    exact ⟨_, List.getElem?_concat_length, rfl⟩
  · rw [h]
    exact ⟨_, List.getElem?_concat_length, rfl⟩
  · rw [h]
    exact ⟨_, List.getElem?_concat_length, rfl⟩

/-- A get that makes a call waits as a call for its key, and the fetch that begins with it works for
that key. -/
theorem matched_enter (h : p.enter g = some p') :
    (∃ get, p.gets[g]? = some get ∧ IsCallFor p'.coop p.coop.calls.length get.resource.key) ∧
      ∀ fetch, p'.fetches[p.fetches.length]? = some fetch →
        IsWorkFor p'.coop fetch.resource.key fetch.place := by
  obtain ⟨get, cached, found, -, next, rfl, hs⟩ := enter_cases h
  have hcall := isCallFor_arrive p.coop get.resource.key p.passive p.active
  obtain ⟨-, rfl⟩ | ⟨-, -, rfl⟩ | ⟨hon, hfree, rfl⟩ := hs
  · refine ⟨⟨get, found, hcall⟩, fun fetch hf => ?_⟩
    rw [addFetch_fetches, setGet_fetches, List.getElem?_concat_length, Option.some.injEq] at hf
    subst hf
    exact hcall
  · refine ⟨⟨get, found, hcall⟩, fun fetch hf => ?_⟩
    have hlt := (List.getElem?_eq_some_iff.mp hf).1
    rw [setGet_fetches] at hlt
    exact absurd hlt (Nat.lt_irrefl _)
  · refine ⟨⟨get, found, hcall⟩, fun fetch hf => ?_⟩
    rw [addFetch_fetches, setGet_fetches, List.getElem?_concat_length, Option.some.injEq] at hf
    subst hf
    obtain ⟨hoff, -⟩ | ⟨-, l, hheld, -⟩ | ⟨-, -, harrive⟩ :=
      Cooperation.arrive_cases p.coop get.resource.key p.passive p.active
    · exact absurd hoff hon
    · rw [hfree] at hheld
      contradiction
    · rw [addFetch_coop, setGet_coop, harrive]
      exact ⟨_, List.getElem?_concat_length, rfl⟩

/-- A fetch that begins with a takeover works for the key of the call that took over. -/
theorem Matched.takeOver (hp : Matched p) (h : p.takeOver g = some p') (fetch : Fetch)
    (hf : p'.fetches[p.fetches.length]? = some fetch) :
    IsWorkFor p'.coop fetch.resource.key fetch.place := by
  obtain ⟨get, c, coop, hget, hphase, htook, ⟨hleads, rfl⟩ | ⟨-, rfl⟩⟩ := takeOver_cases h
  · rw [addFetch_fetches, List.getElem?_concat_length, Option.some.injEq] at hf
    subst hf
    obtain ⟨call, hcall, hkey⟩ := hp.gets g get c hget hphase
    obtain ⟨found, l, hfound, -, ⟨-, rfl⟩ | ⟨other, -, -, rfl⟩⟩ := Cooperation.takeOver_cases htook
    · obtain rfl : found = call := Option.some.inj (hfound.symm.trans hcall)
      exact ⟨_, List.getElem?_concat_length, hkey⟩
    · simp [Cooperation.countWaiter, Cooperation.setPhase] at hleads
  · have hlt := (List.getElem?_eq_some_iff.mp hf).1
    exact absurd hlt (Nat.lt_irrefl _)

/-- Gets and fetches stay matched with calls and leases for their keys. -/
theorem Matched.step (h : Matched p) (hstep : p.step ops e = some p') : Matched p' where
  gets g get c hget hphase := by
    obtain hbefore | ⟨-, hnew⟩ | ⟨before, phase, found, move, rfl⟩ :=
      (step_effect hstep).gets.before hget
    · exact isCallFor_of_step hstep (h.gets g get c hbefore hphase)
    · rw [hnew] at hphase
      contradiction
    · cases move with
      | called cached hentered =>
        cases hphase
        obtain ⟨get, hget, hcall⟩ := (matched_enter hstep).1
        obtain rfl : get = before := Option.some.inj (hget.symm.trans found)
        exact hcall
      | _ => contradiction
  fetches i fetch hi := by
    obtain hbefore | ⟨rfl, begun⟩ | ⟨before, phase, found, move, rfl⟩ :=
      (step_effect hstep).fetches.before hi
    · exact isWorkFor_of_step hstep (h.fetches i fetch hbefore)
    · cases begun with
      | entered g get cached place sharing found phase => exact (matched_enter hstep).2 _ hi
      | tookOver g place r sharing => exact h.takeOver hstep _ hi
    · exact isWorkFor_of_step hstep (h.fetches i before found)

/-- The calls that share work hand on what a fetch for their key ended with. -/
theorem Matched.reports_step {R : Key → Except Fault (Option Content) → Prop} (h : Matched p)
    (reports : p.coop.Reports R) {shared : List (CoopEvent (Option Content))}
    (hshared : ({} : Cooperation (Option Content)).run shared = some p.coop)
    (hstep : p.step ops e = some p') (faults : ∀ k fault, R k (.error fault))
    (ended : ∀ (i : Nat) (fetch : Fetch) result, p.fetches[i]? = some fetch →
      fetch.phase = .ended (some result) → R fetch.resource.key result) : p'.coop.Reports R := by
  obtain hsame | ⟨event, hevent, hcoop⟩ := coop_of_step hstep
  · rw [hsame]
    exact reports
  · refine reports.step hshared hcoop faults ?_ ?_
    · rintro l lease result rfl hlease
      cases hevent with
      | publish i l fetch outcome found phase place =>
        have hwork := h.fetches i fetch found
        rw [place] at hwork
        obtain ⟨lease', hlease', hkey⟩ := hwork
        obtain rfl : lease' = lease := Option.some.inj (hlease'.symm.trans hlease)
        exact hkey ▸ ended i fetch result found phase
    · rintro c call result rfl hcall
      cases hevent with
      | finish i c fetch outcome found phase place =>
        have hwork := h.fetches i fetch found
        rw [place] at hwork
        obtain ⟨call', hcall', hkey⟩ := hwork
        obtain rfl : call' = call := Option.some.inj (hcall'.symm.trans hcall)
        exact hkey ▸ ended i fetch result found phase

/-- A get that has returned did so by itself, or as one of the calls that share work. -/
theorem getState_eq_returned {result : Except Fault (Option Content)} :
    p.getState g = .returned result ↔ ∃ get, p.gets[g]? = some get ∧ (get.phase = .returned result ∨
      ∃ c call, get.phase = .called c ∧ p.coop.calls[c]? = some call ∧
        call.phase = .returned result) := by
  rw [getState]
  cases hget : p.gets[g]? with
  | none => simp
  | some get =>
    cases hphase : get.phase with
    | called c =>
      cases hcall : p.coop.calls[c]? with
      | none => simp [hphase, hcall]
      | some call => cases hended : call.phase <;> simp [hphase, hcall, hended]
    | _ => simp [hphase]

/-! ## The flow of content -/

variable {P : Key → Attributes → Prop} {p p' : Proxy MemoryStore}

/-- All content that is anywhere in a state is as the origin said, for the key that it is there for. -/
structure Flows (P : Key → Attributes → Prop) (p : Proxy MemoryStore) : Prop where
  numbered : p.store.WellNumbered
  matched : Matched p
  store : ∀ (r : Resource) (c : Content), p.store.lookup r = .ok (some c) → P r.key c.said
  gets : ∀ (g : Nat) (get : Get), p.gets[g]? = some get →
    get.phase.Carries (P get.resource.key)
  fetches : ∀ (i : Nat) (fetch : Fetch), p.fetches[i]? = some fetch →
    fetch.phase.Carries (P fetch.resource.key)
  results : p.coop.Reports fun k result => Tells (P k) result

/-- What a lookup brings is in the store. -/
theorem Flows.tells_of_foundCopy (h : Flows P p) {r : Resource} {copy : Option Content}
    (hfound : foundCopy (p.store.lookup r) = .ok copy) : Tells (P r.key) (.ok copy) := by
  cases copy with
  | none => trivial
  | some c => exact h.store r c (lookup_of_foundCopy hfound)

/-- A get that moves carries what it found or what its call came to. -/
theorem Flows.get_move (h : Flows P p) {get : Get} {phase : GetPhase} (found : p.gets[g]? = some get)
    (move : GetMove MemoryStore.ops p g get e phase) : phase.Carries (P get.resource.key) := by
  have hget := h.gets g get found
  cases move with
  | found copy hlookUp lookup => exact h.tells_of_foundCopy lookup
  | failed fault => trivial
  | stale cached hjudge =>
    rw [hjudge] at hget
    exact hget
  | fresh cached hjudge =>
    rw [hjudge] at hget
    exact hget
  | called cached => trivial
  | dropped => trivial

/-- Content that the store gives back is what it was given. -/
theorem said_of_kept {m : MemoryStore} {s : Streams} {r : Resource} {remote content : Content}
    (h : (m.store s r remote).1 = .ok content) : content.said = remote.said := by
  obtain ⟨bytes, -, hkept, -⟩ | ⟨⟨fault, hfault⟩, -⟩ := m.store_cases s r remote
  · rw [hkept, Except.ok.injEq] at h
    rw [← h]
    rfl
  · rw [hfault] at h
    contradiction

/-- A fetch that moves carries what it found or what the origin said. -/
theorem Flows.fetch_move (h : Flows P p) {fetch : Fetch} {phase : FetchPhase}
    (found : p.fetches[i]? = some fetch) (move : FetchMove MemoryStore.ops p i fetch e phase)
    (answers : ∀ reply, e = .answer i (.ok reply) → reply.status = 200 →
      P fetch.resource.key reply.said) : phase.Carries (P fetch.resource.key) := by
  -- The copy that a fetch has in hand says what it should; the answer does so by `answers`.
  have hfetch := h.fetches i fetch found
  cases move with
  | found copy hrecheck lookup => exact h.tells_of_foundCopy lookup
  | stale copy before =>
    rw [before] at hfetch
    exact hfetch
  | fresh copy before =>
    rw [before] at hfetch
    exact carries_ended hfetch
  | sent copy url before =>
    rw [before] at hfetch
    exact hfetch
  | unreached copy request fault before =>
    rw [before] at hfetch
    refine ⟨hfetch, ?_⟩
    intro response hanswer
    contradiction
  | reached copy request reply before =>
    rw [before] at hfetch
    refine ⟨hfetch, ?_⟩
    rintro response ⟨⟩ hok
    rw [Reply.isOk_receive, beq_iff_eq] at hok
    rw [Reply.said_receive]
    exact answers reply rfl hok
  | degraded copy request fault before =>
    rw [before] at hfetch
    exact carries_ended (tells_degrade hfetch.1 _)
  | keep copy request response remote before verdict =>
    rw [before] at hfetch
    obtain ⟨hok, body, -, rfl⟩ := Exchange.judge_eq_keep verdict
    exact ⟨hfetch.1, hfetch.2 response rfl hok⟩
  | confirm copy request response known stamp before verdict =>
    rw [before] at hfetch
    obtain ⟨-, rfl, -⟩ := Exchange.judge_eq_confirm verdict
    exact hfetch.1
  | nothing copy request response before =>
    rw [before] at hfetch
    exact carries_ended (tells_outcome hfetch.1 trivial)
  | fail copy request response fault before =>
    rw [before] at hfetch
    exact carries_ended (tells_outcome hfetch.1 trivial)
  | rejected copy response remote fault before =>
    rw [before] at hfetch
    exact carries_ended (tells_outcome hfetch.1 trivial)
  | unread copy response remote content before kept =>
    rw [before] at hfetch
    exact ⟨hfetch.1, said_of_kept kept ▸ hfetch.2⟩
  | kept copy response remote content before kept =>
    rw [before] at hfetch
    have hsaid : P fetch.resource.key content.said := said_of_kept kept ▸ hfetch.2
    exact carries_ended (tells_outcome hfetch.1 hsaid)
  | read copy response kept content before read =>
    rw [before] at hfetch
    have hsaid : P fetch.resource.key content.said := Content.said_of_materialize read ▸ hfetch.2
    exact carries_ended (tells_outcome hfetch.1 hsaid)
  | unreadable copy response kept fault before =>
    rw [before] at hfetch
    exact carries_ended (tells_outcome hfetch.1 trivial)
  | noted copy response stamp before =>
    rw [before] at hfetch
    exact carries_ended (tells_outcome hfetch trivial)
  | unnoted copy response stamp fault before =>
    rw [before] at hfetch
    exact carries_ended (tells_outcome hfetch trivial)
  | failedLookup | refused => exact carries_ended trivial
  | crashed =>
    intro result hended
    contradiction
  | _ => trivial

/-- What the store has after a step it had before, or it has taken it over from a fetch. -/
theorem Flows.store_step (h : Flows P p) (hstep : StoreStep MemoryStore.ops p p' e) (r : Resource)
    (c : Content) (hc : p'.store.lookup r = .ok (some c)) : P r.key c.said := by
  cases hstep with
  | same store => exact h.store r c (store ▸ hc)
  | lookup r' store =>
    have hsame : p'.store = p.store := store
    exact h.store r c (hsame ▸ hc)
  | store i fetch copy response remote found phase store =>
    have hfetch := h.fetches i fetch found
    rw [phase] at hfetch
    have hstored : p'.store = (p.store.store p.streams fetch.resource remote).2.1 := store
    rw [hstored] at hc
    obtain ⟨bytes, -, -, hkeep⟩ | ⟨-, hsame⟩ := p.store.store_cases p.streams fetch.resource remote
    · rw [hkeep] at hc
      obtain ⟨hkey, rfl⟩ | ⟨-, hbefore⟩ := MemoryStore.lookup_of_keep h.numbered hc
      · rw [hkey]
        exact hfetch.2
      · exact h.store r c hbefore
    · exact h.store r c (hsame ▸ hc)
  | verify i fetch copy response stamp found phase store =>
    have hnoted : p'.store = p.store.verify fetch.resource stamp := store
    rw [hnoted] at hc
    obtain ⟨-, before, hbefore, rfl⟩ | ⟨-, hbefore⟩ := MemoryStore.lookup_of_verify hc
    · exact h.store r before hbefore
    · exact h.store r c hbefore

/-- Calls report only what flowed to their leases. -/
theorem Flows.results_step (h : Flows P p) {shared : List (CoopEvent (Option Content))}
    (hshared : ({} : Cooperation (Option Content)).run shared = some p.coop)
    (hstep : p.step MemoryStore.ops e = some p') :
    p'.coop.Reports fun k result => Tells (P k) result := by
  refine h.matched.reports_step h.results hshared hstep (fun k fault => trivial) ?_
  intro i fetch result found phase
  have hfetch := h.fetches i fetch found
  rw [phase] at hfetch
  exact hfetch result rfl

/-- Every step keeps what is said with its key. -/
theorem Flows.step (h : Flows P p) {shared : List (CoopEvent (Option Content))}
    (hshared : ({} : Cooperation (Option Content)).run shared = some p.coop)
    (hstep : p.step MemoryStore.ops e = some p')
    (answers : ∀ i fetch reply, e = .answer i (.ok reply) → p.fetches[i]? = some fetch →
      reply.status = 200 → P fetch.resource.key reply.said) : Flows P p' where
  numbered := wellNumbered_of_step h.numbered (step_effect hstep).store
  matched := h.matched.step hstep
  store := h.store_step (step_effect hstep).store
  gets g get hg := by
    obtain hbefore | ⟨-, hnew⟩ | ⟨before, phase, found, move, rfl⟩ :=
      (step_effect hstep).gets.before hg
    · exact h.gets g get hbefore
    · rw [hnew]
      trivial
    · have hcarries := h.get_move found move
      exact hcarries
  fetches i fetch hi := by
    obtain hbefore | ⟨-, begun⟩ | ⟨before, phase, found, move, rfl⟩ :=
      (step_effect hstep).fetches.before hi
    · exact h.fetches i fetch hbefore
    · cases begun with
      | entered g get cached place sharing found phase =>
        have hget := h.gets g get found
        rw [phase] at hget
        exact hget
      | tookOver => trivial
    · have hcarries := h.fetch_move found move fun reply he => answers i before reply he found
      exact hcarries
  results := h.results_step hshared hstep

/-- A step of a proxy is at most one step of the calls that share work. -/
theorem coop_run_of_step {σ : Type} {ops : StoreOps σ} {p p' : Proxy σ}
    (h : p.step ops e = some p')
    (hshared : ∃ shared, ({} : Cooperation (Option Content)).run shared = some p.coop) :
    ∃ shared, ({} : Cooperation (Option Content)).run shared = some p'.coop := by
  obtain ⟨shared, hshared⟩ := hshared
  obtain hsame | ⟨event, -, hstep⟩ := coop_of_step h
  · exact ⟨shared, by rw [hsame, hshared]⟩
  · exact ⟨shared ++ [event], Cooperation.run_concat_eq_some.mpr ⟨p.coop, hshared, hstep⟩⟩

/-- **The flow of content.** In a run that nothing has happened before, what is true of what each
answer 200 says, for the key that was asked for, is true of all content anywhere. -/
theorem flow_of_run {start q : Proxy MemoryStore} {events : List ProxyEvent} (blank : Blank start)
    (alone : start.coop = {}) (hrun : start.run MemoryStore.ops events = some q)
    (answers : ∀ k p i fetch reply, Happens start events k p (.answer i (.ok reply)) →
      p.fetches[i]? = some fetch → reply.status = 200 → P fetch.resource.key reply.said) :
    Flows P q := by
  obtain ⟨capacity, hstore⟩ := blank.store
  have hstart : Flows P start := by
    constructor
    · rw [hstore]
      exact MemoryStore.wellNumbered_empty capacity
    · exact ⟨by simp [blank.gets], by simp [blank.fetches]⟩
    · intro r c hc
      rw [hstore, MemoryStore.lookup_empty] at hc
      cases hc
    · simp [blank.gets]
    · simp [blank.fetches]
    · rw [alone]
      exact ⟨by simp, by simp⟩
  rw [← List.take_length (l := events)] at hrun
  refine (place_induction (I := fun _ q => Flows P q ∧
    ∃ shared, ({} : Cooperation (Option Content)).run shared = some q.coop) rfl ⟨hstart, [], ?_⟩ ?_
    (Nat.zero_le _) (Nat.le_refl _) hrun).1
  · rw [alone]
    rfl
  · rintro k p p' e - hevent hp hstep ⟨hflows, shared, hshared⟩
    refine ⟨hflows.step hshared hstep ?_, coop_run_of_step hstep ⟨shared, hshared⟩⟩
    rintro i fetch reply rfl hfetch hok
    exact answers k p i fetch reply ⟨hevent, hp⟩ hfetch hok

/-- What a get has come to is as the origin said. -/
theorem Flows.tells_getState (h : Flows P p) {get : Get} {result : Except Fault (Option Content)}
    (found : p.gets[g]? = some get) (hstate : p.getState g = .returned result) :
    Tells (P get.resource.key) result := by
  obtain ⟨get', found', hreturned | ⟨c, call, hcalled, hcall, hended⟩⟩ :=
    getState_eq_returned.mp hstate
  · obtain rfl : get' = get := Option.some.inj (found'.symm.trans found)
    have hget := h.gets g get' found
    rw [hreturned] at hget
    exact hget
  · obtain rfl : get' = get := Option.some.inj (found'.symm.trans found)
    obtain ⟨call', hcall', hkey⟩ := h.matched.gets g get' c found hcalled
    obtain rfl : call' = call := Option.some.inj (hcall'.symm.trans hcall)
    exact hkey ▸ h.results.calls c call' result hcall hended

end Proxy

end PullCache
