import Mathlib.Data.List.Induction
import PullCache.Proofs.Cooperation.Step
import PullCache.Proxy.Basic
/-!
# Proofs.Proxy.Step

What each operation of the proxy can do. For every one there is one lemma that says when it is
possible and what the state is afterwards; what it does to the calls that share work is said by the
lemmas about `Cooperation`. Later modules use these and never open an operation again. At the end,
runs: they compose, and what one step keeps, a run keeps.
-/

namespace PullCache.Proxy

variable {σ : Type} {ops : StoreOps σ} {p p' : Proxy σ} {g i : Nat}

/-! ## Parts of a state -/

@[simp] theorem setGet_gets (phase : GetPhase) :
    (p.setGet g phase).gets = p.gets.modify g fun get => { get with phase } := rfl

@[simp] theorem setGet_fetches (phase : GetPhase) : (p.setGet g phase).fetches = p.fetches := rfl

@[simp] theorem setGet_coop (phase : GetPhase) : (p.setGet g phase).coop = p.coop := rfl

@[simp] theorem setFetch_gets (phase : FetchPhase) : (p.setFetch i phase).gets = p.gets := rfl

@[simp] theorem setFetch_fetches (phase : FetchPhase) :
    (p.setFetch i phase).fetches = p.fetches.modify i fun fetch => { fetch with phase } := rfl

@[simp] theorem setFetch_coop (phase : FetchPhase) : (p.setFetch i phase).coop = p.coop := rfl

@[simp] theorem addFetch_gets (place : WorkPlace) (r : Resource) (sharing : Bool)
    (phase : FetchPhase) : (p.addFetch place r sharing phase).gets = p.gets := rfl

/-- A new fetch is the last one. -/
@[simp] theorem addFetch_fetches (place : WorkPlace) (r : Resource) (sharing : Bool)
    (phase : FetchPhase) : (p.addFetch place r sharing phase).fetches =
      p.fetches ++ [⟨place, r, sharing, phase⟩] := rfl

@[simp] theorem addFetch_coop (place : WorkPlace) (r : Resource) (sharing : Bool)
    (phase : FetchPhase) : (p.addFetch place r sharing phase).coop = p.coop := rfl

/-- A fetch ends with the outcome of its exchange; apart from that only the streams change. -/
theorem conclude_eq (copy : Option Content) (response : OriginResponse)
    (fetched : Except Fault (Option Content)) :
    p.conclude i copy response fetched =
      { p with streams := (Exchange.conclude copy response fetched p.streams).2 }.setFetch i
        (.ended (some (Exchange.outcome copy fetched))) := by
  have houtcome : (Exchange.conclude copy response fetched p.streams).1 =
      Exchange.outcome copy fetched := by
    unfold Exchange.conclude
    dsimp only
    split <;> rfl
  rw [← houtcome]
  rfl

/-- The end of an exchange is no step of a call. -/
@[simp] theorem conclude_coop (copy : Option Content) (response : OriginResponse)
    (fetched : Except Fault (Option Content)) :
    (p.conclude i copy response fetched).coop = p.coop := by
  rw [conclude_eq]
  rfl

/-- A lookup that brought a copy found it in the store. -/
theorem lookup_of_foundCopy {found : Except StoreFault (Option Content)} {c : Content}
    (h : foundCopy found = .ok (some c)) : found = .ok (some c) := by
  cases found with
  | ok copy => simpa [foundCopy] using h
  | error fault => cases hf : fault.isInconsistency <;> simp [foundCopy, hf] at h

/-- A fetch goes on as long as the work that it belongs to. -/
theorem fetch?_eq_some {fetch : Fetch} :
    p.fetch? i = some fetch ↔ p.fetches[i]? = some fetch ∧ p.coop.goesOn fetch.place = true := by
  unfold fetch?
  rw [Option.filter_eq_some_iff]

/-- The call of a get is the one that it waits as. -/
theorem callOf?_eq_some {c : Nat} :
    p.callOf? g = some c ↔ ∃ get, p.gets[g]? = some get ∧ get.phase = .called c := by
  unfold callOf?
  cases hg : p.gets[g]? with
  | none => simp
  | some get => cases hp : get.phase <;> simp [hp]

/-! ## Steps of a get -/

/-- A lookup ends with a copy that has to be judged, or with a fault of the store. -/
theorem lookUp_cases (h : p.lookUp ops g = some p') :
    ∃ get, p.gets[g]? = some get ∧ get.phase = .lookUp ∧
      ((∃ copy, foundCopy (ops.lookup p.store get.resource).1 = .ok copy ∧
        p' = { p with store := (ops.lookup p.store get.resource).2 }.setGet g (.judge copy)) ∨
      ∃ fault, foundCopy (ops.lookup p.store get.resource).1 = .error fault ∧
        p' = { p with store := (ops.lookup p.store get.resource).2 }.setGet g
          (.returned (.error fault))) := by
  unfold lookUp at h
  cases hg : p.gets[g]? with
  | none => simp [hg] at h
  | some get =>
    cases hp : get.phase with
    | lookUp =>
      simp only [hg, hp, Option.bind_eq_bind, Option.bind_some] at h
      cases hf : foundCopy (ops.lookup p.store get.resource).1 with
      | ok copy =>
        simp only [hf, Option.some.injEq] at h
        exact ⟨get, rfl, hp, .inl ⟨copy, hf, h.symm⟩⟩
      | error fault =>
        simp only [hf, Option.some.injEq] at h
        exact ⟨get, rfl, hp, .inr ⟨fault, hf, h.symm⟩⟩
    | _ => simp [hg, hp] at h

/-- A copy that is judged is stale and more work is to come, or it is returned. -/
theorem judge_cases (h : p.judge g = some p') :
    ∃ get cached, p.gets[g]? = some get ∧ get.phase = .judge cached ∧
      (p.isStale get.resource cached = true ∧ p' = p.setGet g (.enter cached) ∨
        p.isStale get.resource cached = false ∧ p' = p.setGet g (.returned (.ok cached))) := by
  unfold judge at h
  cases hg : p.gets[g]? with
  | none => simp [hg] at h
  | some get =>
    cases hp : get.phase with
    | judge cached =>
      simp only [hg, hp, Option.bind_eq_bind, Option.bind_some] at h
      refine ⟨get, cached, rfl, hp, ?_⟩
      cases hs : p.isStale get.resource cached with
      | true => exact .inl ⟨rfl, by simpa [hs] using h.symm⟩
      | false => exact .inr ⟨rfl, by simpa [hs] using h.symm⟩
    | _ => simp [hg, hp] at h

/-- A get makes a call. If the call runs alone or leads, a fetch with the stale copy begins. -/
theorem enter_cases (h : p.enter g = some p') :
    ∃ get cached, p.gets[g]? = some get ∧ get.phase = .enter cached ∧ ∃ next,
      next = { p with coop := p.coop.arrive get.resource.key p.passive p.active }.setGet g
        (.called p.coop.calls.length) ∧
      (p.passive.nanos = 0 ∧
        p' = next.addFetch (.call p.coop.calls.length) get.resource false (.ask cached) ∨
      p.passive.nanos ≠ 0 ∧ (∃ l, p.coop.registered? get.resource.key = some l) ∧ p' = next ∨
      p.passive.nanos ≠ 0 ∧ p.coop.registered? get.resource.key = none ∧
        p' = next.addFetch (.lease p.coop.leases.length) get.resource true (.ask cached)) := by
  unfold enter at h
  cases hg : p.gets[g]? with
  | none => simp [hg] at h
  | some get =>
    cases hp : get.phase with
    | enter cached =>
      simp only [hg, hp, Option.bind_eq_bind, Option.bind_some] at h
      refine ⟨get, cached, rfl, hp, _, rfl, ?_⟩
      obtain ⟨hoff, ha⟩ | ⟨hon, l, hl, ha⟩ | ⟨hon, hfree, ha⟩ :=
        Cooperation.arrive_cases p.coop get.resource.key p.passive p.active
      · exact .inl ⟨hoff, by simpa [ha] using h.symm⟩
      · exact .inr (.inl ⟨hon, ⟨l, hl⟩, by simpa [ha] using h.symm⟩)
      · exact .inr (.inr ⟨hon, hfree, by simpa [ha] using h.symm⟩)
    | _ => simp [hg, hp] at h

/-- A step of a get that waits is a step of its call. -/
theorem callStep_eq_some {e : Nat → CoopEvent (Option Content)} :
    p.callStep g e = some p' ↔ ∃ c coop, p.callOf? g = some c ∧ p.coop.step (e c) = some coop ∧
      p' = { p with coop } := by
  unfold callStep
  simp only [Option.bind_eq_bind, Option.bind_eq_some_iff, Option.some.injEq, @eq_comm _ p']
  exact ⟨fun ⟨c, hc, coop, hs, h⟩ => ⟨c, coop, hc, hs, h⟩,
    fun ⟨c, coop, hc, hs, h⟩ => ⟨c, hc, coop, hs, h⟩⟩

/-- After a takeover that leads, a fetch begins with another look at the store. -/
theorem takeOver_cases (h : p.takeOver g = some p') :
    ∃ get c coop, p.gets[g]? = some get ∧ get.phase = .called c ∧
      p.coop.takeOver c = some coop ∧
      (p.coop.leases.length < coop.leases.length ∧
        p' = { p with coop }.addFetch (.lease p.coop.leases.length) get.resource true .recheck ∨
      coop.leases.length ≤ p.coop.leases.length ∧ p' = { p with coop }) := by
  unfold takeOver at h
  simp only [Option.bind_eq_bind, Option.bind_eq_some_iff] at h
  obtain ⟨get, hg, c, hc, coop, ht, h⟩ := h
  obtain ⟨found, hfound, hphase⟩ := callOf?_eq_some.mp hc
  obtain rfl : found = get := Option.some.inj (hfound.symm.trans hg)
  refine ⟨found, c, coop, hg, hphase, ht, ?_⟩
  split at h
  · next hleads => exact .inl ⟨hleads, (Option.some.inj h).symm⟩
  · next hjoins => exact .inr ⟨Nat.le_of_not_lt hjoins, (Option.some.inj h).symm⟩

/-- A client can go away before its get waits or while it does. -/
theorem drop_cases (h : p.drop g = some p') :
    ∃ get, p.gets[g]? = some get ∧
      (get.phase = .lookUp ∧ p' = p.setGet g .dropped ∨ p.callStep g .drop = some p') := by
  unfold drop at h
  cases hg : p.gets[g]? with
  | none => simp [hg] at h
  | some get =>
    cases hp : get.phase with
    | lookUp => exact ⟨get, rfl, .inl ⟨hp, by simpa [hg, hp] using h.symm⟩⟩
    | called c => exact ⟨get, rfl, .inr (by simpa [hg, hp] using h)⟩
    | _ => simp [hg, hp] at h

/-! ## Steps of a fetch -/

/-- After a takeover, the copy that is in the store now has to be judged. -/
theorem recheck_cases (h : p.recheck ops i = some p') :
    ∃ fetch, p.fetch? i = some fetch ∧ fetch.phase = .recheck ∧
      ((∃ copy, foundCopy (ops.lookup p.store fetch.resource).1 = .ok copy ∧
        p' = { p with store := (ops.lookup p.store fetch.resource).2 }.setFetch i
          (.rejudge copy)) ∨
      ∃ fault, foundCopy (ops.lookup p.store fetch.resource).1 = .error fault ∧
        p' = { p with store := (ops.lookup p.store fetch.resource).2 }.setFetch i
          (.ended (some (.error fault)))) := by
  unfold recheck at h
  cases hf : p.fetch? i with
  | none => simp [hf] at h
  | some fetch =>
    cases hp : fetch.phase with
    | recheck =>
      simp only [hf, hp, Option.bind_eq_bind, Option.bind_some] at h
      cases hl : foundCopy (ops.lookup p.store fetch.resource).1 with
      | ok copy =>
        simp only [hl, Option.some.injEq] at h
        exact ⟨fetch, rfl, hp, .inl ⟨copy, hl, h.symm⟩⟩
      | error fault =>
        simp only [hl, Option.some.injEq] at h
        exact ⟨fetch, rfl, hp, .inr ⟨fault, hl, h.symm⟩⟩
    | _ => simp [hf, hp] at h

/-- The second judgement sends a stale copy on and ends with a fresh one. -/
theorem rejudge_cases (h : p.rejudge i = some p') :
    ∃ fetch copy, p.fetch? i = some fetch ∧ fetch.phase = .rejudge copy ∧
      (p.isStale fetch.resource copy = true ∧ p' = p.setFetch i (.ask copy) ∨
        p.isStale fetch.resource copy = false ∧ p' = p.setFetch i (.ended (some (.ok copy)))) := by
  unfold rejudge at h
  cases hf : p.fetch? i with
  | none => simp [hf] at h
  | some fetch =>
    cases hp : fetch.phase with
    | rejudge copy =>
      simp only [hf, hp, Option.bind_eq_bind, Option.bind_some] at h
      refine ⟨fetch, copy, rfl, hp, ?_⟩
      cases hs : p.isStale fetch.resource copy with
      | true => exact .inl ⟨rfl, by simpa [hs] using h.symm⟩
      | false => exact .inr ⟨rfl, by simpa [hs] using h.symm⟩
    | _ => simp [hf, hp] at h

/-- A request is sent to the URL of the resource below the present remote. -/
theorem ask_cases (h : p.ask i = some p') :
    ∃ fetch copy, p.fetch? i = some fetch ∧ fetch.phase = .ask copy ∧
      ((∃ fault, Remote.resolve p.remote fetch.resource = .error fault ∧
        p' = p.setFetch i (.ended (some (.error fault)))) ∨
      ∃ url, Remote.resolve p.remote fetch.resource = .ok url ∧
        p' = p.setFetch i
          (.waiting copy (OriginRequest.revalidating { url } copy))) := by
  unfold ask at h
  cases hf : p.fetch? i with
  | none => simp [hf] at h
  | some fetch =>
    cases hp : fetch.phase with
    | ask copy =>
      simp only [hf, hp, Option.bind_eq_bind, Option.bind_some] at h
      refine ⟨fetch, copy, rfl, hp, ?_⟩
      cases hr : Remote.resolve p.remote fetch.resource with
      | error fault => exact .inl ⟨fault, rfl, by simpa [hr] using h.symm⟩
      | ok url => exact .inr ⟨url, rfl, by simpa [hr] using h.symm⟩
    | _ => simp [hf, hp] at h

/-- An answer is opened, and a failure is passed on. -/
theorem answer_cases {reply : Except OriginFault Reply} (h : p.answer i reply = some p') :
    ∃ fetch copy request, p.fetch? i = some fetch ∧ fetch.phase = .waiting copy request ∧
      ((∃ fault, reply = .error fault ∧
        p' = p.setFetch i (.answered copy request (.error fault))) ∨
      ∃ answer, reply = .ok answer ∧
        p' = { p with streams := (answer.receive p.streams).2 }.setFetch i
          (.answered copy request (.ok (answer.receive p.streams).1))) := by
  unfold answer at h
  cases hf : p.fetch? i with
  | none => simp [hf] at h
  | some fetch =>
    cases hp : fetch.phase with
    | waiting copy request =>
      refine ⟨fetch, copy, request, rfl, hp, ?_⟩
      cases reply with
      | error fault => exact .inl ⟨fault, rfl, by simpa [hf, hp] using h.symm⟩
      | ok answer => exact .inr ⟨answer, rfl, by simpa [hf, hp] using h.symm⟩
    | _ => simp [hf, hp] at h

/-- Only an exchange can panic, and that ends the fetch without an outcome. -/
theorem crash_eq_some :
    p.crash i = some p' ↔ ∃ fetch copy request, p.fetch? i = some fetch ∧
      fetch.phase = .waiting copy request ∧ p' = p.setFetch i (.ended none) := by
  unfold crash
  cases hf : p.fetch? i with
  | none => simp
  | some fetch => cases hp : fetch.phase <;> simp [hp, @eq_comm _ p']

/-- An answer brings content to be kept, confirms the copy, or ends the fetch. -/
theorem handle_cases (h : p.handle i = some p') :
    ∃ fetch copy request answer, p.fetch? i = some fetch ∧
      fetch.phase = .answered copy request answer ∧
      ((∃ fault, answer = .error fault ∧
        p' = p.setFetch i (.ended (some (Exchange.degrade copy (.ofOrigin fault))))) ∨
      ∃ response, answer = .ok response ∧ ∃ verdict,
        verdict = Exchange.judge request response copy
          ((p.controller fetch.resource).stampAt p.wall) ∧
        ((∃ remote, verdict = .keep remote ∧ p' = p.setFetch i (.storing copy response remote)) ∨
        (∃ known stamp, verdict = .confirm known stamp ∧
          p' = p.setFetch i (.verifying known response stamp)) ∨
        (verdict = .nothing ∧ p' = p.conclude i copy response (.ok none)) ∨
        ∃ fault, verdict = .fail fault ∧ p' = p.conclude i copy response (.error fault))) := by
  unfold handle at h
  cases hf : p.fetch? i with
  | none => simp [hf] at h
  | some fetch =>
    cases hp : fetch.phase with
    | answered copy request answer =>
      refine ⟨fetch, copy, request, answer, rfl, hp, ?_⟩
      cases answer with
      | error fault => exact .inl ⟨fault, rfl, by simpa [hf, hp] using h.symm⟩
      | ok response =>
        simp only [hf, hp, Option.bind_eq_bind, Option.bind_some] at h
        refine .inr ⟨response, rfl, _, rfl, ?_⟩
        cases hv : Exchange.judge request response copy
          ((p.controller fetch.resource).stampAt p.wall) with
        | keep remote => exact .inl ⟨remote, rfl, by simpa [hv] using h.symm⟩
        | confirm known stamp => exact .inr (.inl ⟨known, stamp, rfl, by simpa [hv] using h.symm⟩)
        | nothing => exact .inr (.inr (.inl ⟨rfl, by simpa [hv] using h.symm⟩))
        | fail fault => exact .inr (.inr (.inr ⟨fault, rfl, by simpa [hv] using h.symm⟩))
    | _ => simp [hf, hp] at h

/-- The store refuses content, or keeps it; a copy that still has to be read for others is. -/
theorem stored_cases (h : p.stored ops i = some p') :
    ∃ fetch copy response remote, p.fetch? i = some fetch ∧
      fetch.phase = .storing copy response remote ∧ ∃ kept next,
      kept = (ops.store p.store p.streams fetch.resource remote).1 ∧
      next = { p with
        store := (ops.store p.store p.streams fetch.resource remote).2.1
        streams := (ops.store p.store p.streams fetch.resource remote).2.2 } ∧
      ((∃ fault, kept = .error fault ∧
        p' = next.conclude i copy response (.error (.store fault))) ∨
      ∃ content, kept = .ok content ∧
        ((fetch.sharing && content.sharesStream remote) = true ∧
          p' = next.setFetch i (.copying copy response content) ∨
        (fetch.sharing && content.sharesStream remote) = false ∧
          p' = next.conclude i copy response (.ok (some content)))) := by
  unfold stored at h
  cases hf : p.fetch? i with
  | none => simp [hf] at h
  | some fetch =>
    cases hp : fetch.phase with
    | storing copy response remote =>
      simp only [hf, hp, Option.bind_eq_bind, Option.bind_some] at h
      refine ⟨fetch, copy, response, remote, rfl, hp, _, _, rfl, rfl, ?_⟩
      cases hk : (ops.store p.store p.streams fetch.resource remote).1 with
      | error fault => exact .inl ⟨fault, rfl, by simpa [hk] using h.symm⟩
      | ok content =>
        refine .inr ⟨content, rfl, ?_⟩
        cases hs : fetch.sharing && content.sharesStream remote with
        | true => exact .inl ⟨rfl, by simpa [hk, hs] using h.symm⟩
        | false => exact .inr ⟨rfl, by simpa [hk, hs] using h.symm⟩
    | _ => simp [hf, hp] at h

/-- The content that the store gave back is read for everyone, or cannot be read. -/
theorem copied_cases (h : p.copied i = some p') :
    ∃ fetch copy response kept, p.fetch? i = some fetch ∧
      fetch.phase = .copying copy response kept ∧ ∃ next,
      next = { p with streams := (kept.materialize p.streams).2 } ∧
      ((∃ content, (kept.materialize p.streams).1 = .ok content ∧
        p' = next.conclude i copy response (.ok (some content))) ∨
      ∃ fault, (kept.materialize p.streams).1 = .error fault ∧
        p' = next.conclude i copy response (.error (.store (.ofRead fault)))) := by
  unfold copied at h
  cases hf : p.fetch? i with
  | none => simp [hf] at h
  | some fetch =>
    cases hp : fetch.phase with
    | copying copy response kept =>
      simp only [hf, hp, Option.bind_eq_bind, Option.bind_some] at h
      refine ⟨fetch, copy, response, kept, rfl, hp, _, rfl, ?_⟩
      cases hm : (kept.materialize p.streams).1 with
      | ok content => exact .inl ⟨content, rfl, by simpa [hm] using h.symm⟩
      | error fault => exact .inr ⟨fault, rfl, by simpa [hm] using h.symm⟩
    | _ => simp [hf, hp] at h

/-- The store notes the stamp of a copy that is unchanged, or fails to. -/
theorem verified_cases (h : p.verified ops i = some p') :
    ∃ fetch copy response stamp, p.fetch? i = some fetch ∧
      fetch.phase = .verifying copy response stamp ∧ ∃ next,
      next = { p with store := (ops.verify p.store fetch.resource stamp).2 } ∧
      ((∃ done, (ops.verify p.store fetch.resource stamp).1 = .ok done ∧
        p' = next.conclude i (some (copy.withStamp stamp)) response (.ok none)) ∨
      ∃ fault, (ops.verify p.store fetch.resource stamp).1 = .error fault ∧
        p' = next.conclude i (some copy) response (.error (.store fault))) := by
  unfold verified at h
  cases hf : p.fetch? i with
  | none => simp [hf] at h
  | some fetch =>
    cases hp : fetch.phase with
    | verifying copy response stamp =>
      simp only [hf, hp, Option.bind_eq_bind, Option.bind_some] at h
      refine ⟨fetch, copy, response, stamp, rfl, hp, _, rfl, ?_⟩
      cases hv : (ops.verify p.store fetch.resource stamp).1 with
      | ok done => exact .inl ⟨done, rfl, by simpa [hv] using h.symm⟩
      | error fault => exact .inr ⟨fault, rfl, by simpa [hv] using h.symm⟩
    | _ => simp [hf, hp] at h

/-- A fetch that has ended publishes its outcome to its lease. -/
theorem publish_eq_some :
    p.publish i = some p' ↔ ∃ fetch outcome l coop, p.fetch? i = some fetch ∧
      fetch.phase = .ended outcome ∧ fetch.place = .lease l ∧ p.coop.publish l outcome = some coop ∧
      p' = { p with coop }.setFetch i .published := by
  unfold publish
  cases hf : p.fetch? i with
  | none => simp
  | some fetch =>
    cases hp : fetch.phase with
    | ended outcome => cases hl : fetch.place <;> simp [hp, hl, @eq_comm _ p', Option.bind_eq_some_iff]
    | _ => simp [hp]

/-- After that it gives up the key. -/
theorem release_eq_some :
    p.release i = some p' ↔ ∃ fetch l coop, p.fetch? i = some fetch ∧
      fetch.phase = .published ∧ fetch.place = .lease l ∧ p.coop.release l = some coop ∧
      p' = { p with coop }.setFetch i .closed := by
  unfold release
  cases hf : p.fetch? i with
  | none => simp
  | some fetch =>
    cases hp : fetch.phase with
    | published => cases hl : fetch.place <;> simp [hp, hl, @eq_comm _ p', Option.bind_eq_some_iff]
    | _ => simp [hp]

/-- A fetch inside a call ends with the call. -/
theorem finish_eq_some :
    p.finish i = some p' ↔ ∃ fetch outcome c coop, p.fetch? i = some fetch ∧
      fetch.phase = .ended outcome ∧ fetch.place = .call c ∧ p.coop.finish c outcome = some coop ∧
      p' = { p with coop }.setFetch i .closed := by
  unfold finish
  cases hf : p.fetch? i with
  | none => simp
  | some fetch =>
    cases hp : fetch.phase with
    | ended outcome => cases hl : fetch.place <;> simp [hp, hl, @eq_comm _ p', Option.bind_eq_some_iff]
    | _ => simp [hp]

/-- A change of settings goes on by its next step. -/
theorem change_eq_some {n : Nat} :
    p.change n = some p' ↔ ∃ first rest, p.changes[n]? = some (first :: rest) ∧
      p' = { p with
        controllers := applyChange p.controllers first
        changes := p.changes.set n rest } := by
  unfold change
  cases hn : p.changes[n]? with
  | none => simp
  | some steps => cases steps <;> simp [@eq_comm _ p', and_assoc]

/-! ## The calls that share work -/

/-- What an event is for the calls that share work. The work of a lease or of a call ends with what
its fetch ended with. -/
inductive Shares (p : Proxy σ) : ProxyEvent → CoopEvent (Option Content) → Prop where
  | enter (g : Nat) (get : Get) (cached : Option Content) (found : p.gets[g]? = some get)
      (phase : get.phase = .enter cached) :
    Shares p (.enter g) (.arrive get.resource.key p.passive p.active)
  | deliver (g c : Nat) (call : p.callOf? g = some c) : Shares p (.deliver g) (.deliver c)
  | exhaust (g c : Nat) (call : p.callOf? g = some c) : Shares p (.exhaust g) (.exhaust c)
  | takeOver (g c : Nat) (call : p.callOf? g = some c) : Shares p (.takeOver g) (.takeOver c)
  | timeOut (g c : Nat) (call : p.callOf? g = some c) : Shares p (.timeOut g) (.timeOut c)
  | drop (g c : Nat) (call : p.callOf? g = some c) : Shares p (.drop g) (.drop c)
  | publish (i l : Nat) (fetch : Fetch) (outcome : Option (Except Fault (Option Content)))
      (found : p.fetches[i]? = some fetch) (phase : fetch.phase = .ended outcome)
      (place : fetch.place = .lease l) : Shares p (.publish i) (.publish l outcome)
  | release (i l : Nat) : Shares p (.release i) (.release l)
  | finish (i c : Nat) (fetch : Fetch) (outcome : Option (Except Fault (Option Content)))
      (found : p.fetches[i]? = some fetch) (phase : fetch.phase = .ended outcome)
      (place : fetch.place = .call c) : Shares p (.finish i) (.finish c outcome)
  | tick (nanos : Nat) : Shares p (.tick nanos) (.tick nanos)

/-- A step leaves the calls that share work alone, or is one of theirs. -/
theorem coop_of_step {e : ProxyEvent} (h : p.step ops e = some p') :
    p'.coop = p.coop ∨ ∃ event, Shares p e event ∧ p.coop.step event = some p'.coop := by
  cases e with
  | request r => cases h; exact .inl rfl
  | lookUp g =>
    obtain ⟨get, -, -, ⟨copy, -, rfl⟩ | ⟨fault, -, rfl⟩⟩ := lookUp_cases h
    · exact .inl rfl
    · exact .inl rfl
  | judge g =>
    obtain ⟨get, cached, -, -, ⟨-, rfl⟩ | ⟨-, rfl⟩⟩ := judge_cases h
    · exact .inl rfl
    · exact .inl rfl
  | enter g =>
    -- The call makes the same step whether it leads, follows or runs alone.
    obtain ⟨get, cached, found, hp, next, rfl, hs⟩ := enter_cases h
    refine .inr ⟨_, .enter g get cached found hp, ?_⟩
    obtain ⟨-, rfl⟩ | ⟨-, -, rfl⟩ | ⟨-, -, rfl⟩ := hs
    · rfl
    · rfl
    · rfl
  | deliver g =>
    obtain ⟨c, coop, hc, hs, rfl⟩ := callStep_eq_some.mp h
    exact .inr ⟨_, .deliver g c hc, hs⟩
  | exhaust g =>
    obtain ⟨c, coop, hc, hs, rfl⟩ := callStep_eq_some.mp h
    exact .inr ⟨_, .exhaust g c hc, hs⟩
  | takeOver g =>
    obtain ⟨get, c, coop, found, hp, ht, ⟨-, rfl⟩ | ⟨-, rfl⟩⟩ := takeOver_cases h
    · exact .inr ⟨_, .takeOver g c (callOf?_eq_some.mpr ⟨get, found, hp⟩), ht⟩
    · exact .inr ⟨_, .takeOver g c (callOf?_eq_some.mpr ⟨get, found, hp⟩), ht⟩
  | timeOut g =>
    obtain ⟨c, coop, hc, hs, rfl⟩ := callStep_eq_some.mp h
    exact .inr ⟨_, .timeOut g c hc, hs⟩
  | drop g =>
    obtain ⟨get, -, ⟨-, rfl⟩ | h⟩ := drop_cases h
    · exact .inl rfl
    · obtain ⟨c, coop, hc, hs, rfl⟩ := callStep_eq_some.mp h
      exact .inr ⟨_, .drop g c hc, hs⟩
  | recheck i =>
    obtain ⟨fetch, -, -, ⟨copy, -, rfl⟩ | ⟨fault, -, rfl⟩⟩ := recheck_cases h
    · exact .inl rfl
    · exact .inl rfl
  | rejudge i =>
    obtain ⟨fetch, copy, -, -, ⟨-, rfl⟩ | ⟨-, rfl⟩⟩ := rejudge_cases h
    · exact .inl rfl
    · exact .inl rfl
  | ask i =>
    obtain ⟨fetch, copy, -, -, ⟨fault, -, rfl⟩ | ⟨url, -, rfl⟩⟩ := ask_cases h
    · exact .inl rfl
    · exact .inl rfl
  | answer i reply =>
    obtain ⟨fetch, copy, request, -, -, ⟨fault, -, rfl⟩ | ⟨answer, -, rfl⟩⟩ := answer_cases h
    · exact .inl rfl
    · exact .inl rfl
  | crash i =>
    obtain ⟨fetch, copy, request, -, -, rfl⟩ := crash_eq_some.mp h
    exact .inl rfl
  | handle i =>
    obtain ⟨fetch, copy, request, answer, -, -, ⟨fault, -, rfl⟩ | ⟨response, -, verdict, -,
      ⟨remote, -, rfl⟩ | ⟨known, stamp, -, rfl⟩ | ⟨-, rfl⟩ | ⟨fault, -, rfl⟩⟩⟩ := handle_cases h
    · exact .inl rfl
    · exact .inl rfl
    · exact .inl rfl
    · exact .inl (conclude_coop ..)
    · exact .inl (conclude_coop ..)
  | stored i =>
    obtain ⟨fetch, copy, response, remote, -, -, kept, next, -, rfl,
      ⟨fault, -, rfl⟩ | ⟨content, -, ⟨-, rfl⟩ | ⟨-, rfl⟩⟩⟩ := stored_cases h
    · exact .inl (conclude_coop ..)
    · exact .inl rfl
    · exact .inl (conclude_coop ..)
  | copied i =>
    obtain ⟨fetch, copy, response, kept, -, -, next, rfl, ⟨content, -, rfl⟩ | ⟨fault, -, rfl⟩⟩ :=
      copied_cases h
    · exact .inl (conclude_coop ..)
    · exact .inl (conclude_coop ..)
  | verified i =>
    obtain ⟨fetch, copy, response, stamp, -, -, next, rfl, ⟨done, -, rfl⟩ | ⟨fault, -, rfl⟩⟩ :=
      verified_cases h
    · exact .inl (conclude_coop ..)
    · exact .inl (conclude_coop ..)
  | publish i =>
    obtain ⟨fetch, outcome, l, coop, found, hp, hl, hs, rfl⟩ := publish_eq_some.mp h
    exact .inr ⟨_, .publish i l fetch outcome (fetch?_eq_some.mp found).1 hp hl, hs⟩
  | release i =>
    obtain ⟨fetch, l, coop, -, -, -, hs, rfl⟩ := release_eq_some.mp h
    exact .inr ⟨_, .release i l, hs⟩
  | finish i =>
    obtain ⟨fetch, outcome, c, coop, found, hp, hl, hs, rfl⟩ := finish_eq_some.mp h
    exact .inr ⟨_, .finish i c fetch outcome (fetch?_eq_some.mp found).1 hp hl, hs⟩
  | update remote passive active contentMaxAge metadataMaxAge => cases h; exact .inl rfl
  | invalidate => cases h; exact .inl rfl
  | change n =>
    obtain ⟨first, rest, -, rfl⟩ := change_eq_some.mp h
    exact .inl rfl
  | tick nanos => cases h; exact .inr ⟨_, .tick nanos, rfl⟩

/-- No step goes back in time. -/
theorem now_le_of_step {e : ProxyEvent} (h : p.step ops e = some p') :
    p.coop.now ≤ p'.coop.now := by
  obtain hsame | ⟨event, -, hs⟩ := coop_of_step h
  · exact Nat.le_of_eq (by rw [hsame])
  · exact Cooperation.now_le_of_step hs

/-! ## Runs -/

@[simp] theorem run_cons (e : ProxyEvent) (events : List ProxyEvent) :
    p.run ops (e :: events) = (p.step ops e).bind fun p => p.run ops events := rfl

theorem run_append (before after : List ProxyEvent) :
    p.run ops (before ++ after) = (p.run ops before).bind fun p => p.run ops after := by
  induction before generalizing p with
  | nil => rfl
  | cons e rest ih =>
    rw [List.cons_append, run_cons, run_cons]
    cases p.step ops e with
    | none => rfl
    | some p => exact ih

/-- What holds at the start of a run and is kept by each step, with the events before it, holds at
its end. -/
theorem run_invariant {I : List ProxyEvent → Proxy σ → Prop} (start : I [] p)
    (keeps : ∀ {events : List ProxyEvent} {q q' : Proxy σ} {e : ProxyEvent},
      p.run ops events = some q → I events q → q.step ops e = some q' → I (events ++ [e]) q')
    {events : List ProxyEvent} (h : p.run ops events = some p') : I events p' := by
  induction events using List.reverseRecOn generalizing p' with
  | nil =>
    cases h
    exact start
  | append_singleton before e ih =>
    rw [run_append, Option.bind_eq_some_iff] at h
    obtain ⟨q, hq, hstep⟩ := h
    rw [run_cons, Option.bind_eq_some_iff] at hstep
    obtain ⟨q', hq', hend⟩ := hstep
    cases hend
    exact keeps hq (ih hq) hq'

end PullCache.Proxy
