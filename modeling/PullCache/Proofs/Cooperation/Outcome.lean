import PullCache.Proofs.Cooperation.Calls
/-!
# Proofs.Cooperation.Outcome

Who gets which outcome. The work of a lease ends at most once in a run, and what is written then is
the outcome of the lease for good (`outcomes_agree`). A call that shares work returns the outcome of
a lease of its key that it waited on, or that its wait ran out; so all calls that one lease answers
return the same, whether or not the lease was replaced before its work ended.

A call that waits on a lease whose outcome is there can always go on, and steps that wait for nothing
come to an end. Once they have all happened, nobody waits on a lease that is over.
-/

namespace PullCache

/-! ## Steps that are left -/

/-- The steps that a call in a phase can still do by itself, at most. -/
def CallPhase.readySteps {α : Type} : CallPhase α → Nat
  | .following .. => 3
  | .exhausted _ => 2
  | .leading _ | .leadingTakeover .. | .joined .. => 1
  | _ => 0

/-- Work that has ended has its key left to give up. -/
def Lease.readySteps {α : Type} (lease : Lease α) : Nat :=
  if lease.outcome.isSome && !lease.released then 1 else 0

namespace Cooperation

variable {α : Type} {s s' : Cooperation α} {e : CoopEvent α} {events : List (CoopEvent α)}
  {c l : Nat}

/-! ## What happens in a run -/

/-- The ways in which the work of a lease ended, in order: with a result, or with a panic. -/
def endings (events : List (CoopEvent α)) (l : Nat) : List (Option (Except Fault α)) :=
  events.filterMap fun e => match e with
    | .publish l' result => if l' = l then some result else none
    | _ => none

/-- At a place of a run, a call waits on a lease. -/
def WaitsAt (events : List (CoopEvent α)) (k c l : Nat) : Prop :=
  ∃ q call, ({} : Cooperation α).run (events.take k) = some q ∧ q.calls[c]? = some call ∧
    call.phase.lease? = some l

/-- In a run, a call sees the outcome of a lease that it waits on and returns it. -/
def AnsweredBy (events : List (CoopEvent α)) (c l : Nat) : Prop :=
  ∃ k, events[k]? = some (.deliver c) ∧ WaitsAt events k c l

/-- The endings of a run are those of its parts. -/
theorem endings_concat : endings (events ++ [e]) l = endings events l ++ endings [e] l :=
  List.filterMap_append ..

theorem endings_publish (result : Option (Except Fault α)) :
    endings [.publish l result] l = [result] := by
  simp [endings]

/-- Only the end of its work is an ending of a lease. -/
theorem endings_of_ne (h : ∀ result, e ≠ .publish l result) : endings [e] l = [] := by
  cases e with
  | publish l' result =>
    have hl : l' ≠ l := by
      rintro rfl
      exact h result rfl
    simp [endings, hl]
  | _ => rfl

/-- What a call waits on and returns in a run, it waits on and returns in every longer one. -/
theorem AnsweredBy.concat (h : AnsweredBy events c l) : AnsweredBy (events ++ [e]) c l := by
  obtain ⟨k, hk, q, call, hq, hcall, hl⟩ := h
  have hlt := (List.getElem?_eq_some_iff.mp hk).1
  refine ⟨k, by rw [List.getElem?_append_left hlt, hk], q, call, ?_, hcall, hl⟩
  rw [List.take_append_of_le_length (Nat.le_of_lt hlt), hq]

/-- In a run that is longer by an event, a call is answered by that event or was so before. -/
theorem answeredBy_concat (hrun : ({} : Cooperation α).run events = some s)
    (h : AnsweredBy (events ++ [e]) c l) :
    AnsweredBy events c l ∨
      e = .deliver c ∧ ∃ call, s.calls[c]? = some call ∧ call.phase.lease? = some l := by
  obtain ⟨k, hk, q, call, hq, hcall, hl⟩ := h
  obtain hk | ⟨rfl, rfl⟩ := getElem?_concat_eq_some.mp hk
  · have hlt := (List.getElem?_eq_some_iff.mp hk).1
    rw [List.take_append_of_le_length (Nat.le_of_lt hlt)] at hq
    exact .inl ⟨k, hk, q, call, hq, hcall, hl⟩
  · rw [List.take_left, hrun, Option.some.injEq] at hq
    subst hq
    exact .inr ⟨rfl, call, hcall, hl⟩

/-! ## The outcome of a lease -/

/-- An outcome that is published stays. -/
theorem outcome?_of_step (h : s.step e = some s') {outcome : Except Fault α}
    (ho : s.outcome? l = some outcome) : s'.outcome? l = some outcome := by
  obtain ⟨lease, hlease, ho⟩ := Option.bind_eq_some_iff.mp ho
  obtain ⟨lease', hlease', -, hsame | ⟨result, -, hpending, -⟩, -⟩ := lease_of_step h hlease
  · rw [outcome?, hlease', Option.bind_some, hsame, ho]
  · rw [ho] at hpending
    contradiction

/-- An outcome that was written stays as it is. -/
theorem outcome?_of_run (h : s.run events = some s') {outcome : Except Fault α}
    (ho : s.outcome? l = some outcome) : s'.outcome? l = some outcome :=
  run_history (I := fun _ q => q.outcome? l = some outcome) ho
    (fun _ ho hstep => outcome?_of_step hstep ho) h

/-- The outcome of each lease is what the one ending of its work wrote, and work that is not there
has not ended. -/
structure Written (events : List (CoopEvent α)) (s : Cooperation α) : Prop where
  leases : ∀ l lease, s.leases[l]? = some lease →
    (endings events l).map (written lease) = lease.outcome.toList
  others : ∀ l, s.leases.length ≤ l → endings events l = []

/-- Work that is pending has not ended yet. -/
theorem Written.endings_eq_nil (h : Written events s) {lease : Lease α}
    (hl : s.leases[l]? = some lease) (pending : lease.outcome = none) : endings events l = [] := by
  have hnil := h.leases l lease hl
  rw [pending] at hnil
  exact List.map_eq_nil_iff.mp hnil

/-- What is written about a lease hangs on its key and its outcome. -/
theorem written_congr {lease lease' : Lease α} (h : lease'.key = lease.key) :
    written lease' = written lease := by
  funext result
  rw [written, written, h]

theorem length_leases_le_of_step (h : s.step e = some s') : s.leases.length ≤ s'.leases.length := by
  cases step_leases h with
  | same leases => rw [leases]
  | count l change leases => rw [leases, List.length_modify]
  | start k c recheck leases => rw [leases, List.length_append]; exact Nat.le_add_right ..
  | publish l outcome lease found pending leases => rw [leases, List.length_modify]
  | release l lease found ended held leases => rw [leases, List.length_modify]

/-- Every step writes outcomes down as the events tell them. -/
theorem Written.step (h : Written events s) (hstep : s.step e = some s') :
    Written (events ++ [e]) s' where
  leases l lease' hl' := by
    rw [endings_concat]
    obtain ⟨lease, hl⟩ | ⟨rfl, hpending, -⟩ := lease_before_step hstep hl'
    · obtain ⟨found, hfound, hkey, houtcome, -⟩ := lease_of_step hstep hl
      obtain rfl : found = lease' := Option.some.inj (hfound.symm.trans hl')
      rw [written_congr hkey]
      by_cases hends : ∃ result, e = .publish l result
      · obtain ⟨result, rfl⟩ := hends
        obtain ⟨lease'', hl'', hpending, rfl⟩ := publish_eq_some.mp hstep
        obtain rfl : lease'' = lease := Option.some.inj (hl''.symm.trans hl)
        rw [List.getElem?_modify_eq, hl] at hfound
        cases hfound
        rw [h.endings_eq_nil hl hpending, endings_publish]
        rfl
      · rw [endings_of_ne fun result heq => hends ⟨result, heq⟩, List.append_nil, h.leases l lease hl]
        obtain hsame | ⟨result, heq, -⟩ := houtcome
        · rw [hsame]
        · exact absurd ⟨result, heq⟩ hends
    · have hfree : ∀ result, e ≠ .publish s.leases.length result := by
        rintro result rfl
        obtain ⟨lease, hlease, -⟩ := publish_eq_some.mp hstep
        simp at hlease
      rw [h.others _ (Nat.le_refl _), endings_of_ne hfree, hpending]
      rfl
  others l hl := by
    have hle := length_leases_le_of_step hstep
    have hfree : ∀ result, e ≠ .publish l result := by
      rintro result rfl
      obtain ⟨lease, hlease, -⟩ := publish_eq_some.mp hstep
      have hlt := (List.getElem?_eq_some_iff.mp hlease).1
      omega
    rw [endings_concat, h.others l (by omega), endings_of_ne hfree, List.append_nil]

/-- In every state of a run the outcomes are what the events tell. -/
theorem written_of_run (h : ({} : Cooperation α).run events = some s) : Written events s := by
  have hstart : Written [] ({} : Cooperation α) :=
    ⟨fun l lease hl => by simp at hl, fun l _ => rfl⟩
  exact run_history hstart (fun _ hq hstep => hq.step hstep) h

/-- The outcome says that the work was aborted if it panicked, or if that is its result. -/
theorem Written.aborted_iff (h : Written events s) {lease : Lease α}
    (hl : s.leases[l]? = some lease) :
    lease.outcome = some (.error (.aborted lease.key.text)) ↔
      none ∈ endings events l ∨ some (.error (.aborted lease.key.text)) ∈ endings events l := by
  have hmem : lease.outcome = some (.error (.aborted lease.key.text)) ↔
      ∃ result ∈ endings events l, written lease result = .error (.aborted lease.key.text) := by
    rw [← Option.mem_toList, ← h.leases l lease hl, List.mem_map]
  rw [hmem]
  constructor
  · rintro ⟨_ | result, hr, haborted⟩
    · exact .inl hr
    · cases haborted
      exact .inr hr
  · rintro (hr | hr)
    · exact ⟨none, hr, rfl⟩
    · exact ⟨_, hr, rfl⟩

/-! ## What calls return -/

/-- The lease is one for the key. -/
def IsFor (s : Cooperation α) (l : Nat) (k : Key) : Prop :=
  ∃ lease, s.leases[l]? = some lease ∧ lease.key = k

/-- Where a call stands: it waits on leases of its key, runs alone only if sharing is off, and has
returned only what a lease of its key had for an outcome, or that its wait ran out. -/
structure Served (events : List (CoopEvent α)) (s : Cooperation α) (c : Nat) (call : Call α) :
    Prop where
  waits : ∀ l, call.phase.lease? = some l → s.IsFor l call.key
  alone : call.phase = .alone → call.passive.nanos = 0
  returned : ∀ result, call.phase = .returned result → call.passive.nanos ≠ 0 →
    result = .error (.timedOut call.key.text call.active) ∨
      ∃ l, AnsweredBy events c l ∧ s.IsFor l call.key ∧ s.outcome? l = some result

/-- A lease stays the lease of its key. -/
theorem IsFor.step {k : Key} (h : s.IsFor l k) (hstep : s.step e = some s') : s'.IsFor l k := by
  obtain ⟨lease, hl, hkey⟩ := h
  obtain ⟨lease', hl', hkey', -⟩ := lease_of_step hstep hl
  exact ⟨lease', hl', hkey'.trans hkey⟩

theorem isFor_of_births {k : Key} {t : Nat} (h : s.births[l]? = some (k, c, t)) : s.IsFor l k := by
  obtain ⟨lease, hl, hkey, -⟩ := births_eq_some.mp h
  exact ⟨lease, hl, hkey⟩

/-- The table holds leases under their own keys. -/
theorem TableInv.isFor (h : TableInv s) {k : Key} (hr : s.registered? k = some l) :
    s.IsFor l k := by
  obtain ⟨b, hb⟩ := exists_of_latest? (h.registered?_iff.mp hr).1
  rw [getElem?_ledger] at hb
  obtain ⟨lease, hl, hkey⟩ := Option.map_eq_some_iff.mp hb
  exact ⟨lease, hl, congrArg Prod.fst hkey⟩

/-- A call that nothing happens to is served as before. -/
theorem Served.step {call : Call α} (h : Served events s c call) (hstep : s.step e = some s') :
    Served (events ++ [e]) s' c call where
  waits l hl := (h.waits l hl).step hstep
  alone := h.alone
  returned result hresult hon := by
    refine (h.returned result hresult hon).imp_right ?_
    rintro ⟨l, hanswered, hkey, ho⟩
    exact ⟨l, hanswered.concat, hkey.step hstep, outcome?_of_step hstep ho⟩

/-- A call that waits on a lease for its key has returned nothing that would have to be accounted
for. -/
theorem served_of_waits {call : Call α} (hwaits : call.phase.lease? = some l)
    (hfor : s.IsFor l call.key) : Served events s c call where
  waits l' hl' := by
    obtain rfl : l = l' := Option.some.inj (hwaits.symm.trans hl')
    exact hfor
  alone halone := by
    rw [halone] at hwaits
    contradiction
  returned result hresult := by
    rw [hresult] at hwaits
    contradiction

/-- A call that returned is served if its result comes from a lease for its key, or from its
deadline. -/
theorem served_of_returned {call : Call α} {result : Except Fault α}
    (hresult : call.phase = .returned result)
    (h : call.passive.nanos ≠ 0 → result = .error (.timedOut call.key.text call.active) ∨
      ∃ l, AnsweredBy events c l ∧ s.IsFor l call.key ∧ s.outcome? l = some result) :
    Served events s c call where
  waits l hl := by
    rw [hresult] at hl
    contradiction
  alone halone := by
    rw [hresult] at halone
    contradiction
  returned result' hresult' := by
    rw [hresult] at hresult'
    cases hresult'
    exact h

/-- A call that neither waits nor runs work of its own, and has not returned. -/
theorem served_of_quiet {call : Call α} (hwaits : call.phase.lease? = none)
    (halone : call.phase ≠ .alone) (hreturned : ∀ result, call.phase ≠ .returned result) :
    Served events s c call where
  waits l hl := by
    rw [hwaits] at hl
    contradiction
  alone h := absurd h halone
  returned result h := absurd h (hreturned result)

/-- A call that comes in is served right from the start. -/
theorem Entry.served {k : Key} {passive active : Duration} {phase : CallPhase α} {t : Nat}
    (h : Entry s s' k passive phase) (htable : TableInv s) (hstep : s.step e = some s') :
    Served events s' c ⟨k, passive, active, t, phase⟩ := by
  cases h with
  | alone off =>
    constructor
    · intro l hl
      contradiction
    · exact fun _ => off
    · intro result hr
      contradiction
  | follows l on held => exact served_of_waits rfl ((htable.isFor held).step hstep)
  | leads on free births =>
    refine served_of_waits rfl (isFor_of_births (c := s.calls.length) (t := s.now) ?_)
    rw [births, ← length_births]
    exact List.getElem?_concat_length

/-- A call that goes on is served in its next phase. -/
theorem CallMove.served {call : Call α} {phase : CallPhase α} (h : CallMove s s' c call e phase)
    (hrun : ({} : Cooperation α).run events = some s) (hcall : s.calls[c]? = some call)
    (hserved : Served events s c call) (hstep : s.step e = some s') :
    Served (events ++ [e]) s' c { call with phase } := by
  have htable := tableInv_of_run hrun
  cases h with
  | delivered l outcome waits published =>
    refine served_of_returned rfl fun _ => .inr ?_
    refine ⟨l, ⟨events.length, List.getElem?_concat_length, s, call, ?_, hcall, waits⟩,
      (hserved.waits l waits).step hstep, outcome?_of_step hstep published⟩
    rw [List.take_left]
    exact hrun
  | exhausted l deadline phase due pending => exact served_of_quiet rfl nofun nofun
  | led l phase free births =>
    refine served_of_waits rfl (isFor_of_births (c := c) (t := s.now) ?_)
    rw [births, ← length_births]
    exact List.getElem?_concat_length
  | joined l other phase ne held => exact served_of_waits rfl ((htable.isFor held).step hstep)
  | timedOut l deadline phase due pending => exact served_of_returned rfl fun _ => .inl rfl
  | finished outcome phase =>
    have hoff := hserved.alone phase
    cases outcome with
    | some result => exact served_of_returned rfl fun hon => absurd hoff hon
    | none => exact served_of_quiet rfl nofun nofun
  | dropped live settled => exact served_of_quiet rfl nofun nofun

/-- In every state of a run all calls are served. -/
theorem served_of_run (h : ({} : Cooperation α).run events = some s) :
    ∀ c call, s.calls[c]? = some call → Served events s c call := by
  refine run_history (I := fun events s => ∀ c call, s.calls[c]? = some call →
    Served events s c call) (fun c call hc => by simp at hc) ?_ h
  intro events q q' e hq hserved hstep c call hc
  obtain hc | ⟨rfl, k, passive, active, phase, rfl, entry, rfl⟩ | ⟨before, phase, found, move, rfl⟩ :=
    (step_calls hstep).before hc
  · exact (hserved c call hc).step hstep
  · exact entry.served (tableInv_of_run hq) hstep
  · exact move.served hq found (hserved c before found) hstep

/-- A call that was answered by a lease has returned the outcome of the lease. -/
theorem returned_of_answeredBy (h : ({} : Cooperation α).run events = some s)
    (ha : AnsweredBy events c l) :
    ∃ call result, s.calls[c]? = some call ∧ call.phase = .returned result ∧
      s.outcome? l = some result := by
  refine run_history (I := fun events s => ∀ c l, AnsweredBy events c l → ∃ call result,
    s.calls[c]? = some call ∧ call.phase = .returned result ∧ s.outcome? l = some result)
    ?_ ?_ h c l ha
  · rintro c l ⟨k, hk, -⟩
    simp at hk
  · intro events q q' e hq ih hstep c l ha
    obtain ha | ⟨rfl, call, hcall, hl⟩ := answeredBy_concat hq ha
    · obtain ⟨call, result, hcall, hresult, ho⟩ := ih c l ha
      obtain ⟨phase, hcall', hphase⟩ := call_of_step hstep hcall
      have hended : call.phase.isLive = false := by rw [hresult]; rfl
      exact ⟨_, result, hcall', (hphase hended).trans hresult, outcome?_of_step hstep ho⟩
    · obtain ⟨call', l', outcome, hcall', hl', ho, rfl⟩ := deliver_eq_some.mp hstep
      obtain rfl : call' = call := Option.some.inj (hcall'.symm.trans hcall)
      obtain rfl : l' = l := Option.some.inj (hl'.symm.trans hl)
      refine ⟨{ call' with phase := .returned outcome }, outcome, ?_, rfl,
        outcome?_of_step hstep ho⟩
      rw [leave_calls, List.getElem?_modify_eq, hcall]
      rfl

/-! ## Where results come from -/

/-- Every result that is there for a key has a property: the outcomes of its leases, and what its calls
have returned. -/
structure Reports (R : Key → Except Fault α → Prop) (s : Cooperation α) : Prop where
  leases : ∀ (l : Nat) (lease : Lease α) result, s.leases[l]? = some lease →
    lease.outcome = some result → R lease.key result
  calls : ∀ (c : Nat) (call : Call α) result, s.calls[c]? = some call →
    call.phase = .returned result → R call.key result

/-- Results come from works that end; apart from them there are only faults. -/
theorem Reports.step {R : Key → Except Fault α → Prop} (h : Reports R s)
    (hrun : ({} : Cooperation α).run events = some s) (hstep : s.step e = some s')
    (faults : ∀ k fault, R k (.error fault))
    (published : ∀ (l : Nat) (lease : Lease α) result, e = .publish l (some result) →
      s.leases[l]? = some lease → R lease.key result)
    (finished : ∀ (c : Nat) (call : Call α) result, e = .finish c (some result) →
      s.calls[c]? = some call → R call.key result) : Reports R s' where
  leases l lease' result hl' ho' := by
    obtain ⟨lease, hl⟩ | ⟨-, hnew, -⟩ := lease_before_step hstep hl'
    · obtain ⟨next, hnext, hkey, hout, -⟩ := lease_of_step hstep hl
      obtain rfl : next = lease' := Option.some.inj (hnext.symm.trans hl')
      rw [hkey]
      obtain hsame | ⟨outcome, rfl, -, hwritten⟩ := hout
      · exact h.leases l lease result hl (hsame.symm.trans ho')
      · obtain rfl : written lease outcome = result := Option.some.inj (hwritten.symm.trans ho')
        cases outcome with
        | some ended => exact published l lease ended rfl hl
        | none => exact faults ..
    · rw [hnew] at ho'
      contradiction
  calls c call result hc hresult := by
    obtain hbefore | ⟨-, k, passive, active, phase, -, entry, rfl⟩ |
      ⟨before, phase, found, move, rfl⟩ := (step_calls hstep).before hc
    · exact h.calls c call result hbefore hresult
    · cases entry <;> contradiction
    · cases move with
      | delivered l outcome waits hpublished =>
        cases hresult
        obtain ⟨lease, hl, hkey⟩ := (served_of_run hrun c before found).waits l waits
        obtain ⟨lease', hl', ho⟩ := Option.bind_eq_some_iff.mp hpublished
        obtain rfl : lease = lease' := Option.some.inj (hl.symm.trans hl')
        exact hkey ▸ h.leases l lease result hl ho
      | timedOut l deadline =>
        cases hresult
        exact faults ..
      | finished outcome =>
        cases outcome with
        | some ended =>
          cases hresult
          exact finished c before result rfl found
        | none => contradiction
      | _ => contradiction

/-! ## Coming to rest -/

/-- The events that wait for no client, for no work and for no time to pass. -/
def isReady : CoopEvent α → Bool
  | .release _ | .deliver _ | .exhaust _ | .takeOver _ | .timeOut _ => true
  | _ => false

/-- Everything has happened that can happen by itself. -/
def AtRest (s : Cooperation α) : Prop :=
  ∀ e, isReady e = true → s.step e = none

/-- The steps that calls and leases can still do by themselves, at most. -/
def readySteps (s : Cooperation α) : Nat :=
  (s.calls.map fun call => call.phase.readySteps).sum + (s.leases.map Lease.readySteps).sum

/-- A change of phase changes the steps to come by those of the phase. -/
theorem readySteps_setPhase {call : Call α} (hc : s.calls[c]? = some call) (phase : CallPhase α) :
    (s.setPhase c phase).readySteps + call.phase.readySteps = s.readySteps + phase.readySteps := by
  have h := sum_map_modify (w := fun call : Call α => call.phase.readySteps)
    (f := fun call => { call with phase }) hc
  dsimp only at h
  simp only [readySteps, setPhase]
  omega

theorem readySteps_countWaiter (change : Int) : (s.countWaiter l change).readySteps = s.readySteps := by
  have h := map_modify_of_keeps (v := Lease.readySteps)
    (f := fun lease : Lease α => { lease with waiters := lease.waiters + change })
    (fun _ => rfl) s.leases l
  simp only [readySteps, countWaiter, h]

theorem readySteps_startLease (k : Key) (recheck : Bool) :
    (s.startLease k c recheck).readySteps = s.readySteps := by
  simp [readySteps, startLease, Lease.readySteps]

/-- The end of a wait changes the steps to come by those of the phase. -/
theorem readySteps_leave {call : Call α} (hc : s.calls[c]? = some call) (phase next : CallPhase α) :
    (s.leave c phase next).readySteps + call.phase.readySteps = s.readySteps + next.readySteps := by
  rw [leave_eq]
  cases phase.followed? with
  | none => exact readySteps_setPhase hc next
  | some l =>
    have h := readySteps_setPhase (s := s.countWaiter l (-1)) hc next
    rw [readySteps_countWaiter] at h
    exact h

/-- A call that waits has a step to come. -/
theorem one_le_readySteps_of_lease? {phase : CallPhase α} (h : phase.lease? = some l) :
    1 ≤ phase.readySteps := by
  cases phase with
  | leading | following | leadingTakeover | joined => simp [CallPhase.readySteps]
  | exhausted | alone | returned | panicked | dropped => contradiction

/-- Each step that happens by itself leaves fewer of them. -/
theorem readySteps_lt_of_step (he : isReady e = true) (h : s.step e = some s') :
    s'.readySteps < s.readySteps := by
  -- The phase that the step leaves counts more than what comes of it, a new lease included.
  cases e with
  | release l =>
    obtain ⟨lease, hl, hended, hheld, rfl⟩ := release_eq_some.mp h
    have hsum := sum_map_modify (w := Lease.readySteps)
      (f := fun x => { x with released := true }) hl
    have hbefore : lease.readySteps = 1 := by simp [Lease.readySteps, hended, hheld]
    have hafter : Lease.readySteps { lease with released := true } = 0 := by simp [Lease.readySteps]
    simp only [readySteps]
    omega
  | deliver c =>
    obtain ⟨call, l, outcome, hc, hl, -, rfl⟩ := deliver_eq_some.mp h
    have hsum := readySteps_leave hc call.phase (.returned outcome)
    have hone := one_le_readySteps_of_lease? hl
    have hend : (CallPhase.returned outcome).readySteps = 0 := rfl
    omega
  | exhaust c =>
    obtain ⟨call, l, deadline, hc, hp, -, -, rfl⟩ := exhaust_eq_some.mp h
    have hsum := readySteps_leave hc call.phase (.exhausted l)
    rw [hp] at hsum ⊢
    simp only [CallPhase.readySteps] at hsum
    omega
  | takeOver c =>
    obtain ⟨call, l, hc, hp, ⟨-, rfl⟩ | ⟨other, -, -, rfl⟩⟩ := takeOver_cases h
    · have hsum := readySteps_setPhase (s := s.startLease call.key c true) hc
        (.leadingTakeover s.leases.length (s.now + call.active.nanos))
      rw [readySteps_startLease, hp] at hsum
      simp only [CallPhase.readySteps] at hsum
      omega
    · have hsum := readySteps_setPhase (s := s.countWaiter other 1) hc
        (.joined other (s.now + call.active.nanos))
      rw [readySteps_countWaiter, hp] at hsum
      simp only [CallPhase.readySteps] at hsum
      omega
  | timeOut c =>
    obtain ⟨call, l, deadline, hc, hp, -, -, rfl⟩ := timeOut_eq_some.mp h
    have hsum := readySteps_leave hc call.phase
      (.returned (.error (.timedOut call.key.text call.active)))
    have hone : 1 ≤ call.phase.readySteps := by
      obtain hp | hp := hp <;> exact one_le_readySteps_of_lease? (l := l) (by rw [hp]; rfl)
    have hend : (CallPhase.returned (α := α)
      (.error (.timedOut call.key.text call.active))).readySteps = 0 := rfl
    omega
  | _ => contradiction

/-- Steps that happen by themselves come to an end. -/
theorem length_le_readySteps (he : ∀ e ∈ events, isReady e = true) (h : s.run events = some s') :
    events.length ≤ s.readySteps := by
  induction events generalizing s with
  | nil => exact Nat.zero_le _
  | cons e rest ih =>
    rw [run_cons, Option.bind_eq_some_iff] at h
    obtain ⟨q, hstep, hrest⟩ := h
    have hlt := readySteps_lt_of_step (he e List.mem_cons_self) hstep
    have hle := ih (fun e' he' => he e' (List.mem_cons_of_mem e he')) hrest
    rw [List.length_cons]
    omega

/-- A call that is about to take over can always do so. -/
theorem takeOver_ne_none {call : Call α} (hc : s.calls[c]? = some call)
    (hp : call.phase = .exhausted l) : s.takeOver c ≠ none := by
  unfold takeOver
  simp only [hc, hp, Option.bind_eq_bind, Option.bind_some]
  cases s.registered? call.key with
  | none => simp
  | some other => by_cases ho : other = l <;> simp [ho]

/-- At rest, no call waits on a lease whose outcome is there, and none is about to take over. -/
theorem AtRest.pending (h : AtRest s) {call : Call α} (hc : s.calls[c]? = some call) :
    (∀ l, call.phase.lease? = some l → s.outcome? l = none) ∧ ∀ l, call.phase ≠ .exhausted l := by
  constructor
  · intro l hl
    cases ho : s.outcome? l with
    | none => rfl
    | some outcome =>
      have hstep := deliver_eq_some.mpr ⟨call, l, outcome, hc, hl, ho, rfl⟩
      rw [show s.deliver c = none from h (.deliver c) rfl] at hstep
      contradiction
  · intro l hp
    exact takeOver_ne_none hc hp (h (.takeOver c) rfl)

/-! ## Outcomes over whole runs -/

/-- **Outcomes.** In every run:

* The work of each lease ends at most once. Its outcome is there from then on and never changes: it
  is the result of the work, or that the work was aborted in case of a panic.
* A call that shares work returns what a lease of its key that it waited on has for an outcome, or
  that its wait ran out. All calls that one lease answers return the same.
* What can happen by itself comes to an end, and then no call waits on a lease whose outcome is
  there. -/
theorem outcomes_agree (h : ({} : Cooperation α).run events = some s) :
    (∀ l lease, s.leases[l]? = some lease →
      (endings events l).map (written lease) = lease.outcome.toList ∧
      (lease.outcome = some (.error (.aborted lease.key.text)) ↔
        none ∈ endings events l ∨ some (.error (.aborted lease.key.text)) ∈ endings events l)) ∧
    (∀ k q l outcome, ({} : Cooperation α).run (events.take k) = some q →
      q.outcome? l = some outcome → s.outcome? l = some outcome) ∧
    (∀ (c : Nat) (call : Call α) result, s.calls[c]? = some call → call.phase = .returned result →
      call.passive.nanos ≠ 0 →
      result = .error (.timedOut call.key.text call.active) ∨
        ∃ l, AnsweredBy events c l ∧ s.IsFor l call.key ∧ s.outcome? l = some result) ∧
    (∀ c c' l, AnsweredBy events c l → AnsweredBy events c' l →
      ∃ (call call' : Call α) (result : Except Fault α),
      s.calls[c]? = some call ∧ s.calls[c']? = some call' ∧ call.phase = .returned result ∧
      call'.phase = .returned result ∧ s.outcome? l = some result) ∧
    (∀ later s', (∀ e ∈ later, isReady e = true) → s.run later = some s' →
      later.length ≤ s.readySteps) ∧
    (AtRest s → ∀ (c : Nat) (call : Call α), s.calls[c]? = some call →
      (∀ l, call.phase.lease? = some l → s.outcome? l = none) ∧
      ∀ l, call.phase ≠ .exhausted l) := by
  have hwritten := written_of_run h
  refine ⟨fun l lease hl => ⟨hwritten.leases l lease hl, hwritten.aborted_iff hl⟩, ?_,
    fun c call result hc => (served_of_run h c call hc).returned result, ?_,
    fun later s' he hlater => length_le_readySteps he hlater, fun hrest c call hc => hrest.pending hc⟩
  · intro k q l outcome hq ho
    obtain ⟨q', hq', hlater⟩ := run_split k h
    obtain rfl : q' = q := Option.some.inj (hq'.symm.trans hq)
    exact outcome?_of_run hlater ho
  · intro c c' l ha ha'
    -- What the lease has delivered to either is its outcome, and that is written once.
    obtain ⟨call, result, hc, hresult, ho⟩ := returned_of_answeredBy h ha
    obtain ⟨call', result', hc', hresult', ho'⟩ := returned_of_answeredBy h ha'
    obtain rfl : result = result' := Option.some.inj (ho.symm.trans ho')
    exact ⟨call, call', result, hc, hc', hresult, hresult', ho⟩

/-- A leader that is replaced while another call still follows it; it ends with a result, and the
work of its replacement panics. -/
def replacedLeader : List (CoopEvent Nat) :=
  [.arrive ⟨"a"⟩ ⟨5⟩ ⟨9⟩, .arrive ⟨"a"⟩ ⟨5⟩ ⟨9⟩, .arrive ⟨"a"⟩ ⟨8⟩ ⟨9⟩, .tick 5, .exhaust 1,
    .takeOver 1, .publish 0 (some (.ok 3)), .release 0, .deliver 0, .deliver 2, .publish 1 none,
    .release 1, .deliver 1]

/-- Both calls that the replaced leader answers return its result, and the replacement has been
aborted. -/
theorem outcomes_after_replacedLeader :
    ∃ s, ({} : Cooperation Nat).run replacedLeader = some s ∧
      (∃ (call call' : Call Nat) (result : Except Fault Nat),
        s.calls[0]? = some call ∧ s.calls[2]? = some call' ∧ call.phase = .returned result ∧
        call'.phase = .returned result ∧ s.outcome? 0 = some result) ∧
      ∃ lease, s.leases[1]? = some lease ∧
        lease.outcome = some (.error (.aborted lease.key.text)) := by
  have hrun : ({} : Cooperation Nat).run replacedLeader = some _ := rfl
  obtain ⟨hleases, -, -, hagree, -⟩ := outcomes_agree hrun
  have hleader : AnsweredBy replacedLeader 0 0 := ⟨8, rfl, _, _, rfl, rfl, rfl⟩
  have hfollower : AnsweredBy replacedLeader 2 0 := ⟨9, rfl, _, _, rfl, rfl, rfl⟩
  have hpanic : none ∈ endings replacedLeader 1 := List.mem_singleton.mpr rfl
  exact ⟨_, hrun, hagree 0 2 0 hleader hfollower, _, rfl, (hleases 1 _ rfl).2.mpr (.inl hpanic)⟩

end Cooperation

end PullCache
