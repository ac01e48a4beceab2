import PullCache.Proofs.Cooperation.Table
import PullCache.Proofs.Lists
/-!
# Proofs.Cooperation.Calls

What a step does to the calls. `CallMove` lists every way in which an event takes a call from one
phase to the next, with what it saw of the leases on the way; a step lets a new call in, moves one
call, or leaves all of them alone (`step_calls`).

What never changes about a lease is its key, the call whose work it is, and when it started: its
*birth*. A lease is born when a call comes in and the table has nothing for its key, or when a call
takes over.
-/

namespace PullCache

/-- The call that an event is a step of. Work for a lease goes on by itself. -/
def CoopEvent.call? {α : Type} : CoopEvent α → Option Nat
  | .deliver c | .exhaust c | .takeOver c | .timeOut c | .finish c _ | .drop c => some c
  | _ => none

namespace Cooperation

variable {α : Type} {s s' : Cooperation α} {e : CoopEvent α} {c l : Nat}

/-! ## Births of leases -/

/-- The key of each lease, the call whose work it is, and when it started. -/
def births (s : Cooperation α) : List (Key × Nat × Nat) :=
  s.leases.map fun lease => (lease.key, lease.leader, lease.started)

/-- The birth of a lease is its key, its leader and the time at which it started. -/
theorem births_eq_some {k : Key} {t : Nat} :
    s.births[l]? = some (k, c, t) ↔ ∃ lease, s.leases[l]? = some lease ∧
      lease.key = k ∧ lease.leader = c ∧ lease.started = t := by
  simp only [births, List.getElem?_map, Option.map_eq_some_iff, Prod.mk.injEq]

@[simp] theorem length_births : s.births.length = s.leases.length := by
  simp [births]

/-- A change of a lease that keeps its key, its leader and its start keeps the births. -/
theorem births_modify {f : Lease α → Lease α} (h : s'.leases = s.leases.modify l f)
    (keeps : ∀ x, (f x).key = x.key ∧ (f x).leader = x.leader ∧ (f x).started = x.started) :
    s'.births = s.births := by
  rw [births, births, h]
  exact map_modify_of_keeps (fun x => by simp only [keeps x]) _ _

@[simp] theorem births_countWaiter (change : Int) : (s.countWaiter l change).births = s.births :=
  births_modify rfl fun _ => ⟨rfl, rfl, rfl⟩

/-- A new lease adds the last birth. -/
@[simp] theorem births_startLease (k : Key) (recheck : Bool) :
    (s.startLease k c recheck).births = s.births ++ [(k, c, s.now)] := by
  simp [births, startLease]

@[simp] theorem births_setPhase (phase : CallPhase α) : (s.setPhase c phase).births = s.births := rfl

@[simp] theorem births_leave (phase next : CallPhase α) :
    (s.leave c phase next).births = s.births := by
  rw [leave_eq]
  cases phase.followed? with
  | none => rfl
  | some l => exact births_countWaiter (-1)

/-! ## Moves of a call -/

/-- How an event takes a call to its next phase. -/
inductive CallMove (s s' : Cooperation α) (c : Nat) (call : Call α) :
    CoopEvent α → CallPhase α → Prop where
  | delivered (l : Nat) (outcome : Except Fault α) (waits : call.phase.lease? = some l)
      (published : s.outcome? l = some outcome) :
    CallMove s s' c call (.deliver c) (.returned outcome)
  | exhausted (l deadline : Nat) (phase : call.phase = .following l deadline)
      (due : deadline ≤ s.now) (pending : s.outcome? l = none) :
    CallMove s s' c call (.exhaust c) (.exhausted l)
  | led (l : Nat) (phase : call.phase = .exhausted l)
      (free : s.registered? call.key = none ∨ s.registered? call.key = some l)
      (births : s'.births = s.births ++ [(call.key, c, s.now)]) :
    CallMove s s' c call (.takeOver c)
      (.leadingTakeover s.leases.length (s.now + call.active.nanos))
  | joined (l other : Nat) (phase : call.phase = .exhausted l) (ne : other ≠ l)
      (held : s.registered? call.key = some other) :
    CallMove s s' c call (.takeOver c) (.joined other (s.now + call.active.nanos))
  | timedOut (l deadline : Nat)
      (phase : call.phase = .leadingTakeover l deadline ∨ call.phase = .joined l deadline)
      (due : deadline ≤ s.now) (pending : s.outcome? l = none) :
    CallMove s s' c call (.timeOut c) (.returned (.error (.timedOut call.key.text call.active)))
  | finished (outcome : Option (Except Fault α)) (phase : call.phase = .alone) :
    CallMove s s' c call (.finish c outcome) ((outcome.map .returned).getD .panicked)
  | dropped (live : call.phase.isLive = true) (settled : ∀ l, call.phase ≠ .exhausted l) :
    CallMove s s' c call (.drop c) .dropped

/-- The first phase of a call that comes in. -/
inductive Entry (s s' : Cooperation α) (k : Key) (passive : Duration) : CallPhase α → Prop where
  | alone (off : passive.nanos = 0) : Entry s s' k passive .alone
  | follows (l : Nat) (on : passive.nanos ≠ 0) (held : s.registered? k = some l) :
    Entry s s' k passive (.following l (s.now + passive.nanos))
  | leads (on : passive.nanos ≠ 0) (free : s.registered? k = none)
      (births : s'.births = s.births ++ [(k, s.calls.length, s.now)]) :
    Entry s s' k passive (.leading s.leases.length)

/-- A step leaves the calls alone, lets a new one in, or moves one. -/
inductive CallStep (s s' : Cooperation α) : CoopEvent α → Prop where
  | same {e : CoopEvent α} (calls : s'.calls = s.calls) : CallStep s s' e
  | arrived (k : Key) (passive active : Duration) (phase : CallPhase α)
      (entry : Entry s s' k passive phase)
      (calls : s'.calls = s.calls ++ [⟨k, passive, active, s.now, phase⟩]) :
    CallStep s s' (.arrive k passive active)
  | move {e : CoopEvent α} (c : Nat) (call : Call α) (phase : CallPhase α)
      (found : s.calls[c]? = some call) (move : CallMove s s' c call e phase)
      (calls : s'.calls = s.calls.modify c fun call => { call with phase }) :
    CallStep s s' e

/-- A step of a call moves it. -/
theorem callMove_of_own (he : e.call? = some c) (h : s.step e = some s') :
    ∃ call phase, s.calls[c]? = some call ∧ CallMove s s' c call e phase ∧
      s'.calls = s.calls.modify c fun call => { call with phase } := by
  cases e with
  | deliver c' =>
    obtain rfl := Option.some.inj he
    obtain ⟨call, l, outcome, found, waits, published, rfl⟩ := deliver_eq_some.mp h
    exact ⟨call, _, found, .delivered l outcome waits published, leave_calls ..⟩
  | exhaust c' =>
    obtain rfl := Option.some.inj he
    obtain ⟨call, l, deadline, found, phase, due, pending, rfl⟩ := exhaust_eq_some.mp h
    exact ⟨call, _, found, .exhausted l deadline phase due pending, leave_calls ..⟩
  | takeOver c' =>
    obtain rfl := Option.some.inj he
    obtain ⟨call, l, found, phase, ⟨free, rfl⟩ | ⟨other, ne, held, rfl⟩⟩ := takeOver_cases h
    · exact ⟨call, _, found, .led l phase free (births_startLease call.key true), rfl⟩
    · exact ⟨call, _, found, .joined l other phase ne held, rfl⟩
  | timeOut c' =>
    obtain rfl := Option.some.inj he
    obtain ⟨call, l, deadline, found, phase, due, pending, rfl⟩ := timeOut_eq_some.mp h
    exact ⟨call, _, found, .timedOut l deadline phase due pending, leave_calls ..⟩
  | finish c' outcome =>
    obtain rfl := Option.some.inj he
    obtain ⟨call, found, phase, rfl⟩ := finish_eq_some.mp h
    exact ⟨call, _, found, .finished outcome phase, rfl⟩
  | drop c' =>
    obtain rfl := Option.some.inj he
    obtain ⟨call, found, live, settled, rfl⟩ := drop_eq_some.mp h
    exact ⟨call, _, found, .dropped live settled, leave_calls ..⟩
  | _ => contradiction

/-- A step moves one call at most, or brings a new one. -/
theorem step_calls (h : s.step e = some s') : CallStep s s' e := by
  cases e with
  | arrive k passive active =>
    cases h
    obtain ⟨off, h⟩ | ⟨on, l, held, h⟩ | ⟨on, free, h⟩ := arrive_cases s k passive active
    · exact .arrived k passive active _ (.alone off) (by rw [h])
    · exact .arrived k passive active _ (.follows l on held) (by rw [h])
    · refine .arrived k passive active _ (.leads on free ?_) (by rw [h])
      rw [h]
      exact births_startLease k false
  | publish l outcome =>
    obtain ⟨lease, -, -, rfl⟩ := publish_eq_some.mp h
    exact .same rfl
  | release l =>
    obtain ⟨lease, -, -, -, rfl⟩ := release_eq_some.mp h
    exact .same rfl
  | tick nanos =>
    cases h
    exact .same rfl
  | deliver c | exhaust c | takeOver c | timeOut c | finish c | drop c =>
    obtain ⟨call, phase, found, move, calls⟩ := callMove_of_own rfl h
    exact .move c call phase found move calls

/-- Only calls that still go on are moved. -/
theorem CallMove.live {call : Call α} {phase : CallPhase α} (h : CallMove s s' c call e phase) :
    call.phase.isLive = true := by
  cases h with
  | delivered l outcome waits =>
    cases hp : call.phase <;> simp [hp, CallPhase.lease?] at waits <;> rfl
  | exhausted l deadline phase => rw [phase]; rfl
  | led l phase => rw [phase]; rfl
  | joined l other phase => rw [phase]; rfl
  | timedOut l deadline phase => obtain phase | phase := phase <;> rw [phase] <;> rfl
  | finished outcome phase => rw [phase]; rfl
  | dropped live => exact live

/-- A call that is there after a step was there before, has just come in, or was moved by the step. -/
theorem CallStep.before {call : Call α} (h : CallStep s s' e) (hc : s'.calls[c]? = some call) :
    s.calls[c]? = some call ∨
      (c = s.calls.length ∧ ∃ k passive active phase, e = .arrive k passive active ∧
        Entry s s' k passive phase ∧ call = ⟨k, passive, active, s.now, phase⟩) ∨
      ∃ before phase, s.calls[c]? = some before ∧ CallMove s s' c before e phase ∧
        call = { before with phase } := by
  cases h with
  | same calls => exact .inl (calls ▸ hc)
  | arrived k passive active phase entry calls =>
    rw [calls, getElem?_concat_eq_some] at hc
    obtain hc | ⟨rfl, rfl⟩ := hc
    · exact .inl hc
    · exact .inr (.inl ⟨rfl, k, passive, active, phase, rfl, entry, rfl⟩)
  | move j before phase found move calls =>
    by_cases hj : j = c
    · subst hj
      rw [calls, List.getElem?_modify_eq, found, Option.map_eq_map, Option.map_some,
        Option.some.injEq] at hc
      exact .inr (.inr ⟨before, phase, found, move, hc.symm⟩)
    · rw [calls, List.getElem?_modify_ne _ _ hj] at hc
      exact .inl hc

/-- A call stays where it is, with its key, its timeouts and the time it came in. Once it has come to
an end, nothing about it changes. -/
theorem call_of_step {call : Call α} (h : s.step e = some s') (hc : s.calls[c]? = some call) :
    ∃ phase, s'.calls[c]? = some { call with phase } ∧
      (call.phase.isLive = false → phase = call.phase) := by
  cases step_calls h with
  | same calls => exact ⟨call.phase, by rw [calls, hc], fun _ => rfl⟩
  | arrived k passive active phase entry calls =>
    have hlt : c < s.calls.length := (List.getElem?_eq_some_iff.mp hc).1
    exact ⟨call.phase, by rw [calls, List.getElem?_append_left hlt, hc], fun _ => rfl⟩
  | move j before phase found move calls =>
    by_cases hj : j = c
    · subst hj
      obtain rfl : before = call := Option.some.inj (found.symm.trans hc)
      refine ⟨phase, by rw [calls, List.getElem?_modify_eq, hc]; rfl, fun hended => ?_⟩
      rw [move.live] at hended
      contradiction
    · exact ⟨call.phase, by rw [calls, List.getElem?_modify_ne _ _ hj, hc], fun _ => rfl⟩

/-! ## Where leases come from -/

/-- The events that start a lease for a key with the work of a call: the call comes in and the table
has nothing for the key, or it takes over. -/
inductive Birth (s : Cooperation α) : CoopEvent α → Key → Nat → Prop where
  | arrival (k : Key) (passive active : Duration) (on : passive.nanos ≠ 0)
      (free : s.registered? k = none) :
    Birth s (.arrive k passive active) k s.calls.length
  | takeover (c : Nat) (call : Call α) (l : Nat) (found : s.calls[c]? = some call)
      (phase : call.phase = .exhausted l)
      (free : s.registered? call.key = none ∨ s.registered? call.key = some l) :
    Birth s (.takeOver c) call.key c

/-- A step starts no lease, or one. -/
theorem step_births (h : s.step e = some s') :
    s'.births = s.births ∨ ∃ k c, s.Birth e k c ∧ s'.births = s.births ++ [(k, c, s.now)] := by
  cases e with
  | arrive k passive active =>
    cases h
    obtain ⟨off, h⟩ | ⟨on, l, held, h⟩ | ⟨on, free, h⟩ := arrive_cases s k passive active
    · exact .inl (by rw [h]; rfl)
    · exact .inl (by rw [h]; exact births_countWaiter 1)
    · exact .inr ⟨k, _, .arrival k passive active on free,
        by rw [h]; exact births_startLease k false⟩
  | publish l outcome =>
    obtain ⟨lease, -, -, rfl⟩ := publish_eq_some.mp h
    exact .inl (births_modify rfl fun _ => ⟨rfl, rfl, rfl⟩)
  | release l =>
    obtain ⟨lease, -, -, -, rfl⟩ := release_eq_some.mp h
    exact .inl (births_modify rfl fun _ => ⟨rfl, rfl, rfl⟩)
  | deliver c =>
    obtain ⟨call, l, outcome, -, -, -, rfl⟩ := deliver_eq_some.mp h
    exact .inl (births_leave ..)
  | exhaust c =>
    obtain ⟨call, l, deadline, -, -, -, -, rfl⟩ := exhaust_eq_some.mp h
    exact .inl (births_leave ..)
  | takeOver c =>
    obtain ⟨call, l, found, phase, ⟨free, rfl⟩ | ⟨other, -, -, rfl⟩⟩ := takeOver_cases h
    · exact .inr ⟨call.key, c, .takeover c call l found phase free, births_startLease call.key true⟩
    · exact .inl (births_countWaiter 1)
  | timeOut c =>
    obtain ⟨call, l, deadline, -, -, -, -, rfl⟩ := timeOut_eq_some.mp h
    exact .inl (births_leave ..)
  | finish c outcome =>
    obtain ⟨call, -, -, rfl⟩ := finish_eq_some.mp h
    exact .inl rfl
  | drop c =>
    obtain ⟨call, -, -, -, rfl⟩ := drop_eq_some.mp h
    exact .inl (births_leave ..)
  | tick nanos =>
    cases h
    exact .inl rfl

/-- No lease changes its birth. -/
theorem births_of_step (h : s.step e = some s') {birth : Key × Nat × Nat}
    (hb : s.births[l]? = some birth) : s'.births[l]? = some birth := by
  have hlt := (List.getElem?_eq_some_iff.mp hb).1
  obtain hsame | ⟨k, c, -, hnew⟩ := step_births h
  · rw [hsame, hb]
  · rw [hnew, List.getElem?_append_left hlt, hb]

/-- A lease that is there after a step was there before, or has just been started. -/
theorem birth_before_step (h : s.step e = some s') {k : Key} {t : Nat}
    (hb : s'.births[l]? = some (k, c, t)) :
    s.births[l]? = some (k, c, t) ∨ l = s.births.length ∧ t = s.now ∧ s.Birth e k c := by
  obtain hsame | ⟨k', c', hbirth, hnew⟩ := step_births h
  · exact .inl (hsame ▸ hb)
  · rw [hnew, getElem?_concat_eq_some] at hb
    obtain hb | ⟨hl, ⟨⟩⟩ := hb
    · exact .inl hb
    · exact .inr ⟨hl, rfl, hbirth⟩

end Cooperation

end PullCache
