import Mathlib.Data.List.Induction
import PullCache.Cooperation.Basic
/-!
# Proofs.Cooperation.Step

What each step of a run of cooperating calls can do.

The first part says which parts of a state the small changes touch. The second part has one lemma
for each operation: when it is possible, and what the state is afterwards. Later modules use these
and never open an operation again. The third part is about what steps do to the leases and to time,
and the last about runs: what one step keeps, a run keeps.
-/

namespace PullCache.Cooperation

variable {α : Type} {s s' : Cooperation α}

/-! ## Parts of a state -/

@[simp] theorem countWaiter_now (l : Nat) (change : Int) : (s.countWaiter l change).now = s.now := rfl

@[simp] theorem countWaiter_calls (l : Nat) (change : Int) :
    (s.countWaiter l change).calls = s.calls := rfl

@[simp] theorem startLease_now (k : Key) (c : Nat) (recheck : Bool) :
    (s.startLease k c recheck).now = s.now := rfl

@[simp] theorem startLease_calls (k : Key) (c : Nat) (recheck : Bool) :
    (s.startLease k c recheck).calls = s.calls := rfl

/-- Leaving a wait first gives up the place among the followers, if the call had one. -/
theorem leave_eq (c : Nat) (phase next : CallPhase α) :
    s.leave c phase next =
      ((phase.followed?.map fun l => s.countWaiter l (-1)).getD s).setPhase c next := by
  unfold leave
  cases phase.followed? <;> rfl

@[simp] theorem leave_now (c : Nat) (phase next : CallPhase α) : (s.leave c phase next).now = s.now := by
  rw [leave_eq]
  cases phase.followed? <;> rfl

@[simp] theorem leave_table (c : Nat) (phase next : CallPhase α) :
    (s.leave c phase next).table = s.table := by
  rw [leave_eq]
  cases phase.followed? <;> rfl

/-- Only the phase of the call changes. -/
@[simp] theorem leave_calls (c : Nat) (phase next : CallPhase α) :
    (s.leave c phase next).calls = s.calls.modify c fun call => { call with phase := next } := by
  rw [leave_eq]
  cases phase.followed? <;> rfl

/-! ## When a step is possible, and what it does -/

/-- A call that comes in runs alone, follows the lease that is there, or leads a new one. -/
theorem arrive_cases (s : Cooperation α) (k : Key) (passive active : Duration) :
    (passive.nanos = 0 ∧ s.arrive k passive active =
      { s with calls := s.calls ++ [⟨k, passive, active, s.now, .alone⟩] }) ∨
    (passive.nanos ≠ 0 ∧ ∃ l, s.registered? k = some l ∧ s.arrive k passive active =
      { s.countWaiter l 1 with
        calls := s.calls ++ [⟨k, passive, active, s.now, .following l (s.now + passive.nanos)⟩] }) ∨
    (passive.nanos ≠ 0 ∧ s.registered? k = none ∧ s.arrive k passive active =
      { s.startLease k s.calls.length false with
        calls := s.calls ++ [⟨k, passive, active, s.now, .leading s.leases.length⟩] }) := by
  unfold arrive
  by_cases hp : passive.nanos = 0
  · exact .inl ⟨hp, by simp [hp]⟩
  · cases hr : s.registered? k with
    | some l => exact .inr (.inl ⟨hp, l, rfl, by simp [hp]⟩)
    | none => exact .inr (.inr ⟨hp, rfl, by simp [hp]⟩)

/-- The outcome that is written when the work of a lease ends; a panic counts as being aborted. -/
def written (lease : Lease α) (outcome : Option (Except Fault α)) : Except Fault α :=
  outcome.getD (.error (.aborted lease.key.text))

/-- Work can end once, and its outcome is written to the lease. -/
theorem publish_eq_some {l : Nat} {outcome : Option (Except Fault α)} :
    s.publish l outcome = some s' ↔ ∃ lease, s.leases[l]? = some lease ∧ lease.outcome = none ∧
      s' = { s with leases := s.leases.modify l fun x =>
        { x with outcome := some (written lease outcome) } } := by
  unfold publish
  cases hl : s.leases[l]? with
  | none => simp
  | some lease => cases ho : lease.outcome <;> simp [ho, written, @eq_comm _ s']

/-- Work that has its outcome gives up its key once, and takes its own lease out of the table. -/
theorem release_eq_some {l : Nat} :
    s.release l = some s' ↔ ∃ lease, s.leases[l]? = some lease ∧ lease.outcome.isSome ∧
      lease.released = false ∧ s' = { s with
        leases := s.leases.modify l fun x => { x with released := true }
        table := s.table.filter (fun entry => ¬ (entry.1 = lease.key ∧ entry.2 = l)) } := by
  unfold release
  cases hl : s.leases[l]? with
  | none => simp
  | some lease => cases ho : lease.outcome <;> cases hr : lease.released <;> simp [ho, hr, @eq_comm _ s']

/-- A call returns the outcome of the lease that it waits on. -/
theorem deliver_eq_some {c : Nat} :
    s.deliver c = some s' ↔ ∃ call l outcome, s.calls[c]? = some call ∧
      call.phase.lease? = some l ∧ s.outcome? l = some outcome ∧
      s' = s.leave c call.phase (.returned outcome) := by
  unfold deliver
  simp only [Option.bind_eq_bind, Option.bind_eq_some_iff, Option.some.injEq, @eq_comm _ s']
  exact ⟨fun ⟨call, hc, l, hl, outcome, ho, h⟩ => ⟨call, l, outcome, hc, hl, ho, h⟩,
    fun ⟨call, l, outcome, hc, hl, ho, h⟩ => ⟨call, hc, l, hl, outcome, ho, h⟩⟩

/-- A passive wait can only run out at its deadline, with nothing published. -/
theorem exhaust_eq_some {c : Nat} :
    s.exhaust c = some s' ↔ ∃ call l deadline, s.calls[c]? = some call ∧
      call.phase = .following l deadline ∧ deadline ≤ s.now ∧ s.outcome? l = none ∧
      s' = s.leave c call.phase (.exhausted l) := by
  unfold exhaust
  cases hc : s.calls[c]? with
  | none => simp
  | some call => cases hp : call.phase <;> simp [hp, @eq_comm _ s', and_assoc]

/-- A call whose passive wait ran out leads with a new lease if its key is free or still held by the
lease it waited on, and joins the other lease otherwise. -/
theorem takeOver_cases {c : Nat} (h : s.takeOver c = some s') :
    ∃ call l, s.calls[c]? = some call ∧ call.phase = .exhausted l ∧
      ((s.registered? call.key = none ∨ s.registered? call.key = some l) ∧
        s' = (s.startLease call.key c true).setPhase c
          (.leadingTakeover s.leases.length (s.now + call.active.nanos)) ∨
      ∃ other, other ≠ l ∧ s.registered? call.key = some other ∧
        s' = (s.countWaiter other 1).setPhase c (.joined other (s.now + call.active.nanos))) := by
  unfold takeOver at h
  cases hc : s.calls[c]? with
  | none => simp [hc] at h
  | some call =>
    cases hp : call.phase with
    | exhausted l =>
      simp only [hc, Option.bind_eq_bind, Option.bind_some, hp] at h
      cases hr : s.registered? call.key with
      | none =>
        simp only [hr, Option.some.injEq] at h
        exact ⟨call, l, rfl, hp, .inl ⟨.inl hr, h.symm⟩⟩
      | some other =>
        simp only [hr] at h
        split at h
        · next he => exact ⟨call, l, rfl, hp, .inl ⟨.inr (he ▸ hr), (Option.some.inj h).symm⟩⟩
        · next he => exact ⟨call, l, rfl, hp, .inr ⟨other, he, hr, (Option.some.inj h).symm⟩⟩
    | _ => simp [hc, hp] at h

/-- A call leads if the key is free, or still held by the lease it waited on in vain. -/
theorem takeOver_of_free {c l : Nat} {call : Call α} (hc : s.calls[c]? = some call)
    (hp : call.phase = .exhausted l)
    (hfree : s.registered? call.key = none ∨ s.registered? call.key = some l) :
    s.takeOver c = some ((s.startLease call.key c true).setPhase c
      (.leadingTakeover s.leases.length (s.now + call.active.nanos))) := by
  obtain hr | hr := hfree <;> simp [takeOver, hc, hp, hr]

/-- A call joins if someone else has taken over before it. -/
theorem takeOver_of_held {c l other : Nat} {call : Call α} (hc : s.calls[c]? = some call)
    (hp : call.phase = .exhausted l) (hne : other ≠ l) (hr : s.registered? call.key = some other) :
    s.takeOver c = some ((s.countWaiter other 1).setPhase c
      (.joined other (s.now + call.active.nanos))) := by
  simp [takeOver, hc, hp, hr, hne]

/-- A second wait can only run out at its deadline, with nothing published. -/
theorem timeOut_eq_some {c : Nat} :
    s.timeOut c = some s' ↔ ∃ call l deadline, s.calls[c]? = some call ∧
      (call.phase = .leadingTakeover l deadline ∨ call.phase = .joined l deadline) ∧
      deadline ≤ s.now ∧ s.outcome? l = none ∧
      s' = s.leave c call.phase (.returned (.error (.timedOut call.key.text call.active))) := by
  unfold timeOut
  cases hc : s.calls[c]? with
  | none => simp
  | some call => cases hp : call.phase <;> simp [hp, @eq_comm _ s', and_assoc]

/-- Work inside a call ends with the call. -/
theorem finish_eq_some {c : Nat} {outcome : Option (Except Fault α)} :
    s.finish c outcome = some s' ↔ ∃ call, s.calls[c]? = some call ∧ call.phase = .alone ∧
      s' = s.setPhase c ((outcome.map .returned).getD .panicked) := by
  unfold finish
  cases hc : s.calls[c]? with
  | none => simp
  | some call => cases hp : call.phase <;> cases outcome <;> simp [hp, @eq_comm _ s']

/-- A client can go away as long as its call waits, but not while it takes over. -/
theorem drop_eq_some {c : Nat} :
    s.drop c = some s' ↔ ∃ call, s.calls[c]? = some call ∧ call.phase.isLive ∧
      (∀ l, call.phase ≠ .exhausted l) ∧ s' = s.leave c call.phase .dropped := by
  unfold drop
  cases hc : s.calls[c]? with
  | none => simp
  | some call => cases hp : call.phase <;> simp [hp, CallPhase.isLive, @eq_comm _ s']

/-! ## What a step does to the leases -/

/-- A step leaves leases and table alone, counts a follower, starts a lease, writes an outcome or
releases a key. -/
inductive LeaseStep (s s' : Cooperation α) : CoopEvent α → Prop where
  | same {e : CoopEvent α} (leases : s'.leases = s.leases) (table : s'.table = s.table) :
    LeaseStep s s' e
  | count {e : CoopEvent α} (l : Nat) (change : Int)
      (leases : s'.leases = s.leases.modify l fun lease =>
        { lease with waiters := lease.waiters + change })
      (table : s'.table = s.table) :
    LeaseStep s s' e
  | start {e : CoopEvent α} (k : Key) (c : Nat) (recheck : Bool)
      (leases : s'.leases = s.leases ++ [{ key := k, leader := c, recheck, started := s.now }])
      (table : s'.table =
        s.table.filter (fun entry => entry.1 ≠ k) ++ [(k, s.leases.length)]) :
    LeaseStep s s' e
  | publish (l : Nat) (outcome : Option (Except Fault α)) (lease : Lease α)
      (found : s.leases[l]? = some lease) (pending : lease.outcome = none)
      (leases : s'.leases = s.leases.modify l fun x =>
        { x with outcome := some (written lease outcome) })
      (table : s'.table = s.table) :
    LeaseStep s s' (.publish l outcome)
  | release (l : Nat) (lease : Lease α) (found : s.leases[l]? = some lease)
      (ended : lease.outcome.isSome) (held : lease.released = false)
      (leases : s'.leases = s.leases.modify l fun x => { x with released := true })
      (table : s'.table = s.table.filter fun entry => ¬ (entry.1 = lease.key ∧ entry.2 = l)) :
    LeaseStep s s' (.release l)

/-- A call that comes in counts as a follower, starts a lease, or touches none. -/
theorem leaseStep_arrive (k : Key) (passive active : Duration) :
    LeaseStep s (s.arrive k passive active) (.arrive k passive active) := by
  obtain ⟨-, h⟩ | ⟨-, l, -, h⟩ | ⟨-, -, h⟩ := arrive_cases s k passive active
  · rw [h]
    exact .same rfl rfl
  · rw [h]
    exact .count l 1 rfl rfl
  · rw [h]
    exact .start k s.calls.length false rfl rfl

/-- A call that stops to wait does not count any more. -/
theorem leaseStep_leave {e : CoopEvent α} (c : Nat) (phase next : CallPhase α) :
    LeaseStep s (s.leave c phase next) e := by
  rw [leave_eq]
  cases phase.followed? with
  | none => exact .same rfl rfl
  | some l => exact .count l (-1) rfl rfl

/-- A call that takes over starts a lease or counts as a follower. -/
theorem leaseStep_takeOver {c : Nat} (h : s.takeOver c = some s') :
    LeaseStep s s' (.takeOver c) := by
  obtain ⟨call, l, -, -, ⟨-, rfl⟩ | ⟨other, -, -, rfl⟩⟩ := takeOver_cases h
  · exact .start call.key c true rfl rfl
  · exact .count other 1 rfl rfl

/-- Every step is one of these. -/
theorem step_leases {e : CoopEvent α} (h : s.step e = some s') : LeaseStep s s' e := by
  cases e with
  | arrive k passive active =>
    cases h
    exact leaseStep_arrive k passive active
  | publish l outcome =>
    obtain ⟨lease, found, pending, rfl⟩ := publish_eq_some.mp h
    exact .publish l outcome lease found pending rfl rfl
  | release l =>
    obtain ⟨lease, found, ended, held, rfl⟩ := release_eq_some.mp h
    exact .release l lease found ended held rfl rfl
  | deliver c =>
    obtain ⟨call, l, outcome, -, -, -, rfl⟩ := deliver_eq_some.mp h
    exact leaseStep_leave ..
  | exhaust c =>
    obtain ⟨call, l, deadline, -, -, -, -, rfl⟩ := exhaust_eq_some.mp h
    exact leaseStep_leave ..
  | takeOver c => exact leaseStep_takeOver h
  | timeOut c =>
    obtain ⟨call, l, deadline, -, -, -, -, rfl⟩ := timeOut_eq_some.mp h
    exact leaseStep_leave ..
  | finish c outcome =>
    obtain ⟨call, -, -, rfl⟩ := finish_eq_some.mp h
    exact .same rfl rfl
  | drop c =>
    obtain ⟨call, -, -, -, rfl⟩ := drop_eq_some.mp h
    exact leaseStep_leave ..
  | tick nanos =>
    cases h
    exact .same rfl rfl

/-- Leases are never taken back, and keep their key; what a lease holds changes only when its
outcome is published and when it is released. -/
theorem lease_of_step {e : CoopEvent α} (h : s.step e = some s') {l : Nat} {lease : Lease α}
    (hl : s.leases[l]? = some lease) :
    ∃ lease', s'.leases[l]? = some lease' ∧ lease'.key = lease.key ∧
      (lease'.outcome = lease.outcome ∨ ∃ outcome, e = .publish l outcome ∧
        lease.outcome = none ∧ lease'.outcome = some (written lease outcome)) ∧
      (lease'.released = lease.released ∨ e = .release l ∧ lease.outcome.isSome) := by
  cases step_leases h with
  | same leases => exact ⟨lease, by rw [leases, hl], rfl, .inl rfl, .inl rfl⟩
  | count l' change leases =>
    by_cases hll : l' = l
    · subst hll
      exact ⟨{ lease with waiters := lease.waiters + change },
        by rw [leases, List.getElem?_modify_eq, hl]; rfl, rfl, .inl rfl, .inl rfl⟩
    · exact ⟨lease, by rw [leases, List.getElem?_modify_ne _ _ hll, hl], rfl, .inl rfl, .inl rfl⟩
  | start k c recheck leases =>
    have hlt : l < s.leases.length := (List.getElem?_eq_some_iff.mp hl).1
    exact ⟨lease, by rw [leases, List.getElem?_append_left hlt, hl], rfl, .inl rfl, .inl rfl⟩
  | publish l' outcome found hfound pending leases =>
    by_cases hll : l' = l
    · subst hll
      cases Option.some.inj (hfound.symm.trans hl)
      exact ⟨{ lease with outcome := some (written lease outcome) },
        by rw [leases, List.getElem?_modify_eq, hl]; rfl, rfl,
        .inr ⟨outcome, rfl, pending, rfl⟩, .inl rfl⟩
    · exact ⟨lease, by rw [leases, List.getElem?_modify_ne _ _ hll, hl], rfl, .inl rfl, .inl rfl⟩
  | release l' found hfound ended held leases =>
    by_cases hll : l' = l
    · subst hll
      cases Option.some.inj (hfound.symm.trans hl)
      exact ⟨{ lease with released := true },
        by rw [leases, List.getElem?_modify_eq, hl]; rfl, rfl, .inl rfl, .inr ⟨rfl, ended⟩⟩
    · exact ⟨lease, by rw [leases, List.getElem?_modify_ne _ _ hll, hl], rfl, .inl rfl, .inl rfl⟩

/-- A lease that is there after a step was there before, or has just been started: its work has
published nothing and holds the key. -/
theorem lease_before_step {e : CoopEvent α} (h : s.step e = some s') {l : Nat} {lease' : Lease α}
    (hl : s'.leases[l]? = some lease') :
    (∃ lease, s.leases[l]? = some lease) ∨
      l = s.leases.length ∧ lease'.outcome = none ∧ lease'.released = false := by
  have hlen : s'.leases.length = s.leases.length ∨ ∃ k c recheck, s'.leases =
      s.leases ++ [{ key := k, leader := c, recheck, started := s.now }] := by
    cases step_leases h with
    | same leases => exact .inl (by rw [leases])
    | count l change leases => exact .inl (by rw [leases, List.length_modify])
    | start k c recheck leases => exact .inr ⟨k, c, recheck, leases⟩
    | publish l outcome lease found pending leases =>
      exact .inl (by rw [leases, List.length_modify])
    | release l lease found ended held leases => exact .inl (by rw [leases, List.length_modify])
  have hlt : l < s'.leases.length := (List.getElem?_eq_some_iff.mp hl).1
  obtain hlen | ⟨k, c, recheck, leases⟩ := hlen
  · exact .inl ⟨_, List.getElem?_eq_getElem (hlen ▸ hlt)⟩
  · rw [leases, List.length_append, List.length_singleton] at hlt
    by_cases hnew : l < s.leases.length
    · exact .inl ⟨_, List.getElem?_eq_getElem hnew⟩
    · obtain rfl : l = s.leases.length := by omega
      rw [leases, List.getElem?_concat_length, Option.some.injEq] at hl
      subst hl
      exact .inr ⟨rfl, rfl, rfl⟩

/-! ## Time -/

/-- How much time an event lets pass. -/
def nanosOf : CoopEvent α → Nat
  | .tick nanos => nanos
  | _ => 0

/-- Only a tick lets time pass. -/
theorem now_of_step {e : CoopEvent α} (h : s.step e = some s') : s'.now = s.now + nanosOf e := by
  cases e with
  | arrive k passive active =>
    cases h
    obtain ⟨-, h⟩ | ⟨-, l, -, h⟩ | ⟨-, -, h⟩ := arrive_cases s k passive active
    · rw [h]; rfl
    · rw [h]; rfl
    · rw [h]; rfl
  | publish l outcome =>
    obtain ⟨lease, -, -, rfl⟩ := publish_eq_some.mp h
    rfl
  | release l =>
    obtain ⟨lease, -, -, -, rfl⟩ := release_eq_some.mp h
    rfl
  | deliver c =>
    obtain ⟨call, l, outcome, -, -, -, rfl⟩ := deliver_eq_some.mp h
    exact leave_now ..
  | exhaust c =>
    obtain ⟨call, l, deadline, -, -, -, -, rfl⟩ := exhaust_eq_some.mp h
    exact leave_now ..
  | takeOver c =>
    obtain ⟨call, l, -, -, ⟨-, rfl⟩ | ⟨other, -, -, rfl⟩⟩ := takeOver_cases h
    · rfl
    · rfl
  | timeOut c =>
    obtain ⟨call, l, deadline, -, -, -, -, rfl⟩ := timeOut_eq_some.mp h
    exact leave_now ..
  | finish c outcome =>
    obtain ⟨call, -, -, rfl⟩ := finish_eq_some.mp h
    rfl
  | drop c =>
    obtain ⟨call, -, -, -, rfl⟩ := drop_eq_some.mp h
    exact leave_now ..
  | tick nanos =>
    cases h
    rfl

/-- Time does not go back. -/
theorem now_le_of_step {e : CoopEvent α} (h : s.step e = some s') : s.now ≤ s'.now := by
  rw [now_of_step h]
  exact Nat.le_add_right ..

/-! ## Runs -/

@[simp] theorem run_cons (e : CoopEvent α) (events : List (CoopEvent α)) :
    s.run (e :: events) = (s.step e).bind fun s => s.run events := rfl

/-- What every step keeps, a run keeps. -/
theorem run_invariant {I : Cooperation α → Prop}
    (preserves : ∀ {s s' : Cooperation α} {e : CoopEvent α}, I s → s.step e = some s' → I s')
    {events : List (CoopEvent α)} (hs : I s) (h : s.run events = some s') : I s' := by
  induction events generalizing s with
  | nil =>
    cases h
    exact hs
  | cons e rest ih =>
    rw [run_cons] at h
    cases he : s.step e with
    | none => simp [he] at h
    | some next =>
      rw [he] at h
      exact ih (preserves hs he) h

theorem run_append (before after : List (CoopEvent α)) :
    s.run (before ++ after) = (s.run before).bind fun s => s.run after := by
  induction before generalizing s with
  | nil => rfl
  | cons e rest ih =>
    rw [List.cons_append, run_cons, run_cons]
    cases s.step e with
    | none => rfl
    | some s => exact ih

/-- The last event of a run leads to its end from where the events before it led to. -/
theorem run_concat_eq_some {events : List (CoopEvent α)} {e : CoopEvent α} :
    s.run (events ++ [e]) = some s' ↔ ∃ q, s.run events = some q ∧ q.step e = some s' := by
  rw [run_append, Option.bind_eq_some_iff]
  refine exists_congr fun q => and_congr_right fun _ => ?_
  rw [run_cons]
  cases q.step e <;> simp [run]

/-- What holds at the start of a run and is kept by each step, with the events before it, holds at
its end. -/
theorem run_history {I : List (CoopEvent α) → Cooperation α → Prop} (start : I [] s)
    (keeps : ∀ {events : List (CoopEvent α)} {q q' : Cooperation α} {e : CoopEvent α},
      s.run events = some q → I events q → q.step e = some q' → I (events ++ [e]) q')
    {events : List (CoopEvent α)} (h : s.run events = some s') : I events s' := by
  induction events using List.reverseRecOn generalizing s' with
  | nil =>
    cases h
    exact start
  | append_singleton before e ih =>
    obtain ⟨q, hq, hstep⟩ := run_concat_eq_some.mp h
    exact keeps hq (ih hq) hstep

/-- The events up to a place of a run lead somewhere, and the others lead on from there. -/
theorem run_split (k : Nat) {events : List (CoopEvent α)} (h : s.run events = some s') :
    ∃ q, s.run (events.take k) = some q ∧ q.run (events.drop k) = some s' := by
  rw [← List.take_append_drop k events, run_append, Option.bind_eq_some_iff] at h
  exact h

end PullCache.Cooperation
