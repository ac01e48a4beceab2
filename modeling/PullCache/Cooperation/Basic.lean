import PullCache.Fault
import PullCache.Resource
/-!
# Cooperation.Basic

Sharing work between calls for the same key. The first call for a key leads: its work runs on its
own, so it goes on even if the call is dropped. Later calls follow and wait for the outcome, but no
longer than their passive timeout; then one of them takes over with work of its own, the others join
it, and their waiting is bounded by the active timeout.

A run is a sequence of events, one for each step that can come between the steps of other calls. An
event that is not possible in a state has no result. A lease stands for one run of work; the table
holds, for each key, the lease that new calls wait on. Time is counted in nanoseconds.
-/

namespace PullCache

/-- One run of work for a key. -/
structure Lease (α : Type) where
  key : Key
  /-- The call whose work it is. -/
  leader : Nat
  /-- Whether the work was told to look at the cache again first, as it is after a takeover. -/
  recheck : Bool
  started : Nat
  /-- Calls that wait on the lease as followers. -/
  waiters : Int := 0
  /-- Written once, when the work ends. -/
  outcome : Option (Except Fault α) := none
  /-- Whether the work has ended and given up the key. -/
  released : Bool := false

/-- What a call is doing. Leases are given by number. -/
inductive CallPhase (α : Type) where
  /-- It leads and waits for its own work, for as long as it takes. -/
  | leading (lease : Nat)
  /-- It follows, until a deadline. -/
  | following (lease deadline : Nat)
  /-- Its passive wait has run out with nothing published, and it is about to take over. -/
  | exhausted (lease : Nat)
  /-- It leads after a takeover, until a deadline. -/
  | leadingTakeover (lease deadline : Nat)
  /-- It waits on someone else's takeover, until a deadline. -/
  | joined (lease deadline : Nat)
  /-- Sharing is off, and it runs its own work itself. -/
  | alone
  | returned (result : Except Fault α)
  /-- The work it ran itself panicked. -/
  | panicked
  | dropped

structure Call (α : Type) where
  key : Key
  passive : Duration
  active : Duration
  arrived : Nat
  phase : CallPhase α

/-- Where a piece of work runs: for a lease, or inside the call whose work it is. -/
inductive WorkPlace where
  | lease (l : Nat)
  | call (c : Nat)
  deriving DecidableEq, Repr

/-- Everything that calls share: the leases so far, the table, and the calls themselves. -/
structure Cooperation (α : Type) where
  now : Nat := 0
  leases : List (Lease α) := []
  table : List (Key × Nat) := []
  calls : List (Call α) := []

/-- The steps of a run. Calls and leases are numbered in order. -/
inductive CoopEvent (α : Type) where
  /-- A call comes in with the timeouts of the handle it uses. -/
  | arrive (key : Key) (passive active : Duration)
  /-- The work of a lease ends with a result, or with a panic. -/
  | publish (lease : Nat) (outcome : Option (Except Fault α))
  /-- The work that ended gives up its key. -/
  | release (lease : Nat)
  /-- A waiting call sees the outcome of its lease and returns it. -/
  | deliver (call : Nat)
  /-- The passive wait of a follower runs out. -/
  | exhaust (call : Nat)
  /-- A call whose passive wait ran out becomes a leader or joins one. -/
  | takeOver (call : Nat)
  /-- The wait after a takeover runs out. -/
  | timeOut (call : Nat)
  /-- The work of a call without sharing ends with a result, or with a panic. -/
  | finish (call : Nat) (outcome : Option (Except Fault α))
  /-- The client goes away. -/
  | drop (call : Nat)
  /-- Time passes. -/
  | tick (nanos : Nat)

namespace CallPhase

/-- The lease a call waits on. -/
def lease? : CallPhase α → Option Nat
  | leading l | following l _ | leadingTakeover l _ | joined l _ => some l
  | _ => none

/-- The lease a call waits on as a follower, and is counted for. -/
def followed? : CallPhase α → Option Nat
  | following l _ | joined l _ => some l
  | _ => none

/-- When the present wait of a call runs out. -/
def deadline? : CallPhase α → Option Nat
  | following _ d | leadingTakeover _ d | joined _ d => some d
  | _ => none

/-- Whether the call still goes on. -/
def isLive : CallPhase α → Bool
  | returned _ | panicked | dropped => false
  | _ => true

end CallPhase

namespace Cooperation

/-! ## Looking at a state -/

/-- The lease that the table holds for a key. -/
def registered? (s : Cooperation α) (k : Key) : Option Nat :=
  s.table.lookup k

/-- The number of keys with work. -/
def inFlight (s : Cooperation α) : Nat :=
  s.table.length

/-- The followers that wait on the lease of a key. -/
def waiters (s : Cooperation α) (k : Key) : Int :=
  match s.registered? k >>= fun l => s.leases[l]? with
  | some lease => lease.waiters
  | none => 0

/-- For how long the lease of a key has been there. -/
def leaseAge? (s : Cooperation α) (k : Key) : Option Nat :=
  (s.registered? k >>= fun l => s.leases[l]?).map fun lease => s.now - lease.started

/-- The outcome of a lease, once it is published. -/
def outcome? (s : Cooperation α) (l : Nat) : Option (Except Fault α) :=
  s.leases[l]?.bind (·.outcome)

/-- Work inside a call stops with the call; work for a lease always goes on. -/
def goesOn (s : Cooperation α) : WorkPlace → Bool
  | .lease _ => true
  | .call c => s.calls[c]?.any (·.phase.isLive)

/-! ## Changing parts of a state -/

def setPhase (s : Cooperation α) (c : Nat) (phase : CallPhase α) : Cooperation α :=
  { s with calls := s.calls.modify c fun call => { call with phase } }

def countWaiter (s : Cooperation α) (l : Nat) (change : Int) : Cooperation α :=
  { s with leases := s.leases.modify l fun lease =>
      { lease with waiters := lease.waiters + change } }

/-- A new lease for a key takes the place of any other in the table. -/
def startLease (s : Cooperation α) (k : Key) (leader : Nat) (recheck : Bool) : Cooperation α :=
  { s with
    leases := s.leases ++ [{ key := k, leader, recheck, started := s.now }]
    table := s.table.filter (fun entry => entry.1 ≠ k) ++ [(k, s.leases.length)] }

/-- Ends the wait of a call: a follower no longer counts. -/
def leave (s : Cooperation α) (c : Nat) (phase : CallPhase α) (next : CallPhase α) :
    Cooperation α :=
  match phase.followed? with
  | some l => (s.countWaiter l (-1)).setPhase c next
  | none => s.setPhase c next

/-! ## Steps -/

/-- A call comes in: it runs alone if sharing is off, follows if there is a lease for its key, and
leads otherwise. -/
def arrive (s : Cooperation α) (k : Key) (passive active : Duration) : Cooperation α :=
  let c := s.calls.length
  let enter (s : Cooperation α) (phase : CallPhase α) : Cooperation α :=
    { s with calls := s.calls ++ [⟨k, passive, active, s.now, phase⟩] }
  if passive.nanos = 0 then enter s .alone
  else match s.registered? k with
    | some l => enter (s.countWaiter l 1) (.following l (s.now + passive.nanos))
    | none => enter (s.startLease k c false) (.leading s.leases.length)

/-- The work of a lease ends; a panic counts as being aborted. -/
def publish (s : Cooperation α) (l : Nat) (outcome : Option (Except Fault α)) :
    Option (Cooperation α) := do
  let lease ← s.leases[l]?
  if lease.outcome.isSome then none
  else
    let written := outcome.getD (.error (.aborted lease.key.text))
    some { s with leases := s.leases.modify l fun lease => { lease with outcome := some written } }

/-- Work that ended gives up its key, if the table still holds its lease. -/
def release (s : Cooperation α) (l : Nat) : Option (Cooperation α) := do
  let lease ← s.leases[l]?
  if lease.outcome.isNone || lease.released then none
  else some { s with
    leases := s.leases.modify l fun lease => { lease with released := true }
    table := s.table.filter (fun entry => ¬ (entry.1 = lease.key ∧ entry.2 = l)) }

/-- A call returns the outcome of the lease it waits on. -/
def deliver (s : Cooperation α) (c : Nat) : Option (Cooperation α) := do
  let call ← s.calls[c]?
  let l ← call.phase.lease?
  let outcome ← s.outcome? l
  some (s.leave c call.phase (.returned outcome))

/-- A passive wait runs out at its deadline, unless the outcome is there. -/
def exhaust (s : Cooperation α) (c : Nat) : Option (Cooperation α) := do
  let call ← s.calls[c]?
  match call.phase with
  | .following l deadline =>
    if deadline ≤ s.now ∧ (s.outcome? l).isNone then some (s.leave c call.phase (.exhausted l))
    else none
  | _ => none

/-- A call takes over the lease it waited on in vain, or the key if nobody has it; if someone else
has taken over, it joins. -/
def takeOver (s : Cooperation α) (c : Nat) : Option (Cooperation α) := do
  let call ← s.calls[c]?
  match call.phase with
  | .exhausted l =>
    let deadline := s.now + call.active.nanos
    let lead := (s.startLease call.key c true).setPhase c
      (.leadingTakeover s.leases.length deadline)
    match s.registered? call.key with
    | none => some lead
    | some other =>
      if other = l then some lead
      else some ((s.countWaiter other 1).setPhase c (.joined other deadline))
  | _ => none

/-- The wait after a takeover runs out at its deadline, unless the outcome is there. -/
def timeOut (s : Cooperation α) (c : Nat) : Option (Cooperation α) := do
  let call ← s.calls[c]?
  match call.phase with
  | .leadingTakeover l deadline | .joined l deadline =>
    if deadline ≤ s.now ∧ (s.outcome? l).isNone then
      some (s.leave c call.phase (.returned (.error (.timedOut call.key.text call.active))))
    else none
  | _ => none

/-- The work of a call that runs alone ends. -/
def finish (s : Cooperation α) (c : Nat) (outcome : Option (Except Fault α)) :
    Option (Cooperation α) := do
  let call ← s.calls[c]?
  match call.phase with
  | .alone => some (s.setPhase c (match outcome with
    | some result => .returned result
    | none => .panicked))
  | _ => none

/-- A client goes away while its call waits. -/
def drop (s : Cooperation α) (c : Nat) : Option (Cooperation α) := do
  let call ← s.calls[c]?
  match call.phase with
  | .exhausted _ => none
  | phase => if phase.isLive then some (s.leave c phase .dropped) else none

/-- The state after an event, if the event is possible. -/
def step (s : Cooperation α) : CoopEvent α → Option (Cooperation α)
  | .arrive k passive active => some (s.arrive k passive active)
  | .publish l outcome => s.publish l outcome
  | .release l => s.release l
  | .deliver c => s.deliver c
  | .exhaust c => s.exhaust c
  | .takeOver c => s.takeOver c
  | .timeOut c => s.timeOut c
  | .finish c outcome => s.finish c outcome
  | .drop c => s.drop c
  | .tick nanos => some { s with now := s.now + nanos }

/-- The state after a sequence of events, if all of them are possible in turn. -/
def run (s : Cooperation α) : List (CoopEvent α) → Option (Cooperation α)
  | [] => some s
  | e :: rest => do
    let s ← s.step e
    run s rest

/-! ## Following a run -/

/-- The state after an event that is known to be possible; an impossible event changes nothing. -/
def after (s : Cooperation α) (e : CoopEvent α) : Cooperation α :=
  (s.step e).getD s

/-- The calls that wait on a lease, in order of arrival. -/
def callsOn (s : Cooperation α) (l : Nat) : List Nat :=
  (List.range s.calls.length).filter fun c => (s.calls[c]?.bind (·.phase.lease?)) == some l

/-- What a call does next without anyone else doing anything: it returns an outcome, takes over when
its passive wait is over, or gives up when the wait after that is over. -/
def advance (s : Cooperation α) (c : Nat) : Cooperation α :=
  match s.step (.deliver c) with
  | some s => s
  | none =>
    match s.step (.timeOut c) with
    | some s => s
    | none =>
      match s.step (.exhaust c) with
      | none => s
      | some s =>
        let s := s.after (.takeOver c)
        match s.step (.deliver c) with
        | some s => s
        | none => s.after (.timeOut c)

/-- The timeouts and the table as diagnostics show them. -/
def describe (s : Cooperation α) (passive active : Duration) : String :=
  "Cooperation \x7b passive_timeout: " ++ passive.text ++ ", active_timeout: " ++ active.text
    ++ ", in_flight: " ++ toString s.inFlight ++ " \x7d"

end Cooperation

end PullCache
