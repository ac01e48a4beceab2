import PullCache.Fault
/-!
# AutoBlock

Leaving an unreachable remote alone. After a run of failed exchanges the remote is blocked for a
fixed time, and requests in that time are refused without touching the network; a remote that is
dead then costs nobody a wait.
-/

namespace PullCache

/-- When to block: whether at all, after how many failures in a row, and for how many seconds. -/
structure BlockPolicy where
  enabled : Bool
  threshold : Nat
  seconds : Nat
  deriving DecidableEq, Repr

namespace BlockPolicy

/-- The policy that never blocks. -/
def disabled : BlockPolicy := ⟨false, 5, 60⟩

end BlockPolicy

/-- Whether requests may reach the remote. -/
inductive BlockStatus where
  | available
  | blocked (till : Instant)
  deriving DecidableEq, Repr

/-- The record of one remote: failures since the last success or block, and the end of the last
block. -/
structure AutoBlock where
  remote : String
  policy : BlockPolicy
  failures : Nat := 0
  till : Option Instant := none
  deriving DecidableEq, Repr

namespace AutoBlock

/-- A record without failures. -/
def new (remote : String) (policy : BlockPolicy) : AutoBlock :=
  { remote, policy }

def status (b : AutoBlock) (now : Instant) : BlockStatus :=
  match b.till with
  | some till => if now.before till then .blocked till else .available
  | none => .available

/-- Refuses a request while the remote is blocked. -/
def check (b : AutoBlock) (now : Instant) : Except OriginFault Unit :=
  match b.status now with
  | .available => .ok ()
  | .blocked till => .error (.blocked b.remote till)

/-- An exchange that brought an answer ends the block and the run of failures. -/
def recordSuccess (b : AutoBlock) : AutoBlock :=
  { b with failures := 0, till := none }

/-- The end of a block that starts now; a block that dates do not reach ends with the last date. -/
def deadline (b : AutoBlock) (now : Instant) : Instant :=
  (now.addSeconds? b.policy.seconds).getD Instant.latest

/-- Counts a failed exchange. The failure that reaches the threshold starts a block, which is the
answer, and a new run. -/
def recordFailure (b : AutoBlock) (now : Instant) : Option Instant × AutoBlock :=
  if !b.policy.enabled then (none, b)
  else
    let failures := min (b.failures + 1) (UInt32.size - 1)
    if failures < b.policy.threshold then (none, { b with failures })
    else
      let till := b.deadline now
      (some till, { b with failures := 0, till := some till })

end AutoBlock

end PullCache
