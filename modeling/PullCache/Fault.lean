import PullCache.Time.Duration
import PullCache.Time.Timestamp
/-!
# Fault

What can go wrong between a client, the store and the origin, with the message for each cause, and
which faults an old copy may stand in for.
-/

namespace PullCache

/-- Faults of the store of copies. -/
inductive StoreFault where
  /-- There is a record of the resource, but its bytes are gone. -/
  | missingBlob (path blob : String)
  /-- Reading or writing failed. -/
  | io (reason : String)
  /-- The store does not take the content. -/
  | invalidContent (reason : String)
  deriving DecidableEq, Repr

/-- Faults of an exchange with the origin. -/
inductive OriginFault where
  /-- No answer came back. -/
  | transient (url reason : String)
  /-- The origin failed so often that it is left alone for a while. -/
  | blocked (remote : String) (till : Instant)
  /-- The request could not be made. -/
  | invalidRequest (reason : String)
  deriving DecidableEq, Repr

/-- Faults that a client gets to see. Every waiter for one resource gets the same. -/
inductive Fault where
  /-- The origin answered with a status that says it cannot serve. -/
  | originStatus (status : Nat) (url : String)
  | transient (reason : String)
  | blocked (remote : String) (till : Instant)
  /-- An attempt after a takeover took too long. -/
  | timedOut (key : String) (timeout : Duration)
  /-- The work for a key ended without an outcome. -/
  | aborted (key : String)
  | store (fault : StoreFault)
  | invalidResponse (reason : String)
  | badRequest (reason : String)
  | configuration (reason : String)
  deriving DecidableEq, Repr

namespace StoreFault

def message : StoreFault → String
  | missingBlob path blob => "Missing blob " ++ blob ++ " for " ++ path
  | io reason => "Storage I/O error: " ++ reason
  | invalidContent reason => "Invalid content: " ++ reason

/-- Whether the store contradicts itself, rather than failing. -/
def isInconsistency : StoreFault → Bool
  | missingBlob .. => true
  | _ => false

end StoreFault

/-- The message of a blocked remote, which names the end of the block. -/
def blockedMessage (remote : String) (till : Instant) : String :=
  "Remote " ++ remote ++ " is blocked until " ++ Timestamp.plainText till

namespace OriginFault

def message : OriginFault → String
  | transient url reason => "Transient fetch failure for " ++ url ++ ": " ++ reason
  | blocked remote till => blockedMessage remote till
  | invalidRequest reason => "Invalid request: " ++ reason

end OriginFault

namespace Fault

def message : Fault → String
  | originStatus status url =>
    "Upstream service returned status " ++ toString status ++ " for " ++ url
  | transient reason => "Transient failure: " ++ reason
  | blocked remote till => blockedMessage remote till
  | timedOut key timeout => "Cooperation timed out after " ++ timeout.text ++ " for " ++ key
  | aborted key => "Cooperation leader for " ++ key ++ " aborted without an outcome"
  | store fault => "Store error: " ++ fault.message
  | invalidResponse reason => "Invalid upstream response: " ++ reason
  | badRequest reason => "Bad request: " ++ reason
  | configuration reason => "Configuration error: " ++ reason

/-- Whether a stale copy may be served in place of the fault: the origin or the store failed, but
neither the request nor the content was at fault. -/
def isDegradable : Fault → Bool
  | originStatus .. | transient _ | blocked .. => true
  | store (.invalidContent _) => false
  | store _ => true
  | _ => false

/-- The status the origin answered with, if that is the fault. -/
def status? : Fault → Option Nat
  | originStatus status _ => some status
  | _ => none

/-- The status a client gets for the fault. -/
def responseStatus : Fault → Nat
  | originStatus .. | transient _ | blocked .. | invalidResponse _ => 502
  | timedOut .. => 504
  | badRequest _ => 400
  | aborted _ | store _ | configuration _ => 500

/-- What a fault of an exchange is to the client: a transport failure keeps its whole message. -/
def ofOrigin : OriginFault → Fault
  | .transient url reason => transient (OriginFault.transient url reason).message
  | .blocked remote till => blocked remote till
  | .invalidRequest reason => badRequest reason

end Fault

end PullCache
