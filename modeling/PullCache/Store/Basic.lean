import PullCache.Content.Basic
import PullCache.Fault
import PullCache.Resource
/-!
# Store.Basic

What the proxy needs of a store of copies: looking one up, keeping one, and noting that the origin
confirmed one. Keeping content may read its body, so the streams take part.
-/

namespace PullCache

/-- The operations of a store with states in `σ`. -/
structure StoreOps (σ : Type) where
  /-- The copy of a resource, if there is one. -/
  lookup : σ → Resource → Except StoreFault (Option Content) × σ
  /-- Keeps content. The answer is the copy that is kept; a store that cannot make one may answer
  with the content itself. -/
  store : σ → Streams → Resource → Content → Except StoreFault Content × σ × Streams
  /-- Notes the stamp of a copy that the origin confirmed. -/
  verify : σ → Resource → Stamp → Except StoreFault Unit × σ

/-- A fault in reading a body, as the store reports it. -/
def StoreFault.ofRead (fault : ReadFault) : StoreFault :=
  .io fault.message

end PullCache
