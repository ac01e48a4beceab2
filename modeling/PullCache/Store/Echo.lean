import PullCache.Store.Memory
/-!
# Store.Echo

Two stores for trying things out: one that keeps and gives back exactly what it is given, unread,
and one that fails on demand.
-/

namespace PullCache

/-- A store of contents as they were given. -/
structure EchoStore where
  entries : List (Key × Content) := []
  deriving DecidableEq, Repr

namespace EchoStore

def ops : StoreOps EchoStore where
  lookup e r := (.ok (MemoryStore.find? r.key e.entries), e)
  store e s r c := (.ok c, ⟨MemoryStore.put r.key c e.entries⟩, s)
  verify e r stamp :=
    (.ok (), match MemoryStore.find? r.key e.entries with
      | some c => ⟨MemoryStore.put r.key (c.withStamp stamp) e.entries⟩
      | none => e)

end EchoStore

/-- A store and the faults that its next operations meet, for each kind of operation. -/
structure FaultyStore (σ : Type) where
  inner : σ
  lookups : List StoreFault := []
  stores : List StoreFault := []
  verifications : List StoreFault := []

namespace FaultyStore

def ops (inner : StoreOps σ) : StoreOps (FaultyStore σ) where
  lookup f r :=
    match f.lookups with
    | fault :: rest => (.error fault, { f with lookups := rest })
    | [] =>
      let (found, s) := inner.lookup f.inner r
      (found, { f with inner := s })
  store f streams r c :=
    match f.stores with
    | fault :: rest => (.error fault, { f with stores := rest }, streams)
    | [] =>
      let (kept, s, streams) := inner.store f.inner streams r c
      (kept, { f with inner := s }, streams)
  verify f r stamp :=
    match f.verifications with
    | fault :: rest => (.error fault, { f with verifications := rest })
    | [] =>
      let (done, s) := inner.verify f.inner r stamp
      (done, { f with inner := s })

end FaultyStore

end PullCache
