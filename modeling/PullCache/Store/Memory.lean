import PullCache.Store.Basic
/-!
# Store.Memory

The store in memory: records by key, each with its attributes and the number of a blob, and blobs by
number. The two tables are separate, so a blob can be gone while its record is still there.

Content larger than the capacity is refused, and a store without any capacity keeps no blob.
-/

namespace PullCache

/-- What is known of a stored resource, and which blob holds its bytes. -/
structure Record where
  blob : Nat
  attributes : Attributes
  deriving DecidableEq, Repr

/-- Records by key and blobs by number. -/
structure MemoryStore where
  records : List (Key × Record)
  blobs : List (Nat × Bytes)
  nextBlob : Nat
  capacity : Nat
  deriving DecidableEq, Repr

namespace MemoryStore

/-! ## Tables -/

/-- The table without the entry for a key. -/
def remove [DecidableEq κ] (k : κ) (table : List (κ × ν)) : List (κ × ν) :=
  table.filter (fun entry => entry.1 ≠ k)

/-- The table with an entry for a key, in place of any other for it. -/
def put [DecidableEq κ] (k : κ) (v : ν) (table : List (κ × ν)) : List (κ × ν) :=
  remove k table ++ [(k, v)]

/-- The entry for a key. -/
def find? [DecidableEq κ] (k : κ) : List (κ × ν) → Option ν
  | [] => none
  | entry :: rest => if entry.1 = k then some entry.2 else find? k rest

/-! ## Operations on one table -/

def empty (capacity : Nat) : MemoryStore := ⟨[], [], 0, capacity⟩

/-- The number of records, those without a blob included. -/
def assetCount (m : MemoryStore) : Nat := m.records.length

def record? (m : MemoryStore) (r : Resource) : Option Record :=
  find? r.key m.records

def blob? (m : MemoryStore) (n : Nat) : Option Bytes :=
  find? n m.blobs

/-- Keeps a blob under a new number. -/
def insertBlob (m : MemoryStore) (bytes : Bytes) : Nat × MemoryStore :=
  (m.nextBlob,
    { m with
      blobs := if m.capacity = 0 then m.blobs else put m.nextBlob bytes m.blobs
      nextBlob := m.nextBlob + 1 })

def removeBlob (m : MemoryStore) (n : Nat) : MemoryStore :=
  { m with blobs := remove n m.blobs }

/-- Puts the record of a resource in place; the answer is the record that was there. -/
def insertRecord (m : MemoryStore) (r : Resource) (record : Record) :
    Option Record × MemoryStore :=
  (m.record? r, { m with records := put r.key record m.records })

def removeRecord (m : MemoryStore) (r : Resource) : Option Record × MemoryStore :=
  (m.record? r, { m with records := remove r.key m.records })

/-! ## The operations of the store -/

/-- The refusal of content that is larger than the store. -/
def tooLarge (m : MemoryStore) (r : Resource) : StoreFault :=
  .invalidContent (r.display ++ " is larger than the " ++ toString m.capacity ++ " byte store")

/-- What a lookup makes of a record after asking for its blob. -/
def copyOf (r : Resource) (record : Record) (blob : Option Bytes) : Except StoreFault Content :=
  match blob with
  | some bytes => .ok ⟨.buffered bytes, record.attributes⟩
  | none => .error (.missingBlob r.display (toString record.blob))

def lookup (m : MemoryStore) (r : Resource) : Except StoreFault (Option Content) :=
  match m.record? r with
  | none => .ok none
  | some record => (copyOf r record (m.blob? record.blob)).map some

/-- Puts bytes and attributes in place of whatever was stored for a resource. -/
def keep (m : MemoryStore) (r : Resource) (bytes : Bytes) (attributes : Attributes) :
    MemoryStore :=
  let (blob, m) := m.insertBlob bytes
  match m.insertRecord r ⟨blob, attributes⟩ with
  | (some previous, m) => m.removeBlob previous.blob
  | (none, m) => m

/-- Reads the content to its end and keeps it, unless it is too large. -/
def store (m : MemoryStore) (s : Streams) (r : Resource) (c : Content) :
    Except StoreFault Content × MemoryStore × Streams :=
  match c.payload.readLimited m.capacity s with
  | (.error fault, s) => (.error (.ofRead fault), m, s)
  | (.ok none, s) => (.error (m.tooLarge r), m, s)
  | (.ok (some bytes), s) =>
    (.ok ⟨.buffered bytes, c.attributes⟩, m.keep r bytes c.attributes, s)

/-- Changes the stamp of a record, if there is one. -/
def verify (m : MemoryStore) (r : Resource) (stamp : Stamp) : MemoryStore :=
  match m.record? r with
  | none => m
  | some record =>
    let attributes := { record.attributes with stamp := some stamp }
    { m with records := put r.key { record with attributes } m.records }

/-- Drops the blob of a resource but keeps its record. The answer is whether there was one. -/
def discard (m : MemoryStore) (r : Resource) : Bool × MemoryStore :=
  match m.record? r with
  | none => (false, m)
  | some record => ((m.blob? record.blob).isSome, m.removeBlob record.blob)

/-- Drops the record of a resource and its blob. The answer is whether there was one. -/
def delete (m : MemoryStore) (r : Resource) : Bool × MemoryStore :=
  match m.removeRecord r with
  | (some record, m) => (true, m.removeBlob record.blob)
  | (none, m) => (false, m)

/-- The store in memory as the proxy sees it. -/
def ops : StoreOps MemoryStore where
  lookup m r := (m.lookup r, m)
  store := store
  verify m r stamp := (.ok (), m.verify r stamp)

end MemoryStore

end PullCache
