import Mathlib.Logic.Function.Basic
import PullCache.Proofs.Content.Body
import PullCache.Proofs.Resource
import PullCache.Proofs.Store.Copies
/-!
# Proofs.Store.Shelf

The store in memory as a map. A shelf holds for every path with parameters, in no order, the bytes and
the attributes that were stored last, and whether the bytes are still there. Whatever calls a store is
given, it answers as a shelf does (`calls_eq_shelf`): that records and blobs are two tables, and that a
key is a text, shows nowhere but in the name of a blob that is missing.
-/

namespace PullCache

/-! ## Calls -/

/-- Something to be done with a store. -/
inductive StoreCall where
  | store (r : Resource) (content : Content)
  | lookup (r : Resource)
  | verify (r : Resource) (stamp : Stamp)
  | discard (r : Resource)
  | delete (r : Resource)
  deriving DecidableEq, Repr

/-- What a store says to a call. -/
inductive StoreAnswer where
  | stored (result : Except StoreFault Content)
  | found (result : Except StoreFault (Option Content))
  | verified
  /-- Whether there was anything to drop. -/
  | dropped (any : Bool)

namespace StoreCall

/-- What the call is about. -/
def resource : StoreCall → Resource
  | store r _ | lookup r | verify r _ | discard r | delete r => r

/-- Does one call after the other, from a state; gives the answers and the last state. -/
def all {σ : Type} (perform : StoreCall → σ → StoreAnswer × σ) :
    List StoreCall → σ → List StoreAnswer × σ
  | [], state => ([], state)
  | call :: rest, state =>
    let (answer, state) := perform call state
    let (answers, state) := all perform rest state
    (answer :: answers, state)

/-- Two performers that go from related states to related states with answers that show the same do so
over all calls. -/
theorem all_related {σ τ : Type} {perform : StoreCall → σ → StoreAnswer × σ}
    {perform' : StoreCall → τ → StoreAnswer × τ} {show' : StoreAnswer → StoreAnswer}
    {Related : σ → τ → Prop} {ok : StoreCall → Prop}
    (step : ∀ call state state', ok call → Related state state' →
      show' (perform call state).1 = (perform' call state').1 ∧
        Related (perform call state).2 (perform' call state').2)
    (calls : List StoreCall) (hok : ∀ call ∈ calls, ok call) {state : σ} {state' : τ}
    (h : Related state state') :
    (all perform calls state).1.map show' = (all perform' calls state').1 ∧
      Related (all perform calls state).2 (all perform' calls state').2 := by
  induction calls generalizing state state' with
  | nil => exact ⟨rfl, h⟩
  | cons call rest ih =>
    obtain ⟨hanswer, hnext⟩ := step call state state' (hok call (.head _)) h
    obtain ⟨hanswers, hlast⟩ := ih (fun c hc => hok c (.tail _ hc)) hnext
    exact ⟨congrArg₂ List.cons hanswer hanswers, hlast⟩

end StoreCall

namespace StoreAnswer

/-- The answer without the name of a missing blob. -/
def unnamed : StoreAnswer → StoreAnswer
  | found (.error (.missingBlob path _)) => found (.error (.missingBlob path ""))
  | answer => answer

end StoreAnswer

/-- Does a call to a store. The streams are those that contents are read from. -/
def MemoryStore.perform : StoreCall → MemoryStore × Streams → StoreAnswer × MemoryStore × Streams
  | .store r content, (m, s) =>
    let (result, m, s) := m.store s r content
    (.stored result, m, s)
  | .lookup r, (m, s) => (.found (m.lookup r), m, s)
  | .verify r stamp, (m, s) => (.verified, m.verify r stamp, s)
  | .discard r, (m, s) =>
    let (any, m) := m.discard r
    (.dropped any, m, s)
  | .delete r, (m, s) =>
    let (any, m) := m.delete r
    (.dropped any, m, s)

/-! ## Shelves -/

/-- What is on a shelf for one resource. -/
structure ShelfItem where
  bytes : Bytes
  attributes : Attributes
  /-- Whether the bytes are still there. -/
  present : Bool
  deriving DecidableEq, Repr

/-- A map from paths with parameters to what is there for them. -/
abbrev Shelf := String × Multiset Param → Option ShelfItem

namespace Payload

/-- What a reader gets who has room for `limit` bytes. -/
def fitting (p : Payload) (limit : Nat) (s : Streams) : Except ReadFault (Option Bytes) :=
  match p with
  | buffered bytes => .ok (if limit < bytes.length then none else some bytes)
  | streaming body =>
    if body.declared.any (limit < ·) then .ok none
    else match (s.take body).1 with
      | none => .error .consumed
      | some chunks => Chunk.bounded limit chunks

/-- The streams once the payload has been read by somebody who has room for `limit` bytes: its own is
gone, and so are the pieces up to the one that decides, unless it was given up unread. -/
def spent (p : Payload) (limit : Nat) (s : Streams) : Streams :=
  match p with
  | buffered _ => s
  | streaming body =>
    if body.declared.any (limit < ·) then (s.take body).2
    else match s.take body with
      | (none, after) => after
      | (some chunks, after) => after.pullAll body (Chunk.drawn limit 0 chunks)

/-- Reading with a limit is what the map is read with. -/
theorem readLimited_eq (p : Payload) (limit : Nat) (s : Streams) :
    p.readLimited limit s = (p.fitting limit s, p.spent limit s) := by
  cases p with
  | buffered bytes =>
    simp only [readLimited, length?, Option.any_some, decide_eq_true_eq, release, fitting, spent]
    split <;> rfl
  | streaming body =>
    cases htake : s.take body with
    | mk taken after =>
      simp only [readLimited, length?, release, fitting, spent, htake]
      split
      · rfl
      · cases taken with
        | none => rfl
        | some chunks => exact RemoteBody.readUpTo_nil body limit chunks after

end Payload

namespace Shelf

def empty : Shelf := fun _ => none

/-- Does a call to a shelf that takes up to `limit` bytes for a resource. -/
def perform (limit : Nat) : StoreCall → Shelf × Streams → StoreAnswer × Shelf × Streams
  | .store r content, (shelf, s) =>
    let after := content.payload.spent limit s
    match content.payload.fitting limit s with
    | .error fault => (.stored (.error (.io fault.message)), shelf, after)
    | .ok none =>
      let reason := r.display ++ " is larger than the " ++ toString limit ++ " byte store"
      (.stored (.error (.invalidContent reason)), shelf, after)
    | .ok (some bytes) =>
      (.stored (.ok ⟨.buffered bytes, content.attributes⟩),
        Function.update shelf r.identity (some ⟨bytes, content.attributes, true⟩), after)
  | .lookup r, (shelf, s) =>
    match shelf r.identity with
    | none => (.found (.ok none), shelf, s)
    | some ⟨bytes, attributes, true⟩ => (.found (.ok (some ⟨.buffered bytes, attributes⟩)), shelf, s)
    | some ⟨_, _, false⟩ => (.found (.error (.missingBlob r.display "")), shelf, s)
  | .verify r stamp, (shelf, s) =>
    let stamped (item : ShelfItem) : ShelfItem :=
      { item with attributes := { item.attributes with stamp := some stamp } }
    (.verified, Function.update shelf r.identity ((shelf r.identity).map stamped), s)
  | .discard r, (shelf, s) =>
    (.dropped ((shelf r.identity).any (·.present)),
      Function.update shelf r.identity ((shelf r.identity).map ({ · with present := false })), s)
  | .delete r, (shelf, s) =>
    (.dropped (shelf r.identity).isSome, Function.update shelf r.identity none, s)

/-- All calls of a sequence, from an empty shelf. -/
def calls (limit : Nat) (s : Streams) (all : List StoreCall) :
    List StoreAnswer × Shelf × Streams :=
  StoreCall.all (perform limit) all (empty, s)

end Shelf

namespace MemoryStore

variable {m m' : MemoryStore} {r r' : Resource} {shelf : Shelf}

/-! ## What is there for a resource -/

/-- The record of a resource, with its blob if that is still there. -/
def slot? (m : MemoryStore) (r : Resource) : Option (Record × Option Bytes) :=
  (m.record? r).map fun record => (record, m.blob? record.blob)

/-- Only the key of a resource counts. -/
theorem slot?_congr (h : r'.key = r.key) : m.slot? r' = m.slot? r := by
  rw [slot?, slot?, record?_congr h]

/-- With the same record and the same blob behind it, a slot is the same. -/
theorem slot?_eq_of_same (hrecord : m'.record? r = m.record? r)
    (hblob : ∀ record, m.record? r = some record → m'.blob? record.blob = m.blob? record.blob) :
    m'.slot? r = m.slot? r := by
  rw [slot?, slot?, hrecord]
  cases hr : m.record? r with
  | none => rfl
  | some record => rw [Option.map_some, Option.map_some, hblob record hr]

/-- A lookup reads one slot. -/
theorem lookup_eq (m : MemoryStore) (r : Resource) :
    m.lookup r =
      match m.slot? r with
      | none => .ok none
      | some (record, blob) => (copyOf r record blob).map some := by
  unfold lookup slot?
  cases m.record? r <;> rfl

/-- What is kept fills the slot of its resource. -/
theorem slot?_keep_self (hm : Tidy m) (hcapacity : m.capacity ≠ 0) (bytes : Bytes)
    (attributes : Attributes) :
    (m.keep r bytes attributes).slot? r = some (⟨m.nextBlob, attributes⟩, some bytes) := by
  have hblob := blob?_keep_new (r := r) hm.toWellNumbered hcapacity bytes attributes
  rw [slot?, record?_keep_self rfl, Option.map_some, hblob]

/-- Keeping bytes for one resource leaves the slots of the others alone. -/
theorem slot?_keep_of_ne (hm : Tidy m) (h : r'.key ≠ r.key) (bytes : Bytes)
    (attributes : Attributes) : (m.keep r bytes attributes).slot? r' = m.slot? r' := by
  refine slot?_eq_of_same (record?_keep_of_ne h bytes attributes) fun record hr => ?_
  have hnew : record.blob ≠ m.nextBlob := Nat.ne_of_lt (hm.records r' record hr)
  refine blob?_keep_of_ne hnew (fun previous hp heq => ?_) bytes attributes
  exact h (hm.apart r' r record previous hr hp heq)

/-- Confirming a copy changes the stamp in its slot. -/
theorem slot?_verify_self (stamp : Stamp) :
    (m.verify r stamp).slot? r = (m.slot? r).map fun (record, blob) =>
      ({ record with attributes := { record.attributes with stamp := some stamp } }, blob) := by
  rw [slot?, slot?, record?_verify_self rfl]
  cases m.record? r with
  | none => rfl
  | some record => simp only [Option.map_some, blob?, verify_blobs]

/-- Confirming a copy leaves the other slots alone. -/
theorem slot?_verify_of_ne (h : r'.key ≠ r.key) (stamp : Stamp) :
    (m.verify r stamp).slot? r' = m.slot? r' :=
  slot?_eq_of_same (record?_verify_of_ne h stamp) fun record _ => by
    rw [blob?, verify_blobs, blob?]

/-- A discard leaves the record in the slot and takes the bytes. -/
theorem slot?_discard_self (m : MemoryStore) (r : Resource) :
    (m.discard r).2.slot? r = (m.slot? r).map fun (record, _) => (record, none) := by
  have hrecord : (m.discard r).2.record? r = m.record? r := by
    unfold discard
    cases hr : m.record? r with
    | none => exact hr
    | some record => exact hr
  rw [slot?, slot?, hrecord]
  cases hr : m.record? r with
  | none => rfl
  | some record =>
    have hblob := (dropped_discard m r).blob?_self hr
    rw [Option.map_some, Option.map_some, Option.map_some, hblob]

/-- A delete empties the slot. -/
theorem slot?_delete_self (m : MemoryStore) (r : Resource) : (m.delete r).2.slot? r = none := by
  have hrecord : (m.delete r).2.record? r = none := by
    unfold delete removeRecord
    cases hr : m.record? r <;> exact find?_remove_self _
  rw [slot?, hrecord, Option.map_none]

/-- Dropping for one resource leaves the slots of the others alone. -/
theorem Dropped.slot?_of_ne (h : Dropped m r m') (hm : Tidy m) (hk : r'.key ≠ r.key) :
    m'.slot? r' = m.slot? r' :=
  slot?_eq_of_same (h.record_of_ne r' hk) fun record hr =>
    h.blob?_of_ne fun dropped hd heq => hk (hm.apart r' r record dropped hr hd heq)

/-- A discard tells whether there were bytes. -/
theorem discard_fst (m : MemoryStore) (r : Resource) :
    (m.discard r).1 = (m.slot? r).any (·.2.isSome) := by
  unfold discard slot?
  cases m.record? r <;> rfl

/-- A delete tells whether there was a record. -/
theorem delete_fst (m : MemoryStore) (r : Resource) : (m.delete r).1 = (m.slot? r).isSome := by
  unfold delete removeRecord slot?
  cases m.record? r <;> rfl

/-- The bytes of a resource, if they are still there, and the attributes. -/
def holding? (m : MemoryStore) (r : Resource) : Option (Option Bytes × Attributes) :=
  (m.slot? r).map fun (record, blob) => (blob, record.attributes)

/-! ## One call -/

/-- What a store comes to, in terms of what fits. -/
theorem store_eq (m : MemoryStore) (s : Streams) (r : Resource) (c : Content) :
    m.store s r c =
      match c.payload.fitting m.capacity s with
      | .error fault => (.error (.ofRead fault), m, c.payload.spent m.capacity s)
      | .ok none => (.error (m.tooLarge r), m, c.payload.spent m.capacity s)
      | .ok (some bytes) =>
        (.ok ⟨.buffered bytes, c.attributes⟩, m.keep r bytes c.attributes, c.payload.spent m.capacity s) := by
  unfold store
  rw [Payload.readLimited_eq]
  cases c.payload.fitting m.capacity s with
  | error fault => rfl
  | ok read => cases read <;> rfl

/-- A call leaves the store in order, and what is there for other resources as it is. -/
theorem perform_frame (hm : Tidy m) (call : StoreCall) (s : Streams) :
    Tidy (perform call (m, s)).2.1 ∧ (perform call (m, s)).2.1.capacity = m.capacity ∧
      ∀ r', r'.key ≠ call.resource.key → (perform call (m, s)).2.1.slot? r' = m.slot? r' := by
  cases call with
  | store r content =>
    simp only [perform, store_eq]
    cases content.payload.fitting m.capacity s with
    | error fault => exact ⟨hm, rfl, fun _ _ => rfl⟩
    | ok read =>
      cases read with
      | none => exact ⟨hm, rfl, fun _ _ => rfl⟩
      | some bytes =>
        exact ⟨hm.keep r bytes content.attributes, keep_capacity .., fun r' hne =>
          slot?_keep_of_ne hm hne bytes content.attributes⟩
  | lookup r => exact ⟨hm, rfl, fun _ _ => rfl⟩
  | verify r stamp =>
    exact ⟨hm.verify r stamp, verify_capacity stamp, fun r' hne => slot?_verify_of_ne hne stamp⟩
  | discard r =>
    have hdropped := dropped_discard m r
    exact ⟨hdropped.tidy hm, hdropped.capacity, fun r' hne => hdropped.slot?_of_ne hm hne⟩
  | delete r =>
    have hdropped := dropped_delete m r
    exact ⟨hdropped.tidy hm, hdropped.capacity, fun r' hne => hdropped.slot?_of_ne hm hne⟩

/-! ## A store and its shelf -/

/-- What there is to see of an item. -/
def held (item : ShelfItem) : Option Bytes × Attributes :=
  (if item.present then some item.bytes else none, item.attributes)

/-- A store that holds what the shelf does. -/
structure Shows (m : MemoryStore) (shelf : Shelf) : Prop where
  tidy : Tidy m
  same : ∀ r, r.Built → m.holding? r = (shelf r.identity).map held

/-- An empty store shows an empty shelf. -/
theorem shows_empty (capacity : Nat) : Shows (empty capacity) Shelf.empty where
  tidy := tidy_empty capacity
  same _ _ := rfl

/-- A change for one resource is a change of one item. -/
theorem Shows.update (h : Shows m shelf) (hr : r.Built) (htidy : Tidy m') {item : Option ShelfItem}
    (hself : m'.holding? r = item.map held)
    (hframe : ∀ r', r'.key ≠ r.key → m'.slot? r' = m.slot? r') :
    Shows m' (Function.update shelf r.identity item) where
  tidy := htidy
  same r' hr' := by
    by_cases hk : r'.key = r.key
    · have hidentity : r'.identity = r.identity := (hr'.key_eq_iff hr).mp hk
      rw [holding?, slot?_congr hk, ← holding?, hself, hidentity, Function.update_self]
    · have hidentity : r'.identity ≠ r.identity := fun heq => hk ((hr'.key_eq_iff hr).mpr heq)
      rw [holding?, hframe r' hk, ← holding?, h.same r' hr', Function.update_of_ne hidentity]

/-- The two stand for the same, and their contents are read from the same streams. -/
structure Alike (capacity : Nat) (mine : MemoryStore × Streams) (theirs : Shelf × Streams) :
    Prop where
  shows : Shows mine.1 theirs.1
  capacity : mine.1.capacity = capacity
  streams : mine.2 = theirs.2

/-- A store answers a call as its shelf does, and stands for the same as the shelf afterwards. -/
def SameAfter (m : MemoryStore) (shelf : Shelf) (s : Streams) (call : StoreCall) : Prop :=
  (perform call (m, s)).1.unnamed = (Shelf.perform m.capacity call (shelf, s)).1 ∧
    Alike m.capacity (perform call (m, s)).2 (Shelf.perform m.capacity call (shelf, s)).2

/-- Storing does to the store what it does to the shelf. -/
theorem Shows.store (h : Shows m shelf) (hcapacity : 0 < m.capacity) (hr : r.Built)
    (c : Content) (s : Streams) : SameAfter m shelf s (.store r c) := by
  obtain ⟨htidy, hsame, hframe⟩ := perform_frame h.tidy (.store r c) s
  simp only [SameAfter, MemoryStore.perform, store_eq, Shelf.perform] at htidy hsame hframe ⊢
  cases hread : c.payload.fitting m.capacity s with
  | error fault => exact ⟨rfl, h, rfl, rfl⟩
  | ok read =>
    cases read with
    | none => exact ⟨rfl, h, rfl, rfl⟩
    | some bytes =>
      rw [hread] at htidy hsame hframe
      have hslot := slot?_keep_self (r := r) h.tidy (Nat.ne_of_gt hcapacity) bytes c.attributes
      have hself : (m.keep r bytes c.attributes).holding? r = some (some bytes, c.attributes) := by
        rw [holding?, hslot, Option.map_some]
      exact ⟨rfl, h.update hr htidy hself hframe, hsame, rfl⟩

/-- A lookup tells what is held, and the name of a blob that is missing. -/
theorem found_unnamed (m : MemoryStore) (r : Resource) :
    (StoreAnswer.found (m.lookup r)).unnamed =
      match m.holding? r with
      | none => .found (.ok none)
      | some (some bytes, attributes) => .found (.ok (some ⟨.buffered bytes, attributes⟩))
      | some (none, _) => .found (.error (.missingBlob r.display "")) := by
  rw [lookup_eq, holding?]
  match m.slot? r with
  | none => rfl
  | some (_, some _) => rfl
  | some (_, none) => rfl

/-- A lookup finds in the store what is on the shelf. -/
theorem Shows.lookup (h : Shows m shelf) (hr : r.Built) (s : Streams) :
    SameAfter m shelf s (.lookup r) := by
  simp only [SameAfter, MemoryStore.perform, found_unnamed, h.same r hr, Shelf.perform]
  match shelf r.identity with
  | none => exact ⟨rfl, h, rfl, rfl⟩
  | some ⟨_, _, true⟩ => exact ⟨rfl, h, rfl, rfl⟩
  | some ⟨_, _, false⟩ => exact ⟨rfl, h, rfl, rfl⟩

/-- Confirming does to the store what it does to the shelf. -/
theorem Shows.verify (h : Shows m shelf) (hr : r.Built) (stamp : Stamp) (s : Streams) :
    SameAfter m shelf s (.verify r stamp) := by
  obtain ⟨htidy, hsame, hframe⟩ := perform_frame h.tidy (.verify r stamp) s
  have hself : (m.verify r stamp).holding? r =
      (m.holding? r).map fun (blob, attributes) => (blob, { attributes with stamp := some stamp }) := by
    rw [holding?, holding?, slot?_verify_self, Option.map_map, Option.map_map]
    rfl
  refine ⟨rfl, h.update hr htidy ?_ hframe, hsame, rfl⟩
  rw [show (perform (.verify r stamp) (m, s)).2.1 = m.verify r stamp from rfl, hself, h.same r hr,
    Option.map_map, Option.map_map]
  rfl

/-- A discard does to the store what it does to the shelf. -/
theorem Shows.discard (h : Shows m shelf) (hr : r.Built) (s : Streams) :
    SameAfter m shelf s (.discard r) := by
  obtain ⟨htidy, hsame, hframe⟩ := perform_frame h.tidy (.discard r) s
  have hself : (m.discard r).2.holding? r =
      (m.holding? r).map fun (_, attributes) => (none, attributes) := by
    rw [holding?, holding?, slot?_discard_self, Option.map_map, Option.map_map]
    rfl
  have hany : (m.discard r).1 = (shelf r.identity).any (·.present) := by
    have hheld : (m.discard r).1 = (m.holding? r).any (·.1.isSome) := by
      rw [discard_fst, holding?, Option.any_map]
    rw [hheld, h.same r hr]
    match shelf r.identity with
    | none => rfl
    | some ⟨_, _, true⟩ => rfl
    | some ⟨_, _, false⟩ => rfl
  refine ⟨congrArg StoreAnswer.dropped hany, h.update hr htidy ?_ hframe, hsame, rfl⟩
  rw [show (perform (.discard r) (m, s)).2.1 = (m.discard r).2 from rfl, hself, h.same r hr,
    Option.map_map, Option.map_map]
  rfl

/-- A delete does to the store what it does to the shelf. -/
theorem Shows.delete (h : Shows m shelf) (hr : r.Built) (s : Streams) :
    SameAfter m shelf s (.delete r) := by
  obtain ⟨htidy, hsame, hframe⟩ := perform_frame h.tidy (.delete r) s
  have hself : (m.delete r).2.holding? r = none := by
    rw [holding?, slot?_delete_self, Option.map_none]
  have hany : (m.delete r).1 = (shelf r.identity).isSome := by
    have hheld : (m.delete r).1 = (m.holding? r).isSome := by
      rw [delete_fst, holding?, Option.isSome_map]
    rw [hheld, h.same r hr, Option.isSome_map]
  exact ⟨congrArg StoreAnswer.dropped hany, h.update hr htidy hself hframe, hsame, rfl⟩

/-- Every call does to the store what it does to the shelf. -/
theorem Shows.sameAfter (h : Shows m shelf) (hcapacity : 0 < m.capacity) (call : StoreCall)
    (hbuilt : call.resource.Built) (s : Streams) : SameAfter m shelf s call := by
  cases call with
  | store r content => exact h.store hcapacity hbuilt content s
  | lookup r => exact h.lookup hbuilt s
  | verify r stamp => exact h.verify hbuilt stamp s
  | discard r => exact h.discard hbuilt s
  | delete r => exact h.delete hbuilt s

/-- All calls of a sequence, from an empty store. -/
def calls (capacity : Nat) (s : Streams) (all : List StoreCall) :
    List StoreAnswer × MemoryStore × Streams :=
  StoreCall.all perform all (empty capacity, s)

/-- And so does any sequence of calls. -/
theorem calls_alike {capacity : Nat} (hcapacity : 0 < capacity) (s : Streams)
    (all : List StoreCall) (hbuilt : ∀ call ∈ all, call.resource.Built) :
    (calls capacity s all).1.map StoreAnswer.unnamed = (Shelf.calls capacity s all).1 ∧
      Alike capacity (calls capacity s all).2 (Shelf.calls capacity s all).2 := by
  refine StoreCall.all_related ?_ all hbuilt ⟨shows_empty capacity, rfl, rfl⟩
  rintro call ⟨m, s⟩ ⟨shelf, _⟩ hr ⟨hshows, rfl, rfl⟩
  exact hshows.sameAfter hcapacity call hr s

/-! ## What calls do -/

/-- What calls do to a store, whatever was done to it before. -/
structure Faithful (m : MemoryStore) : Prop where
  /-- Content that cannot be stored leaves everything as it is. -/
  failed : ∀ s r c fault, (m.store s r c).1 = .error fault → (m.store s r c).2.1 = m
  /-- Content that was stored is found again, also where the blob was gone before. -/
  stored : ∀ s r r' c kept, r.Built → r'.Built → r'.identity = r.identity →
    (m.store s r c).1 = .ok kept → (m.store s r c).2.1.lookup r' = .ok (some kept)
  /-- Confirming changes the stamp and nothing else. -/
  verified : ∀ r r' stamp, r.Built → r'.Built → r'.identity = r.identity →
    (m.verify r stamp).lookup r' = (m.lookup r').map (Option.map (·.withStamp stamp))
  /-- No call changes what is there for another resource. -/
  apart : ∀ call s r', call.resource.Built → r'.Built → r'.identity ≠ call.resource.identity →
    (perform call (m, s)).2.1.lookup r' = m.lookup r'

/-- The laws hold in every store that is tidy. -/
theorem Tidy.faithful (hm : Tidy m) (hcapacity : 0 < m.capacity) : Faithful m where
  failed s r c fault h := by
    obtain ⟨bytes, -, hok, -⟩ | ⟨-, hsame⟩ := store_cases m s r c
    · rw [hok] at h
      contradiction
    · exact hsame
  stored s r r' c kept hr hr' heq h := by
    obtain ⟨bytes, -, hok, hkeep⟩ | ⟨⟨fault, herror⟩, -⟩ := store_cases m s r c
    · have hkept : ⟨.buffered bytes, c.attributes⟩ = kept := Except.ok.inj (hok.symm.trans h)
      have hkey : r'.key = r.key := (hr'.key_eq_iff hr).mpr heq
      rw [hkeep, ← hkept]
      exact lookup_keep_self hm.toWellNumbered (Nat.ne_of_gt hcapacity) hkey bytes c.attributes
    · rw [herror] at h
      contradiction
  verified r r' stamp hr hr' heq := by
    have hkey : r'.key = r.key := (hr'.key_eq_iff hr).mpr heq
    rw [lookup_eq, lookup_eq, slot?_congr hkey, slot?_verify_self, slot?_congr hkey]
    match m.slot? r with
    | none => rfl
    | some (_, some _) => rfl
    | some (_, none) => rfl
  apart call s r' hbuilt hr' hne := by
    have hkey : r'.key ≠ call.resource.key := fun heq => hne ((hr'.key_eq_iff hbuilt).mp heq)
    rw [lookup_eq, lookup_eq, (perform_frame hm call s).2.2 r' hkey]

/-- **The store as a map.** Whatever calls are made to a store that was empty, its answers are those of
a shelf, up to the name of a blob that is missing: a lookup finds the bytes and attributes that were
stored last, under the stamp that was noted last, or misses the bytes that were dropped, or finds
nothing. What the store holds afterwards is what is on the shelf, and every further call does what it
should. -/
theorem calls_eq_shelf {capacity : Nat} (hcapacity : 0 < capacity) (s : Streams)
    (all : List StoreCall) (hbuilt : ∀ call ∈ all, call.resource.Built) :
    (calls capacity s all).1.map StoreAnswer.unnamed = (Shelf.calls capacity s all).1 ∧
      (calls capacity s all).2.2 = (Shelf.calls capacity s all).2.2 ∧
      (∀ r : Resource, r.Built → (calls capacity s all).2.1.holding? r =
        ((Shelf.calls capacity s all).2.1 r.identity).map held) ∧
      Faithful (calls capacity s all).2.1 := by
  obtain ⟨hanswers, hshows, hsame, hstreams⟩ := calls_alike hcapacity s all hbuilt
  exact ⟨hanswers, hstreams, hshows.same, hshows.tidy.faithful (by rwa [hsame])⟩

/-- A jar that is stored, dropped, missed, refused because there is too much of it, and stored
again. -/
def revived : List StoreCall :=
  let jar := Resource.ofPath .content "a.jar"
  [.store jar ⟨.buffered [1, 2], {}⟩, .discard jar, .lookup jar, .store jar ⟨.streaming ⟨0, none⟩, {}⟩,
    .store jar ⟨.streaming ⟨1, some 2⟩, {}⟩, .lookup jar]

/-- The streams of the jar: one with three bytes in two pieces, and one with two. -/
def revivedFrom : Streams :=
  { open? := [some [.data [3, 4], .data [5]], some [.data [6, 7]]] }

/-- The jar comes to what the calls say, and the store is in order afterwards. -/
theorem calls_of_revived :
    (calls 2 revivedFrom revived).1.map StoreAnswer.unnamed =
        [.stored (.ok ⟨.buffered [1, 2], {}⟩), .dropped true,
          .found (.error (.missingBlob "a.jar" "")),
          .stored (.error (.invalidContent "a.jar is larger than the 2 byte store")),
          .stored (.ok ⟨.buffered [6, 7], {}⟩), .found (.ok (some ⟨.buffered [6, 7], {}⟩))] ∧
      Faithful (calls 2 revivedFrom revived).2.1 := by
  have hbuilt : ∀ call ∈ revived, call.resource.Built := by
    intro call hcall
    have hjar : call.resource = Resource.ofPath .content "a.jar" := by
      simp only [revived, List.mem_cons, List.not_mem_nil, or_false] at hcall
      obtain rfl | rfl | rfl | rfl | rfl | rfl := hcall <;> rfl
    exact hjar ▸ .ofPath .content "a.jar"
  obtain ⟨hanswers, -, -, hfaithful⟩ := calls_eq_shelf Nat.two_pos revivedFrom revived hbuilt
  exact ⟨hanswers.trans (by rfl), hfaithful⟩

end MemoryStore

end PullCache
