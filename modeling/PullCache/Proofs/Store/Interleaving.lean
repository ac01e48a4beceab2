import Mathlib.Data.List.Induction
import Mathlib.Logic.Equiv.Basic
import PullCache.Proofs.Lists
import PullCache.Proofs.Store.Shelf
/-!
# Proofs.Store.Interleaving

Calls to the store in memory that run side by side. Each operation touches the records and the blobs in
several steps, one table at a time, and any other call can come in between. A *task* is a call together
with what it has in hand between two steps; a *turn* is one step of a task. The turns of a task that
nobody comes in between are the operation as a whole (`run_turns`).

At any time a blob has one holder: the record that names it, or the task that has put it in place but
not yet listed it, or has taken it out of the records but not yet dropped it (`held?`). A turn makes a
blob for a task, hands one over between a task and a record, or drops one (`Handover`). So no blob is
lost, and none is dropped under a record, unless someone asks for that.
-/

namespace PullCache

/-! ## Tasks -/

/-- A call to a store, with what it has in hand. -/
inductive StoreTask where
  | begun (call : StoreCall)
  /-- The content has been read, and is not too large. -/
  | took (r : Resource) (c : Content) (bytes : Bytes)
  /-- The new blob is there. -/
  | placed (r : Resource) (c : Content) (bytes : Bytes) (blob : Nat)
  /-- The record names the new blob, and the blob it named before is left to drop. -/
  | swapped (r : Resource) (c : Content) (bytes : Bytes) (previous : Nat)
  /-- A lookup has copied the record. -/
  | copied (r : Resource) (record : Record)
  /-- The blob to discard is known. -/
  | chosen (r : Resource) (blob : Nat)
  /-- The record is deleted, and its blob is left to drop. -/
  | unlisted (r : Resource) (blob : Nat)
  | done (call : StoreCall) (answer : StoreAnswer)

namespace StoreTask

/-- The call that the task is. -/
def call : StoreTask → StoreCall
  | begun call | done call _ => call
  | took r c _ | placed r c _ _ | swapped r c _ _ => .store r c
  | copied r _ => .lookup r
  | chosen r _ => .discard r
  | unlisted r _ => .delete r

def isDone : StoreTask → Bool
  | done .. => true
  | _ => false

/-- The blob that is nobody's but the task's. -/
def blob? : StoreTask → Option Nat
  | placed _ _ _ n | swapped _ _ _ n | unlisted _ n => some n
  | _ => none

/-- What a call that kept content says. -/
def kept (r : Resource) (c : Content) (bytes : Bytes) : StoreTask :=
  done (.store r c) (.stored (.ok ⟨.buffered bytes, c.attributes⟩))

/-- The next step of a task: one operation on one table, or the reading of content. -/
def turn (m : MemoryStore) (s : Streams) :
    StoreTask → Option (StoreTask × MemoryStore × Streams)
  | begun (.store r c) =>
    match c.payload.readLimited m.capacity s with
    | (.error fault, s) => some (done (.store r c) (.stored (.error (.ofRead fault))), m, s)
    | (.ok none, s) => some (done (.store r c) (.stored (.error (m.tooLarge r))), m, s)
    | (.ok (some bytes), s) => some (took r c bytes, m, s)
  | took r c bytes =>
    let (blob, m) := m.insertBlob bytes
    some (placed r c bytes blob, m, s)
  | placed r c bytes blob =>
    match m.insertRecord r ⟨blob, c.attributes⟩ with
    | (some previous, m) => some (swapped r c bytes previous.blob, m, s)
    | (none, m) => some (kept r c bytes, m, s)
  | swapped r c bytes previous => some (kept r c bytes, m.removeBlob previous, s)
  | begun (.lookup r) =>
    match m.record? r with
    | some record => some (copied r record, m, s)
    | none => some (done (.lookup r) (.found (.ok none)), m, s)
  | copied r record =>
    let found := (MemoryStore.copyOf r record (m.blob? record.blob)).map some
    some (done (.lookup r) (.found found), m, s)
  | begun (.verify r stamp) => some (done (.verify r stamp) .verified, m.verify r stamp, s)
  | begun (.discard r) =>
    match m.record? r with
    | some record => some (chosen r record.blob, m, s)
    | none => some (done (.discard r) (.dropped false), m, s)
  | chosen r blob =>
    some (done (.discard r) (.dropped (m.blob? blob).isSome), m.removeBlob blob, s)
  | begun (.delete r) =>
    match m.removeRecord r with
    | (some record, m) => some (unlisted r record.blob, m, s)
    | (none, m) => some (done (.delete r) (.dropped false), m, s)
  | unlisted r blob => some (done (.delete r) (.dropped true), m.removeBlob blob, s)
  | done .. => none

end StoreTask

/-- A store in use: its tables, the streams that contents are read from, and all calls so far. -/
structure StoreTraffic where
  store : MemoryStore
  streams : Streams
  tasks : List StoreTask := []

/-- What happens to a store in use. Tasks are numbered in order. -/
inductive TrafficEvent where
  | call (call : StoreCall)
  | turn (task : Nat)

namespace StoreTraffic

open MemoryStore

/-- The state after an event, if the event is possible. -/
def step (q : StoreTraffic) : TrafficEvent → Option StoreTraffic
  | .call call => some { q with tasks := q.tasks ++ [.begun call] }
  | .turn t => do
    let task ← q.tasks[t]?
    let (task, store, streams) ← task.turn q.store q.streams
    some { store, streams, tasks := q.tasks.set t task }

/-- The state after a sequence of events, if all of them are possible in turn. -/
def run (q : StoreTraffic) : List TrafficEvent → Option StoreTraffic
  | [] => some q
  | e :: rest => do
    let q ← q.step e
    run q rest

/-- A new store that nobody has used. -/
def new (capacity : Nat) (streams : Streams) : StoreTraffic :=
  { store := empty capacity, streams }

variable {q q' q'' : StoreTraffic} {e : TrafficEvent} {before events : List TrafficEvent}
  {m m' : MemoryStore} {s s' : Streams} {task task' : StoreTask} {r r' : Resource} {t n capacity : Nat}

/-! ## What a turn can do -/

/-- The turns of the tasks, one for each way in which a task can go on. -/
inductive Turned (m : MemoryStore) (s : Streams) :
    StoreTask → StoreTask → MemoryStore → Streams → Prop where
  | refused (r : Resource) (c : Content) (fault : StoreFault) (after : Streams) :
    Turned m s (.begun (.store r c)) (.done (.store r c) (.stored (.error fault))) m after
  | took (r : Resource) (c : Content) (bytes : Bytes) (after : Streams)
      (fits : (c.payload.readLimited m.capacity s).1 = .ok (some bytes)) :
    Turned m s (.begun (.store r c)) (.took r c bytes) m after
  | placed (r : Resource) (c : Content) (bytes : Bytes) :
    Turned m s (.took r c bytes) (.placed r c bytes m.nextBlob) (m.insertBlob bytes).2 s
  | swapped (r : Resource) (c : Content) (bytes : Bytes) (blob : Nat) (previous : Record)
      (found : m.record? r = some previous) :
    Turned m s (.placed r c bytes blob) (.swapped r c bytes previous.blob)
      { m with records := put r.key ⟨blob, c.attributes⟩ m.records } s
  | listed (r : Resource) (c : Content) (bytes : Bytes) (blob : Nat) (free : m.record? r = none) :
    Turned m s (.placed r c bytes blob) (.kept r c bytes)
      { m with records := put r.key ⟨blob, c.attributes⟩ m.records } s
  | replaced (r : Resource) (c : Content) (bytes : Bytes) (previous : Nat) :
    Turned m s (.swapped r c bytes previous) (.kept r c bytes) (m.removeBlob previous) s
  | missed (r : Resource) (free : m.record? r = none) :
    Turned m s (.begun (.lookup r)) (.done (.lookup r) (.found (.ok none))) m s
  | copied (r : Resource) (record : Record) (found : m.record? r = some record) :
    Turned m s (.begun (.lookup r)) (.copied r record) m s
  | looked (r : Resource) (record : Record) :
    Turned m s (.copied r record)
      (.done (.lookup r) (.found ((copyOf r record (m.blob? record.blob)).map some))) m s
  | verified (r : Resource) (stamp : Stamp) :
    Turned m s (.begun (.verify r stamp)) (.done (.verify r stamp) .verified) (m.verify r stamp) s
  | passed (r : Resource) (free : m.record? r = none) :
    Turned m s (.begun (.discard r)) (.done (.discard r) (.dropped false)) m s
  | chosen (r : Resource) (record : Record) (found : m.record? r = some record) :
    Turned m s (.begun (.discard r)) (.chosen r record.blob) m s
  | discarded (r : Resource) (blob : Nat) :
    Turned m s (.chosen r blob) (.done (.discard r) (.dropped (m.blob? blob).isSome))
      (m.removeBlob blob) s
  | absent (r : Resource) (free : m.record? r = none) :
    Turned m s (.begun (.delete r)) (.done (.delete r) (.dropped false)) (m.removeRecord r).2 s
  | unlisted (r : Resource) (record : Record) (found : m.record? r = some record) :
    Turned m s (.begun (.delete r)) (.unlisted r record.blob) (m.removeRecord r).2 s
  | deleted (r : Resource) (blob : Nat) :
    Turned m s (.unlisted r blob) (.done (.delete r) (.dropped true)) (m.removeBlob blob) s

/-- A turn does what the step of its call says. -/
theorem turned (h : task.turn m s = some (task', m', s')) : Turned m s task task' m' s' := by
  cases task with
  | begun call =>
    cases call with
    | store r c =>
      simp only [StoreTask.turn] at h
      cases hread : c.payload.readLimited m.capacity s with
      | mk read after =>
        rw [hread] at h
        cases read with
        | error fault =>
          cases h
          exact .refused ..
        | ok read =>
          cases read with
          | none =>
            cases h
            exact .refused ..
          | some bytes =>
            cases h
            exact .took r c bytes _ (by rw [hread])
    | lookup r =>
      simp only [StoreTask.turn] at h
      cases hr : m.record? r with
      | none =>
        rw [hr] at h
        cases h
        exact .missed r hr
      | some record =>
        rw [hr] at h
        cases h
        exact .copied r record hr
    | verify r stamp =>
      cases h
      exact .verified r stamp
    | discard r =>
      simp only [StoreTask.turn] at h
      cases hr : m.record? r with
      | none =>
        rw [hr] at h
        cases h
        exact .passed r hr
      | some record =>
        rw [hr] at h
        cases h
        exact .chosen r record hr
    | delete r =>
      simp only [StoreTask.turn, removeRecord] at h
      cases hr : m.record? r with
      | none =>
        rw [hr] at h
        cases h
        exact .absent r hr
      | some record =>
        rw [hr] at h
        cases h
        exact .unlisted r record hr
  | took r c bytes =>
    cases h
    exact .placed r c bytes
  | placed r c bytes blob =>
    simp only [StoreTask.turn, insertRecord] at h
    cases hr : m.record? r with
    | none =>
      rw [hr] at h
      cases h
      exact .listed r c bytes blob hr
    | some previous =>
      rw [hr] at h
      cases h
      exact .swapped r c bytes blob previous hr
  | swapped r c bytes previous =>
    cases h
    exact .replaced r c bytes previous
  | copied r record =>
    cases h
    exact .looked r record
  | chosen r blob =>
    cases h
    exact .discarded r blob
  | unlisted r blob =>
    cases h
    exact .deleted r blob
  | done call answer => contradiction

/-- A turn moves one task, the store and the streams. -/
theorem step_turn_eq_some : q.step (.turn t) = some q' ↔ ∃ task task' store streams,
    q.tasks[t]? = some task ∧ task.turn q.store q.streams = some (task', store, streams) ∧
      q' = { store, streams, tasks := q.tasks.set t task' } := by
  simp only [step, Option.bind_eq_bind, Option.bind_eq_some_iff, Option.some.injEq, Prod.exists,
    @eq_comm _ q']
  exact ⟨fun ⟨task, ht, task', store, streams, hturn, h⟩ => ⟨task, task', store, streams, ht, hturn, h⟩,
    fun ⟨task, task', store, streams, ht, hturn, h⟩ => ⟨task, ht, task', store, streams, hturn, h⟩⟩

/-! ## Runs -/

@[simp] theorem run_cons (e : TrafficEvent) (events : List TrafficEvent) :
    q.run (e :: events) = (q.step e).bind fun q => q.run events := rfl

theorem run_append (before after : List TrafficEvent) :
    q.run (before ++ after) = (q.run before).bind fun q => q.run after := by
  induction before generalizing q with
  | nil => rfl
  | cons e rest ih =>
    rw [List.cons_append, run_cons, run_cons]
    cases q.step e with
    | none => rfl
    | some q => exact ih

/-- The last event of a run leads to its end from where the events before it led to. -/
theorem run_concat_eq_some :
    q.run (events ++ [e]) = some q'' ↔ ∃ q', q.run events = some q' ∧ q'.step e = some q'' := by
  rw [run_append, Option.bind_eq_some_iff]
  refine exists_congr fun q' => and_congr_right fun _ => ?_
  rw [run_cons]
  cases q'.step e <;> simp [run]

/-- What holds at the start of a run and is kept by each step, with the events before it, holds at
its end. -/
theorem run_history {I : List TrafficEvent → StoreTraffic → Prop} (start : I [] q)
    (keeps : ∀ {events : List TrafficEvent} {p p' : StoreTraffic} {e : TrafficEvent},
      q.run events = some p → I events p → p.step e = some p' → I (events ++ [e]) p')
    (h : q.run events = some q') : I events q' := by
  induction events using List.reverseRecOn generalizing q' with
  | nil =>
    cases h
    exact start
  | append_singleton before e ih =>
    obtain ⟨p, hp, hstep⟩ := run_concat_eq_some.mp h
    exact keeps hp (ih hp) hstep

/-- At a place of a run that starts in a state, an event happens in a state. -/
structure Happens (start : StoreTraffic) (events : List TrafficEvent) (i : Nat) (q : StoreTraffic)
    (e : TrafficEvent) : Prop where
  run : start.run (events.take i) = some q
  event : events[i]? = some e

/-! ## Calls that nobody comes in between -/

/-- A task stays the call that it is. -/
theorem Turned.call_eq (h : Turned m s task task' m' s') : task'.call = task.call := by
  cases h <;> rfl

/-- Left to itself, a task comes to its end with an answer. -/
def Finishes (m : MemoryStore) (s : Streams) (task : StoreTask) (answer : StoreAnswer)
    (m' : MemoryStore) (s' : Streams) : Prop :=
  ∃ k, ∀ tasks, ({ store := m, streams := s, tasks := tasks ++ [task] } : StoreTraffic).run
      (List.replicate k (.turn tasks.length)) =
    some { store := m', streams := s', tasks := tasks ++ [.done task.call answer] }

/-- A call that is done finishes with its answer. -/
theorem finishes_done (call : StoreCall) (answer : StoreAnswer) :
    Finishes m s (.done call answer) answer m s :=
  ⟨0, fun _ => rfl⟩

/-- A call that takes a turn finishes as it does afterwards. -/
theorem Finishes.of_turn {m₁ : MemoryStore} {s₁ : Streams} {answer : StoreAnswer}
    (hturn : task.turn m s = some (task', m₁, s₁)) (h : Finishes m₁ s₁ task' answer m' s') :
    Finishes m s task answer m' s' := by
  obtain ⟨k, hrest⟩ := h
  refine ⟨k + 1, fun tasks => ?_⟩
  have hstep : ({ store := m, streams := s, tasks := tasks ++ [task] } : StoreTraffic).step
      (.turn tasks.length) = some { store := m₁, streams := s₁, tasks := tasks ++ [task'] } :=
    step_turn_eq_some.mpr ⟨task, task', m₁, s₁, by simp, hturn, by simp⟩
  rw [List.replicate_succ, run_cons, hstep, ← (turned hturn).call_eq]
  exact hrest tasks

/-- Once the new blob is there, what is left of a store is to list it and to drop the blob before. -/
theorem finishes_placed (m : MemoryStore) (s : Streams) (r : Resource) (c : Content) (bytes : Bytes) :
    Finishes (m.insertBlob bytes).2 s (.placed r c bytes m.nextBlob)
      (.stored (.ok ⟨.buffered bytes, c.attributes⟩)) (m.keep r bytes c.attributes) s := by
  cases hr : (m.insertBlob bytes).2.record? r with
  | none =>
    have hlast : (StoreTask.placed r c bytes m.nextBlob).turn (m.insertBlob bytes).2 s =
        some (.kept r c bytes, m.keep r bytes c.attributes, s) := by
      simp only [StoreTask.turn, keep, insertRecord, insertBlob] at hr ⊢
      rw [hr]
    exact .of_turn hlast (finishes_done ..)
  | some previous =>
    have hswap : (StoreTask.placed r c bytes m.nextBlob).turn (m.insertBlob bytes).2 s =
        some (.swapped r c bytes previous.blob,
          ((m.insertBlob bytes).2.insertRecord r ⟨m.nextBlob, c.attributes⟩).2, s) := by
      simp only [StoreTask.turn, insertRecord, hr]
    have hkeep : ((m.insertBlob bytes).2.insertRecord r ⟨m.nextBlob, c.attributes⟩).2.removeBlob
        previous.blob = m.keep r bytes c.attributes := by
      simp only [keep, insertRecord, insertBlob] at hr ⊢
      rw [hr]
    rw [← hkeep]
    exact .of_turn hswap (.of_turn rfl (finishes_done ..))

/-- The turns of a store make up the operation. -/
theorem finishes_store (m : MemoryStore) (s : Streams) (r : Resource) (c : Content) :
    Finishes m s (.begun (.store r c)) (.stored (m.store s r c).1) (m.store s r c).2.1
      (m.store s r c).2.2 := by
  cases hread : c.payload.readLimited m.capacity s with
  | mk read after =>
    simp only [MemoryStore.store, hread]
    match read with
    | .error fault =>
      have hturn : (StoreTask.begun (.store r c)).turn m s =
          some (.done (.store r c) (.stored (.error (.ofRead fault))), m, after) := by
        simp only [StoreTask.turn, hread]
      exact .of_turn hturn (finishes_done ..)
    | .ok none =>
      have hturn : (StoreTask.begun (.store r c)).turn m s =
          some (.done (.store r c) (.stored (.error (m.tooLarge r))), m, after) := by
        simp only [StoreTask.turn, hread]
      exact .of_turn hturn (finishes_done ..)
    | .ok (some bytes) =>
      have hturn : (StoreTask.begun (.store r c)).turn m s = some (.took r c bytes, m, after) := by
        simp only [StoreTask.turn, hread]
      exact .of_turn hturn (.of_turn rfl (finishes_placed ..))

/-- The turns of a call make up the operation. -/
theorem finishes_begun (m : MemoryStore) (s : Streams) (call : StoreCall) :
    Finishes m s (.begun call) (perform call (m, s)).1 (perform call (m, s)).2.1
      (perform call (m, s)).2.2 := by
  cases call with
  | store r c => exact finishes_store m s r c
  | lookup r =>
    cases hr : m.record? r with
    | none =>
      have hturn : (StoreTask.begun (.lookup r)).turn m s =
          some (.done (.lookup r) (.found (.ok none)), m, s) := by
        simp only [StoreTask.turn, hr]
      simp only [perform, MemoryStore.lookup, hr]
      exact .of_turn hturn (finishes_done ..)
    | some record =>
      have hturn : (StoreTask.begun (.lookup r)).turn m s = some (.copied r record, m, s) := by
        simp only [StoreTask.turn, hr]
      simp only [perform, MemoryStore.lookup, hr]
      exact .of_turn hturn (.of_turn rfl (finishes_done ..))
  | verify r stamp => exact .of_turn rfl (finishes_done ..)
  | discard r =>
    cases hr : m.record? r with
    | none =>
      have hturn : (StoreTask.begun (.discard r)).turn m s =
          some (.done (.discard r) (.dropped false), m, s) := by
        simp only [StoreTask.turn, hr]
      simp only [perform, MemoryStore.discard, hr]
      exact .of_turn hturn (finishes_done ..)
    | some record =>
      have hturn : (StoreTask.begun (.discard r)).turn m s =
          some (.chosen r record.blob, m, s) := by
        simp only [StoreTask.turn, hr]
      simp only [perform, MemoryStore.discard, hr]
      exact .of_turn hturn (.of_turn rfl (finishes_done ..))
  | delete r =>
    cases hr : m.record? r with
    | none =>
      have hturn : (StoreTask.begun (.delete r)).turn m s =
          some (.done (.delete r) (.dropped false), (m.removeRecord r).2, s) := by
        simp only [StoreTask.turn, removeRecord, hr]
      simp only [perform, MemoryStore.delete, removeRecord, hr]
      exact .of_turn hturn (finishes_done ..)
    | some record =>
      have hturn : (StoreTask.begun (.delete r)).turn m s =
          some (.unlisted r record.blob, (m.removeRecord r).2, s) := by
        simp only [StoreTask.turn, removeRecord, hr]
      simp only [perform, MemoryStore.delete, removeRecord, hr]
      exact .of_turn hturn (.of_turn rfl (finishes_done ..))

/-- A call that nobody comes in between is the operation as a whole. -/
theorem run_turns (q : StoreTraffic) (call : StoreCall) :
    ∃ k, q.run (.call call :: List.replicate k (.turn q.tasks.length)) =
      some { store := (perform call (q.store, q.streams)).2.1
             streams := (perform call (q.store, q.streams)).2.2
             tasks := q.tasks ++ [.done call (perform call (q.store, q.streams)).1] } := by
  obtain ⟨k, h⟩ := finishes_begun q.store q.streams call
  exact ⟨k, h q.tasks⟩

/-! ## Who holds a blob -/

/-- What can hold a blob: the record for a key, or a task. -/
inductive Holder where
  | record (k : Key)
  | task (t : Nat)
  deriving DecidableEq

/-- The blob that is held: the one a record names, or the one that is nobody's but a task's. -/
def held? (q : StoreTraffic) : Holder → Option Nat
  | .record k => (find? k q.store.records).map (·.blob)
  | .task t => q.tasks[t]?.bind (·.blob?)

/-- The event is the step in which somebody who wants a blob discarded drops it. -/
def Discards (q : StoreTraffic) (e : TrafficEvent) (n : Nat) : Prop :=
  ∃ t r, e = .turn t ∧ q.tasks[t]? = some (.chosen r n)

/-- A turn makes a blob for its task, hands one over between its task and a record, drops the one that
its task holds or one that somebody wants discarded, or does nothing of that. -/
inductive Handover (q q' : StoreTraffic) (e : TrafficEvent) : Prop where
  | same (calm : ∀ n, ¬ q.Discards e n) (held : q'.held? = q.held?)
      (blobs : q'.store.blobs = q.store.blobs) (next : q'.store.nextBlob = q.store.nextBlob)
  | placed (calm : ∀ n, ¬ q.Discards e n) (t : Nat) (bytes : Bytes) (idle : q.held? (.task t) = none)
      (held : q'.held? = Function.update q.held? (.task t) (some q.store.nextBlob))
      (blobs : q'.store.blobs =
        if q.store.capacity = 0 then q.store.blobs else put q.store.nextBlob bytes q.store.blobs)
      (next : q'.store.nextBlob = q.store.nextBlob + 1)
  | passed (calm : ∀ n, ¬ q.Discards e n) (t : Nat) (k : Key)
      (held : q'.held? = q.held? ∘ Equiv.swap (.record k) (.task t))
      (blobs : q'.store.blobs = q.store.blobs) (next : q'.store.nextBlob = q.store.nextBlob)
  | dropped (calm : ∀ n, ¬ q.Discards e n) (t n : Nat) (before : q.held? (.task t) = some n)
      (held : q'.held? = Function.update q.held? (.task t) none)
      (blobs : q'.store.blobs = remove n q.store.blobs)
      (next : q'.store.nextBlob = q.store.nextBlob)
  | discarded (n : Nat) (discards : ∀ n', q.Discards e n' ↔ n' = n) (held : q'.held? = q.held?)
      (blobs : q'.store.blobs = remove n q.store.blobs)
      (next : q'.store.nextBlob = q.store.nextBlob)

theorem held?_task (ht : q.tasks[t]? = some task) : q.held? (.task t) = task.blob? := by
  simp [held?, ht]

/-- A turn changes what its task holds, and nothing of the other tasks. -/
theorem held?_set (ht : q.tasks[t]? = some task) (t' : Nat) :
    ({ store := m', streams := s', tasks := q.tasks.set t task' } : StoreTraffic).held? (.task t') =
      Function.update q.held? (.task t) task'.blob? (.task t') := by
  by_cases htt : t' = t
  · subst htt
    have hlt := (List.getElem?_eq_some_iff.mp ht).1
    simp [held?, hlt]
  · have hne : (Holder.task t') ≠ .task t := fun h => htt (Holder.task.inj h)
    rw [Function.update_of_ne hne]
    simp [held?, List.getElem?_set_ne (Ne.symm htt)]

/-- A turn that leaves the blobs of all records as they are changes what its task holds, if anything. -/
theorem held?_of_records (ht : q.tasks[t]? = some task)
    (hrecords : ∀ k, (find? k m'.records).map (·.blob) = q.held? (.record k)) :
    ({ store := m', streams := s', tasks := q.tasks.set t task' } : StoreTraffic).held? =
      Function.update q.held? (.task t) task'.blob? := by
  funext holder
  cases holder with
  | record k =>
    rw [Function.update_of_ne (by simp)]
    exact hrecords k
  | task t' => exact held?_set ht t'

/-- A turn that holds what it held. -/
theorem held?_of_idle (ht : q.tasks[t]? = some task)
    (hrecords : ∀ k, (find? k m'.records).map (·.blob) = q.held? (.record k))
    (hblob : task'.blob? = task.blob?) :
    ({ store := m', streams := s', tasks := q.tasks.set t task' } : StoreTraffic).held? = q.held? := by
  rw [held?_of_records ht hrecords, hblob, ← held?_task ht, Function.update_eq_self]

/-- A turn that changes the record for one key, and gets in exchange what that held. -/
theorem held?_of_swap (ht : q.tasks[t]? = some task) (k : Key)
    (hrecords : ∀ k' ≠ k, find? k' m'.records = find? k' q.store.records)
    (hnew : (find? k m'.records).map (·.blob) = task.blob?)
    (hold : task'.blob? = q.held? (.record k)) :
    ({ store := m', streams := s', tasks := q.tasks.set t task' } : StoreTraffic).held? =
      q.held? ∘ Equiv.swap (.record k) (.task t) := by
  rw [Equiv.comp_swap_eq_update, held?_task ht, ← hold, ← hnew]
  funext holder
  cases holder with
  | record k' =>
    by_cases hk : k' = k
    · subst hk
      rw [Function.update_self]
      rfl
    · have hne : (Holder.record k') ≠ .record k := fun h => hk (Holder.record.inj h)
      rw [Function.update_of_ne hne, Function.update_of_ne (by simp)]
      simp [held?, hrecords k' hk]
  | task t' =>
    rw [Function.update_of_ne (by simp)]
    exact held?_set ht t'

/-- Confirming a record keeps its blob. -/
theorem verify_blob (m : MemoryStore) (r : Resource) (stamp : Stamp) (k : Key) :
    (find? k (m.verify r stamp).records).map (·.blob) = (find? k m.records).map (·.blob) := by
  rw [verify]
  cases hr : m.record? r with
  | none => rfl
  | some record =>
    by_cases hk : k = r.key
    · subst hk
      rw [record?] at hr
      simp [find?_put_self, hr]
    · simp [find?_put_of_ne hk]

/-- Removing a record that is not there changes nothing. -/
theorem find?_removeRecord_of_free (h : m.record? r = none) (k : Key) :
    find? k (m.removeRecord r).2.records = find? k m.records := by
  by_cases hk : k = r.key
  · subst hk
    exact (find?_remove_self _).trans h.symm
  · exact find?_remove_of_ne hk _

/-- Every step hands blobs over in one of these ways. -/
theorem handover (h : q.step e = some q') : Handover q q' e := by
  cases e with
  | call call =>
    cases h
    refine .same (by simp [Discards]) ?_ rfl rfl
    funext holder
    cases holder with
    | record k => rfl
    | task t =>
      simp only [held?, List.getElem?_append]
      split
      · rfl
      · next hle =>
        rw [List.getElem?_eq_none (Nat.le_of_not_lt hle)]
        cases t - q.tasks.length <;> simp [StoreTask.blob?]
  | turn t =>
    obtain ⟨task, task', store, streams, ht, hturn, rfl⟩ := step_turn_eq_some.mp h
    have hheld := held?_task ht
    have hcalm : (∀ r n, task ≠ .chosen r n) → ∀ n, ¬ q.Discards (.turn t) n := by
      rintro hne n ⟨t', r, ⟨⟩, hchosen⟩
      exact hne r n (Option.some.inj (ht.symm.trans hchosen))
    cases turned hturn with
    | refused | took | missed | copied | looked | passed | chosen =>
      exact .same (hcalm (by simp)) (held?_of_idle ht (fun _ => rfl) rfl) rfl rfl
    | verified r stamp =>
      exact .same (hcalm (by simp)) (held?_of_idle ht (verify_blob q.store r stamp) rfl)
        (verify_blobs stamp) (verify_nextBlob stamp)
    | placed r c bytes =>
      exact .placed (hcalm (by simp)) t bytes hheld (held?_of_records ht fun _ => rfl) rfl rfl
    | swapped r c bytes blob previous found =>
      refine .passed (hcalm (by simp)) t r.key
        (held?_of_swap ht r.key (fun k' hk => find?_put_of_ne hk _ _) ?_ ?_) rfl rfl
      · exact congrArg (Option.map Record.blob) (find?_put_self _ _)
      · exact congrArg (Option.map Record.blob) found.symm
    | listed r c bytes blob free =>
      refine .passed (hcalm (by simp)) t r.key
        (held?_of_swap ht r.key (fun k' hk => find?_put_of_ne hk _ _) ?_ ?_) rfl rfl
      · exact congrArg (Option.map Record.blob) (find?_put_self _ _)
      · exact congrArg (Option.map Record.blob) free.symm
    | unlisted r record found =>
      refine .passed (hcalm (by simp)) t r.key
        (held?_of_swap ht r.key (fun k' hk => find?_remove_of_ne hk _) ?_ ?_) rfl rfl
      · exact congrArg (Option.map Record.blob) (find?_remove_self _)
      · exact congrArg (Option.map Record.blob) found.symm
    | absent r free =>
      refine .same (hcalm (by simp)) (held?_of_idle ht (fun k => ?_) rfl) rfl rfl
      exact congrArg (Option.map Record.blob) (find?_removeRecord_of_free free k)
    | replaced r c bytes previous =>
      exact .dropped (hcalm (by simp)) t previous hheld (held?_of_records ht fun _ => rfl) rfl rfl
    | deleted r blob =>
      exact .dropped (hcalm (by simp)) t blob hheld (held?_of_records ht fun _ => rfl) rfl rfl
    | discarded r blob =>
      refine .discarded blob (fun n => ⟨?_, ?_⟩) (held?_of_idle ht (fun _ => rfl) rfl) rfl rfl
      · rintro ⟨t', r', ⟨⟩, hchosen⟩
        cases ht.symm.trans hchosen
        rfl
      · rintro rfl
        exact ⟨t, r, rfl, ht⟩

/-- A task that is there after a step was there before, has just begun, or took a turn. -/
theorem task_before_step (h : q.step e = some q') (ht : q'.tasks[t]? = some task') :
    q.tasks[t]? = some task' ∨
      (∃ call, e = .call call ∧ t = q.tasks.length ∧ task' = .begun call) ∨
      ∃ task, e = .turn t ∧ q.tasks[t]? = some task ∧
        Turned q.store q.streams task task' q'.store q'.streams := by
  cases e with
  | call call =>
    cases h
    obtain ht | ⟨rfl, rfl⟩ := getElem?_concat_eq_some.mp ht
    · exact .inl ht
    · exact .inr (.inl ⟨call, rfl, rfl, rfl⟩)
  | turn i =>
    obtain ⟨task, next, store, streams, hi, hturn, rfl⟩ := step_turn_eq_some.mp h
    by_cases hit : i = t
    · subst hit
      rw [List.getElem?_set_self (List.getElem?_eq_some_iff.mp hi).1, Option.some.injEq] at ht
      subst ht
      exact .inr (.inr ⟨task, rfl, hi, turned hturn⟩)
    · rw [List.getElem?_set_ne hit] at ht
      exact .inl ht

/-- No step changes the capacity. -/
theorem capacity_of_step (h : q.step e = some q') : q'.store.capacity = q.store.capacity := by
  cases e with
  | call call =>
    cases h
    rfl
  | turn t =>
    obtain ⟨task, task', store, streams, -, hturn, rfl⟩ := step_turn_eq_some.mp h
    cases turned hturn with
    | verified r stamp => exact verify_capacity stamp
    | _ => rfl

/-! ## Places of a run -/

theorem Happens.lt {start : StoreTraffic} {i : Nat} (h : Happens start events i q e) :
    i < events.length :=
  (List.getElem?_eq_some_iff.mp h.event).1

theorem Happens.concat {start : StoreTraffic} {i : Nat} {e' : TrafficEvent}
    (h : Happens start events i q e) : Happens start (events ++ [e']) i q e := by
  refine ⟨?_, ?_⟩
  · rw [List.take_append_of_le_length (Nat.le_of_lt h.lt), h.run]
  · rw [List.getElem?_append_left h.lt, h.event]

theorem happens_last {start : StoreTraffic} (h : start.run events = some q) :
    Happens start (events ++ [e]) events.length q e :=
  ⟨by rw [List.take_left, h], List.getElem?_concat_length⟩

/-- What happens at a place of a run that is longer by an event happened before, or is that event. -/
theorem happens_concat_cases {start : StoreTraffic} {i : Nat} {e' : TrafficEvent}
    (hrun : start.run events = some q) (h : Happens start (events ++ [e]) i q' e') :
    Happens start events i q' e' ∨ i = events.length ∧ q' = q ∧ e' = e := by
  obtain ⟨hq, hevent⟩ := h
  obtain hevent | ⟨rfl, rfl⟩ := getElem?_concat_eq_some.mp hevent
  · have hlt := (List.getElem?_eq_some_iff.mp hevent).1
    rw [List.take_append_of_le_length (Nat.le_of_lt hlt)] at hq
    exact .inl ⟨hq, hevent⟩
  · rw [List.take_left, hrun, Option.some.injEq] at hq
    exact .inr ⟨rfl, hq.symm, rfl⟩

/-! ## Blobs over whole runs -/

/-- In a run, somebody who wanted a blob discarded has dropped it. -/
def Discarded (start : StoreTraffic) (events : List TrafficEvent) (n : Nat) : Prop :=
  ∃ i q e, Happens start events i q e ∧ q.Discards e n

/-- A blob was discarded before the last step, or by it. -/
theorem discarded_concat {start : StoreTraffic} (hrun : start.run events = some q) :
    Discarded start (events ++ [e]) n ↔ Discarded start events n ∨ q.Discards e n := by
  constructor
  · rintro ⟨i, p, e', hat, hdiscards⟩
    obtain hat | ⟨-, rfl, rfl⟩ := happens_concat_cases hrun hat
    · exact .inl ⟨i, p, e', hat, hdiscards⟩
    · exact .inr hdiscards
  · rintro (⟨i, p, e', hat, hdiscards⟩ | hdiscards)
    · exact ⟨i, p, e', hat.concat, hdiscards⟩
    · exact ⟨_, q, e, happens_last hrun, hdiscards⟩

/-- Numbers of blobs are never given back. -/
theorem Handover.next_le (h : Handover q q' e) : q.store.nextBlob ≤ q'.store.nextBlob := by
  cases h with
  | placed calm t bytes idle held blobs next => omega
  | same calm held blobs next | passed calm t k held blobs next
  | dropped calm t n before held blobs next | discarded n discards held blobs next =>
    exact Nat.le_of_eq next.symm

/-- No two hold one blob, and all blobs that are held have been made. -/
structure Apart (q : StoreTraffic) : Prop where
  unique : ∀ holder holder' n, q.held? holder = some n → q.held? holder' = some n → holder = holder'
  made : ∀ holder n, q.held? holder = some n → n < q.store.nextBlob

/-- What is held after a blob was made for a task. -/
theorem held?_of_placed (held : q'.held? = Function.update q.held? (.task t) (some q.store.nextBlob))
    (idle : q.held? (.task t) = none) {holder : Holder} :
    q'.held? holder = some n ↔
      holder = .task t ∧ n = q.store.nextBlob ∨ q.held? holder = some n := by
  rw [held, Function.update_apply]
  split
  · next hself =>
    subst hself
    simp [idle, eq_comm]
  · next hne => simp [hne]

/-- What is held after a task dropped its blob. -/
theorem held?_of_dropped (h : Apart q) (before : q.held? (.task t) = some n)
    (held : q'.held? = Function.update q.held? (.task t) none) {holder : Holder} {n' : Nat} :
    q'.held? holder = some n' ↔ q.held? holder = some n' ∧ n' ≠ n := by
  rw [held, Function.update_apply]
  split
  · next hself =>
    subst hself
    simp [before, eq_comm]
  · next hne =>
    refine ⟨fun hn => ⟨hn, ?_⟩, And.left⟩
    rintro rfl
    exact hne (h.unique _ _ _ hn before)

/-- A step leaves every blob with one owner. -/
theorem Apart.step (h : Apart q) (hstep : Handover q q' e) : Apart q' := by
  cases hstep with
  | same calm held blobs next | discarded n discards held blobs next =>
    exact ⟨by rw [held]; exact h.unique, by rw [held, next]; exact h.made⟩
  | placed calm t bytes idle held blobs next =>
    have hnew : ∀ holder, q.held? holder ≠ some q.store.nextBlob := fun holder hn =>
      Nat.lt_irrefl _ (h.made holder _ hn)
    refine ⟨fun holder holder' n hn hn' => ?_, fun holder n hn => ?_⟩
    · obtain ⟨rfl, rfl⟩ | hn := (held?_of_placed held idle).mp hn
      · obtain ⟨rfl, -⟩ | hn' := (held?_of_placed held idle).mp hn'
        · rfl
        · exact absurd hn' (hnew holder')
      · obtain ⟨-, rfl⟩ | hn' := (held?_of_placed held idle).mp hn'
        · exact absurd hn (hnew holder)
        · exact h.unique holder holder' n hn hn'
    · rw [next]
      obtain ⟨-, rfl⟩ | hn := (held?_of_placed held idle).mp hn
      · exact Nat.lt_succ_self _
      · exact Nat.lt_succ_of_lt (h.made holder n hn)
  | passed calm t k held blobs next =>
    refine ⟨fun holder holder' n hn hn' => ?_, fun holder n hn => ?_⟩
    · rw [held] at hn hn'
      exact (Equiv.swap _ _).injective (h.unique _ _ n hn hn')
    · rw [held] at hn
      rw [next]
      exact h.made _ n hn
  | dropped calm t n before held blobs next =>
    refine ⟨fun holder holder' n' hn hn' => ?_, fun holder n' hn => ?_⟩
    · exact h.unique _ _ n' ((held?_of_dropped h before held).mp hn).1
        ((held?_of_dropped h before held).mp hn').1
    · rw [next]
      exact h.made holder n' ((held?_of_dropped h before held).mp hn).1

/-- The blobs that are there are the ones held and not discarded, and what is discarded, or about to be,
has been made. -/
structure Accounted (start : StoreTraffic) (events : List TrafficEvent) (q : StoreTraffic) : Prop
    extends Apart q where
  chosen : ∀ (t : Nat) r n, q.tasks[t]? = some (.chosen r n) → n < q.store.nextBlob
  discarded : ∀ n, Discarded start events n → n < q.store.nextBlob
  blobs : ∀ n, (q.store.blob? n).isSome ↔
    q.store.capacity ≠ 0 ∧ (∃ holder, q.held? holder = some n) ∧ ¬ Discarded start events n

theorem accounted_new (capacity : Nat) (streams : Streams) :
    Accounted (new capacity streams) [] (new capacity streams) := by
  have hnothing : ∀ holder n, (new capacity streams).held? holder ≠ some n := by
    rintro (k | t) n <;> simp [held?, new, empty]
  refine ⟨⟨fun holder _ n h => absurd h (hnothing holder n),
    fun holder n h => absurd h (hnothing holder n)⟩, fun t r n h => ?_, ?_, fun n => ?_⟩
  · simp [new] at h
  · rintro n ⟨i, q, e, hat, -⟩
    exact absurd hat.lt (Nat.not_lt_zero i)
  · have hblob : (new capacity streams).store.blob? n = none := rfl
    simp [hnothing, hblob]

/-- The blob to discard is that of the record. -/
theorem Turned.chosen_blob (h : Turned m s task (.chosen r n) m' s') :
    ∃ record, m.record? r = some record ∧ record.blob = n := by
  cases h with
  | chosen _ record found => exact ⟨record, found, rfl⟩

/-- A number that was chosen is one that was given out. -/
theorem Accounted.chosen_of_step {start : StoreTraffic} (h : Accounted start events q)
    (hstep : q.step e = some q') (ht : q'.tasks[t]? = some (.chosen r n)) : n < q.store.nextBlob := by
  obtain ht | ⟨call, -, -, hbegun⟩ | ⟨task, -, -, hturn⟩ := task_before_step hstep ht
  · exact h.chosen t r n ht
  · contradiction
  · obtain ⟨record, found, rfl⟩ := hturn.chosen_blob
    exact h.made (.record r.key) record.blob (congrArg (Option.map Record.blob) found)

/-- What is discarded was given out before. -/
theorem Accounted.discards_lt {start : StoreTraffic} (h : Accounted start events q)
    (hdiscards : q.Discards e n) : n < q.store.nextBlob := by
  obtain ⟨t, r, -, ht⟩ := hdiscards
  exact h.chosen t r n ht

/-- A step keeps the account of the blobs. -/
theorem Accounted.blobs_of_step {start : StoreTraffic} (h : Accounted start events q)
    (hrun : start.run events = some q) (hcapacity : q'.store.capacity = q.store.capacity)
    (hstep : Handover q q' e) (n : Nat) :
    (q'.store.blob? n).isSome ↔ q'.store.capacity ≠ 0 ∧ (∃ holder, q'.held? holder = some n) ∧
      ¬ Discarded start (events ++ [e]) n := by
  have hbefore := h.blobs n
  rw [blob?] at hbefore
  rw [discarded_concat hrun, hcapacity, blob?]
  -- Only `placed` adds a blob, and only `dropped` and `discarded` remove one.
  cases hstep with
  | same calm held blobs next =>
    rw [held, blobs, or_iff_left (calm n)]
    exact hbefore
  | placed calm t bytes idle held blobs next =>
    simp only [held?_of_placed held idle, or_iff_left (calm n), blobs]
    by_cases hn : n = q.store.nextBlob
    · subst hn
      have hfresh : ¬ Discarded start events q.store.nextBlob := fun hd =>
        Nat.lt_irrefl _ (h.discarded _ hd)
      by_cases hroom : q.store.capacity = 0
      · simpa [hroom] using hbefore
      · simp [hroom, find?_put_self, hfresh]
    · have hput : find? n (if q.store.capacity = 0 then q.store.blobs
          else put q.store.nextBlob bytes q.store.blobs) = find? n q.store.blobs := by
        split
        · rfl
        · exact find?_put_of_ne hn _ _
      rw [hput, hbefore]
      simp [hn]
  | passed calm t k held blobs next =>
    have hsome : (∃ holder, q'.held? holder = some n) ↔ ∃ holder, q.held? holder = some n := by
      rw [held]
      exact (Function.Surjective.exists (p := fun holder => q.held? holder = some n)
        (Equiv.surjective _)).symm
    rw [hsome, blobs, or_iff_left (calm n)]
    exact hbefore
  | dropped calm t n' before held blobs next =>
    simp only [held?_of_dropped h.toApart before held, or_iff_left (calm n), blobs]
    by_cases hn : n = n'
    · subst hn
      simp [find?_remove_self]
    · rw [find?_remove_of_ne hn, hbefore]
      simp [hn]
  | discarded n' discards held blobs next =>
    rw [held, blobs, discards]
    by_cases hn : n = n'
    · subst hn
      simp [find?_remove_self]
    · rw [find?_remove_of_ne hn, hbefore]
      simp [hn]

/-- Every step accounts for all blobs. -/
theorem Accounted.step {start : StoreTraffic} (h : Accounted start events q)
    (hrun : start.run events = some q) (hstep : q.step e = some q') :
    Accounted start (events ++ [e]) q' where
  toApart := h.toApart.step (handover hstep)
  chosen t r n ht := Nat.lt_of_lt_of_le (h.chosen_of_step hstep ht) (handover hstep).next_le
  discarded n hn := by
    refine Nat.lt_of_lt_of_le ?_ (handover hstep).next_le
    exact ((discarded_concat hrun).mp hn).elim (h.discarded n) h.discards_lt
  blobs := h.blobs_of_step hrun (capacity_of_step hstep) (handover hstep)

/-- In every state of a run all blobs are accounted for. -/
theorem accounted_of_run {capacity : Nat} {streams : Streams}
    (hrun : (new capacity streams).run events = some q) :
    Accounted (new capacity streams) events q :=
  run_history (accounted_new capacity streams) (fun hp h hstep => h.step hp hstep) hrun

/-! ## Tables without doubles -/

section Tables

variable {κ ν : Type} [DecidableEq κ] {k : κ}

/-- Removing a key leaves each other key once. -/
theorem nodup_remove {table : List (κ × ν)} (h : (table.map Prod.fst).Nodup) :
    ((remove k table).map Prod.fst).Nodup :=
  h.sublist (List.filter_sublist.map _)

/-- A key that is put is there once. -/
theorem nodup_put {table : List (κ × ν)} (h : (table.map Prod.fst).Nodup) (v : ν) :
    ((put k v table).map Prod.fst).Nodup := by
  rw [put, List.map_append, List.nodup_append]
  refine ⟨nodup_remove h, by simp, ?_⟩
  rintro k' hk' k'' hk'' rfl
  simp only [remove, List.mem_map, List.mem_filter, decide_eq_true_eq] at hk'
  obtain ⟨entry, ⟨-, hne⟩, rfl⟩ := hk'
  exact hne (by simpa using hk'')

/-- A key is found exactly if it is in the table. -/
theorem isSome_find?_iff (table : List (κ × ν)) : (find? k table).isSome ↔ k ∈ table.map Prod.fst := by
  induction table with
  | nil => simp
  | cons entry rest ih =>
    rw [find?, List.map_cons, List.mem_cons, ← ih]
    by_cases hk : entry.1 = k
    · simp [hk]
    · simp [hk, Ne.symm hk]

/-- With each key once, what is found is what is in the table. -/
theorem find?_eq_some_iff_mem {table : List (κ × ν)} {v : ν} (h : (table.map Prod.fst).Nodup) :
    find? k table = some v ↔ (k, v) ∈ table := by
  induction table with
  | nil => simp
  | cons entry rest ih =>
    obtain ⟨k', v'⟩ := entry
    rw [List.map_cons, List.nodup_cons] at h
    rw [find?, List.mem_cons, Prod.mk.injEq]
    by_cases hk : k' = k
    · subst hk
      have hrest : (k', v) ∉ rest := fun hmem => h.1 (List.mem_map.mpr ⟨_, hmem, rfl⟩)
      simp [hrest, eq_comm]
    · simp [hk, Ne.symm hk, ih h.2]

end Tables

/-- Neither table has two entries for one key. -/
structure Tabled (m : MemoryStore) : Prop where
  records : (m.records.map Prod.fst).Nodup
  blobs : (m.blobs.map Prod.fst).Nodup

/-- Every turn leaves each key once. -/
theorem Tabled.turn (h : Tabled m) (hturn : Turned m s task task' m' s') : Tabled m' := by
  cases hturn with
  | refused | took | missed | copied | looked | passed | chosen => exact h
  | placed r c bytes =>
    refine ⟨h.records, ?_⟩
    simp only [insertBlob]
    split
    · exact h.blobs
    · exact nodup_put h.blobs bytes
  | swapped | listed => exact ⟨nodup_put h.records _, h.blobs⟩
  | replaced | discarded | deleted => exact ⟨h.records, nodup_remove h.blobs⟩
  | absent | unlisted => exact ⟨nodup_remove h.records, h.blobs⟩
  | verified r stamp =>
    rw [verify]
    cases m.record? r with
    | none => exact h
    | some record => exact ⟨nodup_put h.records _, h.blobs⟩

/-- In every state of a run each key is there once. -/
theorem tabled_of_run {capacity : Nat} {streams : Streams}
    (hrun : (new capacity streams).run events = some q) : Tabled q.store := by
  have hstart : Tabled (new capacity streams).store := ⟨List.nodup_nil, List.nodup_nil⟩
  refine run_history (I := fun _ q => Tabled q.store) hstart ?_ hrun
  intro events p p' e _ h hstep
  cases e with
  | call call =>
    cases hstep
    exact h
  | turn t =>
    obtain ⟨task, task', store, streams, -, hturn, rfl⟩ := step_turn_eq_some.mp hstep
    exact h.turn (turned hturn)

/-! ## When no call is in progress -/

/-- A task that is not done can always go on. -/
theorem exists_turn (h : task.isDone = false) (m : MemoryStore) (s : Streams) :
    ∃ next, task.turn m s = some next := by
  cases task with
  | begun call =>
    cases call with
    | verify r stamp => exact ⟨_, rfl⟩
    | store r c | lookup r | discard r | delete r =>
      simp only [StoreTask.turn]
      split <;> exact ⟨_, rfl⟩
  | placed r c bytes blob =>
    simp only [StoreTask.turn]
    split <;> exact ⟨_, rfl⟩
  | done call answer => contradiction
  | took | swapped | copied | chosen | unlisted => exact ⟨_, rfl⟩

/-- When all tasks are done, only records hold blobs. -/
theorem held?_of_done (hdone : ∀ task ∈ q.tasks, task.isDone = true) (t : Nat) :
    q.held? (.task t) = none := by
  cases ht : q.tasks[t]? with
  | none => simp [held?, ht]
  | some task =>
    have hend := hdone task (List.mem_of_getElem? ht)
    rw [held?_task ht]
    cases task with
    | done call answer => rfl
    | _ => contradiction

/-- What records hold is what their entries say. -/
theorem exists_held?_iff (htables : Tabled q.store) (hdone : ∀ task ∈ q.tasks, task.isDone = true) :
    (∃ holder, q.held? holder = some n) ↔ ∃ entry ∈ q.store.records, entry.2.blob = n := by
  constructor
  · rintro ⟨k | t, h⟩
    · obtain ⟨record, hfound, rfl⟩ := Option.map_eq_some_iff.mp h
      exact ⟨(k, record), (find?_eq_some_iff_mem htables.records).mp hfound, rfl⟩
    · rw [held?_of_done hdone] at h
      contradiction
  · rintro ⟨⟨k, record⟩, hmem, rfl⟩
    exact ⟨.record k, congrArg (Option.map Record.blob) ((find?_eq_some_iff_mem htables.records).mpr hmem)⟩

/-- No two records name one blob. -/
theorem nodup_record_blobs (htables : Tabled q.store) (h : Apart q) :
    (q.store.records.map fun entry => entry.2.blob).Nodup := by
  have hfound : ∀ entry ∈ q.store.records, q.held? (.record entry.1) = some entry.2.blob :=
    fun entry hentry =>
      congrArg (Option.map Record.blob) ((find?_eq_some_iff_mem htables.records).mpr hentry)
  refine List.Nodup.map_on (fun entry hentry entry' hentry' heq => ?_) htables.records.of_map
  have hholder := h.unique _ _ _ (hfound entry hentry) (heq ▸ hfound entry' hentry')
  exact List.inj_on_of_nodup_map htables.records hentry hentry' (Holder.record.inj hholder)

/-- **No blob is lost or shared.** Calls run side by side, step by step in any order. Whenever none is in
progress, the blobs that are there are those of records, each of one, less those that somebody had
discarded; a store without any room keeps none. -/
theorem no_blob_lost {streams : Streams} (hrun : (new capacity streams).run events = some q)
    (hdone : ∀ task ∈ q.tasks, task.isDone = true) :
    (∀ n, n ∈ q.store.blobs.map Prod.fst ↔ capacity ≠ 0 ∧
      (∃ entry ∈ q.store.records, entry.2.blob = n) ∧ ¬ Discarded (new capacity streams) events n) ∧
    (q.store.blobs.map Prod.fst).Nodup ∧
    (q.store.records.map fun entry => entry.2.blob).Nodup ∧
    (q.store.records.map Prod.fst).Nodup ∧
    ∀ entry ∈ q.store.records, q.store.blob? entry.2.blob = none →
      Discarded (new capacity streams) events entry.2.blob ∨ capacity = 0 := by
  have htables := tabled_of_run hrun
  have haccount := accounted_of_run hrun
  have hcapacity : q.store.capacity = capacity :=
    run_history (I := fun _ q => q.store.capacity = capacity) rfl
      (fun _ h hstep => (capacity_of_step hstep).trans h) hrun
  have hblobs := haccount.blobs
  simp only [exists_held?_iff htables hdone, hcapacity] at hblobs
  refine ⟨fun n => ?_, htables.blobs, nodup_record_blobs htables haccount.toApart, htables.records,
    fun entry hentry hmissing => ?_⟩
  · rw [← isSome_find?_iff]
    exact hblobs n
  · by_contra hkept
    -- By the account a blob that its record names is missing for one of the two reasons only.
    obtain ⟨hundisturbed, hroom⟩ := not_or.mp hkept
    have hthere := (hblobs entry.2.blob).mpr ⟨hroom, ⟨entry, hentry, rfl⟩, hundisturbed⟩
    rw [hmissing] at hthere
    contradiction

/-- Two stores of one resource and a call that wants its blob discarded, all at once: the blob is chosen
before the second store swaps the record, and dropped before that store would drop it. Then another
resource is stored, and its blob is discarded. -/
def sideBySide : List TrafficEvent :=
  let a : Resource := ⟨"a.jar", [], .content⟩
  let b : Resource := ⟨"b.jar", [], .content⟩
  [.call (.store a ⟨.buffered [1], {}⟩), .call (.store a ⟨.buffered [2], {}⟩), .turn 0, .turn 1, .turn 1,
    .turn 0, .turn 0, .call (.discard a), .turn 2, .turn 1, .turn 2, .turn 1,
    .call (.store b ⟨.buffered [3], {}⟩), .turn 3, .turn 3, .turn 3, .call (.discard b), .turn 4, .turn 4]

/-- The blob of the second store is the only one that is there, and the blob of the other resource was
discarded. -/
theorem sideBySide_accounted : ∃ q, (new 8 .empty).run sideBySide = some q ∧
    (∀ task ∈ q.tasks, task.isDone = true) ∧ q.store.blobs = [(0, [2])] ∧
    (∃ entry ∈ q.store.records, entry.2.blob = 0) ∧ Discarded (new 8 .empty) sideBySide 2 := by
  let a : Resource := ⟨"a.jar", [], .content⟩
  let b : Resource := ⟨"b.jar", [], .content⟩
  let q : StoreTraffic :=
    { store := ⟨[(a.key, ⟨0, {}⟩), (b.key, ⟨2, {}⟩)], [(0, [2])], 3, 8⟩
      streams := .empty
      tasks := [.kept a ⟨.buffered [1], {}⟩ [1], .kept a ⟨.buffered [2], {}⟩ [2],
        .done (.discard a) (.dropped true), .kept b ⟨.buffered [3], {}⟩ [3],
        .done (.discard b) (.dropped true)] }
  have hrun : (new 8 .empty).run sideBySide = some q := rfl
  have hdone : ∀ task ∈ q.tasks, task.isDone = true := by decide
  obtain ⟨hblobs, -, -, -, hmissing⟩ := no_blob_lost hrun hdone
  obtain ⟨-, hrecord, -⟩ := (hblobs 0).mp (by decide)
  have hdiscarded := hmissing (b.key, ⟨2, {}⟩) (.tail _ (.head _)) rfl
  exact ⟨q, hrun, hdone, rfl, hrecord, hdiscarded.resolve_right (by decide)⟩

end StoreTraffic

end PullCache
