import PullCache.Proofs.Store.Interleaving
/-!
# Proofs.Store.Racing

Lookups beside stores. A lookup copies the record of its resource and asks for the blob afterwards; a
store puts a new record in place and drops the blob of the one before. What a lookup finds is the content
of the store that was listed last when the record was copied. It finds the record without the blob only
if a store comes in between its two steps with two of its own (`Overtaken`): it swaps the record that the
lookup has copied, and drops the blob that the lookup is about to ask for.
-/

namespace PullCache

/-- Nothing but a lookup or a store. -/
def StoreCall.isPlain : StoreCall → Bool
  | store .. | lookup _ => true
  | _ => false

/-- How far a task has come. -/
def StoreTask.stage : StoreTask → Nat
  | begun _ => 0
  | took .. | copied .. | chosen .. | unlisted .. => 1
  | placed .. => 2
  | swapped .. => 3
  | done .. => 4

namespace StoreTraffic

open MemoryStore

variable {start q q' p p' : StoreTraffic} {e e' : TrafficEvent} {before events : List TrafficEvent}
  {m m' : MemoryStore} {s s' : Streams} {task task' : StoreTask} {r r' : Resource} {c : Content}
  {bytes : Bytes} {call : StoreCall} {answer : StoreAnswer} {i j k t n capacity : Nat}
  {streams : Streams}

/-! ## The course of a task -/

/-- Every turn takes a task to a later stage. -/
theorem Turned.stage_lt (h : Turned m s task task' m' s') : task.stage < task'.stage := by
  cases h <;> simp [StoreTask.stage, StoreTask.kept]

/-- A task that is there stays there. It changes in its own turns only. -/
theorem task_of_step (h : q.step e = some q') (ht : q.tasks[t]? = some task) :
    ∃ task', q'.tasks[t]? = some task' ∧ (e ≠ .turn t ∧ task' = task ∨
      e = .turn t ∧ Turned q.store q.streams task task' q'.store q'.streams) := by
  have hlt := (List.getElem?_eq_some_iff.mp ht).1
  cases e with
  | call call =>
    cases h
    exact ⟨task, by rw [List.getElem?_append_left hlt, ht], .inl ⟨nofun, rfl⟩⟩
  | turn i =>
    obtain ⟨found, next, store, streams, hi, hturn, rfl⟩ := step_turn_eq_some.mp h
    by_cases hit : i = t
    · subst hit
      obtain rfl : found = task := Option.some.inj (hi.symm.trans ht)
      exact ⟨next, by rw [List.getElem?_set_self hlt], .inr ⟨rfl, turned hturn⟩⟩
    · exact ⟨task, by rw [List.getElem?_set_ne hit, ht], .inl ⟨by simpa using hit, rfl⟩⟩

/-- A task never goes back. -/
theorem task_of_run (h : q.run events = some q') (ht : q.tasks[t]? = some task) :
    ∃ task', q'.tasks[t]? = some task' ∧ task.stage ≤ task'.stage := by
  refine run_history (I := fun _ p => ∃ task', p.tasks[t]? = some task' ∧ task.stage ≤ task'.stage)
    ⟨task, ht, Nat.le_refl _⟩ ?_ h
  intro events p p' e _ ⟨task', ht', hle⟩ hstep
  obtain ⟨next, hnext, ⟨-, rfl⟩ | ⟨-, hturn⟩⟩ := task_of_step hstep ht'
  · exact ⟨next, hnext, hle⟩
  · exact ⟨next, hnext, Nat.le_of_lt (Nat.lt_of_le_of_lt hle hturn.stage_lt)⟩

/-- After an event comes the state that it leads to. -/
theorem Happens.run_succ (h : Happens start events i q e) :
    start.run (events.take (i + 1)) = q.step e := by
  rw [List.take_add_one, h.event, run_append, h.run, Option.bind_some, Option.toList_some, run_cons]
  cases q.step e <;> rfl

/-- From one place of a run to a later one. -/
theorem Happens.between (hi : Happens start events i q e) (hj : Happens start events j q' e')
    (hij : i < j) : ∃ p more, q.step e = some p ∧ p.run more = some q' := by
  have hj' := hj.run
  rw [← List.take_append_drop (i + 1) (events.take j), List.take_take, Nat.min_eq_left hij, run_append,
    hi.run_succ, Option.bind_eq_some_iff] at hj'
  obtain ⟨p, hp, hmore⟩ := hj'
  exact ⟨p, _, hp, hmore⟩

/-- An event happens in one state only. -/
theorem Happens.state_eq (hi : Happens start events i q e) (hj : Happens start events i q' e') :
    q = q' :=
  Option.some.inj (hi.run.symm.trans hj.run)

/-- A task that takes a turn has come further at every later place. -/
theorem Happens.stage_lt (hi : Happens start events i q (.turn t)) (ht : q.tasks[t]? = some task)
    (hj : Happens start events j q' e') (ht' : q'.tasks[t]? = some task') (hij : i < j) :
    task.stage < task'.stage := by
  obtain ⟨p, more, hstep, hmore⟩ := hi.between hj hij
  obtain ⟨next, hnext, ⟨hne, -⟩ | ⟨-, hturn⟩⟩ := task_of_step hstep ht
  · exact absurd rfl hne
  · obtain ⟨last, hlast, hle⟩ := task_of_run hmore hnext
    obtain rfl : last = task' := Option.some.inj (hlast.symm.trans ht')
    exact Nat.lt_of_lt_of_le hturn.stage_lt hle

/-- What has come further comes later. -/
theorem Happens.lt_of_stage (hi : Happens start events i q e) (ht : q.tasks[t]? = some task)
    (hj : Happens start events j q' (.turn t)) (ht' : q'.tasks[t]? = some task')
    (h : task.stage < task'.stage) : i < j := by
  obtain hij | rfl | hji := Nat.lt_trichotomy i j
  · exact hij
  · obtain rfl := hi.state_eq hj
    obtain rfl : task = task' := Option.some.inj (ht.symm.trans ht')
    exact absurd h (Nat.lt_irrefl _)
  · exact absurd (hj.stage_lt ht' hi ht hji) (Nat.not_lt_of_lt h)

/-- A task takes one turn at each stage. -/
theorem Happens.eq_of_stage (hi : Happens start events i q (.turn t)) (ht : q.tasks[t]? = some task)
    (hj : Happens start events j q' (.turn t)) (ht' : q'.tasks[t]? = some task')
    (h : task.stage = task'.stage) : i = j := by
  obtain hij | rfl | hji := Nat.lt_trichotomy i j
  · exact absurd (hi.stage_lt ht hj ht' hij) (by omega)
  · rfl
  · exact absurd (hj.stage_lt ht' hi ht hji) (by omega)

theorem Happens.take (h : Happens start events i q e) (hij : i < j) :
    Happens start (events.take j) i q e where
  run := by
    rw [List.take_take, Nat.min_eq_left (Nat.le_of_lt hij)]
    exact h.run
  event := by
    rw [List.getElem?_take_of_lt hij]
    exact h.event

theorem Happens.of_take (h : Happens start (events.take j) i q e) : Happens start events i q e := by
  have hlt := h.lt
  rw [List.length_take] at hlt
  obtain ⟨hrun, hevent⟩ := h
  rw [List.take_take, Nat.min_eq_left (by omega)] at hrun
  rw [List.getElem?_take_of_lt (by omega)] at hevent
  exact ⟨hrun, hevent⟩

/-! ## What a task has behind it -/

/-- A call is made, and has a number from then on. -/
def Made (start : StoreTraffic) (events : List TrafficEvent) (i t : Nat) (call : StoreCall) : Prop :=
  ∃ q, Happens start events i q (.call call) ∧ q.tasks.length = t

/-- A call gets its answer. -/
def Answered (start : StoreTraffic) (events : List TrafficEvent) (i t : Nat) (call : StoreCall)
    (answer : StoreAnswer) : Prop :=
  ∃ q q', Happens start events i q (.turn t) ∧ q.step (.turn t) = some q' ∧
    q'.tasks[t]? = some (.done call answer)

/-- A store reads the content that it was given. -/
def Took (start : StoreTraffic) (events : List TrafficEvent) (t : Nat) (r : Resource) (c : Content)
    (bytes : Bytes) : Prop :=
  ∃ i q, Happens start events i q (.turn t) ∧ q.tasks[t]? = some (.begun (.store r c)) ∧
    (c.payload.readLimited q.store.capacity q.streams).1 = .ok (some bytes)

/-- A store puts the record for its blob in place. -/
def Lists (start : StoreTraffic) (events : List TrafficEvent) (i t : Nat) (r : Resource) (c : Content)
    (bytes : Bytes) (n : Nat) : Prop :=
  ∃ q, Happens start events i q (.turn t) ∧ q.tasks[t]? = some (.placed r c bytes n)

/-- A store drops the blob of the record before its own. -/
def Drops (start : StoreTraffic) (events : List TrafficEvent) (i t : Nat) (r : Resource) (c : Content)
    (bytes : Bytes) (n : Nat) : Prop :=
  ∃ q, Happens start events i q (.turn t) ∧ q.tasks[t]? = some (.swapped r c bytes n)

/-- A lookup copies the record of its resource. -/
def Copies (start : StoreTraffic) (events : List TrafficEvent) (i t : Nat) (r : Resource)
    (record : Record) : Prop :=
  ∃ q, Happens start events i q (.turn t) ∧ q.tasks[t]? = some (.begun (.lookup r)) ∧
    q.store.record? r = some record

/-- What a task has behind it, by what it has in hand. -/
def Past (start : StoreTraffic) (events : List TrafficEvent) (t : Nat) : StoreTask → Prop
  | .took r c bytes | .placed r c bytes _ => Took start events t r c bytes
  | .swapped r c bytes _ => Took start events t r c bytes ∧ ∃ i n, Lists start events i t r c bytes n
  | .done call answer => ∀ r c kept, call = .store r c → answer = .stored (.ok kept) →
    ∃ bytes, kept = ⟨.buffered bytes, c.attributes⟩ ∧ Took start events t r c bytes ∧
      ∃ i n, Lists start events i t r c bytes n
  | .copied r record => ∃ i, Copies start events i t r record
  | _ => True

theorem Made.concat (h : Made start events i t call) : Made start (events ++ [e]) i t call := by
  obtain ⟨q, hat, hlength⟩ := h
  exact ⟨q, hat.concat, hlength⟩

theorem Took.concat (h : Took start events t r c bytes) : Took start (events ++ [e]) t r c bytes := by
  obtain ⟨i, q, hat, ht, hread⟩ := h
  exact ⟨i, q, hat.concat, ht, hread⟩

theorem Lists.concat (h : Lists start events i t r c bytes n) :
    Lists start (events ++ [e]) i t r c bytes n := by
  obtain ⟨q, hat, ht⟩ := h
  exact ⟨q, hat.concat, ht⟩

theorem Past.concat (h : Past start events t task) : Past start (events ++ [e]) t task := by
  cases task with
  | took r c bytes => exact Took.concat h
  | placed r c bytes n => exact Took.concat h
  | swapped r c bytes previous =>
    obtain ⟨htook, i, n, hlists⟩ := h
    exact ⟨htook.concat, i, n, hlists.concat⟩
  | copied r record =>
    obtain ⟨i, q, hat, ht, hrecord⟩ := h
    exact ⟨i, q, hat.concat, ht, hrecord⟩
  | done call answer =>
    intro r c kept hcall hanswer
    obtain ⟨bytes, hkept, htook, i, n, hlists⟩ := h r c kept hcall hanswer
    exact ⟨bytes, hkept, htook.concat, i, n, hlists.concat⟩
  | begun | chosen | unlisted => trivial

/-- A turn adds to what the task has behind it. -/
theorem Past.turn (h : Past start events t task) (hrun : start.run events = some q)
    (ht : q.tasks[t]? = some task) (hturn : Turned q.store q.streams task task' m' s') :
    Past start (events ++ [.turn t]) t task' := by
  have hlast : Happens start (events ++ [.turn t]) events.length q (.turn t) := happens_last hrun
  cases hturn with
  | took r c bytes after fits => exact ⟨_, q, hlast, ht, fits⟩
  | placed r c bytes => exact Took.concat h
  | swapped r c bytes blob previous found => exact ⟨Took.concat h, _, blob, q, hlast, ht⟩
  | listed r c bytes blob free =>
    rintro r c kept ⟨⟩ ⟨⟩
    exact ⟨bytes, rfl, Took.concat h, _, blob, q, hlast, ht⟩
  | replaced r c bytes previous =>
    obtain ⟨htook, i, n, hlists⟩ := h
    rintro r c kept ⟨⟩ ⟨⟩
    exact ⟨bytes, rfl, htook.concat, i, n, hlists.concat⟩
  | copied r record found => exact ⟨_, q, hlast, ht, found⟩
  | refused r c fault after =>
    rintro r c kept - ⟨⟩
  | missed | looked | verified | passed | discarded | absent | deleted =>
    rintro r c kept ⟨⟩
  | chosen | unlisted => trivial

/-- In every state of a run, every task has its call and its turns behind it. -/
theorem past_of_run (hrun : (new capacity streams).run events = some q)
    (ht : q.tasks[t]? = some task) :
    (∃ i, Made (new capacity streams) events i t task.call) ∧
      Past (new capacity streams) events t task := by
  refine run_history (I := fun events q => ∀ (t : Nat) task, q.tasks[t]? = some task →
    (∃ i, Made (new capacity streams) events i t task.call) ∧
      Past (new capacity streams) events t task) (fun t task ht => by simp [new] at ht) ?_ hrun t task ht
  intro events p p' e hp ih hstep t task ht
  obtain ht | ⟨call, rfl, rfl, rfl⟩ | ⟨before, rfl, hbefore, hturn⟩ := task_before_step hstep ht
  · obtain ⟨⟨i, hmade⟩, hpast⟩ := ih t task ht
    exact ⟨⟨i, hmade.concat⟩, hpast.concat⟩
  · exact ⟨⟨_, p, happens_last hp, rfl⟩, trivial⟩
  · obtain ⟨⟨i, hmade⟩, hpast⟩ := ih t before hbefore
    exact ⟨⟨i, hturn.call_eq ▸ hmade.concat⟩, hpast.turn hp hbefore hturn⟩

/-- A task is made before it takes a turn. -/
theorem Made.lt (h : Made start events i t call) (hat : Happens start events j q e)
    (ht : q.tasks[t]? = some task) : i < j := by
  obtain ⟨p, hmade, rfl⟩ := h
  have hlt := (List.getElem?_eq_some_iff.mp ht).1
  obtain hij | rfl | hji := Nat.lt_trichotomy i j
  · exact hij
  · obtain rfl := hmade.state_eq hat
    exact absurd hlt (Nat.lt_irrefl _)
  · obtain ⟨next, more, hstep, hmore⟩ := hat.between hmade hji
    obtain ⟨task', ht', -⟩ := task_of_step hstep ht
    obtain ⟨task'', ht'', -⟩ := task_of_run hmore ht'
    exact absurd (List.getElem?_eq_some_iff.mp ht'').1 (Nat.lt_irrefl _)

/-- A store that kept content has listed it by the time it answers. -/
theorem Answered.exists_lists {kept : Content}
    (h : Answered (new capacity streams) events j t (.store r c) (.stored (.ok kept))) :
    ∃ i bytes n, i ≤ j ∧ Lists (new capacity streams) events i t r c bytes n := by
  obtain ⟨q, q', hat, hstep, ht⟩ := h
  have hrun : (new capacity streams).run (events.take (j + 1)) = some q' := hat.run_succ.trans hstep
  obtain ⟨bytes, -, -, i, n, p, hp, hplaced⟩ := (past_of_run hrun ht).2 r c kept rfl rfl
  have hlt := hp.lt
  rw [List.length_take] at hlt
  exact ⟨i, bytes, n, by omega, p, hp.of_take, hplaced⟩

/-! ## Only lookups and stores -/

/-- All calls of a run are lookups and stores. -/
def Plain (events : List TrafficEvent) : Prop :=
  ∀ call, .call call ∈ events → call.isPlain = true

/-- Without discards and deletes, no task is one. -/
theorem Plain.of_task (h : Plain events) (hrun : (new capacity streams).run events = some q)
    (ht : q.tasks[t]? = some task) : task.call.isPlain = true := by
  obtain ⟨⟨i, p, hat, -⟩, -⟩ := past_of_run hrun ht
  exact h _ (List.mem_of_getElem? hat.event)

/-- Without them nothing is discarded. -/
theorem Plain.not_discarded (h : Plain events) (n : Nat) :
    ¬ Discarded (new capacity streams) events n := by
  rintro ⟨i, q, e, hat, t, r, -, ht⟩
  have hbefore : Plain (events.take i) := fun call hcall => h call (List.mem_of_mem_take hcall)
  have hcall := hbefore.of_task hat.run ht
  contradiction

/-- The records change only when a store lists its blob. -/
theorem Plain.records_of_step (h : Plain events) (hrun : (new capacity streams).run events = some q)
    (hstep : q.step e = some q') :
    (∃ t r c bytes n, e = .turn t ∧ q.tasks[t]? = some (.placed r c bytes n) ∧
      q'.store.records = put r.key ⟨n, c.attributes⟩ q.store.records) ∨
    (∀ t r c bytes n, e = .turn t → q.tasks[t]? ≠ some (.placed r c bytes n)) ∧
      q'.store.records = q.store.records := by
  cases e with
  | call call =>
    cases hstep
    exact .inr ⟨by simp, rfl⟩
  | turn t =>
    obtain ⟨task, task', store, streams, ht, hturn, rfl⟩ := step_turn_eq_some.mp hstep
    have hplain := h.of_task hrun ht
    have hidle : (∀ r c bytes n, task ≠ .placed r c bytes n) →
        ∀ t' r c bytes n, TrafficEvent.turn t = .turn t' →
          q.tasks[t']? ≠ some (.placed r c bytes n) := by
      rintro hne t' r c bytes n ⟨⟩ hplaced
      exact hne r c bytes n (Option.some.inj (ht.symm.trans hplaced))
    cases turned hturn with
    | swapped r c bytes blob | listed r c bytes blob => exact .inl ⟨t, r, c, bytes, blob, rfl, ht, rfl⟩
    | refused | took | placed | replaced | missed | copied | looked =>
      exact .inr ⟨hidle (by simp), rfl⟩
    | verified | passed | chosen | discarded | absent | unlisted | deleted => contradiction

/-- What holds of the start and is kept by every step beside lookups and stores holds throughout. -/
theorem plain_history {I : List TrafficEvent → StoreTraffic → Prop} (hstart : I [] (new capacity streams))
    (keeps : ∀ {events : List TrafficEvent} {p p' : StoreTraffic} {e : TrafficEvent},
      (new capacity streams).run events = some p → Plain events → I events p → p.step e = some p' →
        I (events ++ [e]) p')
    (hrun : (new capacity streams).run events = some q) (h : Plain events) : I events q := by
  refine run_history (I := fun events q => Plain events → I events q) (fun _ => hstart) ?_ hrun h
  intro events p p' e hp ih hstep hplain
  have hbefore : Plain events := fun call hcall => hplain call (List.mem_append_left _ hcall)
  exact keeps hp hbefore (ih hbefore) hstep

/-! ## Which store a record is of -/

/-- A record was listed before the last step, or by it. -/
theorem lists_concat_cases (hrun : start.run events = some q)
    (h : Lists start (events ++ [e]) i t r c bytes n) :
    Lists start events i t r c bytes n ∨
      i = events.length ∧ e = .turn t ∧ q.tasks[t]? = some (.placed r c bytes n) := by
  obtain ⟨p, hat, ht⟩ := h
  obtain hat | ⟨rfl, rfl, rfl⟩ := happens_concat_cases hrun hat
  · exact .inl ⟨p, hat, ht⟩
  · exact .inr ⟨rfl, rfl, ht⟩

/-- The record of a resource is that of the store that was listed last, if there was one. -/
structure Listed (start : StoreTraffic) (events : List TrafficEvent) (q : StoreTraffic) (r : Resource) :
    Prop where
  free : q.store.record? r = none → ∀ i t r' c bytes n, Lists start events i t r' c bytes n →
    r'.key ≠ r.key
  last : ∀ record, q.store.record? r = some record → ∃ i t r' c bytes,
    Lists start events i t r' c bytes record.blob ∧ r'.key = r.key ∧ record.attributes = c.attributes ∧
    ∀ j t' r'' c' bytes' n, Lists start events j t' r'' c' bytes' n → r''.key = r.key → j ≤ i

/-- Nothing is listed for the resource in a step. -/
theorem Listed.kept (h : Listed start events q r) (hrun : start.run events = some q)
    (hsame : q'.store.record? r = q.store.record? r)
    (hothers : ∀ t r' c bytes n, e = .turn t → q.tasks[t]? = some (.placed r' c bytes n) →
      r'.key ≠ r.key) : Listed start (events ++ [e]) q' r where
  free hfree i t r' c bytes n hlists := by
    obtain hlists | ⟨-, rfl, ht⟩ := lists_concat_cases hrun hlists
    · exact h.free (hsame ▸ hfree) i t r' c bytes n hlists
    · exact hothers t r' c bytes n rfl ht
  last record hr := by
    obtain ⟨i, t, r', c, bytes, hlists, hk, hattributes, hlast⟩ := h.last record (hsame ▸ hr)
    refine ⟨i, t, r', c, bytes, hlists.concat, hk, hattributes, ?_⟩
    intro j t' r'' c' bytes' n hlists' hk'
    obtain hlists' | ⟨-, rfl, ht⟩ := lists_concat_cases hrun hlists'
    · exact hlast j t' r'' c' bytes' n hlists' hk'
    · exact absurd hk' (hothers t' r'' c' bytes' n rfl ht)

/-- A store lists its blob for the resource. -/
theorem listed_of_lists (hrun : start.run events = some q)
    (ht : q.tasks[t]? = some (.placed r' c bytes n)) (hk : r'.key = r.key)
    (hnew : q'.store.record? r = some ⟨n, c.attributes⟩) :
    Listed start (events ++ [.turn t]) q' r where
  free hfree := by
    rw [hnew] at hfree
    contradiction
  last record hr := by
    obtain rfl : _ = record := Option.some.inj (hnew.symm.trans hr)
    refine ⟨events.length, t, r', c, bytes, ⟨q, happens_last hrun, ht⟩, hk, rfl, ?_⟩
    rintro j t' r'' c' bytes' n' ⟨_, hat, -⟩ -
    have hlt := hat.lt
    rw [List.length_append, List.length_singleton] at hlt
    omega

/-- In every state of a run, a record is one that was listed last. -/
theorem listed_of_run (hrun : (new capacity streams).run events = some q) (h : Plain events)
    (r : Resource) : Listed (new capacity streams) events q r := by
  refine plain_history (I := fun events q => Listed (new capacity streams) events q r) ?_ ?_ hrun h
  · refine ⟨fun _ i t r' c bytes n hlists => ?_, fun record hr => ?_⟩
    · obtain ⟨p, hat, -⟩ := hlists
      exact absurd hat.lt (Nat.not_lt_zero i)
    · simp [record?, new, empty] at hr
  · intro events p p' e hp hplain ih hstep
    obtain ⟨t, r', c, bytes, n, rfl, ht, hrecords⟩ | ⟨hidle, hrecords⟩ :=
      hplain.records_of_step hp hstep
    · by_cases hk : r'.key = r.key
      · refine listed_of_lists hp ht hk ?_
        rw [record?, hrecords, ← hk]
        exact find?_put_self _ _
      · refine ih.kept hp ?_ ?_
        · rw [record?, hrecords]
          exact find?_put_of_ne (Ne.symm hk) _ _
        · rintro t' r'' c' bytes' n' ⟨⟩ ht'
          cases ht.symm.trans ht'
          exact hk
    · exact ih.kept hp (by rw [record?, hrecords, record?]) fun t r' c bytes n he ht =>
        absurd ht (hidle t r' c bytes n he)

/-! ## What is in a blob -/

/-- A blob that is there after a step, and is not new, was there before with the same bytes. -/
theorem blob?_before_step (h : Handover q q' e) (hn : n < q.store.nextBlob)
    (hblob : q'.store.blob? n = some bytes) : q.store.blob? n = some bytes := by
  rw [blob?] at hblob ⊢
  cases h with
  | same calm held blobs next | passed calm t k held blobs next => rwa [blobs] at hblob
  | placed calm t bytes idle held blobs next =>
    rw [blobs] at hblob
    split at hblob
    · exact hblob
    · rwa [find?_put_of_ne (Nat.ne_of_lt hn)] at hblob
  | dropped calm t n' before held blobs next | discarded n' discards held blobs next =>
    rw [blobs] at hblob
    by_cases hnn : n = n'
    · rw [hnn, find?_remove_self] at hblob
      contradiction
    · rwa [find?_remove_of_ne hnn] at hblob

/-- A blob with a number that was given out is not made again. -/
theorem blob?_before_run (h : q.run events = some q') (hn : n < q.store.nextBlob)
    (hblob : q'.store.blob? n = some bytes) : q.store.blob? n = some bytes := by
  have hall : n < q'.store.nextBlob ∧
      ∀ bytes, q'.store.blob? n = some bytes → q.store.blob? n = some bytes := by
    refine run_history (I := fun _ p => n < p.store.nextBlob ∧
      ∀ bytes, p.store.blob? n = some bytes → q.store.blob? n = some bytes) ⟨hn, fun _ h => h⟩ ?_ h
    intro events p p' e _ ⟨hlt, hbefore⟩ hstep
    exact ⟨Nat.lt_of_lt_of_le hlt (handover hstep).next_le, fun bytes hblob =>
      hbefore bytes (blob?_before_step (handover hstep) hlt hblob)⟩
  exact hall.2 bytes hblob

/-- A new blob has the number that comes next. -/
theorem Turned.placed_blob (h : Turned m s task (.placed r c bytes n) m' s') :
    n = m.nextBlob ∧ m' = (m.insertBlob bytes).2 := by
  cases h
  exact ⟨rfl, rfl⟩

/-- The blob that a store is about to list has the bytes that the store has read. -/
theorem placed_blob?_of_run (hrun : (new capacity streams).run events = some q)
    (ht : q.tasks[t]? = some (.placed r c bytes n)) {found : Bytes}
    (hblob : q.store.blob? n = some found) : found = bytes := by
  refine run_history (I := fun _ q => ∀ (t : Nat) r c bytes n found,
    q.tasks[t]? = some (.placed r c bytes n) → q.store.blob? n = some found → found = bytes)
    (fun t r c bytes n found ht => by simp [new] at ht) ?_ hrun t r c bytes n found ht hblob
  intro events p p' e hp ih hstep t r c bytes n found ht hblob
  have haccount := accounted_of_run hp
  obtain ht | ⟨call, -, -, hbegun⟩ | ⟨task, -, -, hturn⟩ := task_before_step hstep ht
  · have hlt := haccount.made (.task t) n (held?_task ht)
    exact ih t r c bytes n found ht (blob?_before_step (handover hstep) hlt hblob)
  · contradiction
  · obtain ⟨rfl, hstore⟩ := hturn.placed_blob
    rw [hstore, blob?, insertBlob] at hblob
    dsimp only at hblob
    split at hblob
    · have hthere := ((haccount.blobs p.store.nextBlob).mp (by rw [blob?, hblob]; rfl)).2.1
      obtain ⟨holder, hheld⟩ := hthere
      exact absurd (haccount.made holder _ hheld) (Nat.lt_irrefl _)
    · rw [find?_put_self, Option.some.injEq] at hblob
      exact hblob.symm

/-- The blob that a store has listed has the bytes that the store has read, as long as it is there. -/
theorem Lists.blob? (h : Lists (new capacity streams) events i t r c bytes n)
    (hat : Happens (new capacity streams) events j q e) (hij : i < j) {found : Bytes}
    (hblob : q.store.blob? n = some found) : found = bytes := by
  obtain ⟨p, hp, ht⟩ := h
  obtain ⟨p', more, hstep, hmore⟩ := hp.between hat hij
  have hlt := (accounted_of_run hp.run).made (.task t) n (held?_task ht)
  have hrun : p.run (.turn t :: more) = some q := by
    rw [run_cons, hstep]
    exact hmore
  exact placed_blob?_of_run hp.run ht (blob?_before_run hrun hlt hblob)

/-! ## What becomes of a blob that a record has named -/

/-- After a place at which the record of a resource names a blob: it still does, or a store has swapped
it, and then perhaps dropped the blob. -/
inductive Fate (start : StoreTraffic) (events : List TrafficEvent) (q : StoreTraffic) (i : Nat)
    (r : Resource) (n : Nat) : Prop where
  | named (record : Record) (found : q.store.record? r = some record) (blob : record.blob = n)
  | swapped (j t : Nat) (r' : Resource) (c : Content) (bytes : Bytes) (own : Nat)
      (lists : Lists start events j t r' c bytes own) (key : r'.key = r.key) (le : i ≤ j)
      (task : q.tasks[t]? = some (.swapped r' c bytes n))
  | dropped (j k t : Nat) (r' : Resource) (c : Content) (bytes : Bytes) (own : Nat)
      (lists : Lists start events j t r' c bytes own) (drops : Drops start events k t r' c bytes n)
      (key : r'.key = r.key) (le : i ≤ j)

/-- A store that finds a record in place takes out its blob. -/
theorem Turned.swaps (h : Turned m s (.placed r c bytes n) task' m' s') {record : Record}
    (hr : m.record? r = some record) : task' = .swapped r c bytes record.blob := by
  cases h with
  | swapped _ _ _ _ previous found =>
    obtain rfl : previous = record := Option.some.inj (found.symm.trans hr)
    rfl
  | listed _ _ _ _ free =>
    rw [free] at hr
    contradiction

/-- Whatever a step does, the blob is still named, or its swap or its drop is on record. -/
theorem Fate.step (h : Fate (new capacity streams) events q i r n)
    (hrun : (new capacity streams).run events = some q) (hplain : Plain events)
    (hi : i ≤ events.length) (hstep : q.step e = some q') :
    Fate (new capacity streams) (events ++ [e]) q' i r n := by
  cases h with
  | named record found blob =>
    obtain ⟨t, r', c, bytes, own, rfl, ht, hrecords⟩ | ⟨-, hrecords⟩ :=
      hplain.records_of_step hrun hstep
    · by_cases hk : r'.key = r.key
      · obtain ⟨task', ht', ⟨hne, -⟩ | ⟨-, hturn⟩⟩ := task_of_step hstep ht
        · exact absurd rfl hne
        · rw [hturn.swaps ((record?_congr hk).trans found), blob] at ht'
          exact .swapped _ t r' c bytes own ⟨q, happens_last hrun, ht⟩ hk hi ht'
      · refine .named record ?_ blob
        rw [record?, hrecords, find?_put_of_ne (Ne.symm hk)]
        exact found
    · exact .named record (by rw [record?, hrecords]; exact found) blob
  | swapped j t r' c bytes own lists key le ht =>
    obtain ⟨task', ht', ⟨-, rfl⟩ | ⟨rfl, -⟩⟩ := task_of_step hstep ht
    · exact .swapped j t r' c bytes own lists.concat key le ht'
    · exact .dropped j _ t r' c bytes own lists.concat ⟨q, happens_last hrun, ht⟩ key le
  | dropped j k t r' c bytes own lists drops key le =>
    obtain ⟨p, hat, ht⟩ := drops
    exact .dropped j k t r' c bytes own lists.concat ⟨p, hat.concat, ht⟩ key le

/-- Of a blob that was seen with its record, every later state tells its fate. -/
theorem fate_of_run (hrun : (new capacity streams).run events = some q) (hplain : Plain events)
    (hat : Happens (new capacity streams) events i p e) {record : Record}
    (hr : p.store.record? r = some record) :
    Fate (new capacity streams) events q i r record.blob := by
  refine plain_history (I := fun events q => ∀ i p e, Happens (new capacity streams) events i p e →
    ∀ record, p.store.record? r = some record → Fate (new capacity streams) events q i r record.blob)
    (fun i p e hat => absurd hat.lt (Nat.not_lt_zero i)) ?_ hrun hplain i p e hat record hr
  intro events p p' e hp hplain ih hstep i q e' hat record hr
  obtain hat | ⟨rfl, rfl, rfl⟩ := happens_concat_cases hp hat
  · exact (ih i q e' hat record hr).step hp hplain (Nat.le_of_lt hat.lt) hstep
  · exact (Fate.named record hr rfl).step hp hplain (Nat.le_refl _) hstep

/-- A blob that was dropped is gone for good. -/
theorem Drops.blob? (h : Drops (new capacity streams) events i t r c bytes n)
    (hat : Happens (new capacity streams) events j q e) (hij : i < j) : q.store.blob? n = none := by
  obtain ⟨p, hp, ht⟩ := h
  obtain ⟨p', more, hstep, hmore⟩ := hp.between hat hij
  have hlt := (accounted_of_run hp.run).made (.task t) n (held?_task ht)
  have hgone : p'.store.blob? n = none := by
    obtain ⟨task, task', store, streams, ht', hturn, rfl⟩ := step_turn_eq_some.mp hstep
    cases ht.symm.trans ht'
    cases hturn
    exact find?_remove_self _
  cases hblob : q.store.blob? n with
  | none => rfl
  | some found =>
    have hthere := blob?_before_run hmore (Nat.lt_of_lt_of_le hlt (handover hstep).next_le) hblob
    rw [hgone] at hthere
    contradiction

/-! ## The end of a lookup -/

theorem Lists.take (h : Lists start events i t r c bytes n) (hij : i < j) :
    Lists start (events.take j) i t r c bytes n := by
  obtain ⟨q, hat, ht⟩ := h
  exact ⟨q, hat.take hij, ht⟩

theorem Lists.of_take (h : Lists start (events.take j) i t r c bytes n) :
    Lists start events i t r c bytes n ∧ i < j := by
  obtain ⟨q, hat, ht⟩ := h
  have hlt := hat.lt
  rw [List.length_take] at hlt
  exact ⟨⟨q, hat.of_take, ht⟩, by omega⟩

theorem Plain.take (h : Plain events) (j : Nat) : Plain (events.take j) :=
  fun call hcall => h call (List.mem_of_mem_take hcall)

/-- A store that lists its blob was made before, and has read the bytes. -/
theorem Lists.origin (h : Lists (new capacity streams) events i t r c bytes n) :
    (∃ j, j < i ∧ Made (new capacity streams) events j t (.store r c)) ∧
      Took (new capacity streams) events t r c bytes := by
  obtain ⟨q, hat, ht⟩ := h
  obtain ⟨⟨j, p, hp, hlength⟩, k, p', hp', ht', hread⟩ := past_of_run hat.run ht
  have hmade : Made (new capacity streams) events j t (.store r c) := ⟨p, hp.of_take, hlength⟩
  exact ⟨⟨j, hmade.lt hat ht, hmade⟩, k, p', hp'.of_take, ht', hread⟩

/-- A lookup ends where it finds no record, or asks for the blob of the one that it has copied. -/
theorem Answered.lookup_cases {result : Except StoreFault (Option Content)}
    (h : Answered (new capacity streams) events j t (.lookup r) (.found result)) :
    ∃ q, Happens (new capacity streams) events j q (.turn t) ∧
      (q.tasks[t]? = some (.begun (.lookup r)) ∧ q.store.record? r = none ∧ result = .ok none ∨
      ∃ i record, i < j ∧ Copies (new capacity streams) events i t r record ∧
        result = (copyOf r record (q.store.blob? record.blob)).map some) := by
  obtain ⟨q, q', hat, hstep, hdone⟩ := h
  obtain ⟨task, task', store, streams, ht, hturn, rfl⟩ := step_turn_eq_some.mp hstep
  rw [List.getElem?_set_self (List.getElem?_eq_some_iff.mp ht).1, Option.some.injEq] at hdone
  subst hdone
  refine ⟨q, hat, ?_⟩
  cases turned hturn with
  | missed _ free => exact .inl ⟨ht, free, rfl⟩
  | looked _ record =>
    obtain ⟨-, i, p, hp, hbegun, hr⟩ := past_of_run hat.run ht
    have hlt := hp.lt
    rw [List.length_take] at hlt
    exact .inr ⟨i, record, by omega, ⟨p, hp.of_take, hbegun, hr⟩, rfl⟩

/-- A store comes in between the two steps of a lookup: it swaps the record that the lookup has copied,
and drops the blob that the lookup is about to ask for. -/
def Overtaken (start : StoreTraffic) (events : List TrafficEvent) (t : Nat) (r : Resource) (j : Nat) :
    Prop :=
  ∃ i record, Copies start events i t r record ∧ ∃ k l u r' c bytes own, i < k ∧ k < l ∧ l < j ∧
    r'.key = r.key ∧ Lists start events k u r' c bytes own ∧ Drops start events l u r' c bytes record.blob

/-- A blob that somebody holds is there, unless somebody wants it discarded or there is no room. -/
theorem Plain.blob?_isSome (h : Plain events) (hcapacity : capacity ≠ 0)
    (hrun : (new capacity streams).run events = some q) {holder : Holder}
    (hheld : q.held? holder = some n) : (q.store.blob? n).isSome := by
  have hroom : q.store.capacity = capacity :=
    run_history (I := fun _ q => q.store.capacity = capacity) rfl
      (fun _ h hstep => (capacity_of_step hstep).trans h) hrun
  exact ((accounted_of_run hrun).blobs n).mpr ⟨hroom ▸ hcapacity, ⟨holder, hheld⟩, h.not_discarded n⟩

/-- The blob of a copied record is missing exactly if a store came in between. -/
theorem Copies.missing_iff {record : Record} (h : Copies (new capacity streams) events i t r record)
    (hplain : Plain events) (hcapacity : capacity ≠ 0)
    (hat : Happens (new capacity streams) events j q (.turn t)) (hij : i < j) :
    q.store.blob? record.blob = none ↔ Overtaken (new capacity streams) events t r j := by
  have hcopies := h
  obtain ⟨p, hp, ht, hr⟩ := h
  constructor
  · intro hmissing
    have hnobody : ∀ holder, q.held? holder ≠ some record.blob := by
      intro holder hheld
      have hthere := (hplain.take j).blob?_isSome hcapacity hat.run hheld
      rw [hmissing] at hthere
      contradiction
    cases fate_of_run hat.run (hplain.take j) (hp.take hij) hr with
    | named record' found blob =>
      exact absurd ((congrArg (Option.map Record.blob) found).trans (congrArg some blob))
        (hnobody (.record r.key))
    | swapped k u r' c bytes own lists key le task => exact absurd (held?_task task) (hnobody (.task u))
    | dropped k l u r' c bytes own lists drops key le =>
      obtain ⟨lists, -⟩ := lists.of_take
      obtain ⟨p', hp', hplaced⟩ := lists
      obtain ⟨p'', hdrops, hswapped⟩ := drops
      have hlt := hdrops.lt
      rw [List.length_take] at hlt
      have hkl : k < l := hp'.lt_of_stage hplaced hdrops.of_take hswapped (by simp [StoreTask.stage])
      have hik : i ≠ k := by
        rintro rfl
        obtain rfl := hp.state_eq hp'
        cases hp.event.symm.trans hp'.event
        cases ht.symm.trans hplaced
      exact ⟨i, record, hcopies, k, l, u, r', c, bytes, own, by omega, hkl, by omega, key,
        ⟨p', hp', hplaced⟩, p'', hdrops.of_take, hswapped⟩
  · rintro ⟨i', record', ⟨p', hp', ht', hr'⟩, k, l, u, r', c, bytes, own, -, -, hlj, -, -, hdrops⟩
    obtain rfl := hp.eq_of_stage ht hp' ht' rfl
    obtain rfl := hp.state_eq hp'
    obtain rfl : record = record' := Option.some.inj (hr.symm.trans hr')
    exact hdrops.blob? hat hlj

/-- A record that a lookup copies is that of the store that was listed last. -/
theorem Copies.latest {record : Record} (h : Copies (new capacity streams) events i t r record)
    (hplain : Plain events) : ∃ k u r' c bytes, k < i ∧ r'.key = r.key ∧
      record.attributes = c.attributes ∧
      Lists (new capacity streams) events k u r' c bytes record.blob ∧
      ∀ l u' r'' c' bytes' n, r''.key = r.key →
        Lists (new capacity streams) events l u' r'' c' bytes' n → l < i → l ≤ k := by
  obtain ⟨p, hp, -, hr⟩ := h
  obtain ⟨k, u, r', c, bytes, hlists, hkey, hattributes, hlast⟩ :=
    (listed_of_run hp.run (hplain.take i) r).last record hr
  obtain ⟨hlists, hlt⟩ := hlists.of_take
  exact ⟨k, u, r', c, bytes, hlt, hkey, hattributes, hlists, fun l u' r'' c' bytes' n hkey' hlists' hli =>
    hlast l u' r'' c' bytes' n (hlists'.take hli) hkey'⟩

/-- A store lists its blob once, and before it answers. -/
theorem Lists.le_of_answered {kept : Content} (h : Lists (new capacity streams) events i t r c bytes n)
    (hanswered : Answered (new capacity streams) events j t (.store r c) (.stored (.ok kept))) :
    i ≤ j := by
  obtain ⟨i', bytes', n', hle, p', hp', ht'⟩ := hanswered.exists_lists
  obtain ⟨p, hp, ht⟩ := h
  obtain rfl := hp.eq_of_stage ht hp' ht' rfl
  exact hle

/-- What a lookup finds is the content of a store that no other store for the resource has followed by
the time the lookup was made. -/
theorem Copies.found {record : Record} (h : Copies (new capacity streams) events i t r record)
    (hplain : Plain events) (hat : Happens (new capacity streams) events j q e) (hij : i < j)
    (hmade : Made (new capacity streams) events k t (.lookup r)) {found : Bytes}
    (hblob : q.store.blob? record.blob = some found) :
    ∃ l u r' c bytes, l < j ∧ r'.key = r.key ∧ Made (new capacity streams) events l u (.store r' c) ∧
      Took (new capacity streams) events u r' c bytes ∧
      (⟨.buffered found, record.attributes⟩ : Content) = ⟨.buffered bytes, c.attributes⟩ ∧
      ∀ a kept b m u' r'' c' kept', r''.key = r.key →
        Answered (new capacity streams) events a u (.store r' c) (.stored (.ok kept)) →
        Made (new capacity streams) events b u' (.store r'' c') →
        Answered (new capacity streams) events m u' (.store r'' c') (.stored (.ok kept')) →
        a < b → k < m := by
  obtain ⟨g, u, r', c, bytes, hgi, hkey, hattributes, hlists, hlast⟩ := h.latest hplain
  obtain ⟨⟨l, hlg, hmadeu⟩, htook⟩ := hlists.origin
  have hki : k < i := by
    obtain ⟨p, hp, ht, -⟩ := h
    exact hmade.lt hp ht
  refine ⟨l, u, r', c, bytes, by omega, hkey, hmadeu, htook, ?_, ?_⟩
  · rw [hlists.blob? hat (by omega) hblob, hattributes]
  · intro a kept b m u' r'' c' kept' hkey' hover hbegan hended hab
    obtain ⟨g', bytes', n', hg'm, hlists'⟩ := hended.exists_lists
    have hga : g ≤ a := hlists.le_of_answered hover
    have hbg' : b < g' := by
      obtain ⟨p, hp, ht⟩ := hlists'
      exact hbegan.lt hp ht
    by_contra hearly
    have hlate := hlast g' u' r'' c' bytes' n' hkey' hlists' (by omega)
    omega

/-- **Lookups beside stores.** Lookups and stores run side by side, step by step in any order, in a store
with room. Each lookup of a resource

* finds nothing only if no store for it that kept content had answered before the lookup was made,
* or finds the bytes and the attributes of a store for it that was made before the lookup ended, and was
  not over before another began that had answered before the lookup was made,
* or reports that the blob is missing, and this exactly if a store came in between its two steps with two
  of its own. -/
theorem lookup_beside_stores {result : Except StoreFault (Option Content)} (hcapacity : capacity ≠ 0)
    (hplain : Plain events) (hmade : Made (new capacity streams) events i t (.lookup r))
    (hanswered : Answered (new capacity streams) events j t (.lookup r) (.found result)) :
    (result = .ok none → ∀ k u r' c kept, r'.key = r.key →
      Answered (new capacity streams) events k u (.store r' c) (.stored (.ok kept)) → i < k) ∧
    (∀ content, result = .ok (some content) → ∃ k u r' c bytes, k < j ∧ r'.key = r.key ∧
      Made (new capacity streams) events k u (.store r' c) ∧
      Took (new capacity streams) events u r' c bytes ∧
      content = ⟨.buffered bytes, c.attributes⟩ ∧
      ∀ l kept l' m u' r'' c' kept', r''.key = r.key →
        Answered (new capacity streams) events l u (.store r' c) (.stored (.ok kept)) →
        Made (new capacity streams) events l' u' (.store r'' c') →
        Answered (new capacity streams) events m u' (.store r'' c') (.stored (.ok kept')) →
        l < l' → i < m) ∧
    ((∃ fault, result = .error fault) ↔ Overtaken (new capacity streams) events t r j) ∧
    ∀ fault, result = .error fault → ∃ n : Nat, fault = .missingBlob r.display (toString n) := by
  obtain ⟨q, hat, ⟨ht, hfree, rfl⟩ | ⟨p, record, hpj, hcopies, hresult⟩⟩ := hanswered.lookup_cases
  · refine ⟨fun _ k u r' c kept hkey hended => ?_, fun _ hfound => (nomatch hfound), ⟨nofun, ?_⟩,
      nofun⟩
    · obtain ⟨l, bytes, n, hlk, hlists⟩ := hended.exists_lists
      have hij := hmade.lt hat ht
      by_contra hearly
      exact (listed_of_run hat.run (hplain.take j) r).free hfree l u r' c bytes n
        (hlists.take (by omega)) hkey
    · rintro ⟨i', record, ⟨p', hp', ht', -⟩, k, l, u, r', c, bytes, own, hik, hkl, hlj, -⟩
      obtain rfl := hp'.eq_of_stage ht' hat ht rfl
      omega
  · -- The lookup has copied a record, so all depends on whether its blob has been dropped since.
    have hmissing := hcopies.missing_iff hplain hcapacity hat hpj
    cases hblob : q.store.blob? record.blob with
    | none =>
      replace hresult : result = .error (.missingBlob r.display (toString record.blob)) := by
        rw [hresult, hblob]
        rfl
      subst hresult
      refine ⟨nofun, fun _ hfound => (nomatch hfound),
        ⟨fun _ => hmissing.mp hblob, fun _ => ⟨_, rfl⟩⟩, ?_⟩
      rintro fault ⟨⟩
      exact ⟨record.blob, rfl⟩
    | some found =>
      replace hresult : result = .ok (some ⟨.buffered found, record.attributes⟩) := by
        rw [hresult, hblob]
        rfl
      subst hresult
      refine ⟨nofun, ?_, ⟨nofun, fun hovertaken => ?_⟩, nofun⟩
      · rintro content ⟨⟩
        exact hcopies.found hplain hat hpj hmade hblob
      · rw [hmissing.mpr hovertaken] at hblob
        contradiction

/-- A jar is stored and looked up; between the two steps of the lookup it is stored again. Then it is
looked up once more. -/
def overtakenLookup : List TrafficEvent :=
  let jar : Resource := ⟨"a.jar", [], .content⟩
  [.call (.store jar ⟨.buffered [1], {}⟩), .turn 0, .turn 0, .turn 0, .call (.lookup jar), .turn 1,
    .call (.store jar ⟨.buffered [2], {}⟩), .turn 2, .turn 2, .turn 2, .turn 2, .turn 1,
    .call (.lookup jar), .turn 3, .turn 3]

theorem plain_overtakenLookup : Plain overtakenLookup := by
  intro call hcall
  simp only [overtakenLookup, List.mem_cons, TrafficEvent.call.injEq, reduceCtorEq, false_or,
    List.not_mem_nil, or_false] at hcall
  obtain rfl | rfl | rfl | rfl := hcall <;> rfl

/-- The first lookup reports that the blob is missing. -/
theorem missed_overtakenLookup :
    Made (new 8 .empty) overtakenLookup 4 1 (.lookup ⟨"a.jar", [], .content⟩) ∧
      Answered (new 8 .empty) overtakenLookup 11 1 (.lookup ⟨"a.jar", [], .content⟩)
        (.found (.error (.missingBlob "a.jar" "0"))) :=
  ⟨⟨_, ⟨rfl, rfl⟩, rfl⟩, ⟨_, _, ⟨rfl, rfl⟩, rfl, rfl⟩⟩

/-- The last lookup finds what was stored last, and the first has been overtaken. -/
theorem overtakenLookup_accounted : Plain overtakenLookup ∧
    Answered (new 8 .empty) overtakenLookup 14 3 (.lookup ⟨"a.jar", [], .content⟩)
      (.found (.ok (some ⟨.buffered [2], {}⟩))) ∧
    (∃ u r' c bytes, Took (new 8 .empty) overtakenLookup u r' c bytes ∧
      (⟨.buffered [2], {}⟩ : Content) = ⟨.buffered bytes, c.attributes⟩) ∧
    Overtaken (new 8 .empty) overtakenLookup 1 ⟨"a.jar", [], .content⟩ 11 := by
  obtain ⟨hfirst, hmissing⟩ := missed_overtakenLookup
  have hlast : Made (new 8 .empty) overtakenLookup 12 3 (.lookup ⟨"a.jar", [], .content⟩) :=
    ⟨_, ⟨rfl, rfl⟩, rfl⟩
  have hfound : Answered (new 8 .empty) overtakenLookup 14 3 (.lookup ⟨"a.jar", [], .content⟩)
      (.found (.ok (some ⟨.buffered [2], {}⟩))) := ⟨_, _, ⟨rfl, rfl⟩, rfl, rfl⟩
  obtain ⟨-, -, hovertaken, -⟩ :=
    lookup_beside_stores (by decide) plain_overtakenLookup hfirst hmissing
  obtain ⟨-, hcontent, -, -⟩ :=
    lookup_beside_stores (by decide) plain_overtakenLookup hlast hfound
  obtain ⟨-, u, r', c, bytes, -, -, -, htook, hsame, -⟩ := hcontent _ rfl
  exact ⟨plain_overtakenLookup, hfound, ⟨u, r', c, bytes, htook, hsame⟩, hovertaken.mp ⟨_, rfl⟩⟩

/-- An empty body is stored where there is no room, and looked up. -/
def roomless : List TrafficEvent :=
  let jar : Resource := ⟨"a.jar", [], .content⟩
  [.call (.store jar ⟨.buffered [], {}⟩), .turn 0, .turn 0, .turn 0, .call (.lookup jar), .turn 1,
    .turn 1]

/-- In a store with room, and nothing discarded, deleted or evicted, the lookup that is overtaken reports
a missing blob, although the jar has been stored twice. So does one after a store that has no room for
the content that it has taken. -/
theorem overtakenLookup_misses_blob :
    (Plain overtakenLookup ∧
      Made (new 8 .empty) overtakenLookup 4 1 (.lookup ⟨"a.jar", [], .content⟩) ∧
      Answered (new 8 .empty) overtakenLookup 11 1 (.lookup ⟨"a.jar", [], .content⟩)
        (.found (.error (.missingBlob "a.jar" "0")))) ∧
    Plain roomless ∧
      Answered (new 0 .empty) roomless 3 0 (.store ⟨"a.jar", [], .content⟩ ⟨.buffered [], {}⟩)
        (.stored (.ok ⟨.buffered [], {}⟩)) ∧
      Made (new 0 .empty) roomless 4 1 (.lookup ⟨"a.jar", [], .content⟩) ∧
      Answered (new 0 .empty) roomless 6 1 (.lookup ⟨"a.jar", [], .content⟩)
        (.found (.error (.missingBlob "a.jar" "0"))) := by
  have hplain : Plain roomless := by
    intro call hcall
    simp only [roomless, List.mem_cons, TrafficEvent.call.injEq, reduceCtorEq, false_or,
      List.not_mem_nil, or_false] at hcall
    obtain rfl | rfl := hcall <;> rfl
  have hstored : Answered (new 0 .empty) roomless 3 0
      (.store ⟨"a.jar", [], .content⟩ ⟨.buffered [], {}⟩) (.stored (.ok ⟨.buffered [], {}⟩)) :=
    ⟨_, _, ⟨rfl, rfl⟩, rfl, rfl⟩
  have hmade : Made (new 0 .empty) roomless 4 1 (.lookup ⟨"a.jar", [], .content⟩) :=
    ⟨_, ⟨rfl, rfl⟩, rfl⟩
  have hmissing : Answered (new 0 .empty) roomless 6 1 (.lookup ⟨"a.jar", [], .content⟩)
      (.found (.error (.missingBlob "a.jar" "0"))) := ⟨_, _, ⟨rfl, rfl⟩, rfl, rfl⟩
  exact ⟨⟨plain_overtakenLookup, missed_overtakenLookup⟩, hplain, hstored, hmade, hmissing⟩

end StoreTraffic

end PullCache
