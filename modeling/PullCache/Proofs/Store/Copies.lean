import PullCache.Proofs.Store.Memory
/-!
# Proofs.Store.Copies

Which copies the store in memory has. A resource has a copy if both its record and its blob are there
(`copy?`). Keeping, confirming and dropping content are each told by what they do to the copy of the
resource, and that they leave the copies of all others alone: no two records share a blob (`Tidy`).
-/

namespace PullCache.MemoryStore

variable {m m' : MemoryStore} {r r' : Resource}

/-! ## Copies -/

/-- The copy of a resource, if its record and its blob are there. -/
def copy? (m : MemoryStore) (r : Resource) : Option Content :=
  (m.lookup r).toOption.join

/-- A copy is the record of the resource with its bytes. -/
theorem copy?_eq (m : MemoryStore) (r : Resource) :
    m.copy? r = (m.record? r).bind fun record =>
      (m.blob? record.blob).map fun bytes => ⟨.buffered bytes, record.attributes⟩ := by
  unfold copy? lookup
  cases m.record? r with
  | none => rfl
  | some record => cases hb : m.blob? record.blob <;> simp [hb, copyOf, Except.map, Except.toOption]

theorem copy?_congr (h : r'.key = r.key) : m.copy? r' = m.copy? r := by
  rw [copy?_eq, copy?_eq, record?_congr h]

/-- A copy depends on its record and on the blob of that. -/
theorem copy?_eq_of_same (hrecord : m'.record? r = m.record? r)
    (hblob : ∀ record, m.record? r = some record → m'.blob? record.blob = m.blob? record.blob) :
    m'.copy? r = m.copy? r := by
  rw [copy?_eq, copy?_eq, hrecord]
  cases hr : m.record? r with
  | none => rfl
  | some record => rw [Option.bind_some, Option.bind_some, hblob record hr]

/-- There is a copy exactly if a lookup finds one. -/
theorem copy?_eq_some {c : Content} : m.copy? r = some c ↔ m.lookup r = .ok (some c) := by
  unfold copy?
  cases m.lookup r with
  | error fault => simp [Except.toOption]
  | ok copy => simp [Except.toOption]

/-- All numbers in use have been given out, and no two records share a blob. -/
structure Tidy (m : MemoryStore) : Prop extends WellNumbered m where
  apart : ∀ r r' record record', m.record? r = some record → m.record? r' = some record' →
    record.blob = record'.blob → r.key = r'.key

theorem tidy_empty (capacity : Nat) : Tidy (empty capacity) where
  toWellNumbered := wellNumbered_empty capacity
  apart r r' record record' h := by simp [record?, empty] at h

/-! ## Keeping content -/

/-- Keeping bytes leaves all blobs as they are but the new one and the one it replaces. -/
theorem blob?_keep_of_ne {n : Nat} (hn : n ≠ m.nextBlob)
    (hprevious : ∀ previous, m.record? r = some previous → n ≠ previous.blob) (bytes : Bytes)
    (attributes : Attributes) : (m.keep r bytes attributes).blob? n = m.blob? n := by
  have hput : find? n (if m.capacity = 0 then m.blobs else put m.nextBlob bytes m.blobs) =
      find? n m.blobs := by
    split
    · rfl
    · exact find?_put_of_ne hn _ _
  rw [keep_eq, blob?, blobsAfter]
  cases hr : m.record? r with
  | none => exact hput
  | some previous => exact (find?_remove_of_ne (hprevious previous hr) _).trans hput

/-- What was kept for a key is the copy for every resource with that key. -/
theorem copy?_keep_self (hm : Tidy m) (hcapacity : m.capacity ≠ 0) (h : r'.key = r.key)
    (bytes : Bytes) (attributes : Attributes) :
    (m.keep r bytes attributes).copy? r' = some ⟨.buffered bytes, attributes⟩ :=
  copy?_eq_some.mpr (lookup_keep_self hm.toWellNumbered hcapacity h bytes attributes)

/-- Other resources have the copies that they had. -/
theorem copy?_keep_of_ne (hm : Tidy m) (h : r'.key ≠ r.key) (bytes : Bytes)
    (attributes : Attributes) : (m.keep r bytes attributes).copy? r' = m.copy? r' := by
  refine copy?_eq_of_same (record?_keep_of_ne h bytes attributes) fun record hr => ?_
  refine blob?_keep_of_ne (Nat.ne_of_lt (hm.records r' record hr)) (fun previous hp heq => ?_) ..
  exact h (hm.apart r' r record previous hr hp heq)

@[simp] theorem keep_capacity (bytes : Bytes) (attributes : Attributes) :
    (m.keep r bytes attributes).capacity = m.capacity := by
  rw [keep_eq]

/-- A new blob has a number of its own, so a tidy store stays tidy. -/
theorem Tidy.keep (hm : Tidy m) (r : Resource) (bytes : Bytes) (attributes : Attributes) :
    Tidy (m.keep r bytes attributes) where
  toWellNumbered := wellNumbered_keep hm.toWellNumbered bytes attributes
  apart r₁ r₂ record₁ record₂ h₁ h₂ heq := by
    -- The new record has a number that no other has.
    have hnew : ∀ r' record', r'.key ≠ r.key →
        (m.keep r bytes attributes).record? r' = some record' → record'.blob ≠ m.nextBlob := by
      intro r' record' hne hr'
      rw [record?_keep_of_ne hne] at hr'
      exact Nat.ne_of_lt (hm.records r' record' hr')
    by_cases hk₁ : r₁.key = r.key <;> by_cases hk₂ : r₂.key = r.key
    · rw [hk₁, hk₂]
    · rw [record?_keep_self hk₁, Option.some.injEq] at h₁
      subst h₁
      exact absurd heq.symm (hnew r₂ record₂ hk₂ h₂)
    · rw [record?_keep_self hk₂, Option.some.injEq] at h₂
      subst h₂
      exact absurd heq (hnew r₁ record₁ hk₁ h₁)
    · rw [record?_keep_of_ne hk₁] at h₁
      rw [record?_keep_of_ne hk₂] at h₂
      exact hm.apart r₁ r₂ record₁ record₂ h₁ h₂ heq

/-! ## Confirming content -/

/-- Confirming a copy changes its stamp and nothing else. -/
theorem copy?_verify_self (h : r'.key = r.key) (stamp : Stamp) :
    (m.verify r stamp).copy? r' = (m.copy? r).map (·.withStamp stamp) := by
  rw [copy?_eq, copy?_eq, record?_verify_self h]
  cases m.record? r with
  | none => rfl
  | some record =>
    simp only [Option.map_some, Option.bind_some, blob?, verify_blobs]
    cases find? record.blob m.blobs <;> rfl

/-- Confirming a copy does not touch the copies of other resources. -/
theorem copy?_verify_of_ne (h : r'.key ≠ r.key) (stamp : Stamp) :
    (m.verify r stamp).copy? r' = m.copy? r' :=
  copy?_eq_of_same (record?_verify_of_ne h stamp) fun record _ => by rw [blob?, verify_blobs, blob?]

@[simp] theorem verify_capacity (stamp : Stamp) : (m.verify r stamp).capacity = m.capacity := by
  rw [verify]
  cases m.record? r <;> rfl

/-- The blob of a record that was confirmed is that of the record before. -/
theorem record?_of_verify {stamp : Stamp} {record : Record}
    (h : (m.verify r stamp).record? r' = some record) :
    ∃ before, m.record? r' = some before ∧ before.blob = record.blob := by
  by_cases hk : r'.key = r.key
  · rw [record?_verify_self hk] at h
    obtain ⟨before, hbefore, rfl⟩ := Option.map_eq_some_iff.mp h
    exact ⟨before, (record?_congr hk).trans hbefore, rfl⟩
  · rw [record?_verify_of_ne hk] at h
    exact ⟨record, h, rfl⟩

/-- Confirming a copy touches no blob. -/
theorem Tidy.verify (hm : Tidy m) (r : Resource) (stamp : Stamp) : Tidy (m.verify r stamp) where
  toWellNumbered := wellNumbered_verify hm.toWellNumbered stamp
  apart r₁ r₂ record₁ record₂ h₁ h₂ heq := by
    obtain ⟨before₁, hb₁, hblob₁⟩ := record?_of_verify h₁
    obtain ⟨before₂, hb₂, hblob₂⟩ := record?_of_verify h₂
    exact hm.apart r₁ r₂ before₁ before₂ hb₁ hb₂ (by rw [hblob₁, heq, hblob₂])

/-! ## Dropping content -/

/-- The blob of a resource is gone, and perhaps its record too; everything else is as it was. -/
structure Dropped (m : MemoryStore) (r : Resource) (m' : MemoryStore) : Prop where
  record_of_ne : ∀ r', r'.key ≠ r.key → m'.record? r' = m.record? r'
  record_self : ∀ record, m'.record? r = some record → m.record? r = some record
  blobs : m'.blobs = ((m.record? r).map fun record => remove record.blob m.blobs).getD m.blobs
  nextBlob : m'.nextBlob = m.nextBlob
  capacity : m'.capacity = m.capacity

/-- A discard drops the blob of the resource. -/
theorem dropped_discard (m : MemoryStore) (r : Resource) : Dropped m r (m.discard r).2 := by
  unfold discard
  cases hr : m.record? r with
  | none => exact ⟨fun _ _ => rfl, fun _ h => h, by rw [hr]; rfl, rfl, rfl⟩
  | some record => exact ⟨fun _ _ => rfl, fun _ h => hr ▸ h, by rw [hr]; rfl, rfl, rfl⟩

/-- A delete drops the blob of the resource, and its record as well. -/
theorem dropped_delete (m : MemoryStore) (r : Resource) : Dropped m r (m.delete r).2 := by
  have hne : ∀ r', r'.key ≠ r.key → find? r'.key (remove r.key m.records) = m.record? r' :=
    fun r' h => find?_remove_of_ne h _
  have hself : ∀ record, find? r.key (remove r.key m.records) = some record →
      m.record? r = some record := by
    intro record h
    rw [find?_remove_self] at h
    contradiction
  unfold delete removeRecord
  cases hr : m.record? r with
  | none => exact ⟨hne, fun record h => hr ▸ hself record h, by rw [hr]; rfl, rfl, rfl⟩
  | some record => exact ⟨hne, fun record h => hr ▸ hself record h, by rw [hr]; rfl, rfl, rfl⟩

namespace Dropped

/-- The blob that was dropped is gone. -/
theorem blob?_self (h : Dropped m r m') {record : Record} (hr : m.record? r = some record) :
    m'.blob? record.blob = none := by
  rw [blob?, h.blobs, hr]
  exact find?_remove_self _

/-- Blobs that belong to other records stay. -/
theorem blob?_of_ne (h : Dropped m r m') {n : Nat}
    (hn : ∀ record, m.record? r = some record → n ≠ record.blob) : m'.blob? n = m.blob? n := by
  rw [blob?, h.blobs]
  cases hr : m.record? r with
  | none => rfl
  | some record => exact find?_remove_of_ne (hn record hr) _

/-- Dropping adds no blobs. -/
theorem blob?_of_some (h : Dropped m r m') {n : Nat} {bytes : Bytes} (hb : m'.blob? n = some bytes) :
    m.blob? n = some bytes := by
  by_cases hn : ∃ record, m.record? r = some record ∧ n = record.blob
  · obtain ⟨record, hr, rfl⟩ := hn
    rw [h.blob?_self hr] at hb
    contradiction
  · rwa [h.blob?_of_ne fun record hr heq => hn ⟨record, hr, heq⟩] at hb

/-- Dropping adds no records. -/
theorem record?_of_some (h : Dropped m r m') {record : Record} (hr : m'.record? r' = some record) :
    m.record? r' = some record := by
  by_cases hk : r'.key = r.key
  · rw [record?_congr hk] at hr ⊢
    exact h.record_self record hr
  · rwa [h.record_of_ne r' hk] at hr

/-- After a drop there is no copy of the resource. -/
theorem copy?_self (h : Dropped m r m') (hk : r'.key = r.key) : m'.copy? r' = none := by
  rw [copy?_congr hk, copy?_eq]
  cases hr : m'.record? r with
  | none => rfl
  | some record => rw [Option.bind_some, h.blob?_self (h.record_self record hr)]; rfl

/-- No other resource loses its copy, because no two records share a blob. -/
theorem copy?_of_ne (h : Dropped m r m') (hm : Tidy m) (hk : r'.key ≠ r.key) :
    m'.copy? r' = m.copy? r' :=
  copy?_eq_of_same (h.record_of_ne r' hk) fun record hr =>
    h.blob?_of_ne fun dropped hd heq => hk (hm.apart r' r record dropped hr hd heq)

/-- Dropping keeps a store tidy. -/
theorem tidy (h : Dropped m r m') (hm : Tidy m) : Tidy m' where
  records r' record hr := by
    rw [h.nextBlob]
    exact hm.records r' record (h.record?_of_some hr)
  blobs n bytes hb := by
    rw [h.nextBlob]
    exact hm.blobs n bytes (h.blob?_of_some hb)
  apart r₁ r₂ record₁ record₂ h₁ h₂ :=
    hm.apart r₁ r₂ record₁ record₂ (h.record?_of_some h₁) (h.record?_of_some h₂)

end Dropped

end PullCache.MemoryStore
