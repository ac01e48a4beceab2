import PullCache.Store.Memory
/-!
# Proofs.Store.Memory

What lookups in the store in memory give after content was kept or confirmed. Keeping content
replaces what is stored under its key and touches nothing else, because a blob gets a number that no
record has; confirming changes the stamp of one record.
-/

namespace PullCache.MemoryStore

/-! ## Tables -/

section Tables

variable {κ ν : Type} [DecidableEq κ] {k k' : κ}

@[simp] theorem find?_nil : find? k ([] : List (κ × ν)) = none := rfl

/-- The first entry counts, so the first part is searched first. -/
theorem find?_append (xs ys : List (κ × ν)) : find? k (xs ++ ys) = (find? k xs).or (find? k ys) := by
  induction xs with
  | nil => rfl
  | cons entry rest ih =>
    rw [List.cons_append, find?, find?, ih]
    split <;> rfl

theorem remove_cons (entry : κ × ν) (table : List (κ × ν)) :
    remove k (entry :: table) =
      if entry.1 = k then remove k table else entry :: remove k table := by
  by_cases h : entry.1 = k <;> simp [remove, h]

/-- What was removed is not found. -/
theorem find?_remove_self (table : List (κ × ν)) : find? k (remove k table) = none := by
  induction table with
  | nil => rfl
  | cons entry rest ih =>
    rw [remove_cons]
    split
    · exact ih
    · next hk => rw [find?, if_neg hk, ih]

/-- Removing one key leaves the others to be found. -/
theorem find?_remove_of_ne (h : k' ≠ k) (table : List (κ × ν)) :
    find? k' (remove k table) = find? k' table := by
  induction table with
  | nil => rfl
  | cons entry rest ih =>
    rw [remove_cons, find?]
    split
    · next hk =>
      have hne : entry.1 ≠ k' := fun hk' => h (hk'.symm.trans hk)
      rw [ih, if_neg hne]
    · rw [find?, ih]

/-- What was put is found. -/
theorem find?_put_self (v : ν) (table : List (κ × ν)) : find? k (put k v table) = some v := by
  rw [put, find?_append, find?_remove_self]
  simp [find?]

/-- Putting one key leaves the others to be found. -/
theorem find?_put_of_ne (h : k' ≠ k) (v : ν) (table : List (κ × ν)) :
    find? k' (put k v table) = find? k' table := by
  rw [put, find?_append, find?_remove_of_ne h]
  simp [find?, h.symm]

end Tables

/-! ## Lookups -/

variable {m : MemoryStore} {r r' : Resource} {c : Content}

theorem record?_congr (h : r'.key = r.key) : m.record? r' = m.record? r := by
  rw [record?, record?, h]

/-- A lookup finds a record together with its blob. -/
theorem lookup_eq_ok_some :
    m.lookup r = .ok (some c) ↔ ∃ record bytes, m.record? r = some record ∧
      m.blob? record.blob = some bytes ∧ c = ⟨.buffered bytes, record.attributes⟩ := by
  unfold lookup
  cases hr : m.record? r with
  | none => simp
  | some record => cases hb : m.blob? record.blob <;> simp [hb, copyOf, Except.map, @eq_comm _ c]

/-- The numbers of all blobs, and of those that records name, have been given out. -/
structure WellNumbered (m : MemoryStore) : Prop where
  records : ∀ r record, m.record? r = some record → record.blob < m.nextBlob
  blobs : ∀ n bytes, m.blob? n = some bytes → n < m.nextBlob

theorem wellNumbered_empty (capacity : Nat) : WellNumbered (empty capacity) where
  records r record h := by simp [record?, empty] at h
  blobs n bytes h := by simp [blob?, empty] at h

theorem lookup_empty (capacity : Nat) : (empty capacity).lookup r = .ok none := rfl

/-! ## Keeping content -/

/-- The blobs after content was kept: the new one is there if there is room for any, and the blob of
the record before it is gone. -/
def blobsAfter (m : MemoryStore) (r : Resource) (bytes : Bytes) : List (Nat × Bytes) :=
  let blobs := if m.capacity = 0 then m.blobs else put m.nextBlob bytes m.blobs
  match m.record? r with
  | some previous => remove previous.blob blobs
  | none => blobs

/-- What keeping does, field by field. -/
theorem keep_eq (bytes : Bytes) (attributes : Attributes) :
    m.keep r bytes attributes =
      { records := put r.key ⟨m.nextBlob, attributes⟩ m.records
        blobs := m.blobsAfter r bytes
        nextBlob := m.nextBlob + 1
        capacity := m.capacity } := by
  unfold keep insertBlob insertRecord blobsAfter
  dsimp only [record?]
  cases find? r.key m.records <;> rfl

/-- The record of what was kept has the next blob. -/
theorem record?_keep_self (h : r'.key = r.key) (bytes : Bytes) (attributes : Attributes) :
    (m.keep r bytes attributes).record? r' = some ⟨m.nextBlob, attributes⟩ := by
  rw [keep_eq, record?, h, find?_put_self]

/-- Other resources keep their records. -/
theorem record?_keep_of_ne (h : r'.key ≠ r.key) (bytes : Bytes) (attributes : Attributes) :
    (m.keep r bytes attributes).record? r' = m.record? r' := by
  rw [keep_eq, record?, find?_put_of_ne h, record?]

/-- The new blob stays, because no record had its number. -/
theorem blob?_keep_new (hm : WellNumbered m) (hcapacity : m.capacity ≠ 0) (bytes : Bytes)
    (attributes : Attributes) :
    (m.keep r bytes attributes).blob? m.nextBlob = some bytes := by
  rw [keep_eq, blob?, blobsAfter]
  simp only [if_neg hcapacity]
  cases hr : m.record? r with
  | none => exact find?_put_self _ _
  | some previous =>
    have hne : m.nextBlob ≠ previous.blob := Nat.ne_of_gt (hm.records r previous hr)
    rw [find?_remove_of_ne hne, find?_put_self]

/-- A blob with another number that is still there was there before. -/
theorem blob?_of_keep {n : Nat} (hn : n ≠ m.nextBlob) {bytes found : Bytes} {attributes : Attributes}
    (h : (m.keep r bytes attributes).blob? n = some found) : m.blob? n = some found := by
  have hput : find? n (if m.capacity = 0 then m.blobs else put m.nextBlob bytes m.blobs) =
      find? n m.blobs := by
    split
    · rfl
    · exact find?_put_of_ne hn _ _
  rw [keep_eq, blob?, blobsAfter] at h
  cases hr : m.record? r with
  | none => rwa [hr, hput] at h
  | some previous =>
    simp only [hr] at h
    by_cases hp : n = previous.blob
    · rw [hp, find?_remove_self] at h
      contradiction
    · rwa [find?_remove_of_ne hp, hput] at h

/-- A new blob gets the next number, so the numbers stay in order. -/
theorem wellNumbered_keep (hm : WellNumbered m) (bytes : Bytes) (attributes : Attributes) :
    WellNumbered (m.keep r bytes attributes) := by
  have hnext : (m.keep r bytes attributes).nextBlob = m.nextBlob + 1 := by rw [keep_eq]
  constructor
  · intro r' record hr
    rw [hnext]
    by_cases h : r'.key = r.key
    · rw [record?_keep_self h, Option.some.injEq] at hr
      subst hr
      exact Nat.lt_succ_self _
    · rw [record?_keep_of_ne h] at hr
      exact Nat.lt_succ_of_lt (hm.records r' record hr)
  · intro n found hn
    rw [hnext]
    by_cases h : n = m.nextBlob
    · exact h ▸ Nat.lt_succ_self _
    · exact Nat.lt_succ_of_lt (hm.blobs n found (blob?_of_keep h hn))

/-- In a store without room the new blob is missing at once. -/
theorem blob?_keep_eq_none (hm : WellNumbered m) (hcapacity : m.capacity = 0) (bytes : Bytes)
    (attributes : Attributes) : (m.keep r bytes attributes).blob? m.nextBlob = none := by
  have hnew : find? m.nextBlob m.blobs = none := by
    cases h : find? m.nextBlob m.blobs with
    | none => rfl
    | some found => exact absurd (hm.blobs _ found h) (Nat.lt_irrefl _)
  rw [keep_eq, blob?, blobsAfter]
  simp only [if_pos hcapacity]
  cases hr : m.record? r with
  | none => exact hnew
  | some previous =>
    have hne : m.nextBlob ≠ previous.blob := Nat.ne_of_gt (hm.records r previous hr)
    exact (find?_remove_of_ne hne _).trans hnew

/-- What was kept is found again. -/
theorem lookup_keep_self (hm : WellNumbered m) (hcapacity : m.capacity ≠ 0) (h : r'.key = r.key)
    (bytes : Bytes) (attributes : Attributes) :
    (m.keep r bytes attributes).lookup r' = .ok (some ⟨.buffered bytes, attributes⟩) :=
  lookup_eq_ok_some.mpr ⟨_, bytes, record?_keep_self h bytes attributes,
    blob?_keep_new hm hcapacity bytes attributes, rfl⟩

/-- Whatever is found after content was kept is that content, or was there before under another
key. -/
theorem lookup_of_keep (hm : WellNumbered m) {bytes : Bytes} {attributes : Attributes}
    (h : (m.keep r bytes attributes).lookup r' = .ok (some c)) :
    r'.key = r.key ∧ c = ⟨.buffered bytes, attributes⟩ ∨
      r'.key ≠ r.key ∧ m.lookup r' = .ok (some c) := by
  obtain ⟨record, found, hrecord, hblob, rfl⟩ := lookup_eq_ok_some.mp h
  by_cases hkey : r'.key = r.key
  · rw [record?_keep_self hkey, Option.some.injEq] at hrecord
    subst hrecord
    by_cases hcapacity : m.capacity = 0
    · rw [blob?_keep_eq_none hm hcapacity] at hblob
      contradiction
    · rw [blob?_keep_new hm hcapacity, Option.some.injEq] at hblob
      exact .inl ⟨hkey, by rw [hblob]⟩
  · rw [record?_keep_of_ne hkey] at hrecord
    have hne : record.blob ≠ m.nextBlob := Nat.ne_of_lt (hm.records r' record hrecord)
    exact .inr ⟨hkey, lookup_eq_ok_some.mpr ⟨record, found, hrecord, blob?_of_keep hne hblob, rfl⟩⟩

/-! ## Confirming content -/

/-- Confirming changes the stamp of the record. -/
theorem record?_verify_self (h : r'.key = r.key) (stamp : Stamp) :
    (m.verify r stamp).record? r' = (m.record? r).map fun record =>
      { record with attributes := { record.attributes with stamp := some stamp } } := by
  rw [verify]
  cases hr : m.record? r with
  | none => rw [record?_congr h, hr]; rfl
  | some record => exact (congrArg (find? · _) h).trans (find?_put_self _ _)

/-- Confirming leaves the other records alone. -/
theorem record?_verify_of_ne (h : r'.key ≠ r.key) (stamp : Stamp) :
    (m.verify r stamp).record? r' = m.record? r' := by
  rw [verify]
  cases m.record? r with
  | none => rfl
  | some record => exact find?_put_of_ne h _ _

@[simp] theorem verify_blobs (stamp : Stamp) : (m.verify r stamp).blobs = m.blobs := by
  rw [verify]
  cases m.record? r <;> rfl

@[simp] theorem verify_nextBlob (stamp : Stamp) : (m.verify r stamp).nextBlob = m.nextBlob := by
  rw [verify]
  cases m.record? r <;> rfl

/-- Confirming touches no blob. -/
theorem wellNumbered_verify (hm : WellNumbered m) (stamp : Stamp) :
    WellNumbered (m.verify r stamp) where
  records r' record h := by
    rw [verify_nextBlob]
    by_cases hkey : r'.key = r.key
    · rw [record?_verify_self hkey] at h
      obtain ⟨before, hbefore, rfl⟩ := Option.map_eq_some_iff.mp h
      exact hm.records r before hbefore
    · rw [record?_verify_of_ne hkey] at h
      exact hm.records r' record h
  blobs n bytes h := by
    rw [verify_nextBlob]
    rw [blob?, verify_blobs] at h
    exact hm.blobs n bytes h

/-- Whatever is found after a record was confirmed was there before, with the new stamp in place of
its own if it is that record. -/
theorem lookup_of_verify {stamp : Stamp} (h : (m.verify r stamp).lookup r' = .ok (some c)) :
    (r'.key = r.key ∧ ∃ before, m.lookup r' = .ok (some before) ∧ c = before.withStamp stamp) ∨
      r'.key ≠ r.key ∧ m.lookup r' = .ok (some c) := by
  obtain ⟨record, found, hrecord, hblob, rfl⟩ := lookup_eq_ok_some.mp h
  rw [blob?, verify_blobs] at hblob
  by_cases hkey : r'.key = r.key
  · rw [record?_verify_self hkey] at hrecord
    obtain ⟨before, hbefore, rfl⟩ := Option.map_eq_some_iff.mp hrecord
    refine .inl ⟨hkey, ⟨.buffered found, before.attributes⟩, lookup_eq_ok_some.mpr ?_, rfl⟩
    exact ⟨before, found, (record?_congr hkey).trans hbefore, hblob, rfl⟩
  · rw [record?_verify_of_ne hkey] at hrecord
    exact .inr ⟨hkey, lookup_eq_ok_some.mpr ⟨record, found, hrecord, hblob, rfl⟩⟩

/-! ## Taking content in -/

/-- Content that can be read, and is not too large, is kept and given back. -/
theorem store_of_read {s : Streams} {bytes : Bytes}
    (h : (c.payload.readLimited m.capacity s).1 = .ok (some bytes)) :
    (m.store s r c).1 = .ok ⟨.buffered bytes, c.attributes⟩ ∧
      (m.store s r c).2.1 = m.keep r bytes c.attributes := by
  unfold store
  cases hread : c.payload.readLimited m.capacity s with
  | mk read after =>
    rw [hread] at h
    cases h
    exact ⟨rfl, rfl⟩

/-- The store keeps the bytes of the content under its attributes and gives them back, or stays as it
is. -/
theorem store_cases (m : MemoryStore) (s : Streams) (r : Resource) (c : Content) :
    (∃ bytes, (c.payload.readLimited m.capacity s).1 = .ok (some bytes) ∧
      (m.store s r c).1 = .ok ⟨.buffered bytes, c.attributes⟩ ∧
      (m.store s r c).2.1 = m.keep r bytes c.attributes) ∨
    (∃ fault, (m.store s r c).1 = .error fault) ∧ (m.store s r c).2.1 = m := by
  unfold store
  cases h : c.payload.readLimited m.capacity s with
  | mk read after =>
    cases read with
    | error fault => exact .inr ⟨⟨_, rfl⟩, rfl⟩
    | ok found =>
      cases found with
      | none => exact .inr ⟨⟨_, rfl⟩, rfl⟩
      | some bytes => exact .inl ⟨bytes, rfl, rfl, rfl⟩

end PullCache.MemoryStore
