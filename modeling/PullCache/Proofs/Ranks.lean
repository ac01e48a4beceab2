import PullCache.Proofs.Lists
/-!
# Proofs.Ranks

The items of a list that have a property, and where they stand among themselves.

The *rank* of a place is the number of such items before it. It is the place that the item there has
in the filtered list, so ranks renumber whatever names items by their place.
-/

namespace PullCache

variable {ν : Type} {p : ν → Bool} {xs : List ν} {x y : ν} {n m : Nat}

/-- How many items before a place have a property. -/
def rank (p : ν → Bool) (xs : List ν) (n : Nat) : Nat :=
  (xs.take n).countP p

@[simp] theorem rank_zero : rank p xs 0 = 0 := by
  simp [rank]

@[simp] theorem rank_cons_succ :
    rank p (x :: xs) (n + 1) = rank p xs n + if p x then 1 else 0 := by
  simp [rank, List.countP_cons]

theorem rank_length : rank p xs xs.length = (xs.filter p).length := by
  rw [rank, List.take_length, List.countP_eq_length_filter]

/-- An item with the property stands at its rank among the items that have it. -/
theorem getElem?_filter_rank (h : xs[n]? = some x) (hx : p x = true) :
    (xs.filter p)[rank p xs n]? = some x := by
  induction xs generalizing n with
  | nil => simp at h
  | cons first rest ih =>
    cases n with
    | zero =>
      obtain rfl : first = x := by simpa using h
      simp [hx]
    | succ n =>
      have hrest := ih (by simpa using h)
      by_cases hfirst : p first = true
      · simpa [hfirst] using hrest
      · simpa [hfirst] using hrest

/-- Every item of the filtered list stands at the rank of a place. -/
theorem exists_rank (h : (xs.filter p)[m]? = some x) :
    ∃ n, xs[n]? = some x ∧ p x = true ∧ rank p xs n = m := by
  induction xs generalizing m with
  | nil => simp at h
  | cons first rest ih =>
    by_cases hfirst : p first = true
    · rw [List.filter_cons_of_pos hfirst] at h
      cases m with
      | zero =>
        obtain rfl : first = x := by simpa using h
        exact ⟨0, rfl, hfirst, rank_zero⟩
      | succ m =>
        obtain ⟨n, hn, hx, hrank⟩ := ih (by simpa using h)
        exact ⟨n + 1, by simpa using hn, hx, by simp [hfirst, hrank]⟩
    · rw [List.filter_cons_of_neg hfirst] at h
      obtain ⟨n, hn, hx, hrank⟩ := ih h
      exact ⟨n + 1, by simpa using hn, hx, by simp [hfirst, hrank]⟩

/-- Items with the property at different places have different ranks. -/
theorem rank_inj (hn : xs[n]? = some x) (hm : xs[m]? = some y) (hx : p x = true) (hy : p y = true)
    (h : rank p xs n = rank p xs m) : n = m := by
  induction xs generalizing n m with
  | nil => simp at hn
  | cons first rest ih =>
    cases n with
    | zero =>
      obtain rfl : first = x := by simpa using hn
      cases m with
      | zero => rfl
      | succ m => simp [hx] at h
    | succ n =>
      cases m with
      | zero =>
        obtain rfl : first = y := by simpa using hm
        simp [hy] at h
      | succ m => exact congrArg (· + 1) (ih (by simpa using hn) (by simpa using hm) (by simpa using h))

/-! ## Lists that grow and change -/

/-- A new item at the end leaves all ranks up to it as they are. -/
theorem rank_concat (h : n ≤ xs.length) : rank p (xs ++ [x]) n = rank p xs n := by
  rw [rank, rank, List.take_append_of_le_length h]

/-- A change of an item that keeps the property keeps the ranks. -/
theorem rank_modify {f : ν → ν} (keeps : ∀ x, p (f x) = p x) (n m : Nat) :
    rank p (xs.modify n f) m = rank p xs m := by
  induction xs generalizing n m with
  | nil => simp
  | cons first rest ih =>
    cases m with
    | zero => simp
    | succ m =>
      cases n with
      | zero => simp [keeps]
      | succ n => simp [ih]

/-- A change of an item that a view turns into another change is seen as that one. -/
theorem map_modify {μ : Type} {v : ν → μ} {f : ν → ν} {g : μ → μ} (h : ∀ x, v (f x) = g (v x))
    (xs : List ν) (n : Nat) : (xs.modify n f).map v = (xs.map v).modify n g := by
  induction xs generalizing n with
  | nil => simp
  | cons first rest ih => cases n <;> simp [h, ih]

/-- A change of an item with the property is a change at its rank. -/
theorem filter_modify_of_pos {f : ν → ν} (keeps : ∀ x, p (f x) = p x) (h : xs[n]? = some x)
    (hx : p x = true) : (xs.modify n f).filter p = (xs.filter p).modify (rank p xs n) f := by
  induction xs generalizing n with
  | nil => simp at h
  | cons first rest ih =>
    cases n with
    | zero =>
      obtain rfl : first = x := by simpa using h
      simp [keeps, hx]
    | succ n =>
      have hrest := ih (by simpa using h)
      by_cases hfirst : p first = true
      · simp [hfirst, hrest]
      · simp [hfirst, hrest]

/-- A change of an item without the property is none for the others. -/
theorem filter_modify_of_neg {f : ν → ν} (keeps : ∀ x, p (f x) = p x) (h : xs[n]? = some x)
    (hx : p x = false) : (xs.modify n f).filter p = xs.filter p := by
  induction xs generalizing n with
  | nil => simp
  | cons first rest ih =>
    cases n with
    | zero =>
      obtain rfl : first = x := by simpa using h
      simp [keeps, hx]
    | succ n =>
      have hrest := ih (by simpa using h)
      simp [List.filter_cons, hrest]

/-! ## Tables -/

/-- Looking a key up needs only the entries for that key. -/
theorem lookup_filter_key {κ : Type} [DecidableEq κ] (table : List (κ × ν)) (k : κ) :
    (table.filter (·.1 = k)).lookup k = table.lookup k := by
  induction table with
  | nil => rfl
  | cons entry rest ih =>
    obtain ⟨k', v⟩ := entry
    by_cases hk : k' = k
    · simp [hk]
    · have hne : (k == k') = false := by simpa using Ne.symm hk
      simp [hk, hne, ih, List.lookup_cons]

end PullCache
