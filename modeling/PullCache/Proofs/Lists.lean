import Mathlib.Algebra.GroupWithZero.Nat
/-!
# Proofs.Lists

Lists that grow at their end and are changed at one place, as the parts of a state are.
-/

namespace PullCache

variable {ν : Type}

/-- What is decided of one item after the other holds of all. -/
theorem forall_of_all {p : ν → Prop} [DecidablePred p] {xs : List ν}
    (h : xs.all (fun x => decide (p x)) = true) : ∀ x ∈ xs, p x := by
  simpa using h

/-- What stands in a list that got one more item stood there before, or is the new item. -/
theorem getElem?_concat_eq_some {list : List ν} {a b : ν} {i : Nat} :
    (list ++ [a])[i]? = some b ↔ list[i]? = some b ∨ i = list.length ∧ a = b := by
  obtain hlt | rfl | hgt := Nat.lt_trichotomy i list.length
  · simp [List.getElem?_append_left hlt, Nat.ne_of_lt hlt]
  · simp
  · have hnone : (list ++ [a])[i]? = none := by
      rw [List.getElem?_eq_none_iff, List.length_append, List.length_singleton]
      exact hgt
    simp [hnone, List.getElem?_eq_none (Nat.le_of_lt hgt), Nat.ne_of_gt hgt]

/-- What stands in a list after one item was changed is that item, changed, or stood there before. -/
theorem getElem?_modify_cases {list : List ν} {f : ν → ν} {a b : ν} {i j : Nat}
    (found : list[j]? = some a) (h : (list.modify j f)[i]? = some b) :
    i = j ∧ b = f a ∨ i ≠ j ∧ list[i]? = some b := by
  by_cases hij : j = i
  · subst hij
    rw [List.getElem?_modify_eq, found] at h
    exact .inl ⟨rfl, (Option.some.inj h).symm⟩
  · rw [List.getElem?_modify_ne _ _ hij] at h
    exact .inr ⟨Ne.symm hij, h⟩

/-- A change of one item that keeps a view of it keeps the view of the list. -/
theorem map_modify_of_keeps {μ : Type} {v : ν → μ} {f : ν → ν} (keeps : ∀ x, v (f x) = v x)
    (xs : List ν) (i : Nat) : (xs.modify i f).map v = xs.map v := by
  apply List.ext_getElem?
  intro j
  rw [List.getElem?_map, List.getElem?_map, List.getElem?_modify]
  cases xs[j]? with
  | none => rfl
  | some x => by_cases hj : i = j <;> simp [hj, keeps]

/-- Lists that look alike still do after changes of one item that keep items looking alike. -/
theorem map_modify_congr {μ : Type} {v : ν → μ} {f : ν → ν}
    (hf : ∀ x y, v x = v y → v (f x) = v (f y)) {xs ys : List ν} (h : xs.map v = ys.map v) (i : Nat) :
    (xs.modify i f).map v = (ys.modify i f).map v := by
  apply List.ext_getElem?
  intro j
  have hj : (xs[j]?).map v = (ys[j]?).map v := by
    rw [← List.getElem?_map, ← List.getElem?_map, h]
  rw [List.getElem?_map, List.getElem?_map, List.getElem?_modify, List.getElem?_modify]
  cases hx : xs[j]? with
  | none =>
    rw [hx, Option.map_none, eq_comm, Option.map_eq_none_iff] at hj
    rw [hj]
  | some x =>
    rw [hx, Option.map_some, eq_comm, Option.map_eq_some_iff] at hj
    obtain ⟨y, hy, hxy⟩ := hj
    rw [hy]
    by_cases hij : i = j
    · simp [hij, hf y x hxy]
    · simp [hij, hxy]

/-- The last item of a list is changed alone. -/
theorem modify_concat_length (xs : List ν) (x : ν) (f : ν → ν) :
    (xs ++ [x]).modify xs.length f = xs ++ [f x] := by
  induction xs with
  | nil => rfl
  | cons y ys ih => simp [ih]

/-- Each item of a list that is mapped as a whole is mapped to an item of the outcome. -/
theorem exists_of_mapM {μ : Type} {f : ν → Option μ} {xs : List ν} {ys : List μ}
    (h : xs.mapM f = some ys) {x : ν} (hx : x ∈ xs) : ∃ y ∈ ys, f x = some y := by
  induction xs generalizing ys with
  | nil => contradiction
  | cons first rest ih =>
    rw [List.mapM_cons] at h
    obtain ⟨y, hy, h⟩ := Option.bind_eq_some_iff.mp h
    obtain ⟨more, hmore, h⟩ := Option.bind_eq_some_iff.mp h
    cases h
    obtain rfl | hrest := List.mem_cons.mp hx
    · exact ⟨y, List.mem_cons_self, hy⟩
    · obtain ⟨z, hz, hfz⟩ := ih hmore hrest
      exact ⟨z, List.mem_cons_of_mem _ hz, hfz⟩

/-! ## Items at one end that have a property -/

/-- A list is cut before the items at its end. -/
theorem spanEnd_append (p : ν → Bool) (xs : List ν) :
    (xs.reverse.dropWhile p).reverse ++ (xs.reverse.takeWhile p).reverse = xs := by
  rw [← List.reverse_append, List.takeWhile_append_dropWhile, List.reverse_reverse]

/-- What comes after an item without the property is not looked at. -/
theorem span_append {p : ν → Bool} {xs : List ν} (h : xs.dropWhile p ≠ []) (ys : List ν) :
    (xs ++ ys).takeWhile p = xs.takeWhile p ∧ (xs ++ ys).dropWhile p = xs.dropWhile p ++ ys := by
  have hlength : (xs.takeWhile p).length ≠ xs.length := by
    intro heq
    have hsplit := congrArg List.length (List.takeWhile_append_dropWhile (p := p) (l := xs))
    rw [List.length_append, heq] at hsplit
    exact h (List.length_eq_zero_iff.mp (by omega))
  have hempty : (xs.dropWhile p).isEmpty = false := by simpa using h
  rw [List.takeWhile_append, if_neg hlength, List.dropWhile_append, hempty,
    if_neg Bool.false_ne_true]
  exact ⟨rfl, rfl⟩

/-! ## The last item with a property -/

/-- The last item of a list that has a property. -/
def Latest (P : ν → Prop) (list : List ν) (x : ν) : Prop :=
  ∃ before after, list = before ++ x :: after ∧ P x ∧ ∀ y ∈ after, ¬ P y

theorem Latest.concat_self {P : ν → Prop} {x : ν} (list : List ν) (h : P x) :
    Latest P (list ++ [x]) x :=
  ⟨list, [], rfl, h, by simp⟩

theorem Latest.append_of_not {P : ν → Prop} {list more : List ν} {x : ν} (h : Latest P list x)
    (hmore : ∀ y ∈ more, ¬ P y) : Latest P (list ++ more) x := by
  obtain ⟨before, after, rfl, hx, hlast⟩ := h
  refine ⟨before, after ++ more, by simp, hx, fun y hy => ?_⟩
  exact (List.mem_append.mp hy).elim (hlast y) (hmore y)

/-- Where a list that got more items is split at an item, the list before was split there, or the item
is one of the new ones. -/
theorem append_eq_append_cons {list more before after : List ν} {x : ν}
    (h : list ++ more = before ++ x :: after) :
    (∃ rest, after = rest ++ more ∧ list = before ++ x :: rest) ∨ x ∈ more := by
  obtain ⟨between, rfl, hmore⟩ | ⟨between, rfl, hsplit⟩ := List.append_eq_append_iff.mp h
  · exact .inr (by simp [hmore])
  · cases between with
    | nil =>
      obtain rfl : x :: after = more := hsplit
      exact .inr List.mem_cons_self
    | cons y rest =>
      obtain ⟨rfl, rfl⟩ := List.cons.inj hsplit
      exact .inl ⟨rest, rfl, rfl⟩

theorem sum_map_modify {w : ν → Nat} {f : ν → ν} {xs : List ν} {i : Nat} {x : ν}
    (h : xs[i]? = some x) :
    ((xs.modify i f).map w).sum + w x = (xs.map w).sum + w (f x) := by
  induction xs generalizing i with
  | nil => simp at h
  | cons y ys ih =>
    cases i with
    | zero =>
      cases h
      simp only [List.modify_zero_cons, List.map_cons, List.sum_cons]
      omega
    | succ i =>
      have := ih (by simpa using h)
      simp only [List.modify_succ_cons, List.map_cons, List.sum_cons]
      omega

theorem sum_map_concat (w : ν → Nat) (xs : List ν) (x : ν) :
    ((xs ++ [x]).map w).sum = (xs.map w).sum + w x := by
  simp

end PullCache
