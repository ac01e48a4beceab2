import PullCache.Text.Percent
/-!
# Proofs.Text.Split

Cutting a text at its separators: what stands between two separators comes out as one piece, and
pieces that hold no separator can be joined and cut again (`splitOn_intercalate`). Percent encoding
never brings in a slash, so encoded segments of a path stay whole.
-/

namespace PullCache.Text

variable {α : Type} {isSep : α → Bool}

theorem splitOn_ne_nil (cs : List α) : splitOn isSep cs ≠ [] := by
  cases cs with
  | nil => simp [splitOn]
  | cons c rest =>
    rw [splitOn]
    split
    · simp
    · split <;> simp

/-- No piece holds a separator. -/
theorem not_isSep_of_mem_splitOn {cs piece : List α} (h : piece ∈ splitOn isSep cs) :
    ∀ c ∈ piece, isSep c = false := by
  induction cs generalizing piece with
  | nil => simp_all [splitOn]
  | cons c rest ih =>
    rw [splitOn] at h
    by_cases hc : isSep c = true
    · rw [if_pos hc, List.mem_cons] at h
      obtain rfl | h := h
      · simp
      · exact ih h
    · rw [if_neg hc] at h
      cases hs : splitOn isSep rest with
      | nil => exact absurd hs (splitOn_ne_nil rest)
      | cons first pieces =>
        simp only [hs, List.mem_cons] at h ih
        obtain rfl | h := h
        · intro d hd
          obtain rfl | hd := List.mem_cons.mp hd
          · simpa using hc
          · exact ih (.inl rfl) d hd
        · exact ih (.inr h)

/-- Pieces are made of what stood in the text. -/
theorem mem_of_mem_splitOn {cs piece : List α} (h : piece ∈ splitOn isSep cs) : piece ⊆ cs := by
  induction cs generalizing piece with
  | nil => simp_all [splitOn]
  | cons c rest ih =>
    rw [splitOn] at h
    by_cases hc : isSep c = true
    · rw [if_pos hc, List.mem_cons] at h
      obtain rfl | h := h
      · exact List.nil_subset _
      · exact List.subset_cons_of_subset c (ih h)
    · rw [if_neg hc] at h
      cases hs : splitOn isSep rest with
      | nil => exact absurd hs (splitOn_ne_nil rest)
      | cons first pieces =>
        simp only [hs, List.mem_cons] at h ih
        obtain rfl | h := h
        · exact List.cons_subset_cons c (ih (.inl rfl))
        · exact List.subset_cons_of_subset c (ih (.inr h))

/-- A separator ends the last piece before it, and a new one starts after it. -/
theorem splitOn_append_cons (xs ys : List α) {c : α} (hc : isSep c = true) :
    splitOn isSep (xs ++ c :: ys) = splitOn isSep xs ++ splitOn isSep ys := by
  induction xs with
  | nil => simp [splitOn, hc]
  | cons x rest ih =>
    rw [List.cons_append, splitOn, splitOn, ih]
    cases hs : splitOn isSep rest with
    | nil => exact absurd hs (splitOn_ne_nil rest)
    | cons first pieces => split <;> rfl

/-- A text without separators is one piece. -/
theorem splitOn_eq_singleton {xs : List α} (hxs : ∀ x ∈ xs, isSep x = false) :
    splitOn isSep xs = [xs] := by
  induction xs with
  | nil => rfl
  | cons x rest ih =>
    have hx := hxs x List.mem_cons_self
    rw [splitOn, hx, ih fun y hy => hxs y (List.mem_cons_of_mem x hy)]
    simp

/-- Pieces without separators come out again after they have been joined. -/
theorem splitOn_intercalate {pieces : List (List α)} {c : α} (hne : pieces ≠ [])
    (hpieces : ∀ piece ∈ pieces, ∀ x ∈ piece, isSep x = false) (hc : isSep c = true) :
    splitOn isSep ([c].intercalate pieces) = pieces := by
  induction pieces with
  | nil => contradiction
  | cons first rest ih =>
    have hfirst := hpieces first List.mem_cons_self
    cases rest with
    | nil => rw [List.intercalate_singleton, splitOn_eq_singleton hfirst]
    | cons second more =>
      have hrest := ih (by simp) fun piece hp => hpieces piece (List.mem_cons_of_mem first hp)
      rw [List.intercalate_cons_cons, List.append_assoc, List.singleton_append,
        splitOn_append_cons first _ hc, splitOn_eq_singleton hfirst, hrest]
      rfl

end PullCache.Text

namespace PullCache.Percent

/-- A hexadecimal digit is no slash. -/
theorem hexDigit_ne_slash : ∀ n < 16, hexDigit n ≠ '/' := by decide

theorem slash_not_mem_encodeByte (b : UInt8) : '/' ∉ encodeByte b := by
  have hhigh : hexDigit (b.toNat / 16) ≠ '/' := by
    apply hexDigit_ne_slash
    have := b.toNat_lt
    omega
  have hlow : hexDigit (b.toNat % 16) ≠ '/' := by
    apply hexDigit_ne_slash
    omega
  simp [encodeByte, Ne.symm hhigh, Ne.symm hlow]

/-- Encoding brings no slash into a text. -/
theorem slash_not_mem_encode {inSet : Char → Bool} {cs : List Char} (h : '/' ∉ cs) :
    '/' ∉ encode inSet cs := by
  intro hmem
  obtain ⟨c, hc, hslash⟩ := List.mem_flatMap.mp hmem
  split at hslash
  · obtain ⟨b, -, hb⟩ := List.mem_flatMap.mp hslash
    exact slash_not_mem_encodeByte b hb
  · obtain rfl : '/' = c := by simpa using hslash
    exact h hc

end PullCache.Percent
