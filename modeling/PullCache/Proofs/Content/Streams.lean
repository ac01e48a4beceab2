import PullCache.Proofs.Content.Body
/-!
# Proofs.Content.Streams

The streams seen one at a time (`stream?`). Taking a stream empties its place and no other, and opening
one fills the next place, so a place that has been emptied stays empty.

Which pieces were pulled is on record beside the streams, and matters for none of this: `open?` says
which streams there are.

A payload is backed by one stream at most. Reading it, giving it up and reading the content around it
all leave the same streams open: they take the stream that backs it.
-/

namespace PullCache

namespace Streams

variable {s : Streams} {body : RemoteBody} {n : Nat} {chunks : List Chunk}

/-- The pieces of a stream that is open. -/
def stream? (s : Streams) (n : Nat) : Option (List Chunk) :=
  s.open?.getD n none

/-- The number of streams opened so far. -/
def size (s : Streams) : Nat := s.open?.length

/-- What is open counts, whatever was pulled. -/
theorem stream?_congr {s' : Streams} (h : s'.open? = s.open?) (n : Nat) : s'.stream? n = s.stream? n := by
  rw [stream?, stream?, h]

/-- How many streams there are does not depend on what was pulled. -/
theorem size_congr {s' : Streams} (h : s'.open? = s.open?) : s'.size = s.size := by
  rw [size, size, h]

theorem stream?_eq (s : Streams) (n : Nat) : s.stream? n = s.open?[n]?.getD none :=
  List.getD_eq_getElem?_getD ..

theorem take_fst (s : Streams) (body : RemoteBody) : (s.take body).1 = s.stream? body.stream := rfl

/-- A body is consumed when its stream is not open any more. -/
theorem isConsumed_iff : s.isConsumed body = true ↔ s.stream? body.stream = none :=
  Option.isNone_iff_eq_none

/-- Streams that were not opened yet are not there. -/
theorem stream?_eq_none_of_le (h : s.size ≤ n) : s.stream? n = none := by
  rw [stream?_eq, List.getElem?_eq_none h]
  rfl

/-- A stream that is there was opened before. -/
theorem lt_size (h : s.stream? n = some chunks) : n < s.size := by
  refine Nat.lt_of_not_le fun hle => ?_
  rw [stream?_eq_none_of_le hle] at h
  contradiction

/-! ## Taking a stream -/

@[simp] theorem size_take : (s.take body).2.size = s.size :=
  List.length_set

/-- A stream that was taken is gone, whether it was there or not. -/
theorem stream?_take_self : (s.take body).2.stream? body.stream = none := by
  rw [stream?_eq, take]
  by_cases hlt : body.stream < s.open?.length
  · rw [List.getElem?_set_self hlt]
    rfl
  · rw [List.getElem?_eq_none (by rw [List.length_set]; exact Nat.le_of_not_lt hlt)]
    rfl

/-- Only the stream of the body is taken. -/
theorem stream?_take_of_ne (h : n ≠ body.stream) : (s.take body).2.stream? n = s.stream? n := by
  rw [stream?_eq, stream?_eq, take, List.getElem?_set_ne h.symm]

/-! ## Opening a stream -/

@[simp] theorem size_add : (s.add chunks).2.size = s.size + 1 :=
  List.length_append

/-- A stream that is opened gets the next number. -/
theorem stream?_add_self : (s.add chunks).2.stream? s.size = some chunks := by
  rw [stream?_eq, add, size, List.getElem?_concat_length]
  rfl

/-- Opening a stream leaves all others as they are. -/
theorem stream?_add_of_ne (h : n ≠ s.size) : (s.add chunks).2.stream? n = s.stream? n := by
  obtain hlt | hgt := Nat.lt_or_gt_of_ne h
  · rw [stream?_eq, stream?_eq, add, List.getElem?_append_left hlt]
  · rw [stream?_eq_none_of_le (Nat.le_of_lt hgt), stream?_eq_none_of_le (by rw [size_add]; exact hgt)]

end Streams

/-! ## What backs a payload -/

namespace Payload

variable {p : Payload} {s : Streams} {n : Nat}

/-- The number of the stream that a payload is read from. -/
def backing? : Payload → Option Nat
  | buffered _ => none
  | streaming body => some body.stream

/-- Two payloads share a stream exactly if the same one backs both. -/
theorem sharesStream_iff {a b : Payload} :
    a.sharesStream b = true ↔ ∃ n, a.backing? = some n ∧ b.backing? = some n := by
  cases a with
  | buffered bytes => simp [sharesStream, backing?]
  | streaming body =>
    cases b with
    | buffered bytes => simp [sharesStream, backing?]
    | streaming other =>
      rw [sharesStream, beq_iff_eq]
      constructor
      · intro h
        exact ⟨body.stream, rfl, congrArg some h.symm⟩
      · rintro ⟨n, h, hother⟩
        exact Option.some.inj (h.trans hother.symm)

/-- Who reads a stream gets all its bytes, unless somebody else has had it. -/
theorem readAll_streaming (body : RemoteBody) (s : Streams) :
    ((streaming body).readAll s).1 = match s.stream? body.stream with
      | some chunks => Chunk.readAll chunks
      | none => .error .consumed := by
  rw [← Streams.take_fst, readAll]
  cases s.take body with
  | mk found after =>
    cases found with
    | none => rfl
    | some chunks => exact RemoteBody.readToEnd_nil_fst body chunks after

/-- Reading a payload leaves the streams open that giving it up does. -/
theorem readAll_open? (p : Payload) (s : Streams) :
    (p.readAll s).2.open? = (p.release s).2.open? := by
  cases p with
  | buffered bytes => rfl
  | streaming body =>
    simp only [readAll, release]
    split
    · next chunks after htake =>
      rw [htake]
      exact RemoteBody.readToEnd_open? body [] chunks after
    · next htake => rw [htake]

@[simp] theorem size_release : (p.release s).2.size = s.size := by
  cases p with
  | buffered bytes => rfl
  | streaming body => exact Streams.size_take

/-- A payload that was given up has lost its stream. -/
theorem stream?_release_self (h : p.backing? = some n) : (p.release s).2.stream? n = none := by
  cases p with
  | buffered bytes => contradiction
  | streaming body =>
    cases h
    exact Streams.stream?_take_self

/-- Giving a payload up takes no stream but its own. -/
theorem stream?_release_of_ne (h : p.backing? ≠ some n) :
    (p.release s).2.stream? n = s.stream? n := by
  cases p with
  | buffered bytes => rfl
  | streaming body => exact Streams.stream?_take_of_ne fun heq => h (congrArg some heq.symm)

end Payload

/-- Content can be handed to several readers exactly if no stream backs it. -/
theorem Content.isReusable_iff {c : Content} : c.isReusable = true ↔ c.payload.backing? = none := by
  rw [isReusable]
  cases c.payload <;> simp [Payload.backing?]

/-- Reading content leaves the streams open that giving it up does. -/
theorem Content.materialize_open? (c : Content) (s : Streams) :
    (c.materialize s).2.open? = (c.payload.release s).2.open? := by
  obtain ⟨payload, attributes⟩ := c
  cases payload with
  | buffered bytes => rfl
  | streaming body =>
    rw [← Payload.readAll_open?, materialize]
    cases hread : (Payload.streaming body).readAll s with
    | mk read after => cases read <;> rfl

/-! ## Streams that are taken -/

/-- The streams after one of them may have been taken, and no other. -/
structure Streams.TakesOnly (s : Streams) (taken? : Option Nat) (s' : Streams) : Prop where
  size : s'.size = s.size
  streams : ∀ n, s'.stream? n = s.stream? n ∨ taken? = some n ∧ s'.stream? n = none

namespace Streams.TakesOnly

variable {s s' s'' : Streams} {taken? : Option Nat} {n : Nat}

theorem refl (s : Streams) (taken? : Option Nat) : s.TakesOnly taken? s :=
  ⟨rfl, fun _ => .inl rfl⟩

/-- Taking the same stream twice takes no other. -/
theorem trans (h : s.TakesOnly taken? s') (h' : s'.TakesOnly taken? s'') :
    s.TakesOnly taken? s'' where
  size := h'.size.trans h.size
  streams n := by
    obtain hsame' | htaken' := h'.streams n
    · rw [hsame']
      exact h.streams n
    · exact .inr htaken'

/-- What is pulled beside does not matter. -/
theorem congr (h : s.TakesOnly taken? s') (hopen : s''.open? = s'.open?) : s.TakesOnly taken? s'' where
  size := (size_congr hopen).trans h.size
  streams n := by
    rw [stream?_congr hopen]
    exact h.streams n

/-- Giving a payload up takes at most the stream behind it. -/
theorem release (p : Payload) (s : Streams) : s.TakesOnly p.backing? (p.release s).2 where
  size := Payload.size_release
  streams n := by
    by_cases hn : p.backing? = some n
    · exact .inr ⟨hn, Payload.stream?_release_self hn⟩
    · exact .inl (Payload.stream?_release_of_ne hn)

/-- Reading content takes at most the stream behind it. -/
theorem materialize (c : Content) (s : Streams) : s.TakesOnly c.payload.backing? (c.materialize s).2 :=
  (release c.payload s).congr (Content.materialize_open? c s)

/-- All streams but the one in question stay. -/
theorem stream?_of_ne (h : s.TakesOnly taken? s') (hn : taken? ≠ some n) :
    s'.stream? n = s.stream? n :=
  (h.streams n).resolve_right fun htaken => hn htaken.1

end Streams.TakesOnly

/-- The streams as they may be later on: some have been taken, and new ones opened. -/
structure Streams.Later (s s' : Streams) : Prop where
  size : s.size ≤ s'.size
  streams : ∀ n < s.size, s'.stream? n = s.stream? n ∨ s'.stream? n = none

namespace Streams.Later

variable {s s' s'' : Streams}

theorem refl (s : Streams) : s.Later s :=
  ⟨Nat.le_refl _, fun _ _ => .inl rfl⟩

theorem trans (h : s.Later s') (h' : s'.Later s'') : s.Later s'' where
  size := Nat.le_trans h.size h'.size
  streams n hn := by
    obtain hsame' | htaken' := h'.streams n (Nat.lt_of_lt_of_le hn h.size)
    · rw [hsame']
      exact h.streams n hn
    · exact .inr htaken'

/-- After a stream was taken it is later. -/
theorem of_takesOnly {taken? : Option Nat} (h : s.TakesOnly taken? s') : s.Later s' where
  size := Nat.le_of_eq h.size.symm
  streams n _ := (h.streams n).imp_right And.right

end Streams.Later

/-- Content that has been read can be handed to several readers. -/
theorem Content.isReusable_of_materialize {c content : Content} {s : Streams}
    (h : (c.materialize s).1 = .ok content) : content.isReusable = true := by
  obtain ⟨payload, attributes⟩ := c
  cases payload with
  | buffered bytes =>
    cases h
    rfl
  | streaming body =>
    simp only [materialize] at h
    split at h
    · cases h
      rfl
    · contradiction

end PullCache
