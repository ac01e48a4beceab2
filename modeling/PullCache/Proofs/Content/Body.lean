import PullCache.Content.Basic
/-!
# Proofs.Content.Body

What reading a body comes to, and which pieces it pulls. Only what arrives before the first failure
counts: reading to the end gives all of that or fails, and reading up to a limit gives up if it is more
than the limit (`bounded`). The loop stops pulling at the piece that decides (`drawn`).

So reading up to a limit gives all the bytes of a body if it can be read to its end, is no larger than
the limit and does not claim to be; and it gives bytes in no other case.
-/

namespace PullCache

/-! ## What arrives -/

namespace Chunk

/-- The bytes that arrive before reading fails for the first time. -/
def arrived : List Chunk → Bytes
  | [] => []
  | data bytes :: rest => bytes ++ arrived rest
  | failure _ :: _ => []

/-- Why reading fails for the first time, if it does. -/
def failure? : List Chunk → Option String
  | [] => none
  | data _ :: rest => failure? rest
  | failure reason :: _ => some reason

/-- What reading up to a limit comes to. -/
def bounded (limit : Nat) (chunks : List Chunk) : Except ReadFault (Option Bytes) :=
  if limit < (arrived chunks).length then .ok none
  else match failure? chunks with
    | some reason => .error (.broken reason)
    | none => .ok (some (arrived chunks))

/-- The pieces that reading up to a limit pulls when there are `read` bytes already. The last one
crosses the limit or fails, or there are no more. -/
def drawn (limit read : Nat) : List Chunk → List Chunk
  | [] => []
  | data bytes :: rest =>
    data bytes :: if read + bytes.length > limit then [] else drawn limit (read + bytes.length) rest
  | failure reason :: _ => [failure reason]

/-- Plain reading comes to the first failure, or to all that arrives. -/
theorem readAll_eq (chunks : List Chunk) :
    readAll chunks = match failure? chunks with
      | some reason => .error (.broken reason)
      | none => .ok (arrived chunks) := by
  induction chunks with
  | nil => rfl
  | cons chunk rest ih =>
    cases chunk with
    | data bytes =>
      rw [readAll, ih, failure?, arrived]
      cases failure? rest <;> rfl
    | failure reason => rfl

/-- Reading up to a limit gives the bytes that plain reading gives, if they are within the limit. -/
theorem bounded_eq_some_iff {limit : Nat} {chunks : List Chunk} {bytes : Bytes} :
    bounded limit chunks = .ok (some bytes) ↔ readAll chunks = .ok bytes ∧ bytes.length ≤ limit := by
  rw [bounded, readAll_eq]
  cases failure? chunks with
  | some reason => split <;> simp
  | none =>
    by_cases hover : limit < (arrived chunks).length
    · have hnever : ¬ (arrived chunks = bytes ∧ bytes.length ≤ limit) := by
        rintro ⟨rfl, hfits⟩
        omega
      simpa [hover] using hnever
    · have hfits : arrived chunks = bytes → bytes.length ≤ limit := by
        rintro rfl
        exact Nat.le_of_not_lt hover
      simpa [hover] using hfits

/-- Content is too large exactly if more bytes arrived than the limit allows. -/
theorem bounded_eq_none_iff {limit : Nat} {chunks : List Chunk} :
    bounded limit chunks = .ok none ↔ limit < (arrived chunks).length := by
  rw [bounded]
  by_cases hover : limit < (arrived chunks).length
  · simp [hover]
  · cases failure? chunks <;> simp [hover]

/-- Reading up to a limit fails for one reason only. -/
theorem failure?_of_bounded {limit : Nat} {chunks : List Chunk}
    (h : ∀ result, bounded limit chunks ≠ .ok result) : ∃ reason,
      failure? chunks = some reason ∧ bounded limit chunks = .error (.broken reason) := by
  unfold bounded at h ⊢
  split at h
  · exact absurd rfl (h none)
  · next hfits =>
    rw [if_neg hfits]
    cases hfailure : failure? chunks with
    | some reason => exact ⟨reason, rfl, rfl⟩
    | none =>
      rw [hfailure] at h
      exact absurd rfl (h _)

end Chunk

/-! ## What is pulled -/

/-- The streams once these pieces have been pulled out of the stream of a body, one after another. -/
def Streams.pullAll (s : Streams) (body : RemoteBody) (chunks : List Chunk) : Streams :=
  { s with pulled := s.pulled ++ chunks.map (body.stream, ·) }

namespace Streams

variable {s : Streams} {body : RemoteBody}

/-- Pulling a piece is recorded, and opens or closes nothing. -/
@[simp] theorem open?_pull {chunk : Chunk} : (s.pull body chunk).open? = s.open? := rfl

@[simp] theorem open?_pullAll {chunks : List Chunk} : (s.pullAll body chunks).open? = s.open? := rfl

theorem pullAll_nil : s.pullAll body [] = s := by
  rw [pullAll, List.map_nil, List.append_nil]

theorem pullAll_cons (chunk : Chunk) (chunks : List Chunk) :
    s.pullAll body (chunk :: chunks) = (s.pull body chunk).pullAll body chunks := by
  simp [pullAll, pull]

theorem pullAll_singleton (chunk : Chunk) : s.pullAll body [chunk] = s.pull body chunk := rfl

end Streams

namespace RemoteBody

variable {limit : Nat} {read : Bytes}

/-- Reading to the end puts all the bytes of the pieces after those that are there already. -/
theorem readToEnd_fst (body : RemoteBody) (read : Bytes) (chunks : List Chunk) (s : Streams) :
    (body.readToEnd read chunks s).1 = (Chunk.readAll chunks).map (read ++ ·) := by
  induction chunks generalizing read s with
  | nil => simp [readToEnd, Chunk.readAll, Except.map]
  | cons chunk rest ih =>
    cases chunk with
    | data bytes =>
      rw [readToEnd, ih, Chunk.readAll]
      cases Chunk.readAll rest <;> simp [Except.map]
    | failure reason => rfl

/-- A body that nothing was read of yet comes to all its pieces. -/
theorem readToEnd_nil_fst (body : RemoteBody) (chunks : List Chunk) (s : Streams) :
    (body.readToEnd [] chunks s).1 = Chunk.readAll chunks := by
  rw [readToEnd_fst]
  cases Chunk.readAll chunks <;> rfl

/-- Reading the pieces of a stream opens and closes nothing. -/
theorem readToEnd_open? (body : RemoteBody) (read : Bytes) (chunks : List Chunk) (s : Streams) :
    (body.readToEnd read chunks s).2.open? = s.open? := by
  induction chunks generalizing read s with
  | nil => rfl
  | cons chunk rest ih =>
    cases chunk with
    | data bytes => rw [readToEnd, ih, Streams.open?_pull]
    | failure reason => rfl

/-- Reading onto other bytes gives up if more than the limit arrives, and otherwise comes to the first
failure or to the end. -/
theorem readUpTo_fst (body : RemoteBody) (chunks : List Chunk) (s : Streams)
    (hread : read.length ≤ limit) :
    (body.readUpTo limit read chunks s).1 =
      if limit < read.length + (Chunk.arrived chunks).length then .ok none
      else match Chunk.failure? chunks with
        | some reason => .error (.broken reason)
        | none => .ok (some (read ++ Chunk.arrived chunks)) := by
  induction chunks generalizing read s with
  | nil =>
    rw [Chunk.arrived, List.length_nil, Nat.add_zero, if_neg (Nat.not_lt.mpr hread), List.append_nil]
    rfl
  | cons chunk rest ih =>
    cases chunk with
    | data bytes =>
      simp only [readUpTo, Chunk.arrived, Chunk.failure?, List.length_append]
      split
      · next hover => rw [if_pos (by omega)]
      · next hfits =>
        have hread : (read ++ bytes).length ≤ limit := by rw [List.length_append]; omega
        rw [ih _ hread, List.length_append, Nat.add_assoc, List.append_assoc]
    | failure reason =>
      rw [Chunk.arrived, List.length_nil, Nat.add_zero, if_neg (Nat.not_lt.mpr hread)]
      rfl

/-- The pieces that are pulled are those up to the deciding one. -/
theorem readUpTo_snd (body : RemoteBody) (limit : Nat) (read : Bytes) (chunks : List Chunk)
    (s : Streams) :
    (body.readUpTo limit read chunks s).2 = s.pullAll body (Chunk.drawn limit read.length chunks) := by
  induction chunks generalizing read s with
  | nil => exact Streams.pullAll_nil.symm
  | cons chunk rest ih =>
    cases chunk with
    | data bytes =>
      simp only [readUpTo, Chunk.drawn]
      split
      · rw [Streams.pullAll_singleton]
      · rw [ih, List.length_append, Streams.pullAll_cons]
    | failure reason => rfl

/-- Reading from the start. -/
theorem readUpTo_nil (body : RemoteBody) (limit : Nat) (chunks : List Chunk) (s : Streams) :
    body.readUpTo limit [] chunks s =
      (Chunk.bounded limit chunks, s.pullAll body (Chunk.drawn limit 0 chunks)) := by
  refine Prod.ext ?_ (readUpTo_snd body limit [] chunks s)
  rw [readUpTo_fst body chunks s (Nat.zero_le limit), List.length_nil, Nat.zero_add, List.nil_append]
  rfl

end RemoteBody

namespace Payload

variable {limit : Nat} {bytes : Bytes} {s : Streams}

/-- Bytes in memory that fit are there at once. -/
theorem readLimited_buffered (h : bytes.length ≤ limit) :
    (buffered bytes).readLimited limit s = (.ok (some bytes), s) := by
  simp [readLimited, length?, h]

/-- A stream gives its bytes within a limit exactly if it is there, does not declare more, can be read
to its end and has no more. -/
theorem readLimited_streaming_eq_some {body : RemoteBody} :
    ((streaming body).readLimited limit s).1 = .ok (some bytes) ↔
      (∀ n, body.declared = some n → n ≤ limit) ∧ bytes.length ≤ limit ∧
        ∃ chunks, (s.take body).1 = some chunks ∧ Chunk.readAll chunks = .ok bytes := by
  have hdeclares : body.declared.any (limit < ·) = true ↔ ¬ ∀ n, body.declared = some n → n ≤ limit := by
    cases body.declared <;> simp
  unfold readLimited
  split
  · next hover => simp [hdeclares.mp hover]
  · next hfits =>
    have hdeclared := Classical.not_not.mp (mt hdeclares.mpr hfits)
    cases htake : s.take body with
    | mk found after =>
      cases found with
      | none => simp [htake]
      | some chunks =>
        simp only [htake, RemoteBody.readUpTo_nil, Chunk.bounded_eq_some_iff, Option.some.injEq,
          exists_eq_left']
        exact ⟨fun h => ⟨hdeclared, h.2, h.1⟩, fun h => ⟨h.2.2, h.2.1⟩⟩

/-- A stream that nobody has taken is read to its end. -/
theorem readLimited_streaming {body : RemoteBody} {chunks : List Chunk}
    (declared : ∀ n, body.declared = some n → n ≤ limit) (read : Chunk.readAll chunks = .ok bytes)
    (fits : bytes.length ≤ limit) (present : (s.take body).1 = some chunks) :
    ((streaming body).readLimited limit s).1 = .ok (some bytes) :=
  readLimited_streaming_eq_some.mpr ⟨declared, fits, chunks, present, read⟩

end Payload

end PullCache
