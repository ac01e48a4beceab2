import PullCache.Proofs.Content.Body
import PullCache.Proofs.Content.Streams
/-!
# Proofs.Content.Bounded

Reading up to a limit beside plain reading. The pieces that are pulled out of a stream are a first part of
all its pieces (`drawn_isPrefix`): before each of them there was data only, within the limit, so nothing
was decided yet (`data_before_drawn`); and if some pieces are left over, the others have decided
(`drawn_decides`).

The main statement, `readLimited_agrees`, puts this together with what the reading comes to. What was
pulled is read off the record that the streams keep.
-/

namespace PullCache

namespace Chunk

/-! ## What decides -/

/-- More bytes than the limit arrive before anything fails. -/
def Exceeds (limit : Nat) (chunks : List Chunk) : Prop :=
  ∃ parts : List Bytes, parts.map data <+: chunks ∧ limit < parts.flatten.length

/-- The first piece that fails does so for this reason. -/
def FailsFirst (chunks : List Chunk) (reason : String) : Prop :=
  ∃ (parts : List Bytes) (rest : List Chunk), chunks = parts.map data ++ failure reason :: rest

/-- The bytes of the pieces arrive one after the other. -/
theorem arrived_data_append (parts : List Bytes) (rest : List Chunk) :
    arrived (parts.map data ++ rest) = parts.flatten ++ arrived rest := by
  induction parts with
  | nil => rfl
  | cons bytes parts ih =>
    rw [List.map_cons, List.cons_append, arrived, ih, List.flatten_cons, List.append_assoc]

/-- All that arrives comes in a first part of the pieces. -/
theorem exists_parts (chunks : List Chunk) :
    ∃ parts : List Bytes, parts.map data <+: chunks ∧ parts.flatten = arrived chunks := by
  induction chunks with
  | nil => exact ⟨[], List.prefix_refl _, rfl⟩
  | cons chunk rest ih =>
    cases chunk with
    | data bytes =>
      obtain ⟨parts, hprefix, hflatten⟩ := ih
      refine ⟨bytes :: parts, List.cons_prefix_cons.mpr ⟨rfl, hprefix⟩, ?_⟩
      rw [List.flatten_cons, hflatten, arrived]
    | failure reason => exact ⟨[], List.nil_prefix, rfl⟩

/-- Content exceeds a limit exactly if more bytes arrive than that. -/
theorem exceeds_iff {limit : Nat} {chunks : List Chunk} :
    Exceeds limit chunks ↔ limit < (arrived chunks).length := by
  constructor
  · rintro ⟨parts, ⟨rest, rfl⟩, hover⟩
    rw [arrived_data_append, List.length_append]
    omega
  · intro hover
    obtain ⟨parts, hprefix, hflatten⟩ := exists_parts chunks
    exact ⟨parts, hprefix, hflatten ▸ hover⟩

/-- A stream that fails has its failure after bytes only. -/
theorem failsFirst_of_failure? {chunks : List Chunk} {reason : String}
    (h : failure? chunks = some reason) : FailsFirst chunks reason := by
  induction chunks with
  | nil => contradiction
  | cons chunk rest ih =>
    cases chunk with
    | data bytes =>
      obtain ⟨parts, after, rfl⟩ := ih h
      exact ⟨bytes :: parts, after, rfl⟩
    | failure reason' =>
      cases h
      exact ⟨[], rest, rfl⟩

/-- Bytes before a failure do not hide it. -/
theorem failure?_data_append (parts : List Bytes) (rest : List Chunk) :
    failure? (parts.map data ++ rest) = failure? rest := by
  induction parts with
  | nil => rfl
  | cons bytes parts ih => exact ih

/-- Data within the limit is given if nothing follows. -/
theorem bounded_data {limit : Nat} {parts : List Bytes} (h : parts.flatten.length ≤ limit) :
    bounded limit (parts.map data) = .ok (some parts.flatten) := by
  have harrived := arrived_data_append parts []
  have hfailure := failure?_data_append parts []
  rw [List.append_nil] at harrived hfailure
  rw [bounded, harrived, hfailure, arrived, List.append_nil, if_neg (Nat.not_lt.mpr h), failure?]

/-- Data within the limit is lost if a failure follows. -/
theorem bounded_data_failure {limit : Nat} {parts : List Bytes} (h : parts.flatten.length ≤ limit)
    (reason : String) :
    bounded limit (parts.map data ++ [failure reason]) = .error (.broken reason) := by
  rw [bounded, arrived_data_append, failure?_data_append, arrived, List.append_nil,
    if_neg (Nat.not_lt.mpr h), failure?]

/-! ## What is pulled -/

/-- What is drawn are the first pieces. -/
theorem drawn_isPrefix (limit n : Nat) (chunks : List Chunk) : drawn limit n chunks <+: chunks := by
  induction chunks generalizing n with
  | nil => exact List.prefix_refl _
  | cons chunk rest ih =>
    cases chunk with
    | failure reason => exact List.cons_prefix_cons.mpr ⟨rfl, List.nil_prefix⟩
    | data bytes =>
      rw [drawn]
      refine List.cons_prefix_cons.mpr ⟨rfl, ?_⟩
      split
      · exact List.nil_prefix
      · exact ih _

/-- Before each piece that is pulled there was data only, within the limit. -/
theorem data_before_drawn {limit n : Nat} {chunks before after : List Chunk} {piece : Chunk}
    (hn : n ≤ limit) (h : drawn limit n chunks = before ++ piece :: after) :
    ∃ parts : List Bytes, before = parts.map data ∧ n + parts.flatten.length ≤ limit := by
  induction chunks generalizing n before with
  | nil => simp [drawn] at h
  | cons chunk rest ih =>
    cases before with
    | nil => exact ⟨[], rfl, hn⟩
    | cons first before =>
      cases chunk with
      | failure reason => simp [drawn] at h
      | data bytes =>
        rw [drawn, List.cons_append] at h
        obtain ⟨rfl, htail⟩ := List.cons.inj h
        by_cases hover : n + bytes.length > limit
        · simp [hover] at htail
        · rw [if_neg hover] at htail
          obtain ⟨parts, rfl, hfits⟩ := ih (Nat.le_of_not_lt hover) htail
          refine ⟨bytes :: parts, rfl, ?_⟩
          rw [List.flatten_cons, List.length_append]
          omega

/-- If some pieces are left over, those that were pulled have decided. -/
theorem readUpTo_drawn (body : RemoteBody) (limit : Nat) (read : Bytes) (chunks : List Chunk)
    (s : Streams) : drawn limit read.length chunks = chunks ∨
      ∀ other, (body.readUpTo limit read (drawn limit read.length chunks ++ other) s).1 =
        (body.readUpTo limit read chunks s).1 := by
  induction chunks generalizing read s with
  | nil => exact .inl rfl
  | cons chunk rest ih =>
    cases chunk with
    | failure reason => exact .inr fun other => rfl
    | data bytes =>
      rw [drawn]
      by_cases hover : read.length + bytes.length > limit
      · exact .inr fun other => by simp [RemoteBody.readUpTo, hover]
      · rw [if_neg hover, ← List.length_append]
        obtain hall | hdecided := ih (read ++ bytes) (s.pull body (.data bytes))
        · exact .inl (congrArg _ hall)
        · exact .inr fun other => by simpa [RemoteBody.readUpTo, hover] using hdecided other

/-- Unless all pieces are drawn, the ones that were left have no say in the result. -/
theorem drawn_decides (limit : Nat) (chunks : List Chunk) : drawn limit 0 chunks = chunks ∨
    ∀ other, bounded limit (drawn limit 0 chunks ++ other) = bounded limit chunks := by
  -- Any body and any streams will do.
  have h := readUpTo_drawn ⟨0, none⟩ limit [] chunks .empty
  simpa only [List.length_nil, RemoteBody.readUpTo_nil] using h

end Chunk

/-! ## Payloads -/

/-- The streams with other pieces in the stream of a body. -/
def Streams.refill (s : Streams) (body : RemoteBody) (chunks : List Chunk) : Streams :=
  { s with open? := s.open?.set body.stream (some chunks) }

/-- A stream that is filled again has the new pieces. -/
theorem Streams.stream?_refill {s : Streams} {body : RemoteBody} (h : body.stream < s.size)
    (chunks : List Chunk) : (s.refill body chunks).stream? body.stream = some chunks := by
  rw [stream?_eq, refill, List.getElem?_set_self h]
  rfl

namespace Payload

/-- The pieces of a payload that can still be read. Bytes in memory are one piece. -/
def pieces? (p : Payload) (s : Streams) : Option (List Chunk) :=
  match p with
  | buffered bytes => some [.data bytes]
  | streaming body => s.stream? body.stream

/-- The length is known before reading, and is more than the limit. -/
def TooLong (p : Payload) (limit : Nat) : Prop :=
  ∃ n, p.length? = some n ∧ limit < n

/-- The pieces that reading up to a limit pulls out of an unread stream, by the record of the streams:
the first ones, up to the one that decides, and none if the stream declares too much. Before each piece
that is pulled, the result still hangs on what comes; and what is left over does not matter for it. -/
structure Asks (body : RemoteBody) (limit : Nat) (s : Streams) (chunks asked : List Chunk) : Prop where
  recorded : ((streaming body).readLimited limit s).2.pulled = s.pulled ++ asked.map (body.stream, ·)
  first : asked <+: chunks
  unasked : (streaming body).TooLong limit → asked = []
  undecided : ∀ before piece after, asked = before ++ piece :: after → ∃ other,
    ((streaming body).readLimited limit (s.refill body (before ++ other))).1 ≠
      ((streaming body).readLimited limit s).1
  decided : asked = chunks ∨ ∀ other,
    ((streaming body).readLimited limit (s.refill body (asked ++ other))).1 =
      ((streaming body).readLimited limit s).1

variable {p : Payload} {body : RemoteBody} {limit : Nat} {s : Streams} {chunks : List Chunk}

theorem any_length?_iff : p.length?.any (limit < ·) = true ↔ p.TooLong limit := by
  cases h : p.length? <;> simp [TooLong, h]

/-- Content is not too long if it declares no length, or a small one. -/
theorem not_tooLong_iff : ¬ p.TooLong limit ↔ ∀ n, p.length? = some n → n ≤ limit := by
  simp [TooLong]

/-- A payload that is known to be too long is not read. -/
theorem readLimited_of_tooLong (h : p.TooLong limit) :
    p.readLimited limit s = (.ok none, (p.release s).2) := by
  unfold readLimited
  rw [if_pos (any_length?_iff.mpr h)]

/-- Otherwise a stream is taken, and pieces are pulled out of it up to the limit. -/
theorem readLimited_of_unread (h : ¬ (streaming body).TooLong limit)
    (unread : s.stream? body.stream = some chunks) :
    (streaming body).readLimited limit s = (Chunk.bounded limit chunks,
      (s.take body).2.pullAll body (Chunk.drawn limit 0 chunks)) := by
  have htaken : (s.take body).1 = some chunks := unread
  unfold readLimited
  rw [if_neg (mt any_length?_iff.mp h)]
  cases htake : s.take body with
  | mk found after =>
    rw [htake] at htaken
    cases htaken
    simp only [htake, RemoteBody.readUpTo_nil]

/-- Within a limit that the payload is not known to exceed, the result is told by its pieces. -/
theorem readLimited_of_pieces (h : ¬ p.TooLong limit) (unread : p.pieces? s = some chunks) :
    (p.readLimited limit s).1 = Chunk.bounded limit chunks := by
  cases p with
  | buffered bytes =>
    cases unread
    have hfits : bytes.length ≤ limit := not_tooLong_iff.mp h _ rfl
    rw [readLimited_buffered hfits]
    simp [Chunk.bounded, Chunk.arrived, Chunk.failure?, hfits]
  | streaming body => rw [readLimited_of_unread h unread]

/-- A payload that was not read yet comes to its pieces. -/
theorem readAll_of_pieces (unread : p.pieces? s = some chunks) :
    (p.readAll s).1 = Chunk.readAll chunks := by
  cases p with
  | buffered bytes =>
    cases unread
    change Except.ok bytes = Except.ok (bytes ++ [])
    rw [List.append_nil]
  | streaming body =>
    have hstream : s.stream? body.stream = some chunks := unread
    rw [readAll_streaming, hstream]

/-- Reading up to a limit leaves the streams open that giving the payload up does. -/
theorem readLimited_open? (p : Payload) (limit : Nat) (s : Streams) :
    (p.readLimited limit s).2.open? = (p.release s).2.open? := by
  unfold readLimited
  split
  · rfl
  · cases p with
    | buffered bytes => rfl
    | streaming body =>
      simp only [release]
      split
      · next htake => rw [htake, RemoteBody.readUpTo_nil, Streams.open?_pullAll]
      · next htake => rw [htake]

/-- Nothing is pulled for bytes in memory. -/
theorem readLimited_snd_buffered (bytes : Bytes) (limit : Nat) (s : Streams) :
    ((buffered bytes).readLimited limit s).2 = s := by
  unfold readLimited
  split <;> rfl

/-- Whatever comes of it, a stream that was asked for with a limit is consumed. -/
theorem isConsumed_readLimited (body : RemoteBody) (limit : Nat) (s : Streams) :
    ((streaming body).readLimited limit s).2.isConsumed body = true := by
  rw [Streams.isConsumed_iff, Streams.stream?_congr (readLimited_open? ..)]
  exact stream?_release_self rfl

/-! ## What the reading comes to -/

/-- Content is refused by its declared length, or by the bytes that arrived. -/
theorem readLimited_eq_none_iff (unread : p.pieces? s = some chunks) :
    (p.readLimited limit s).1 = .ok none ↔ p.TooLong limit ∨ Chunk.Exceeds limit chunks := by
  rw [Chunk.exceeds_iff]
  by_cases hlong : p.TooLong limit
  · simp [readLimited_of_tooLong hlong, hlong]
  · rw [readLimited_of_pieces hlong unread, Chunk.bounded_eq_none_iff]
    simp [hlong]

/-- Content is accepted exactly if all of it fits. -/
theorem readLimited_eq_some_iff (unread : p.pieces? s = some chunks) {bytes : Bytes} :
    (p.readLimited limit s).1 = .ok (some bytes) ↔
      (∀ n, p.length? = some n → n ≤ limit) ∧ (p.readAll s).1 = .ok bytes ∧ bytes.length ≤ limit := by
  rw [← not_tooLong_iff, readAll_of_pieces unread]
  by_cases hlong : p.TooLong limit
  · simp [readLimited_of_tooLong hlong, hlong]
  · rw [readLimited_of_pieces hlong unread, Chunk.bounded_eq_some_iff]
    simp [hlong]

/-- A reading that neither gives bytes nor gives up fails as the first piece that fails. -/
theorem failsFirst_of_readLimited (unread : p.pieces? s = some chunks)
    (fails : ∀ result, (p.readLimited limit s).1 ≠ .ok result) : ∃ reason,
      Chunk.FailsFirst chunks reason ∧ (p.readLimited limit s).1 = .error (.broken reason) := by
  by_cases hlong : p.TooLong limit
  · exact absurd (congrArg Prod.fst (readLimited_of_tooLong hlong)) (fails none)
  · rw [readLimited_of_pieces hlong unread] at fails ⊢
    obtain ⟨reason, hfailure, hresult⟩ := Chunk.failure?_of_bounded fails
    exact ⟨reason, Chunk.failsFirst_of_failure? hfailure, hresult⟩

/-! ## What is pulled out of a stream -/

/-- With a length that is small enough, the pieces decide. -/
theorem readLimited_refill (h : body.stream < s.size) (fits : ¬ (streaming body).TooLong limit)
    (chunks : List Chunk) :
    ((streaming body).readLimited limit (s.refill body chunks)).1 = Chunk.bounded limit chunks :=
  readLimited_of_pieces fits (Streams.stream?_refill h chunks)

/-- Data within the limit leaves the result open: it can still be all there is, or break off. -/
theorem exists_other_result (h : body.stream < s.size) (fits : ¬ (streaming body).TooLong limit)
    {parts : List Bytes} (within : parts.flatten.length ≤ limit)
    (result : Except ReadFault (Option Bytes)) : ∃ other,
      ((streaming body).readLimited limit (s.refill body (parts.map .data ++ other))).1 ≠ result := by
  by_cases hresult : result = .error (.broken "")
  · refine ⟨[], ?_⟩
    rw [readLimited_refill h fits, List.append_nil, Chunk.bounded_data within, hresult]
    simp
  · refine ⟨[.failure ""], ?_⟩
    rw [readLimited_refill h fits, Chunk.bounded_data_failure within]
    exact Ne.symm hresult

/-- A stream that declares too much is given up with nothing pulled. -/
theorem asks_of_tooLong (h : (streaming body).TooLong limit) (chunks : List Chunk) :
    Asks body limit s chunks [] := by
  have hsame : ∀ s', (streaming body).readLimited limit s' = (.ok none, (s'.take body).2) :=
    fun s' => readLimited_of_tooLong h
  exact {
    recorded := by rw [hsame, List.map_nil, List.append_nil]; rfl
    first := List.nil_prefix
    unasked := fun _ => rfl
    undecided := by simp
    decided := .inr fun other => by rw [hsame, hsame] }

/-- No piece is pulled out of an unread stream after the one that decides. -/
theorem asks_of_unread (h : ¬ (streaming body).TooLong limit)
    (unread : s.stream? body.stream = some chunks) :
    Asks body limit s chunks (Chunk.drawn limit 0 chunks) where
  recorded := by rw [readLimited_of_unread h unread]; rfl
  first := Chunk.drawn_isPrefix limit 0 chunks
  unasked hlong := absurd hlong h
  undecided before piece after hasked := by
    obtain ⟨parts, rfl, hwithin⟩ := Chunk.data_before_drawn (Nat.zero_le limit) hasked
    rw [Nat.zero_add] at hwithin
    exact exists_other_result (Streams.lt_size unread) h hwithin _
  decided := by
    refine (Chunk.drawn_decides limit chunks).imp_right fun hdecided other => ?_
    rw [readLimited_refill (Streams.lt_size unread) h, hdecided, readLimited_of_pieces h unread]

theorem exists_asks (unread : s.stream? body.stream = some chunks) (limit : Nat) :
    ∃ asked, Asks body limit s chunks asked := by
  by_cases hlong : (streaming body).TooLong limit
  · exact ⟨[], asks_of_tooLong hlong chunks⟩
  · exact ⟨_, asks_of_unread hlong unread⟩

/-- **Bounded reading.** A payload that nobody has read yet is read up to a limit.

* It gives bytes exactly if it is not known to be too long, and plain reading gives these bytes and
  they are within the limit.
* It gives up exactly if it is known to be too long, or more than the limit arrives before anything
  fails.
* Otherwise it fails as its first piece that fails.
* Bytes in memory can be read again, and nothing is pulled for them. A stream is gone afterwards. By the
  record of the streams, no piece was pulled out of it after the one that decided, and none at all if it
  declares too much. -/
theorem readLimited_agrees (unread : p.pieces? s = some chunks) (limit : Nat) :
    (∀ bytes, (p.readLimited limit s).1 = .ok (some bytes) ↔
      (∀ n, p.length? = some n → n ≤ limit) ∧ (p.readAll s).1 = .ok bytes ∧ bytes.length ≤ limit) ∧
    ((p.readLimited limit s).1 = .ok none ↔ p.TooLong limit ∨ Chunk.Exceeds limit chunks) ∧
    ((∀ result, (p.readLimited limit s).1 ≠ .ok result) → ∃ reason,
      Chunk.FailsFirst chunks reason ∧ (p.readLimited limit s).1 = .error (.broken reason)) ∧
    (∀ bytes, p = .buffered bytes →
      (p.readLimited limit s).2 = s ∧ (p.readAll (p.readLimited limit s).2).1 = .ok bytes) ∧
    (∀ body, p = .streaming body → (p.readLimited limit s).2.isConsumed body = true ∧
      ∃ asked, Asks body limit s chunks asked) := by
  refine ⟨fun bytes => readLimited_eq_some_iff unread, readLimited_eq_none_iff unread,
    failsFirst_of_readLimited unread, ?_, ?_⟩
  · rintro bytes rfl
    exact ⟨readLimited_snd_buffered bytes limit s, rfl⟩
  · rintro body rfl
    exact ⟨isConsumed_readLimited body limit s, exists_asks unread limit⟩

/-- A stream that declares too little. Its second piece crosses the limit, and its third would fail. -/
def lyingBody : RemoteBody := ⟨0, some 2⟩

def lyingStreams : Streams :=
  { open? := [some [.data [1, 2], .data [3, 4], .failure "reset"]] }

/-- With a limit of three bytes it is given up, and the piece that would fail is never pulled. -/
theorem lyingBody_given_up :
    (streaming lyingBody).pieces? lyingStreams =
      some [.data [1, 2], .data [3, 4], .failure "reset"] ∧
    ((streaming lyingBody).readLimited 3 lyingStreams).1 = .ok none ∧
    Asks lyingBody 3 lyingStreams [.data [1, 2], .data [3, 4], .failure "reset"]
      [.data [1, 2], .data [3, 4]] := by
  have hunread : (streaming lyingBody).pieces? lyingStreams =
      some [.data [1, 2], .data [3, 4], .failure "reset"] := rfl
  obtain ⟨-, hnone, -, -, hstream⟩ := readLimited_agrees hunread 3
  obtain ⟨-, asked, hasks⟩ := hstream lyingBody rfl
  have hpulled : [(0, .data [1, 2]), (0, .data [3, 4])] = asked.map (lyingBody.stream, ·) :=
    hasks.recorded
  obtain rfl : asked = [.data [1, 2], .data [3, 4]] := by
    have hpieces := congrArg (List.map Prod.snd) hpulled
    simpa [Function.comp_def] using hpieces.symm
  exact ⟨hunread, hnone.mpr (.inr ⟨[[1, 2], [3, 4]], ⟨[.failure "reset"], rfl⟩, by decide⟩), hasks⟩

end Payload

end PullCache
