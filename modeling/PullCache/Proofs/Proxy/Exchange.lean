import PullCache.Proofs.Content.Streams
import PullCache.Proxy.Exchange
/-!
# Proofs.Proxy.Exchange

What verdicts an answer gets, and what opening it and ending the exchange do to the streams. A body
that arrives in pieces gets the next stream, whose number nobody has yet; at the end of the exchange
that stream is taken unless it backs the content that is returned. No other stream is touched.
-/

namespace PullCache

variable {s : Streams} {n : Nat}

/-- Asking about a copy does not change where the question goes. -/
theorem OriginRequest.url_revalidating (request : OriginRequest) (copy : Option Content) :
    (request.revalidating copy).url = request.url := by
  cases copy <;> rfl

/-! ## Opening an answer -/

/-- The number of the stream that the body of an answer is read from. -/
def OriginResponse.backing? (response : OriginResponse) : Option Nat :=
  response.body.bind Payload.backing?

namespace BodySource

variable {source : BodySource}

/-- All the bytes of a body, if reading it does not fail. -/
def bytes? : BodySource → Option Bytes
  | bytes all => some all
  | chunks list _ => (Chunk.readAll list).toOption

/-- A body that has a stream gets the next number, and the stream is there. -/
theorem backing?_payload (h : (source.payload s).1.backing? = some n) :
    n = s.size ∧ n < (source.payload s).2.size := by
  cases source with
  | bytes all => contradiction
  | chunks list declared =>
    obtain rfl : s.size = n := Option.some.inj h
    exact ⟨rfl, by rw [payload, Streams.size_add]; exact Nat.lt_succ_self _⟩

/-- Opening a body leaves all other streams alone. -/
theorem stream?_payload (h : n ≠ s.size) : (source.payload s).2.stream? n = s.stream? n := by
  cases source with
  | bytes all => rfl
  | chunks list declared => exact Streams.stream?_add_of_ne h

/-- No stream goes away when a body is opened. -/
theorem size_le_payload : s.size ≤ (source.payload s).2.size := by
  cases source with
  | bytes all => exact Nat.le_refl _
  | chunks list declared =>
    rw [payload, Streams.size_add]
    exact Nat.le_succ _

end BodySource

namespace Reply

variable {reply : Reply}

@[simp] theorem status_receive : (reply.receive s).1.status = reply.status := by
  rw [receive]
  cases reply.body <;> rfl

/-- The body of a received answer is what the reply promised. -/
theorem body_receive : (reply.receive s).1.body = reply.body.map fun source => (source.payload s).1 := by
  rw [receive]
  cases reply.body <;> rfl

/-- Receiving an answer opens its body, if there is one. -/
theorem receive_snd :
    (reply.receive s).2 = (reply.body.map fun source => (source.payload s).2).getD s := by
  rw [receive]
  cases reply.body <;> rfl

/-- Opening an answer leaves all streams as they are that were opened before. -/
theorem stream?_receive (h : n ≠ s.size) : (reply.receive s).2.stream? n = s.stream? n := by
  rw [receive_snd]
  cases reply.body with
  | none => rfl
  | some source => exact BodySource.stream?_payload h

/-- No stream goes away when an answer is received. -/
theorem size_le_receive : s.size ≤ (reply.receive s).2.size := by
  rw [receive_snd]
  cases reply.body with
  | none => exact Nat.le_refl _
  | some source => exact BodySource.size_le_payload

/-- What was open before an answer came is open as it was. -/
theorem later_receive (reply : Reply) (s : Streams) : s.Later (reply.receive s).2 where
  size := size_le_receive
  streams _ hn := .inl (stream?_receive (Nat.ne_of_lt hn))

/-- The body of an answer is read from the next stream, if from any. -/
theorem backing?_receive (h : (reply.receive s).1.backing? = some n) :
    n = s.size ∧ n < (reply.receive s).2.size := by
  rw [OriginResponse.backing?, body_receive] at h
  rw [receive_snd]
  cases hbody : reply.body with
  | none =>
    rw [hbody] at h
    contradiction
  | some source =>
    rw [hbody] at h
    exact BodySource.backing?_payload h

/-- A body that arrives in pieces opens the next stream. -/
theorem receive_chunks {list : List Chunk} {declared : Option Nat}
    (hbody : reply.body = some (.chunks list declared)) :
    (reply.receive s).1.backing? = some s.size ∧ (reply.receive s).2.stream? s.size = some list := by
  rw [OriginResponse.backing?, body_receive, receive_snd, hbody]
  exact ⟨rfl, Streams.stream?_add_self⟩

end Reply

/-! ## Verdicts -/

namespace Exchange

/-- Content is kept only after an answer 200 with a body. -/
theorem judge_eq_keep {request : OriginRequest} {response : OriginResponse} {copy : Option Content}
    {stamp : Stamp} {remote : Content}
    (h : judge request response copy stamp = .keep remote) :
    response.isOk = true ∧ ∃ body, response.body = some body ∧
      remote = contentOf response body stamp := by
  unfold judge at h
  split at h
  · next hok =>
    cases hb : response.body with
    | none => simp [hb] at h
    | some body =>
      simp only [hb] at h
      cases h
      exact ⟨hok, body, rfl, rfl⟩
  · split at h
    · cases copy <;> contradiction
    · split at h <;> contradiction

/-- A copy is confirmed only by an answer 304, and it is the copy that was asked about. -/
theorem judge_eq_confirm {request : OriginRequest} {response : OriginResponse}
    {copy : Option Content} {stamp given : Stamp} {known : Content}
    (h : judge request response copy stamp = .confirm known given) :
    response.isNotModified = true ∧ copy = some known ∧ given = stamp := by
  unfold judge at h
  split at h
  · cases hb : response.body <;> simp [hb] at h
  · split at h
    · next hsame =>
      cases copy with
      | none => contradiction
      | some copy =>
        cases h
        exact ⟨hsame, rfl, rfl⟩
    · split at h <;> contradiction

/-! ## Ending an exchange -/

variable {copy : Option Content} {response : OriginResponse}
  {fetched : Except Fault (Option Content)}

/-- Only the copy that was held can be fallen back on. -/
theorem degrade_eq_some {fault : Fault} {c : Content} (h : degrade copy fault = .ok (some c)) :
    copy = some c := by
  unfold degrade at h
  split at h
  · cases copy with
    | none => contradiction
    | some known =>
      cases h
      rfl
  · contradiction

/-- An exchange that fails ends with the copy, if with any content. -/
theorem outcome_error_eq_some {fault : Fault} {c : Content}
    (h : outcome copy (.error fault) = .ok (some c)) : copy = some c :=
  degrade_eq_some h

/-- The body of the answer is given up unless it is what the exchange returns. -/
theorem conclude_snd : (conclude copy response fetched s).2 =
    if returnsBody (outcome copy fetched) response then s else (response.release s).2 := by
  rw [conclude]
  split <;> rfl

/-- Giving an answer up takes no stream but that of its body. -/
theorem takesOnly_release (response : OriginResponse) (s : Streams) :
    s.TakesOnly response.backing? (response.release s).2 := by
  rw [OriginResponse.release, OriginResponse.backing?]
  cases response.body with
  | none => exact .refl s _
  | some body => exact .release body s

/-- The stream of an answer that was given up is gone. -/
theorem stream?_release_self (h : response.backing? = some n) :
    (response.release s).2.stream? n = none := by
  rw [OriginResponse.backing?, Option.bind_eq_some_iff] at h
  obtain ⟨body, hbody, hbacking⟩ := h
  rw [OriginResponse.release, hbody]
  exact Payload.stream?_release_self hbacking

/-- The end of an exchange touches no stream but that of the body. -/
theorem takesOnly_conclude (copy : Option Content) (response : OriginResponse)
    (fetched : Except Fault (Option Content)) (s : Streams) :
    s.TakesOnly response.backing? (conclude copy response fetched s).2 := by
  rw [conclude_snd]
  split
  · exact .refl s _
  · exact takesOnly_release response s

/-- The body is returned exactly if the outcome is content that is read from the same stream. -/
theorem returnsBody_iff (result : Except Fault (Option Content)) (h : response.backing? = some n) :
    returnsBody result response = true ↔
      ∃ c, result = .ok (some c) ∧ c.payload.backing? = some n := by
  rw [OriginResponse.backing?, Option.bind_eq_some_iff] at h
  obtain ⟨body, hbody, hbacking⟩ := h
  cases result with
  | error fault => simp [returnsBody]
  | ok found =>
    cases found with
    | none => simp [returnsBody]
    | some c =>
      simp only [returnsBody, hbody, Payload.sharesStream_iff]
      constructor
      · rintro ⟨k, hc, hk⟩
        exact ⟨c, rfl, by rw [hc, ← hk, hbacking]⟩
      · rintro ⟨c', hsame, hc⟩
        cases hsame
        exact ⟨n, hc, hbacking⟩

end Exchange

end PullCache
