import PullCache.Proofs.Content.Bounded
import PullCache.Proofs.Proxy.Invalidation
import PullCache.Proofs.Proxy.Streaming
import PullCache.Proofs.Store.Memory
import PullCache.Store.Echo
/-!
# Proofs.Proxy.Bodies

What becomes of the body of an answer. The store may read it all and answer with a copy, or give it back
unread, or fails before, during or after reading (`StoreOps.Orderly`). When the fetch ends, either what
it ended with is read from that very body, and nobody has taken it; or the body has been taken, once
(`bodies_settled`).

The number of a stream says whose body it is. No other fetch has a body with that number, so the body is
followed through the phases of its own fetch (`Follows`); after the end nobody has it in hand any more.
-/

namespace PullCache

variable {σ : Type}

/-! ## Stores -/

/-- A store that is given content reads it and answers with a copy of its own, or gives it back unread,
or fails, with the content read or not. Whoever reads takes the stream, and may pull any pieces. -/
inductive StoreOps.Treats (ops : StoreOps σ) (m : σ) (s : Streams) (r : Resource) (c : Content) :
    Prop where
  | copied (kept : Content) (reusable : kept.isReusable = true)
    (answer : (ops.store m s r c).1 = .ok kept)
    (streams : (ops.store m s r c).2.2.open? = (c.payload.release s).2.open?) : Treats ops m s r c
  | givenBack (answer : (ops.store m s r c).1 = .ok c) (streams : (ops.store m s r c).2.2 = s) :
    Treats ops m s r c
  | refused (fault : StoreFault) (answer : (ops.store m s r c).1 = .error fault)
    (streams : (ops.store m s r c).2.2 = s) : Treats ops m s r c
  | failed (fault : StoreFault) (answer : (ops.store m s r c).1 = .error fault)
    (streams : (ops.store m s r c).2.2.open? = (c.payload.release s).2.open?) : Treats ops m s r c

def StoreOps.Orderly (ops : StoreOps σ) : Prop :=
  ∀ m s r c, ops.Treats m s r c

namespace StoreOps.Treats

variable {ops : StoreOps σ} {m : σ} {s : Streams} {r : Resource} {c : Content} {n : Nat}

/-- A store takes at most the stream of the content that it is given. -/
theorem takesOnly (h : ops.Treats m s r c) :
    s.TakesOnly c.payload.backing? (ops.store m s r c).2.2 := by
  cases h with
  | copied kept reusable answer streams => exact (.release c.payload s : s.TakesOnly _ _).congr streams
  | givenBack answer streams => rw [streams]; exact .refl s _
  | refused fault answer streams => rw [streams]; exact .refl s _
  | failed fault answer streams => exact (.release c.payload s : s.TakesOnly _ _).congr streams

/-- Content that a store answers with and that is read from a stream was given back unread. -/
theorem unread (h : ops.Treats m s r c) {kept : Content} (answer : (ops.store m s r c).1 = .ok kept)
    (hbacking : kept.payload.backing? = some n) : (ops.store m s r c).2.2 = s := by
  cases h with
  | copied kept' reusable answer' streams =>
    obtain rfl : kept' = kept := Except.ok.inj (answer'.symm.trans answer)
    rw [Content.isReusable_iff] at reusable
    rw [reusable] at hbacking
    contradiction
  | givenBack answer' streams => exact streams
  | refused fault answer' streams =>
    rw [answer'] at answer
    contradiction
  | failed fault answer' streams =>
    rw [answer'] at answer
    contradiction

end StoreOps.Treats

/-- The memory store reads its content with a limit, so it is orderly. -/
theorem MemoryStore.orderly : MemoryStore.ops.Orderly := by
  intro m s r c
  have hstreams : (m.store s r c).2.2.open? = (c.payload.release s).2.open? := by
    rw [← Payload.readLimited_open? c.payload m.capacity s, store]
    cases c.payload.readLimited m.capacity s with
    | mk read after =>
      cases read with
      | error fault => rfl
      | ok found => cases found <;> rfl
  obtain ⟨bytes, -, hkept, -⟩ | ⟨⟨fault, hkept⟩, -⟩ := MemoryStore.store_cases m s r c
  · exact .copied _ rfl hkept hstreams
  · exact .failed fault hkept hstreams

/-- The echo store keeps nothing and hands the content back. -/
theorem EchoStore.orderly : EchoStore.ops.Orderly :=
  fun _ _ _ _ => .givenBack rfl rfl

namespace FetchPhase

/-- The content that a fetch is about to keep is read from the same stream as the answer. -/
def Linked : FetchPhase → Prop
  | storing _ response remote => response.backing? = remote.payload.backing?
  | copying _ response kept => response.backing? = kept.payload.backing?
  | _ => True

/-- The copy that a fetch with an answer in hand may fall back on. -/
def fallback? : FetchPhase → Option Content
  | answered copy _ _ => copy
  | storing copy _ _ => copy
  | copying copy _ _ => copy
  | verifying known _ _ => some known
  | _ => none

/-- Without an answer in hand there is nothing to link. -/
theorem linked_of_none {phase : FetchPhase} (h : phase.response? = none) : phase.Linked := by
  cases phase with
  | storing copy response remote => contradiction
  | copying copy response kept => contradiction
  | _ => trivial

end FetchPhase

namespace Proxy

variable {ops : StoreOps σ} {p p' q start : Proxy σ} {i n : Nat} {e : ProxyEvent}
  {events : List ProxyEvent} {list : List Chunk}

/-! ## What a step takes -/

section Work

variable {fetch : Fetch} {next : FetchPhase} {s : Streams} {copy : Option Content}
  {response : OriginResponse} {fetched : Except Fault (Option Content)}

/-- Before the body is settled, no stream has been taken but that of the body. -/
theorem Finds.takesOnly (orderly : ops.Orderly) (linked : fetch.phase.Linked)
    (h : Finds ops p fetch copy response fetched s) : p.streams.TakesOnly response.backing? s := by
  cases h with
  | nothing _ request _ phase => exact .refl _ _
  | fail _ request _ fault phase => exact .refl _ _
  | rejected _ _ remote fault phase kept =>
    rw [phase] at linked
    rw [linked]
    exact (orderly ..).takesOnly
  | kept _ _ remote content phase kept =>
    rw [phase] at linked
    rw [linked]
    exact (orderly ..).takesOnly
  | read _ _ kept content phase read =>
    rw [phase] at linked
    rw [linked]
    exact .materialize kept _
  | unreadable _ _ kept fault phase read =>
    rw [phase] at linked
    rw [linked]
    exact .materialize kept _
  | noted known _ stamp phase => exact .refl _ _
  | unnoted known _ stamp fault phase => exact .refl _ _

/-- A fetch takes no stream but that of the answer it has in hand. -/
theorem Work.takesOnly (orderly : ops.Orderly) (linked : fetch.phase.Linked)
    (h : Work ops p fetch next s) : p.streams.TakesOnly fetch.phase.backing? s := by
  cases h with
  | keep copy request response remote phase body => exact .refl _ _
  | confirm request response known stamp phase => exact .refl _ _
  | unread copy response remote content phase kept shares =>
    rw [phase] at linked ⊢
    change p.streams.TakesOnly response.backing? _
    rw [linked]
    exact (orderly ..).takesOnly
  | ends copy response fetched s finds =>
    rw [FetchPhase.backing?, finds.response?_eq]
    exact (finds.takesOnly orderly linked).trans (Exchange.takesOnly_conclude copy response fetched s)

/-- A fetch goes on with the same answer, and with content read from the same stream, or has ended. -/
theorem Work.next_linked (linked : fetch.phase.Linked) (h : Work ops p fetch next s) :
    next.Linked ∧ (next.backing? = fetch.phase.backing? ∨ next.response? = none) := by
  cases h with
  | keep copy request response remote phase body =>
    refine ⟨?_, .inl (by rw [phase]; rfl)⟩
    change response.backing? = _
    rw [OriginResponse.backing?, body]
    rfl
  | confirm request response known stamp phase => exact ⟨trivial, .inl (by rw [phase]; rfl)⟩
  | unread copy response remote content phase kept shares =>
    rw [phase] at linked ⊢
    obtain ⟨k, hcontent, hremote⟩ := Payload.sharesStream_iff.mp shares
    have hlinked : response.backing? = remote.payload.backing? := linked
    exact ⟨by rw [FetchPhase.Linked, hlinked, hcontent, hremote], .inl rfl⟩
  | ends copy response fetched s finds => exact ⟨trivial, .inr rfl⟩

end Work

/-- What fetches have in hand belongs together, and is read from streams that are there. -/
structure Lodged (p : Proxy σ) : Prop where
  linked : ∀ (j : Nat) fetch, p.fetches[j]? = some fetch → fetch.phase.Linked
  below : ∀ (j : Nat) fetch n, p.fetches[j]? = some fetch → fetch.phase.backing? = some n →
    n < p.streams.size

section Step

variable {j : Nat} {fetch' : Fetch}

/-- The streams only grow. -/
theorem Lodged.size_le (h : Lodged p) (orderly : ops.Orderly) (hstep : p.step ops e = some p') :
    p.streams.size ≤ p'.streams.size := by
  cases body_step hstep with
  | quiet streams phases => exact Nat.le_of_eq (by rw [streams])
  | opened k waiting copy request reply found phase streams fetches =>
    rw [streams]
    exact Reply.size_le_receive
  | worked k working next found work fetches =>
    exact Nat.le_of_eq (work.takesOnly orderly (h.linked k working found)).size.symm

/-- What a fetch has in hand after a step is read from the same stream as before, or from the one that
the step has opened. -/
theorem Lodged.backing_of_step (h : Lodged p) (hstep : p.step ops e = some p')
    (hj : p'.fetches[j]? = some fetch') (hn : fetch'.phase.backing? = some n) :
    (∃ fetch, p.fetches[j]? = some fetch ∧ fetch.phase.backing? = some n) ∨
      n = p.streams.size ∧ n < p'.streams.size := by
  cases body_step hstep with
  | quiet streams phases =>
    obtain hsame | ⟨hnone, -⟩ := phases j fetch' hj
    · exact .inl ⟨fetch', hsame, hn⟩
    · rw [FetchPhase.backing?_of_none hnone] at hn
      contradiction
  | opened k waiting copy request reply found phase streams fetches =>
    rw [fetches] at hj
    obtain ⟨-, rfl⟩ | ⟨-, hj⟩ := getElem?_modify_cases found hj
    · rw [streams]
      exact .inr (Reply.backing?_receive hn)
    · exact .inl ⟨fetch', hj, hn⟩
  | worked k working next found work fetches =>
    rw [fetches] at hj
    obtain ⟨rfl, rfl⟩ | ⟨-, hj⟩ := getElem?_modify_cases found hj
    · obtain hsame | hnone := (work.next_linked (h.linked j working found)).2
      · exact .inl ⟨working, found, hsame.symm.trans hn⟩
      · rw [FetchPhase.backing?_of_none hnone] at hn
        contradiction
    · exact .inl ⟨fetch', hj, hn⟩

/-- A step takes a stream only for a fetch that has it in hand. -/
theorem Lodged.stream?_of_step (h : Lodged p) (orderly : ops.Orderly)
    (hstep : p.step ops e = some p') (hn : n < p.streams.size) :
    p'.streams.stream? n = p.streams.stream? n ∨ p'.streams.stream? n = none ∧
      ∃ (j : Nat) (fetch : Fetch), p.fetches[j]? = some fetch ∧ fetch.phase.backing? = some n := by
  cases body_step hstep with
  | quiet streams phases => exact .inl (by rw [streams])
  | opened k waiting copy request reply found phase streams fetches =>
    rw [streams]
    exact .inl (Reply.stream?_receive (Nat.ne_of_lt hn))
  | worked k working next found work fetches =>
    obtain hsame | ⟨hbacking, htaken⟩ :=
      (work.takesOnly orderly (h.linked k working found)).streams n
    · exact .inl hsame
    · exact .inr ⟨htaken, k, working, found, hbacking⟩

/-- Every fetch keeps its copy and its answer apart as it moves. -/
theorem Lodged.linked_of_step (h : Lodged p) (hstep : p.step ops e = some p')
    (hj : p'.fetches[j]? = some fetch') : fetch'.phase.Linked := by
  cases body_step hstep with
  | quiet streams phases =>
    obtain hsame | ⟨hnone, -⟩ := phases j fetch' hj
    · exact h.linked j fetch' hsame
    · exact FetchPhase.linked_of_none hnone
  | opened k waiting copy request reply found phase streams fetches =>
    rw [fetches] at hj
    obtain ⟨-, rfl⟩ | ⟨-, hj⟩ := getElem?_modify_cases found hj
    · exact trivial
    · exact h.linked j fetch' hj
  | worked k working next found work fetches =>
    rw [fetches] at hj
    obtain ⟨-, rfl⟩ | ⟨-, hj⟩ := getElem?_modify_cases found hj
    · exact (work.next_linked (h.linked k working found)).1
    · exact h.linked j fetch' hj

/-- Every step keeps each body with the fetch that it was opened for. -/
theorem Lodged.step (h : Lodged p) (orderly : ops.Orderly) (hstep : p.step ops e = some p') :
    Lodged p' where
  linked j fetch' hj := h.linked_of_step hstep hj
  below j fetch' n hj hn := by
    obtain ⟨fetch, hbefore, hn⟩ | ⟨-, hopened⟩ := h.backing_of_step hstep hj hn
    · exact Nat.lt_of_lt_of_le (h.below j fetch n hbefore hn) (h.size_le orderly hstep)
    · exact hopened

end Step

/-- In every state of a run each body is with the fetch that it was opened for. -/
theorem lodged_of_run (orderly : ops.Orderly) (idle : start.fetches = [])
    (h : start.run ops events = some p) : Lodged p := by
  refine run_invariant (I := fun _ q => Lodged q) ?_ (fun _ hq hstep => hq.step orderly hstep) h
  exact ⟨fun j fetch hj => by simp [idle] at hj, fun j fetch n hj => by simp [idle] at hj⟩

/-! ## Following a body -/

/-- A result is content that is read from a stream. -/
def BackedBy (n : Nat) (result : Except Fault (Option Content)) : Prop :=
  ∃ c, result = .ok (some c) ∧ c.payload.backing? = some n

/-- A fetch has the body in hand, nobody has taken it, and the copy is read from elsewhere. -/
structure InHand (n : Nat) (list : List Chunk) (s : Streams) (phase : FetchPhase) : Prop where
  backing : phase.backing? = some n
  unread : s.stream? n = some list
  fallback : ∀ c, phase.fallback? = some c → c.payload.backing? ≠ some n

/-- The result is read from the body, and nobody has taken it; or the body is gone. -/
def SettledBy (n : Nat) (list : List Chunk) (s : Streams) (result : Except Fault (Option Content)) :
    Prop :=
  BackedBy n result ∧ s.stream? n = some list ∨ ¬ BackedBy n result ∧ s.stream? n = none

/-- What is fallen back on is the copy, and its stream backs it. -/
theorem backedBy_degrade {copy : Option Content} {fault : Fault}
    (h : BackedBy n (Exchange.degrade copy fault)) :
    ∃ c, copy = some c ∧ c.payload.backing? = some n := by
  obtain ⟨c, hc, hbacking⟩ := h
  exact ⟨c, Exchange.degrade_eq_some hc, hbacking⟩

section Own

variable {fetch : Fetch} {next : FetchPhase} {s : Streams} {copy : Option Content}
  {response : OriginResponse} {fetched : Except Fault (Option Content)}

/-- A body that backs the result has not been taken. -/
theorem Finds.unread (orderly : ops.Orderly) (held : InHand n list p.streams fetch.phase)
    (h : Finds ops p fetch copy response fetched s)
    (hbacked : BackedBy n (Exchange.outcome copy fetched)) : s.stream? n = some list := by
  have hfallback := held.fallback
  cases h with
  | nothing _ request _ phase => exact held.unread
  | fail _ request _ fault phase => exact held.unread
  | rejected _ _ remote fault phase kept =>
    rw [phase] at hfallback
    obtain ⟨c, hc, hbacking⟩ := backedBy_degrade hbacked
    exact absurd hbacking (hfallback c hc)
  | kept _ _ remote content phase kept =>
    obtain ⟨c, hc, hbacking⟩ := hbacked
    cases hc
    rw [(orderly ..).unread kept hbacking]
    exact held.unread
  | read _ _ kept content phase read =>
    obtain ⟨c, hc, hbacking⟩ := hbacked
    cases hc
    rw [Content.isReusable_iff.mp (Content.isReusable_of_materialize read)] at hbacking
    contradiction
  | unreadable _ _ kept fault phase read =>
    rw [phase] at hfallback
    obtain ⟨c, hc, hbacking⟩ := backedBy_degrade hbacked
    exact absurd hbacking (hfallback c hc)
  | noted known _ stamp phase => exact held.unread
  | unnoted known _ stamp fault phase => exact held.unread

/-- At the end of its fetch a body is settled. -/
theorem Finds.settled (orderly : ops.Orderly) (held : InHand n list p.streams fetch.phase)
    (h : Finds ops p fetch copy response fetched s) :
    SettledBy n list (Exchange.conclude copy response fetched s).2 (Exchange.outcome copy fetched) := by
  have hbacking : response.backing? = some n := by
    have hheld := held.backing
    rw [FetchPhase.backing?, h.response?_eq] at hheld
    exact hheld
  have hreturns := Exchange.returnsBody_iff (Exchange.outcome copy fetched) hbacking
  rw [Exchange.conclude_snd]
  split
  · next hbody =>
    have hbacked : BackedBy n (Exchange.outcome copy fetched) := hreturns.mp hbody
    exact .inl ⟨hbacked, h.unread orderly held hbacked⟩
  · next hbody =>
    exact .inr ⟨fun hbacked => hbody (hreturns.mpr hbacked), Exchange.stream?_release_self hbacking⟩

/-- A fetch that goes on has the body still in hand, or has ended with the body settled. -/
theorem Work.held (orderly : ops.Orderly) (held : InHand n list p.streams fetch.phase)
    (h : Work ops p fetch next s) :
    InHand n list s next ∨ ∃ result, next = .ended (some result) ∧ SettledBy n list s result := by
  obtain ⟨hbacking, hunread, hfallback⟩ := held
  cases h with
  | keep copy request response remote phase body =>
    rw [phase] at hbacking hfallback
    exact .inl ⟨hbacking, hunread, hfallback⟩
  | confirm request response known stamp phase =>
    rw [phase] at hbacking hfallback
    exact .inl ⟨hbacking, hunread, hfallback⟩
  | unread copy response remote content phase kept shares =>
    rw [phase] at hbacking hfallback
    obtain ⟨k, hcontent, -⟩ := Payload.sharesStream_iff.mp shares
    rw [(orderly ..).unread kept hcontent]
    exact .inl ⟨hbacking, hunread, hfallback⟩
  | ends copy response fetched s finds =>
    exact .inr ⟨_, rfl, finds.settled orderly ⟨hbacking, hunread, hfallback⟩⟩

end Own

/-- How far a body has come with its fetch: it is in hand, or the fetch has ended and settled it. -/
def Stage (n : Nat) (list : List Chunk) (s : Streams) (phase : FetchPhase) : Prop :=
  InHand n list s phase ∨
    7 ≤ phase.rank ∧ ∀ result, phase = .ended (some result) → SettledBy n list s result

/-- A stage asks nothing of the state but the one stream. -/
theorem Stage.of_same {s s' : Streams} {phase : FetchPhase} (h : Stage n list s phase)
    (hsame : s'.stream? n = s.stream? n) : Stage n list s' phase := by
  obtain ⟨hbacking, hunread, hfallback⟩ | ⟨hrank, hsettled⟩ := h
  · exact .inl ⟨hbacking, hsame.trans hunread, hfallback⟩
  · refine .inr ⟨hrank, fun result hresult => ?_⟩
    rw [SettledBy, hsame]
    exact hsettled result hresult

/-- There are no stages before the answer. -/
theorem Stage.rank {s : Streams} {phase : FetchPhase} (h : Stage n list s phase) :
    4 ≤ phase.rank := by
  obtain hheld | ⟨hended, -⟩ := h
  · obtain ⟨response, hresponse, -⟩ := Option.bind_eq_some_iff.mp hheld.backing
    exact (FetchPhase.rank_of_response hresponse).1
  · omega

/-- A body is there, no other fetch has it in hand, and its own fetch has it in hand or has settled
it. -/
structure Follows (i n : Nat) (list : List Chunk) (q : Proxy σ) : Prop where
  there : n < q.streams.size
  alone : ∀ (j : Nat) fetch, q.fetches[j]? = some fetch → fetch.phase.backing? = some n → j = i
  stage : ∃ fetch, q.fetches[i]? = some fetch ∧ Stage n list q.streams fetch.phase

/-- The fetch of a body goes on with it. -/
theorem Follows.stage_of_step (h : Follows i n list p) (orderly : ops.Orderly) (lodged : Lodged p)
    (hstep : p.step ops e = some p') :
    ∃ fetch, p'.fetches[i]? = some fetch ∧ Stage n list p'.streams fetch.phase := by
  obtain ⟨fetch, hi, hstage⟩ := h.stage
  -- A step is about the body of one fetch at most, and only its own fetch has this one.
  cases body_step hstep with
  | quiet streams phases =>
    obtain ⟨fetch', hi', -⟩ := fetch_of_step hstep hi
    refine ⟨fetch', hi', ?_⟩
    rw [streams]
    obtain hsame | ⟨-, hbefore⟩ := phases i fetch' hi'
    · obtain rfl : fetch = fetch' := Option.some.inj (hi.symm.trans hsame)
      exact hstage
    · obtain ⟨hnone, hforward⟩ := hbefore fetch hi
      obtain hheld | ⟨hended, -⟩ := hstage
      · have hbacking := hheld.backing
        rw [FetchPhase.backing?_of_none hnone] at hbacking
        contradiction
      · refine .inr ⟨by omega, fun result hresult => ?_⟩
        rw [hresult, FetchPhase.rank] at hforward
        omega
  | opened k waiting copy request reply found phase streams fetches =>
    have hki : k ≠ i := by
      rintro rfl
      obtain rfl : waiting = fetch := Option.some.inj (found.symm.trans hi)
      have hrank := hstage.rank
      rw [phase, FetchPhase.rank] at hrank
      omega
    refine ⟨fetch, by rw [fetches, List.getElem?_modify_ne _ _ hki, hi], hstage.of_same ?_⟩
    rw [streams]
    exact Reply.stream?_receive (Nat.ne_of_lt h.there)
  | worked k working next found work fetches =>
    by_cases hki : k = i
    · subst hki
      obtain rfl : working = fetch := Option.some.inj (found.symm.trans hi)
      refine ⟨{ working with phase := next }, by rw [fetches, List.getElem?_modify_eq, hi]; rfl, ?_⟩
      obtain hheld | ⟨hended, -⟩ := hstage
      · obtain hheld | ⟨result, rfl, hsettled⟩ := work.held orderly hheld
        · exact .inl hheld
        · refine .inr ⟨Nat.le_refl 7, fun other hother => ?_⟩
          cases hother
          exact hsettled
      · obtain ⟨response, hresponse⟩ := work.response?
        have hrank := (FetchPhase.rank_of_response hresponse).2
        omega
    · refine ⟨fetch, by rw [fetches, List.getElem?_modify_ne _ _ hki, hi], hstage.of_same ?_⟩
      refine (work.takesOnly orderly (lodged.linked k working found)).stream?_of_ne fun hn => ?_
      exact hki (h.alone k working found hn)

/-- The fetch of a body follows its course, whoever takes the step. -/
theorem Follows.step (h : Follows i n list p) (orderly : ops.Orderly) (lodged : Lodged p)
    (hstep : p.step ops e = some p') : Follows i n list p' where
  there := Nat.lt_of_lt_of_le h.there (lodged.size_le orderly hstep)
  alone j fetch' hj hn := by
    obtain ⟨fetch, hbefore, hn⟩ | ⟨hlast, -⟩ := lodged.backing_of_step hstep hj hn
    · exact h.alone j fetch hbefore hn
    · exact absurd hlast (Nat.ne_of_lt h.there)
  stage := h.stage_of_step orderly lodged hstep

/-- Nobody has a body in hand any more, so it stays as it is. -/
structure LeftAlone (n : Nat) (pieces : Option (List Chunk)) (q : Proxy σ) : Prop where
  there : n < q.streams.size
  alone : ∀ (j : Nat) fetch, q.fetches[j]? = some fetch → fetch.phase.backing? ≠ some n
  same : q.streams.stream? n = pieces

/-- A body that its fetch is done with is left alone by every step. -/
theorem LeftAlone.step {pieces : Option (List Chunk)} (h : LeftAlone n pieces p)
    (orderly : ops.Orderly) (lodged : Lodged p) (hstep : p.step ops e = some p') :
    LeftAlone n pieces p' where
  there := Nat.lt_of_lt_of_le h.there (lodged.size_le orderly hstep)
  alone j fetch' hj hn := by
    obtain ⟨fetch, hbefore, hn⟩ | ⟨hlast, -⟩ := lodged.backing_of_step hstep hj hn
    · exact h.alone j fetch hbefore hn
    · exact absurd hlast (Nat.ne_of_lt h.there)
  same := by
    obtain hsame | ⟨-, j, fetch, hj, hn⟩ := lodged.stream?_of_step orderly hstep h.there
    · exact hsame.trans h.same
    · exact absurd hn (h.alone j fetch hj)

/-- The fetch follows its course through any run. -/
theorem follows_of_run (orderly : ops.Orderly) (lodged : Lodged p) (h : Follows i n list p)
    (hrun : p.run ops events = some q) : Lodged q ∧ Follows i n list q :=
  run_invariant (I := fun _ q => Lodged q ∧ Follows i n list q) ⟨lodged, h⟩
    (fun _ hq hstep => ⟨hq.1.step orderly hstep, hq.2.step orderly hq.1 hstep⟩) hrun

/-- And a body that was left alone stays so. -/
theorem leftAlone_of_run {pieces : Option (List Chunk)} (orderly : ops.Orderly) (lodged : Lodged p)
    (h : LeftAlone n pieces p) (hrun : p.run ops events = some q) : LeftAlone n pieces q :=
  (run_invariant (I := fun _ q => Lodged q ∧ LeftAlone n pieces q) ⟨lodged, h⟩
    (fun _ hq hstep => ⟨hq.1.step orderly hstep, hq.2.step orderly hq.1 hstep⟩) hrun).2

/-- A body that has just been opened is followed from there. -/
theorem follows_of_answer {reply : Reply} {declared : Option Nat} (lodged : Lodged p)
    (h : p.answer i (.ok reply) = some p') (hbody : reply.body = some (.chunks list declared))
    (hcopy : ∀ copy request, p.fetches[i]?.map Fetch.phase = some (.waiting (some copy) request) →
      copy.payload.backing? ≠ some p.streams.size) :
    p'.streams.stream? p.streams.size = some list ∧ Follows i p.streams.size list p' := by
  obtain ⟨fetch, copy, request, hi, hp, ⟨fault, herror, -⟩ | ⟨answer, hok, rfl⟩⟩ := answer_cases h
  · contradiction
  · cases hok
    have hfound := (fetch?_eq_some.mp hi).1
    obtain ⟨hbacking, hstream⟩ := Reply.receive_chunks (s := p.streams) hbody
    let next : Fetch :=
      { fetch with phase := .answered copy request (.ok (reply.receive p.streams).1) }
    have hnext : ({ p with streams := (reply.receive p.streams).2 }.setFetch i
        next.phase).fetches[i]? = some next := by
      rw [setFetch, List.getElem?_modify_eq, hfound]
      rfl
    refine ⟨hstream, (Reply.backing?_receive hbacking).2, fun j fetch' hj hn => ?_, next, hnext,
      .inl ⟨hbacking, hstream, fun c hc => ?_⟩⟩
    · obtain ⟨rfl, -⟩ | ⟨-, hj⟩ := getElem?_modify_cases hfound hj
      · rfl
      · exact absurd (lodged.below j fetch' _ hj hn) (Nat.lt_irrefl _)
    · obtain rfl : copy = some c := hc
      exact hcopy c request (by rw [hfound, Option.map_some, hp])

/-- A body whose fetch has ended is settled, and nobody has it in hand. -/
theorem Follows.settled (h : Follows i n list p) {result : Except Fault (Option Content)}
    (hended : p.fetches[i]?.map Fetch.phase = some (.ended (some result))) :
    SettledBy n list p.streams result ∧ LeftAlone n (p.streams.stream? n) p := by
  obtain ⟨fetch, hi, hstage⟩ := h.stage
  have hphase : fetch.phase = .ended (some result) := by
    rw [hi, Option.map_some] at hended
    exact Option.some.inj hended
  have hnone : fetch.phase.backing? = none := by
    rw [hphase]
    rfl
  constructor
  · obtain hheld | ⟨-, hsettled⟩ := hstage
    · have hbacking := hheld.backing
      rw [hnone] at hbacking
      contradiction
    · exact hsettled result hphase
  · refine ⟨h.there, fun j other hj hn => ?_, rfl⟩
    obtain rfl := h.alone j other hj hn
    obtain rfl : fetch = other := Option.some.inj (hi.symm.trans hj)
    rw [hnone] at hn
    contradiction

/-! ## Takings -/

/-- How many steps of a run take a stream. -/
def takings (ops : StoreOps σ) (n : Nat) : Proxy σ → List ProxyEvent → Nat
  | _, [] => 0
  | p, e :: rest =>
    let q := p.after ops e
    (if (p.streams.stream? n).isSome && (q.streams.stream? n).isNone then 1 else 0) +
      q.takings ops n rest

/-- One for a stream that is there, and none for one that has been taken. -/
def remaining (n : Nat) (p : Proxy σ) : Nat :=
  if (p.streams.stream? n).isSome then 1 else 0

/-- A body that can be read still has its one taking to come. -/
theorem remaining_of_some (h : p.streams.stream? n = some list) : p.remaining n = 1 := by
  rw [remaining, h]
  rfl

/-- A body that was taken has none. -/
theorem remaining_of_none (h : p.streams.stream? n = none) : p.remaining n = 0 := by
  rw [remaining, h]
  rfl

/-- A stream is taken as often as there is one less afterwards. -/
theorem takings_add_remaining (orderly : ops.Orderly) (lodged : Lodged p) (hn : n < p.streams.size)
    (h : p.run ops events = some q) : p.takings ops n events + q.remaining n = p.remaining n := by
  induction events generalizing p with
  | nil =>
    cases h
    rw [takings, Nat.zero_add]
  | cons e rest ih =>
    rw [run_cons, Option.bind_eq_some_iff] at h
    obtain ⟨next, hstep, hrest⟩ := h
    have hlater := ih (lodged.step orderly hstep)
      (Nat.lt_of_lt_of_le hn (lodged.size_le orderly hstep)) hrest
    have hafter : p.after ops e = next := by rw [after, hstep, Option.getD_some]
    rw [takings, hafter, Nat.add_assoc, hlater]
    have hnext := lodged.stream?_of_step orderly hstep hn
    cases hbefore : p.streams.stream? n with
    | none =>
      have hgone : next.streams.stream? n = none := by
        rw [hbefore] at hnext
        exact hnext.elim id And.left
      rw [remaining_of_none hbefore, remaining_of_none hgone]
      rfl
    | some pieces =>
      rw [remaining_of_some hbefore]
      cases hthere : next.streams.stream? n with
      | none => rw [remaining_of_none hthere]; rfl
      | some pieces' => rw [remaining_of_some hthere]; rfl

/-! ## Bodies -/

/-- **Bodies.** In every run over an orderly store, with any number of gets, an answer of any status
brings a body in pieces, and its fetch comes to its end. The copy that the fetch asked about was there
before, so it is not read from the body. Then one of two things holds, and stays true however the run
goes on:

* what the fetch ended with is read from that very body, which nobody has taken;
* the body has been taken in one step on the way to the end, and never again. -/
theorem bodies_settled {before between after : List ProxyEvent} {p opened ended : Proxy σ}
    {reply : Reply} {declared : Option Nat} {result : Except Fault (Option Content)}
    (orderly : ops.Orderly) (idle : start.fetches = []) (hbefore : start.run ops before = some p)
    (hanswer : p.step ops (.answer i (.ok reply)) = some opened)
    (hbody : reply.body = some (.chunks list declared))
    (hcopy : ∀ copy request, p.fetches[i]?.map Fetch.phase = some (.waiting (some copy) request) →
      copy.payload.backing? ≠ some p.streams.size)
    (hbetween : opened.run ops between = some ended)
    (hended : ended.fetches[i]?.map Fetch.phase = some (.ended (some result)))
    (hafter : ended.run ops after = some q) :
    opened.streams.stream? p.streams.size = some list ∧
    ((BackedBy p.streams.size result ∧ opened.takings ops p.streams.size (between ++ after) = 0 ∧
        q.streams.stream? p.streams.size = some list) ∨
      ¬ BackedBy p.streams.size result ∧ opened.takings ops p.streams.size between = 1 ∧
        opened.takings ops p.streams.size (between ++ after) = 1 ∧
        q.streams.stream? p.streams.size = none) := by
  have hlodged := lodged_of_run orderly idle hbefore
  have hopened := hlodged.step orderly hanswer
  obtain ⟨hstream, hfollows⟩ := follows_of_answer hlodged hanswer hbody hcopy
  obtain ⟨hlodged', hfollows'⟩ := follows_of_run orderly hopened hfollows hbetween
  obtain ⟨hsettled, hleft⟩ := hfollows'.settled hended
  have hsame := (leftAlone_of_run orderly hlodged' hleft hafter).same
  have hwhole : opened.run ops (between ++ after) = some q := by
    rw [run_append, hbetween, Option.bind_some, hafter]
  -- Takings and what remains add up to one over both parts of the run.
  have htaken := takings_add_remaining orderly hopened hfollows.there hbetween
  have htaken' := takings_add_remaining orderly hopened hfollows.there hwhole
  rw [remaining_of_some hstream] at htaken htaken'
  refine ⟨hstream, ?_⟩
  obtain ⟨hbacked, hthere⟩ | ⟨hbacked, hgone⟩ := hsettled
  · rw [hthere] at hsame
    rw [remaining_of_some hsame] at htaken'
    exact .inl ⟨hbacked, by omega, hsame⟩
  · rw [hgone] at hsame
    rw [remaining_of_none hgone] at htaken
    rw [remaining_of_none hsame] at htaken'
    exact .inr ⟨hbacked, htaken, htaken', hsame⟩

/-- A proxy over a store that gives everything back unread. -/
def echoing (passive : Duration) : Proxy EchoStore :=
  { oldStart with store := {}, passive }

/-- An answer whose body arrives in pieces. -/
def pieces : Reply :=
  { status := 200, body := some (.chunks [.data [1], .data [2]] none) }

/-- What a get with the first call returns if it gets the body as it is, or reads it. -/
def echoed (payload : Payload) : Content :=
  ⟨payload, { stamp := some ⟨.ofMillis 0, 86400, some (.issued 0)⟩ }⟩

/-- Without sharing, the fetch ends with the body, and nobody has taken it. With sharing, it ends with
what it read from the body, which has been taken once. -/
theorem echoed_settled :
    (∃ opened q, (echoing (.ofSeconds 0)).run EchoStore.ops (asked ++ [.answer 0 (.ok pieces)]) =
        some opened ∧
      opened.run EchoStore.ops ([.handle 0, .stored 0] ++ [.finish 0]) = some q ∧
      opened.takings EchoStore.ops 0 ([.handle 0, .stored 0] ++ [.finish 0]) = 0 ∧
      q.streams.stream? 0 = some [.data [1], .data [2]]) ∧
    ∃ opened q, (echoing (.ofSeconds 600)).run EchoStore.ops (asked ++ [.answer 0 (.ok pieces)]) =
        some opened ∧
      opened.run EchoStore.ops ([.handle 0, .stored 0, .copied 0] ++ [.publish 0]) = some q ∧
      opened.takings EchoStore.ops 0 ([.handle 0, .stored 0, .copied 0] ++ [.publish 0]) = 1 ∧
      q.streams.stream? 0 = none := by
  constructor
  · obtain ⟨p, opened, ended, q, hsize, hbefore, ⟨request, hcopy⟩, hanswer, hbetween, hended, hafter⟩ :
        ∃ p opened ended q, p.streams.size = 0 ∧
          (echoing (.ofSeconds 0)).run EchoStore.ops asked = some p ∧
          (∃ request, p.fetches[0]?.map Fetch.phase = some (.waiting none request)) ∧
          p.step EchoStore.ops (.answer 0 (.ok pieces)) = some opened ∧
          opened.run EchoStore.ops [.handle 0, .stored 0] = some ended ∧
          ended.fetches[0]?.map Fetch.phase =
            some (.ended (some (.ok (some (echoed (.streaming ⟨0, none⟩)))))) ∧
          ended.run EchoStore.ops [.finish 0] = some q :=
      ⟨_, _, _, _, rfl, rfl, ⟨_, rfl⟩, rfl, rfl, rfl, rfl⟩
    have hsettled := bodies_settled EchoStore.orderly rfl hbefore hanswer rfl
      (fun copy request h => nomatch hcopy.symm.trans h) hbetween hended hafter
    rw [hsize] at hsettled
    refine ⟨opened, q, ?_, ?_, ?_⟩
    · rw [run_append, hbefore, Option.bind_some, run_cons, hanswer]
      rfl
    · rw [run_append, hbetween, Option.bind_some, hafter]
    · obtain ⟨-, ⟨-, hsettled⟩ | ⟨hnot, -⟩⟩ := hsettled
      · exact hsettled
      · exact absurd ⟨_, rfl, rfl⟩ hnot
  · obtain ⟨p, opened, ended, q, hsize, hbefore, ⟨request, hcopy⟩, hanswer, hbetween, hended, hafter⟩ :
        ∃ p opened ended q, p.streams.size = 0 ∧
          (echoing (.ofSeconds 600)).run EchoStore.ops asked = some p ∧
          (∃ request, p.fetches[0]?.map Fetch.phase = some (.waiting none request)) ∧
          p.step EchoStore.ops (.answer 0 (.ok pieces)) = some opened ∧
          opened.run EchoStore.ops [.handle 0, .stored 0, .copied 0] = some ended ∧
          ended.fetches[0]?.map Fetch.phase =
            some (.ended (some (.ok (some (echoed (.buffered [1, 2])))))) ∧
          ended.run EchoStore.ops [.publish 0] = some q :=
      ⟨_, _, _, _, rfl, rfl, ⟨_, rfl⟩, rfl, rfl, rfl, rfl⟩
    have hsettled := bodies_settled EchoStore.orderly rfl hbefore hanswer rfl
      (fun copy request h => nomatch hcopy.symm.trans h) hbetween hended hafter
    rw [hsize] at hsettled
    refine ⟨opened, q, ?_, ?_, ?_⟩
    · rw [run_append, hbefore, Option.bind_some, run_cons, hanswer]
      rfl
    · rw [run_append, hbetween, Option.bind_some, hafter]
    · obtain ⟨-, ⟨⟨c, hc, hbacking⟩, -⟩ | ⟨-, -, hsettled⟩⟩ := hsettled
      · cases hc
        contradiction
      · exact hsettled

end Proxy

end PullCache
