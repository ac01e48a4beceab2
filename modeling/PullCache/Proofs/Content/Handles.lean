import PullCache.Origin.Exchange
import PullCache.Proofs.Content.Bounded
/-!
# Proofs.Content.Handles

Contents and answers of the origin that are cloned, read and given up in any order (`Holdings.step`).
A clone of a handle has its payload, and so have content and answers that are made around a clone of
the payload; all of them are then backed by one stream.

Which handle descends from which is told by how each of them came about. Two of them are backed by one
stream exactly if they descend from one body, and the stream is there until the first operation that
needs it (`shared_once`). Bytes in memory are nobody else's concern.
-/

namespace PullCache

/-- Content is read into memory by reading its payload, and keeps its attributes. -/
theorem Content.materialize_eq (c : Content) (s : Streams) : c.materialize s =
    ((c.payload.readAll s).1.map fun bytes => ⟨.buffered bytes, c.attributes⟩,
      (c.payload.readAll s).2) := by
  obtain ⟨payload, attributes⟩ := c
  cases payload with
  | buffered bytes => rfl
  | streaming body =>
    rw [materialize]
    cases hread : (Payload.streaming body).readAll s with
    | mk result after => cases result <;> rfl

/-- A stream that somebody else has had is not read up to a limit either. -/
theorem Payload.readLimited_of_gone {body : RemoteBody} {limit : Nat} {s : Streams}
    (fits : ¬ (streaming body).TooLong limit) (gone : s.stream? body.stream = none) :
    ((streaming body).readLimited limit s).1 = .error .consumed := by
  have htaken : (s.take body).1 = none := gone
  unfold readLimited
  rw [if_neg (mt any_length?_iff.mp fits)]
  cases htake : s.take body with
  | mk found after =>
    rw [htake] at htaken
    cases htaken
    simp only [htake]

/-! ## Handles -/

/-- What holds a payload: content, or an answer of the origin with its body. -/
inductive Handle where
  | content (c : Content)
  | answer (response : OriginResponse) (body : Payload)
  deriving DecidableEq, Repr

namespace Handle

def payload : Handle → Payload
  | content c => c.payload
  | answer _ body => body

def content? : Handle → Option Content
  | content c => some c
  | answer .. => none

/-- Gives up the payload. -/
def release (h : Handle) (s : Streams) : Bool × Streams :=
  match h with
  | content c => c.payload.release s
  | answer response body => { response with body := some body }.release s

theorem release_eq (h : Handle) (s : Streams) : h.release s = h.payload.release s := by
  cases h <;> rfl

end Handle

/-- How a handle came about. -/
inductive HandleSource where
  /-- Around a body that was opened for it. -/
  | opened (chunks : List Chunk)
  /-- Around bytes in memory. -/
  | made
  /-- As a clone of another handle, or around a clone of its payload. -/
  | cloned (original : Nat)
  /-- By reading other content into memory. -/
  | read (original : Nat)
  deriving DecidableEq, Repr

structure HeldHandle where
  handle : Handle
  source : HandleSource
  /-- It has not been used up. -/
  live : Bool := true
  deriving DecidableEq, Repr

/-- What can be done with handles, which are numbered as they come about. -/
inductive HandleOp where
  /-- The origin opens a body, and content is made around it. -/
  | openBody (chunks : List Chunk) (declared : Option Nat) (attributes : Attributes)
  | buffer (bytes : Bytes) (attributes : Attributes)
  | clone (i : Nat)
  /-- Makes content around a clone of a payload. -/
  | wrap (i : Nat) (attributes : Attributes)
  /-- Attaches a clone of a payload to an answer. -/
  | attach (i : Nat) (response : OriginResponse)
  | restamp (i : Nat) (stamp : Stamp)
  | readAll (i : Nat)
  | readLimited (i limit : Nat)
  | materialize (i : Nat)
  /-- Takes the stream out of the body. -/
  | take (i : Nat)
  | release (i : Nat)
  /-- Uses content up for its bytes. -/
  | intoBytes (i : Nat)
  deriving DecidableEq, Repr

/-- What an operation reports. -/
inductive HandleReport where
  | done
  /-- The number of a new handle. -/
  | handle (i : Nat)
  | bytes (result : Except ReadFault Bytes)
  | bounded (result : Except ReadFault (Option Bytes))
  /-- The number of the copy in memory. -/
  | copy (result : Except ReadFault Nat)
  | pieces (chunks : Option (List Chunk))
  | released (unread : Bool)

namespace HandleOp

/-- The handle whose payload the operation wants to have. -/
def subject? : HandleOp → Option Nat
  | readAll i | readLimited i _ | materialize i | take i | release i | intoBytes i => some i
  | _ => none

/-- The operation is there for content only. -/
def forContent : HandleOp → Bool
  | materialize _ | intoBytes _ => true
  | _ => false

/-- The operation is there for a body only. -/
def forBody : HandleOp → Bool
  | take _ => true
  | _ => false

end HandleOp

/-- All the streams, and all the handles that ever came about. -/
structure Holdings where
  streams : Streams := .empty
  held : List HeldHandle := []

namespace Holdings

/-- A handle that has not been used up. -/
def live? (d : Holdings) (i : Nat) : Option Handle :=
  (d.held[i]?.filter (·.live)).map (·.handle)

def content? (d : Holdings) (i : Nat) : Option Content :=
  (d.live? i).bind (·.content?)

/-- One more handle, which has not been used up. -/
def hold (d : Holdings) (handle : Handle) (source : HandleSource) : Holdings :=
  { d with held := d.held ++ [{ handle, source }] }

/-- An operation on the handles, if there are handles for it. -/
def step (d : Holdings) : HandleOp → Option (HandleReport × Holdings)
  | .openBody chunks declared attributes =>
    let (stream, streams) := d.streams.add chunks
    some (.handle d.held.length, { d with streams }.hold
      (.content ⟨.streaming ⟨stream, declared⟩, attributes⟩) (.opened chunks))
  | .buffer bytes attributes =>
    some (.handle d.held.length, d.hold (.content ⟨.buffered bytes, attributes⟩) .made)
  | .clone i => do
    let h ← d.live? i
    some (.handle d.held.length, d.hold h (.cloned i))
  | .wrap i attributes => do
    let h ← d.live? i
    some (.handle d.held.length, d.hold (.content ⟨h.payload, attributes⟩) (.cloned i))
  | .attach i response => do
    let h ← d.live? i
    some (.handle d.held.length, d.hold (.answer response h.payload) (.cloned i))
  | .restamp i stamp => do
    let c ← d.content? i
    some (.done, { d with
      held := d.held.modify i fun h => { h with handle := .content (c.withStamp stamp) } })
  | .readAll i => do
    let h ← d.live? i
    let (result, streams) := h.payload.readAll d.streams
    some (.bytes result, { d with streams })
  | .readLimited i limit => do
    let h ← d.live? i
    let (result, streams) := h.payload.readLimited limit d.streams
    some (.bounded result, { d with streams })
  | .materialize i => do
    let c ← d.content? i
    match c.materialize d.streams with
    | (.ok copy, streams) =>
      some (.copy (.ok d.held.length), { d with streams }.hold (.content copy) (.read i))
    | (.error fault, streams) => some (.copy (.error fault), { d with streams })
  | .take i => do
    let h ← d.live? i
    match h.payload with
    | .streaming body =>
      let (chunks, streams) := d.streams.take body
      some (.pieces chunks, { d with streams })
    | .buffered _ => none
  | .release i => do
    let h ← d.live? i
    let (unread, streams) := h.release d.streams
    some (.released unread, { d with streams })
  | .intoBytes i => do
    let c ← d.content? i
    let (result, streams) := c.payload.readAll d.streams
    some (.bytes result, { streams, held := d.held.modify i fun h => { h with live := false } })

/-- Operations one after the other. -/
def run (d : Holdings) : List HandleOp → Option Holdings
  | [] => some d
  | op :: ops => do
    let (_, d') ← d.step op
    d'.run ops

variable {d d' : Holdings} {op : HandleOp} {report : HandleReport} {i : Nat} {h : Handle} {c : Content}

/-! ## What an operation does -/

/-- The payloads of all handles, used up or not, and how they came about. -/
def stock (d : Holdings) : List (Payload × HandleSource) :=
  d.held.map fun h => (h.handle.payload, h.source)

/-- A handle is live as long as it was not given away. -/
theorem live?_eq_some : d.live? i = some h ↔
    ∃ held, d.held[i]? = some held ∧ held.live = true ∧ held.handle = h := by
  simp [live?, Option.filter_eq_some_iff, and_assoc]

/-- Content can be read through the handles that hold it. -/
theorem content?_eq_some : d.content? i = some c ↔ d.live? i = some (.content c) := by
  rw [content?, Option.bind_eq_some_iff]
  constructor
  · rintro ⟨_ | _, hlive, hcontent⟩
    · cases hcontent
      exact hlive
    · contradiction
  · exact fun hlive => ⟨_, hlive, rfl⟩

/-- A live handle has its payload in the stock. -/
theorem stock_of_live? (hlive : d.live? i = some h) :
    ∃ source, d.stock[i]? = some (h.payload, source) := by
  obtain ⟨held, hheld, -, rfl⟩ := live?_eq_some.mp hlive
  exact ⟨held.source, by rw [stock, List.getElem?_map, hheld]; rfl⟩

theorem stock_append {handle : Handle} {source : HandleSource}
    (held : d'.held = d.held ++ [{ handle := handle, source := source }]) :
    d'.stock = d.stock ++ [(handle.payload, source)] := by
  rw [stock, held, List.map_append]
  rfl

/-- A handle that keeps its payload leaves the stock as it is. -/
theorem stock_modify {f : HeldHandle → HeldHandle} (hlive : d.live? i = some h)
    (held : d'.held = d.held.modify i f)
    (keeps : ∀ x, x.handle = h → (f x).handle.payload = h.payload ∧ (f x).source = x.source) :
    d'.stock = d.stock := by
  obtain ⟨x, hx, -, rfl⟩ := live?_eq_some.mp hlive
  apply List.ext_getElem?
  intro k
  rw [stock, stock, held, List.getElem?_map, List.getElem?_map, List.getElem?_modify]
  by_cases hk : i = k
  · subst hk
    simp [hx, keeps x rfl]
  · simp [hk]

/-- What an operation does to the streams and to the handles. -/
inductive Effect (d : Holdings) (op : HandleOp) (d' : Holdings) : Prop
  | opens (chunks : List Chunk) (declared : Option Nat) (attributes : Attributes)
      (idle : op.subject? = none) (streams : d'.streams = (d.streams.add chunks).2)
      (held : d'.held = d.held ++ [{
        handle := .content ⟨.streaming ⟨d.streams.size, declared⟩, attributes⟩
        source := .opened chunks }])
  | makes (c : Content) (bytes : Bytes) (idle : op.subject? = none)
      (payload : c.payload = .buffered bytes) (streams : d'.streams = d.streams)
      (held : d'.held = d.held ++ [{ handle := .content c, source := .made }])
  | clones (i : Nat) (h copy : Handle) (idle : op.subject? = none) (found : d.live? i = some h)
      (payload : copy.payload = h.payload) (streams : d'.streams = d.streams)
      (held : d'.held = d.held ++ [{ handle := copy, source := .cloned i }])
  | restamps (i : Nat) (c : Content) (stamp : Stamp) (restamp : op = .restamp i stamp)
      (found : d.live? i = some (.content c)) (streams : d'.streams = d.streams)
      (held : d'.held = d.held.modify i fun h => { h with handle := .content (c.withStamp stamp) })
  | reads (i : Nat) (h : Handle) (subject : op.subject? = some i) (found : d.live? i = some h)
      (streams : d'.streams.open? = (h.payload.release d.streams).2.open?) (held : d'.held = d.held)
  | copies (i : Nat) (h : Handle) (c : Content) (bytes : Bytes) (subject : op.subject? = some i)
      (found : d.live? i = some h) (streams : d'.streams.open? = (h.payload.release d.streams).2.open?)
      (payload : c.payload = .buffered bytes)
      (held : d'.held = d.held ++ [{ handle := .content c, source := .read i }])
  | usesUp (i : Nat) (h : Handle) (last : op = .intoBytes i) (found : d.live? i = some h)
      (streams : d'.streams.open? = (h.payload.release d.streams).2.open?)
      (held : d'.held = d.held.modify i fun h => { h with live := false })

/-- What a use does to handles and streams. -/
theorem step_effect (hstep : d.step op = some (report, d')) : Effect d op d' := by
  -- The kinds of use come down to seven effects.
  cases op with
  | openBody chunks declared attributes =>
    cases hstep
    exact .opens chunks declared attributes rfl rfl rfl
  | buffer bytes attributes =>
    cases hstep
    exact .makes ⟨.buffered bytes, attributes⟩ bytes rfl rfl rfl rfl
  | clone i =>
    obtain ⟨h, hlive, hstep⟩ := Option.bind_eq_some_iff.mp hstep
    cases hstep
    exact .clones i h h rfl hlive rfl rfl rfl
  | wrap i attributes =>
    obtain ⟨h, hlive, hstep⟩ := Option.bind_eq_some_iff.mp hstep
    cases hstep
    exact .clones i h (.content ⟨h.payload, attributes⟩) rfl hlive rfl rfl rfl
  | attach i response =>
    obtain ⟨h, hlive, hstep⟩ := Option.bind_eq_some_iff.mp hstep
    cases hstep
    exact .clones i h (.answer response h.payload) rfl hlive rfl rfl rfl
  | restamp i stamp =>
    obtain ⟨c, hcontent, hstep⟩ := Option.bind_eq_some_iff.mp hstep
    cases hstep
    exact .restamps i c stamp rfl (content?_eq_some.mp hcontent) rfl rfl
  | readAll i =>
    obtain ⟨h, hlive, hstep⟩ := Option.bind_eq_some_iff.mp hstep
    cases hstep
    exact .reads i h rfl hlive (Payload.readAll_open? ..) rfl
  | readLimited i limit =>
    obtain ⟨h, hlive, hstep⟩ := Option.bind_eq_some_iff.mp hstep
    cases hstep
    exact .reads i h rfl hlive (Payload.readLimited_open? ..) rfl
  | materialize i =>
    obtain ⟨c, hcontent, hstep⟩ := Option.bind_eq_some_iff.mp hstep
    have hlive := content?_eq_some.mp hcontent
    have hstreams := c.payload.readAll_open? d.streams
    simp only [Content.materialize_eq] at hstep
    cases hread : (c.payload.readAll d.streams).1 with
    | error fault =>
      rw [hread] at hstep
      cases hstep
      exact .reads i (.content c) rfl hlive hstreams rfl
    | ok bytes =>
      rw [hread] at hstep
      cases hstep
      exact .copies i (.content c) ⟨.buffered bytes, c.attributes⟩ bytes rfl hlive hstreams rfl rfl
  | take i =>
    obtain ⟨h, hlive, hstep⟩ := Option.bind_eq_some_iff.mp hstep
    cases hpayload : h.payload with
    | buffered bytes => simp [hpayload] at hstep
    | streaming body =>
      simp only [hpayload] at hstep
      cases hstep
      exact .reads i h rfl hlive (by rw [hpayload]; rfl) rfl
  | release i =>
    obtain ⟨h, hlive, hstep⟩ := Option.bind_eq_some_iff.mp hstep
    cases hstep
    exact .reads i h rfl hlive (congrArg (·.2.open?) (h.release_eq d.streams)) rfl
  | intoBytes i =>
    obtain ⟨c, hcontent, hstep⟩ := Option.bind_eq_some_iff.mp hstep
    cases hstep
    exact .usesUp i (.content c) rfl (content?_eq_some.mp hcontent) (Payload.readAll_open? ..) rfl

/-! ## Descent -/

/-- What the payload of a handle is read from. -/
def backing? (d : Holdings) (i : Nat) : Option Nat :=
  d.stock[i]?.bind (·.1.backing?)

/-- The operation wants the stream with this number. -/
def Needs (d : Holdings) (op : HandleOp) (n : Nat) : Prop :=
  ∃ i, op.subject? = some i ∧ d.backing? i = some n

/-- A handle descends by clones from the one around which its body was opened. -/
inductive Descends (d : Holdings) : Nat → Nat → Prop
  | opened {r : Nat} {p : Payload} {chunks : List Chunk}
    (found : d.stock[r]? = some (p, .opened chunks)) : Descends d r r
  | cloned {i j r : Nat} {p : Payload} (found : d.stock[i]? = some (p, .cloned j))
    (h : Descends d j r) : Descends d i r

/-- How the payload of the handle with this number fits the way it came about. -/
def Fits (d : Holdings) (i : Nat) (p : Payload) : HandleSource → Prop
  | .opened _ => p.backing?.isSome
  | .made | .read _ => p.backing? = none
  | .cloned j => j < i ∧ ∃ source, d.stock[j]? = some (p, source)

/-- The handle around which a body was opened with these pieces. -/
def Opened (d : Holdings) (r : Nat) (p : Payload) (chunks : List Chunk) : Prop :=
  d.stock[r]? = some (p, .opened chunks)

/-- What holds after any operations. -/
structure Sound (d : Holdings) (ops : List HandleOp) : Prop where
  fits : ∀ i p source, d.stock[i]? = some (p, source) → d.Fits i p source
  below : ∀ i n, d.backing? i = some n → n < d.streams.size
  /-- Each body has a stream of its own. -/
  apart : ∀ i j n p q chunks chunks', d.Opened i p chunks → d.Opened j q chunks' →
    p.backing? = some n → q.backing? = some n → i = j
  /-- A stream is there with all its pieces until an operation needs it. -/
  unread : ∀ r n p chunks, d.Opened r p chunks → p.backing? = some n →
    (∀ op ∈ ops, ¬ d.Needs op n) → d.streams.stream? n = some chunks
  gone : ∀ op ∈ ops, ∀ n, d.Needs op n → d.streams.stream? n = none
  past : ∀ op ∈ ops, ∀ i, op.subject? = some i → i < d.stock.length

variable {ops : List HandleOp} {added? : Option (Payload × HandleSource)} {n : Nat}

theorem getElem?_stock (stock : d'.stock = d.stock ++ added?.toList) {x : Payload × HandleSource} :
    d'.stock[i]? = some x ↔ d.stock[i]? = some x ∨ i = d.stock.length ∧ added? = some x := by
  rw [stock]
  obtain hlt | hge := Nat.lt_or_ge i d.stock.length
  · rw [List.getElem?_append_left hlt]
    exact ⟨.inl, fun h => h.resolve_right fun h => Nat.ne_of_lt hlt h.1⟩
  · rw [List.getElem?_append_right hge, List.getElem?_eq_none hge]
    cases added? with
    | none => simp
    | some y =>
      rw [Option.toList_some, List.getElem?_singleton]
      by_cases hi : i = d.stock.length
      · simp [hi]
      · rw [if_neg (by omega : i - d.stock.length ≠ 0)]
        simp only [hi, false_and, or_false]

/-- What is read from a handle in stock does not change when there is one more. -/
theorem backing?_of_append (stock : d'.stock = d.stock ++ added?.toList) (hi : i < d.stock.length) :
    d'.backing? i = d.backing? i := by
  rw [backing?, backing?, stock, List.getElem?_append_left hi]

theorem lt_length_of_backing? (h : d.backing? i = some n) : i < d.stock.length := by
  obtain ⟨_, hfound, -⟩ := Option.bind_eq_some_iff.mp h
  exact (List.getElem?_eq_some_iff.mp hfound).1

/-- What fits the stock fits a longer one. -/
theorem Fits.append {p : Payload} {source : HandleSource} (h : d.Fits i p source)
    (stock : d'.stock = d.stock ++ added?.toList) : d'.Fits i p source := by
  cases source with
  | cloned j =>
    obtain ⟨hlt, source, hfound⟩ := h
    exact ⟨hlt, source, (getElem?_stock stock).mpr (.inl hfound)⟩
  | opened chunks => exact h
  | made => exact h
  | read j => exact h

namespace Sound

/-- Without handles nothing has to be accounted for. -/
theorem empty : Sound {} [] where
  fits i p source h := by simp [stock] at h
  below i n h := by simp [backing?, stock] at h
  apart i j n p q chunks chunks' h := by simp [Opened, stock] at h
  unread r n p chunks h := by simp [Opened, stock] at h
  gone op h := by simp at h
  past op h := by simp at h

/-- A body has a stream below the next one. -/
theorem lt_size {r : Nat} {p : Payload} {chunks : List Chunk} (h : d.Sound ops)
    (opened : d.Opened r p chunks) (hn : p.backing? = some n) : n < d.streams.size :=
  h.below r n (by rw [backing?, opened]; exact hn)

/-- One more handle in stock, or none. A body that is opened has the next stream. -/
theorem grow (h : d.Sound ops) (stock : d'.stock = d.stock ++ added?.toList)
    (size : d.streams.size ≤ d'.streams.size)
    (streams : ∀ n < d.streams.size, d'.streams.stream? n = d.streams.stream? n)
    (fits : ∀ p source, added? = some (p, source) → d.Fits d.stock.length p source ∧
      ∀ n, p.backing? = some n → n < d'.streams.size)
    (fresh : ∀ p chunks, added? = some (p, .opened chunks) →
      p.backing? = some d.streams.size ∧ d'.streams.stream? d.streams.size = some chunks) :
    d'.Sound ops := by
  have hneeds : ∀ op ∈ ops, ∀ n, d'.Needs op n ↔ d.Needs op n := by
    intro op hop n
    constructor
    · rintro ⟨i, hi, hn⟩
      exact ⟨i, hi, (backing?_of_append stock (h.past op hop i hi)).symm.trans hn⟩
    · rintro ⟨i, hi, hn⟩
      exact ⟨i, hi, (backing?_of_append stock (lt_length_of_backing? hn)).trans hn⟩
  exact {
    fits := by
      intro i p source hi
      obtain hold | ⟨rfl, hnew⟩ := (getElem?_stock stock).mp hi
      · exact (h.fits i p source hold).append stock
      · exact (fits p source hnew).1.append stock
    below := by
      intro i n hn
      obtain ⟨⟨p, source⟩, hi, hback⟩ := Option.bind_eq_some_iff.mp hn
      obtain hold | ⟨rfl, hnew⟩ := (getElem?_stock stock).mp hi
      · exact Nat.lt_of_lt_of_le (h.below i n (by rw [backing?, hold]; exact hback)) size
      · exact (fits p source hnew).2 n hback
    apart := by
      intro i j n p q chunks chunks' hi hj hp hq
      obtain hiold | ⟨rfl, hinew⟩ := (getElem?_stock stock).mp hi <;>
        obtain hjold | ⟨rfl, hjnew⟩ := (getElem?_stock stock).mp hj
      · exact h.apart i j n p q chunks chunks' hiold hjold hp hq
      · have hlt := h.lt_size hiold hp
        rw [(fresh q chunks' hjnew).1] at hq
        cases hq
        exact absurd hlt (Nat.lt_irrefl _)
      · have hlt := h.lt_size hjold hq
        rw [(fresh p chunks hinew).1] at hp
        cases hp
        exact absurd hlt (Nat.lt_irrefl _)
      · rfl
    unread := by
      intro r n p chunks hr hn hnone
      obtain hold | ⟨rfl, hnew⟩ := (getElem?_stock stock).mp hr
      · rw [streams n (h.lt_size hold hn)]
        exact h.unread r n p chunks hold hn fun op hop hneed =>
          hnone op hop ((hneeds op hop n).mpr hneed)
      · obtain ⟨hsize, hchunks⟩ := fresh p chunks hnew
        rw [hsize] at hn
        cases hn
        exact hchunks
    gone := by
      intro op hop n hneed
      have hbefore := (hneeds op hop n).mp hneed
      obtain ⟨i, -, hback⟩ := id hbefore
      rw [streams n (h.below i n hback)]
      exact h.gone op hop n hbefore
    past := by
      intro op hop i hi
      rw [stock, List.length_append]
      exact Nat.lt_add_right _ (h.past op hop i hi) }

/-- One more handle around a payload that is in memory, or that some handle has already. -/
theorem add (h : d.Sound ops) {p : Payload} {source : HandleSource}
    (streams : d'.streams.open? = d.streams.open?)
    (stock : d'.stock = d.stock ++ [(p, source)]) (fits : d.Fits d.stock.length p source)
    (known : ∀ chunks, source ≠ .opened chunks) : d'.Sound ops := by
  have hstock : d'.stock = d.stock ++ (some (p, source)).toList := stock
  have hsize := Streams.size_congr streams
  refine h.grow hstock (Nat.le_of_eq hsize.symm) (fun n _ => Streams.stream?_congr streams n) ?_ ?_
  · rintro _ _ ⟨⟩
    refine ⟨fits, fun n hn => ?_⟩
    rw [hsize]
    cases source with
    | opened chunks => exact absurd rfl (known chunks)
    | made => exact absurd (fits.symm.trans hn) nofun
    | read j => exact absurd (fits.symm.trans hn) nofun
    | cloned j =>
      obtain ⟨-, source, hfound⟩ := fits
      exact h.below j n (by rw [backing?, hfound]; exact hn)
  · rintro _ chunks ⟨⟩
    exact absurd rfl (known chunks)

/-- Only the open streams and the stock count. -/
theorem same (h : d.Sound ops) (streams : d'.streams.open? = d.streams.open?)
    (stock : d'.stock = d.stock) : d'.Sound ops := by
  have hstock : d'.stock = d.stock ++ (none : Option (Payload × HandleSource)).toList := by simp [stock]
  exact h.grow hstock (Nat.le_of_eq (Streams.size_congr streams).symm)
    (fun n _ => Streams.stream?_congr streams n) nofun nofun

/-- A use of no handle changes nothing that counts. -/
theorem idle (h : d.Sound ops) (hop : op.subject? = none) : d.Sound (ops ++ [op]) where
  fits := h.fits
  below := h.below
  apart := h.apart
  unread r n p chunks hr hn hnone :=
    h.unread r n p chunks hr hn fun op' hop' => hnone op' (List.mem_append_left _ hop')
  gone op' hop' n hneed := by
    obtain hbefore | hlast := List.mem_append.mp hop'
    · exact h.gone op' hbefore n hneed
    · obtain ⟨i, hi, -⟩ := hneed
      rw [List.mem_singleton.mp hlast, hop] at hi
      contradiction
  past op' hop' i hi := by
    obtain hbefore | hlast := List.mem_append.mp hop'
    · exact h.past op' hbefore i hi
    · rw [List.mem_singleton.mp hlast, hop] at hi
      contradiction

/-- The stream of a payload is taken by an operation that needs it. -/
theorem use (h : d.Sound ops) {p : Payload} {source : HandleSource} (hop : op.subject? = some i)
    (found : d.stock[i]? = some (p, source)) :
    Sound { d with streams := (p.release d.streams).2 } (ops ++ [op]) := by
  have hbacking : d.backing? i = p.backing? := by rw [backing?, found]; rfl
  have hneeds : ∀ n, d.Needs op n ↔ p.backing? = some n := by
    intro n
    rw [Needs, ← hbacking]
    exact ⟨fun ⟨j, hj, hn⟩ => Option.some.inj (hop.symm.trans hj) ▸ hn, fun hn => ⟨i, hop, hn⟩⟩
  exact {
    fits := h.fits
    below := by
      intro i n hn
      rw [Payload.size_release]
      exact h.below i n hn
    apart := h.apart
    unread := by
      intro r n q chunks hr hn hnone
      have hkeep : p.backing? ≠ some n := fun heq =>
        hnone op (List.mem_append_right _ (List.mem_singleton_self _)) ((hneeds n).mpr heq)
      rw [Payload.stream?_release_of_ne hkeep]
      exact h.unread r n q chunks hr hn fun op' hop' => hnone op' (List.mem_append_left _ hop')
    gone := by
      intro op' hop' n hneed
      by_cases hn : p.backing? = some n
      · exact Payload.stream?_release_self hn
      · rw [Payload.stream?_release_of_ne hn]
        obtain hbefore | hlast := List.mem_append.mp hop'
        · exact h.gone op' hbefore n hneed
        · rw [List.mem_singleton.mp hlast] at hneed
          exact absurd ((hneeds n).mp hneed) hn
    past := by
      intro op' hop' k hk
      obtain hbefore | hlast := List.mem_append.mp hop'
      · exact h.past op' hbefore k hk
      · rw [List.mem_singleton.mp hlast, hop] at hk
        cases hk
        exact (List.getElem?_eq_some_iff.mp found).1 }

/-- A body that is opened has a stream that nothing has needed. -/
theorem openBody (h : d.Sound ops) {chunks : List Chunk} {declared : Option Nat}
    (streams : d'.streams = (d.streams.add chunks).2)
    (stock : d'.stock = d.stock ++ [(.streaming ⟨d.streams.size, declared⟩, .opened chunks)]) :
    d'.Sound ops := by
  have hstock : d'.stock = d.stock ++
    (some (Payload.streaming ⟨d.streams.size, declared⟩, HandleSource.opened chunks)).toList := stock
  have hsize : d'.streams.size = d.streams.size + 1 := by rw [streams, Streams.size_add]
  refine h.grow hstock (by omega) (fun n hn => ?_) ?_ ?_
  · rw [streams, Streams.stream?_add_of_ne (Nat.ne_of_lt hn)]
  · rintro _ _ ⟨⟩
    refine ⟨rfl, ?_⟩
    rintro _ ⟨⟩
    exact hsize ▸ Nat.lt_succ_self _
  · rintro _ _ ⟨⟩
    exact ⟨rfl, by rw [streams, Streams.stream?_add_self]⟩

/-- Every use is accounted for. -/
theorem step (h : d.Sound ops) (hstep : d.step op = some (report, d')) : d'.Sound (ops ++ [op]) := by
  cases step_effect hstep with
  | opens chunks declared attributes hop streams held =>
    exact (h.idle hop).openBody streams (stock_append held)
  | makes c bytes hop payload streams held =>
    refine (h.idle hop).add (by rw [streams]) (stock_append held) ?_ nofun
    exact congrArg Payload.backing? payload
  | clones i x copy hop found payload streams held =>
    obtain ⟨source, hstock⟩ := stock_of_live? found
    refine (h.idle hop).add (by rw [streams]) (stock_append held) ?_ nofun
    exact ⟨(List.getElem?_eq_some_iff.mp hstock).1, source, payload ▸ hstock⟩
  | restamps i c stamp restamp found streams held =>
    refine Sound.same (h.idle (by rw [restamp]; rfl)) (by rw [streams]) (stock_modify found held ?_)
    exact fun _ _ => ⟨rfl, rfl⟩
  | reads i x subject found streams held =>
    obtain ⟨source, hstock⟩ := stock_of_live? found
    exact (h.use subject hstock).same streams (congrArg (List.map _) held)
  | copies i x c bytes subject found streams payload held =>
    obtain ⟨source, hstock⟩ := stock_of_live? found
    refine (h.use subject hstock).add streams (stock_append held) ?_ nofun
    exact congrArg Payload.backing? payload
  | usesUp i x last found streams held =>
    obtain ⟨source, hstock⟩ := stock_of_live? found
    refine Sound.same (h.use (by rw [last]; rfl) hstock) streams ?_
    exact stock_modify found held fun y hy => ⟨congrArg Handle.payload hy, rfl⟩

/-- And so is any sequence of uses. -/
theorem run {before after : List HandleOp} (h : d.Sound before) (hrun : d.run after = some d') :
    d'.Sound (before ++ after) := by
  induction after generalizing d before with
  | nil =>
    cases hrun
    rwa [List.append_nil]
  | cons op after ih =>
    obtain ⟨⟨report, next⟩, hstep, hrest⟩ := Option.bind_eq_some_iff.mp hrun
    have hnext := ih (h.step hstep) hrest
    rwa [List.append_assoc] at hnext

/-- Who is backed by a stream descends from a body that was opened with it. -/
theorem exists_descends (h : d.Sound ops) {p : Payload} {source : HandleSource}
    (found : d.stock[i]? = some (p, source)) (hn : p.backing? = some n) :
    ∃ r chunks, d.Descends i r ∧ d.Opened r p chunks := by
  induction i using Nat.strongRecOn generalizing source with
  | _ i ih =>
    have hfits := h.fits i p source found
    cases source with
    | opened chunks => exact ⟨i, chunks, .opened found, found⟩
    | made => exact absurd (hfits.symm.trans hn) nofun
    | read j => exact absurd (hfits.symm.trans hn) nofun
    | cloned j =>
      obtain ⟨hlt, source, horiginal⟩ := hfits
      obtain ⟨r, chunks, hdescends, hopened⟩ := ih j hlt horiginal
      exact ⟨r, chunks, .cloned found hdescends, hopened⟩

/-- A descendant has the payload of the body that it descends from. -/
theorem opened_of_descends (h : d.Sound ops) {r : Nat} (hdescends : d.Descends i r) :
    ∃ p source chunks, d.stock[i]? = some (p, source) ∧ d.Opened r p chunks := by
  induction hdescends with
  | opened found => exact ⟨_, _, _, found, found⟩
  | cloned found _ ih =>
    obtain ⟨p, source, chunks, hstock, hopened⟩ := ih
    obtain ⟨-, source', hstock'⟩ := h.fits _ _ _ found
    obtain ⟨rfl, -⟩ := Prod.mk.inj (Option.some.inj (hstock'.symm.trans hstock))
    exact ⟨_, _, chunks, found, hopened⟩

/-- Two handles are backed by one stream exactly if they descend from one body. -/
theorem sharesStream_iff (h : d.Sound ops) {j : Nat} {p q : Payload} {source source' : HandleSource}
    (hi : d.stock[i]? = some (p, source)) (hj : d.stock[j]? = some (q, source')) :
    p.sharesStream q = true ↔ ∃ r, d.Descends i r ∧ d.Descends j r := by
  rw [Payload.sharesStream_iff]
  constructor
  · rintro ⟨n, hp, hq⟩
    obtain ⟨r, chunks, hir, hr⟩ := h.exists_descends hi hp
    obtain ⟨r', chunks', hjr, hr'⟩ := h.exists_descends hj hq
    obtain rfl := h.apart r r' n p q chunks chunks' hr hr' hp hq
    exact ⟨r, hir, hjr⟩
  · rintro ⟨r, hir, hjr⟩
    obtain ⟨p', _, chunks, hi', hr⟩ := h.opened_of_descends hir
    obtain ⟨q', _, _, hj', hr'⟩ := h.opened_of_descends hjr
    obtain ⟨rfl, -⟩ := Prod.mk.inj (Option.some.inj (hi.symm.trans hi'))
    obtain ⟨rfl, -⟩ := Prod.mk.inj (Option.some.inj (hj.symm.trans hj'))
    obtain ⟨rfl, -⟩ := Prod.mk.inj (Option.some.inj (hr.symm.trans hr'))
    obtain ⟨n, hn⟩ := Option.isSome_iff_exists.mp (h.fits r p (.opened chunks) hr)
    exact ⟨n, hn, hn⟩

end Sound

/-! ## What an operation reports -/

/-- One of the operations needed the stream. -/
def Used (d : Holdings) (ops : List HandleOp) (n : Nat) : Prop :=
  ∃ op ∈ ops, d.Needs op n

/-- A stream is consumed exactly if one of its handles was used. -/
theorem Sound.isConsumed_iff (h : d.Sound ops) {source : HandleSource} {body : RemoteBody}
    (found : d.stock[i]? = some (.streaming body, source)) :
    d.streams.isConsumed body = true ↔ d.Used ops body.stream := by
  rw [Streams.isConsumed_iff]
  constructor
  · intro hnone
    obtain ⟨r, chunks, -, hopened⟩ := h.exists_descends found rfl
    refine Classical.not_not.mp fun hunused => ?_
    have hthere := h.unread r body.stream _ chunks hopened rfl fun op hop hneed =>
      hunused ⟨op, hop, hneed⟩
    exact absurd (hthere.symm.trans hnone) nofun
  · rintro ⟨op, hop, hneed⟩
    exact h.gone op hop _ hneed

end Holdings

/-- The handle is one of those that the operation is there for. -/
def Handle.Allows (h : Handle) (op : HandleOp) : Prop :=
  (op.forContent = true → ∃ c, h = .content c) ∧
    (op.forBody = true → ∃ body, h.payload = .streaming body)

namespace HandleOp

/-- What is reported about a payload as the streams are found. New handles are numbered from `next`
on. -/
def reportOf (op : HandleOp) (p : Payload) (s : Streams) (next : Nat) : HandleReport :=
  match op with
  | readAll _ | intoBytes _ => .bytes (p.readAll s).1
  | readLimited _ limit => .bounded (p.readLimited limit s).1
  | materialize _ => .copy ((p.readAll s).1.map fun _ => next)
  | take _ =>
    match p with
    | .streaming body => .pieces (s.take body).1
    | .buffered _ => .done
  | release _ => .released (p.release s).1
  | _ => .done

/-- The report of an operation that gets the stream behind a payload, with these pieces. -/
def Obtains (op : HandleOp) (p : Payload) (chunks : List Chunk) (next : Nat) (report : HandleReport) :
    Prop :=
  match op with
  | readAll _ | intoBytes _ => report = .bytes (Chunk.readAll chunks)
  | readLimited _ limit =>
    p.TooLong limit ∧ report = .bounded (.ok none) ∨
      ¬ p.TooLong limit ∧ report = .bounded (Chunk.bounded limit chunks)
  | materialize _ => report = .copy ((Chunk.readAll chunks).map fun _ => next)
  | take _ => report = .pieces (some chunks)
  | release _ => report = .released true
  | _ => False

/-- The report of an operation that comes too late. -/
def Refused (op : HandleOp) (p : Payload) (report : HandleReport) : Prop :=
  match op with
  | readAll _ | intoBytes _ => report = .bytes (.error .consumed)
  | readLimited _ limit =>
    report = .bounded (.error .consumed) ∨ p.TooLong limit ∧ report = .bounded (.ok none)
  | materialize _ => report = .copy (.error .consumed)
  | take _ => report = .pieces none
  | release _ => report = .released false
  | _ => False

/-- The report about bytes in memory. -/
def InMemory (op : HandleOp) (bytes : Bytes) (next : Nat) (report : HandleReport) : Prop :=
  match op with
  | readAll _ | intoBytes _ => report = .bytes (.ok bytes)
  | readLimited _ limit => report = .bounded (.ok (if limit < bytes.length then none else some bytes))
  | materialize _ => report = .copy (.ok next)
  | release _ => report = .released false
  | _ => False

variable {op : HandleOp} {i next : Nat} {body : RemoteBody} {s : Streams}

/-- The use of an open stream obtains all its bytes, or its failure. -/
theorem obtains_reportOf {chunks : List Chunk} (hop : op.subject? = some i)
    (there : s.stream? body.stream = some chunks) :
    op.Obtains (.streaming body) chunks next (op.reportOf (.streaming body) s next) := by
  have hread : ((Payload.streaming body).readAll s).1 = Chunk.readAll chunks :=
    Payload.readAll_of_pieces there
  have htake : (s.take body).1 = some chunks := there
  cases op with
  | readAll => exact congrArg HandleReport.bytes hread
  | intoBytes => exact congrArg HandleReport.bytes hread
  | readLimited i limit =>
    by_cases hlong : (Payload.streaming body).TooLong limit
    · exact .inl ⟨hlong, by rw [reportOf, Payload.readLimited_of_tooLong hlong]⟩
    · exact .inr ⟨hlong, congrArg HandleReport.bounded (Payload.readLimited_of_pieces hlong there)⟩
  | materialize => rw [Obtains, reportOf, hread]
  | take => rw [Obtains, reportOf, htake]
  | release =>
    change HandleReport.released (s.take body).1.isSome = _
    rw [htake]
    rfl
  | _ => contradiction

/-- The use of a stream that is gone is refused. -/
theorem refused_reportOf (hop : op.subject? = some i) (gone : s.stream? body.stream = none) :
    op.Refused (.streaming body) (op.reportOf (.streaming body) s next) := by
  have hread : ((Payload.streaming body).readAll s).1 = .error .consumed := by
    rw [Payload.readAll_streaming, gone]
  have htake : (s.take body).1 = none := gone
  cases op with
  | readAll => exact congrArg HandleReport.bytes hread
  | intoBytes => exact congrArg HandleReport.bytes hread
  | readLimited i limit =>
    by_cases hlong : (Payload.streaming body).TooLong limit
    · exact .inr ⟨hlong, by rw [reportOf, Payload.readLimited_of_tooLong hlong]⟩
    · refine .inl (congrArg HandleReport.bounded ?_)
      rw [Payload.readLimited_of_gone hlong gone]
  | materialize => rw [Refused, reportOf, hread]; rfl
  | take => rw [Refused, reportOf, htake]
  | release =>
    change HandleReport.released (s.take body).1.isSome = _
    rw [htake]
    rfl
  | _ => contradiction

/-- Bytes in memory are handed out at every use. -/
theorem inMemory_reportOf {bytes : Bytes} (hop : op.subject? = some i) (kept : op.forBody = false) :
    op.InMemory bytes next (op.reportOf (.buffered bytes) s next) := by
  cases op with
  | readAll => rfl
  | intoBytes => rfl
  | readLimited i limit =>
    by_cases hfits : limit < bytes.length
    · simp [InMemory, reportOf, Payload.readLimited, Payload.length?, hfits]
    · simp [InMemory, reportOf, Payload.readLimited, Payload.length?, hfits]
  | materialize => rfl
  | take => contradiction
  | release => rfl
  | _ => contradiction

end HandleOp

namespace Holdings

variable {d d' : Holdings} {op : HandleOp} {report : HandleReport} {i : Nat} {h : Handle} {c : Content}
  {body : RemoteBody}

/-- Content that can be read makes a copy in memory. -/
theorem step_materialize_ok (hcontent : d.content? i = some c) {bytes : Bytes}
    (read : (c.payload.readAll d.streams).1 = .ok bytes) :
    d.step (.materialize i) = some (.copy (.ok d.held.length),
      { d with streams := (c.payload.readAll d.streams).2 }.hold
        (.content ⟨.buffered bytes, c.attributes⟩) (.read i)) := by
  rw [step, hcontent, Option.bind_eq_bind, Option.bind_some, Content.materialize_eq, read]
  rfl

/-- A copy that cannot be read leaves the handle where it was, and takes the stream. -/
theorem step_materialize_error (hcontent : d.content? i = some c) {fault : ReadFault}
    (read : (c.payload.readAll d.streams).1 = .error fault) :
    d.step (.materialize i) = some (.copy (.error fault),
      { d with streams := (c.payload.readAll d.streams).2 }) := by
  rw [step, hcontent, Option.bind_eq_bind, Option.bind_some, Content.materialize_eq, read]
  rfl

/-- An operation on a handle that allows it goes through, and reports about the payload. -/
theorem step_of_live (hlive : d.live? i = some h) (allows : h.Allows op)
    (subject : op.subject? = some i) :
    ∃ next, d.step op = some (op.reportOf h.payload d.streams d.held.length, next) := by
  have hfind : op.forContent = true → ∃ c, d.content? i = some c ∧ h = .content c := by
    intro hop
    obtain ⟨c, rfl⟩ := allows.1 hop
    exact ⟨c, content?_eq_some.mpr hlive, rfl⟩
  cases op with
  | readAll i =>
    cases subject
    exact ⟨_, by rw [step, hlive]; rfl⟩
  | readLimited i limit =>
    cases subject
    exact ⟨_, by rw [step, hlive]; rfl⟩
  | materialize i =>
    cases subject
    obtain ⟨c, hcontent, rfl⟩ := hfind rfl
    rw [HandleOp.reportOf, Handle.payload]
    cases hread : (c.payload.readAll d.streams).1 with
    | error fault => exact ⟨_, step_materialize_error hcontent hread⟩
    | ok bytes => exact ⟨_, step_materialize_ok hcontent hread⟩
  | take i =>
    cases subject
    obtain ⟨body, hpayload⟩ := allows.2 rfl
    refine ⟨{ d with streams := (d.streams.take body).2 }, ?_⟩
    rw [step, hlive, Option.bind_eq_bind, Option.bind_some, hpayload]
    rfl
  | release i =>
    cases subject
    exact ⟨_, by rw [HandleOp.reportOf, ← h.release_eq, step, hlive]; rfl⟩
  | intoBytes i =>
    cases subject
    obtain ⟨c, hcontent, rfl⟩ := hfind rfl
    exact ⟨_, by rw [step, hcontent]; rfl⟩
  | _ => contradiction

/-! ## What an operation leaves alone -/

/-- Content keeps its payload until it is used up, and its attributes until it gets a stamp. -/
theorem content_of_step (hstep : d.step op = some (report, d')) (hcontent : d.content? i = some c)
    (kept : op ≠ .intoBytes i) : ∃ c', d'.content? i = some c' ∧ c'.payload = c.payload ∧
      ((∀ stamp, op ≠ .restamp i stamp) → c'.attributes = c.attributes) := by
  obtain ⟨x, hx, hlive, hhandle⟩ := live?_eq_some.mp (content?_eq_some.mp hcontent)
  have hsame : d'.held[i]? = some x → ∃ c', d'.content? i = some c' ∧ c'.payload = c.payload ∧
      ((∀ stamp, op ≠ .restamp i stamp) → c'.attributes = c.attributes) := fun hx' =>
    ⟨c, content?_eq_some.mpr (live?_eq_some.mpr ⟨x, hx', hlive, hhandle⟩), rfl, fun _ => rfl⟩
  have happend : ∀ y, d'.held = d.held ++ [y] → d'.held[i]? = some x := by
    intro y held
    rw [held, List.getElem?_append_left (List.getElem?_eq_some_iff.mp hx).1, hx]
  cases step_effect hstep with
  | opens chunks declared attributes hop streams held => exact hsame (happend _ held)
  | makes made bytes hop payload streams held => exact hsame (happend _ held)
  | clones j y copy hop found payload streams held => exact hsame (happend _ held)
  | copies j y copy bytes subject found streams payload held => exact hsame (happend _ held)
  | reads j y subject found streams held => exact hsame (held ▸ hx)
  | usesUp j y last found streams held =>
    have hj : j ≠ i := by
      rintro rfl
      exact kept last
    refine hsame ?_
    rw [held, List.getElem?_modify_ne _ _ hj, hx]
  | restamps j c' stamp restamp found streams held =>
    by_cases hj : j = i
    · subst hj
      obtain rfl : c = c' := Option.some.inj (hcontent.symm.trans (content?_eq_some.mpr found))
      refine ⟨c.withStamp stamp, content?_eq_some.mpr (live?_eq_some.mpr ?_), rfl,
        fun hnever => absurd restamp (hnever stamp)⟩
      refine ⟨{ x with handle := .content (c.withStamp stamp) }, ?_, hlive, rfl⟩
      rw [held, List.getElem?_modify_eq, hx]
      rfl
    · refine hsame ?_
      rw [held, List.getElem?_modify_ne _ _ hj, hx]

/-- Content stays what it is until it is given away. -/
theorem content_of_run {ops : List HandleOp} (hrun : d.run ops = some d')
    (hcontent : d.content? i = some c) (kept : .intoBytes i ∉ ops) :
    ∃ c', d'.content? i = some c' ∧ c'.payload = c.payload ∧
      ((∀ stamp, .restamp i stamp ∉ ops) → c'.attributes = c.attributes) := by
  induction ops generalizing d c with
  | nil =>
    cases hrun
    exact ⟨c, hcontent, rfl, fun _ => rfl⟩
  | cons op ops ih =>
    obtain ⟨⟨report, next⟩, hstep, hrest⟩ := Option.bind_eq_some_iff.mp hrun
    have hhere : op ≠ .intoBytes i := fun heq => kept (heq ▸ List.mem_cons_self)
    obtain ⟨c₁, hcontent₁, hpayload₁, hattributes₁⟩ := content_of_step hstep hcontent hhere
    obtain ⟨c₂, hcontent₂, hpayload₂, hattributes₂⟩ := ih hrest hcontent₁ fun hmem =>
      kept (List.mem_cons_of_mem _ hmem)
    refine ⟨c₂, hcontent₂, hpayload₂.trans hpayload₁, fun hnever => ?_⟩
    rw [hattributes₂ fun stamp hmem => hnever stamp (List.mem_cons_of_mem _ hmem),
      hattributes₁ fun stamp heq => hnever stamp (heq ▸ List.mem_cons_self)]

/-- What is in stock stays. -/
theorem stock_of_step (hstep : d.step op = some (report, d')) :
    ∃ added? : Option (Payload × HandleSource), d'.stock = d.stock ++ added?.toList := by
  have hsame : d'.stock = d.stock → ∃ added? : Option (Payload × HandleSource),
      d'.stock = d.stock ++ added?.toList := fun hstock => ⟨none, by simp [hstock]⟩
  cases step_effect hstep with
  | opens chunks declared attributes hop streams held => exact ⟨some _, stock_append held⟩
  | makes made bytes hop payload streams held => exact ⟨some _, stock_append held⟩
  | clones j y copy hop found payload streams held => exact ⟨some _, stock_append held⟩
  | copies j y copy bytes subject found streams payload held => exact ⟨some _, stock_append held⟩
  | reads j y subject found streams held => exact hsame (congrArg (List.map _) held)
  | usesUp j y last found streams held =>
    exact hsame (stock_modify found held fun x hx => ⟨congrArg Handle.payload hx, rfl⟩)
  | restamps j c' stamp restamp found streams held =>
    exact hsame (stock_modify found held fun _ _ => ⟨rfl, rfl⟩)

/-- A stream that was used stays used. -/
theorem Used.run {before after : List HandleOp} {n : Nat} (used : d.Used before n)
    (hrun : d.run after = some d') : d'.Used (before ++ after) n := by
  induction after generalizing d before with
  | nil =>
    cases hrun
    rwa [List.append_nil]
  | cons op after ih =>
    obtain ⟨⟨report, next⟩, hstep, hrest⟩ := Option.bind_eq_some_iff.mp hrun
    obtain ⟨added?, stock⟩ := stock_of_step hstep
    obtain ⟨first, hfirst, i, hi, hn⟩ := used
    have hnext : next.Used (before ++ [op]) n := by
      refine ⟨first, List.mem_append_left _ hfirst, i, hi, ?_⟩
      rw [backing?_of_append stock (lt_length_of_backing? hn), hn]
    rw [List.append_cons]
    exact ih hnext hrest

/-! ## The main statement -/

/-- An operation gets the stream that it needs, as it was opened, if it is the first one. -/
theorem Sound.obtains_or_refused {ops : List HandleOp} (sound : d.Sound ops) (subject : op.subject? = some i)
    (hlive : d.live? i = some h) (hpayload : h.payload = .streaming body) (allows : h.Allows op) :
    ∃ r chunks report next, d.Descends i r ∧ d.Opened r h.payload chunks ∧
      d.step op = some (report, next) ∧
      (¬ d.Used ops body.stream ∧ op.Obtains h.payload chunks d.held.length report ∨
        d.Used ops body.stream ∧ op.Refused h.payload report) := by
  obtain ⟨source, hstock⟩ := stock_of_live? hlive
  rw [hpayload] at hstock
  obtain ⟨r, chunks, hdescends, hopened⟩ := sound.exists_descends hstock rfl
  obtain ⟨next, hstep⟩ := step_of_live hlive allows subject
  rw [hpayload] at hstep ⊢
  refine ⟨r, chunks, _, next, hdescends, hopened, hstep, ?_⟩
  by_cases hused : d.Used ops body.stream
  · have hgone := Streams.isConsumed_iff.mp ((sound.isConsumed_iff hstock).mpr hused)
    exact .inr ⟨hused, HandleOp.refused_reportOf subject hgone⟩
  · have hthere := sound.unread r body.stream _ chunks hopened rfl fun op hop hneed =>
      hused ⟨op, hop, hneed⟩
    exact .inl ⟨hused, HandleOp.obtains_reportOf subject hthere⟩

/-- Content in memory is read whatever was done before. -/
theorem inMemory_of_run {ops : List HandleOp} (hrun : d.run ops = some d') {bytes : Bytes}
    (hcontent : d.content? i = some c) (hpayload : c.payload = .buffered bytes)
    (kept : .intoBytes i ∉ ops) : ∃ c', d'.content? i = some c' ∧ c'.payload = .buffered bytes ∧
      ((∀ stamp, .restamp i stamp ∉ ops) → c'.attributes = c.attributes) ∧
      ∀ op, op.subject? = some i → op.forBody = false → ∃ report next,
        d'.step op = some (report, next) ∧ op.InMemory bytes d'.held.length report := by
  obtain ⟨c', hcontent', hpayload', hattributes⟩ := content_of_run hrun hcontent kept
  rw [hpayload] at hpayload'
  refine ⟨c', hcontent', hpayload', hattributes, fun op subject hop => ?_⟩
  have allows : (Handle.content c').Allows op :=
    ⟨fun _ => ⟨c', rfl⟩, fun hbody => absurd (hop.symm.trans hbody) nofun⟩
  obtain ⟨next, hstep⟩ := step_of_live (content?_eq_some.mp hcontent') allows subject
  rw [Handle.payload, hpayload'] at hstep
  exact ⟨_, next, hstep, HandleOp.inMemory_reportOf subject hop⟩

/-- The copy of content that is read into memory is content in memory, with the same attributes. -/
theorem content_of_materialize {k : Nat} {next : Holdings} (hcontent : d.content? i = some c)
    (hstep : d.step (.materialize i) = some (.copy (.ok k), next)) :
    k = d.held.length ∧ ∃ bytes, (c.payload.readAll d.streams).1 = .ok bytes ∧
      next.content? k = some ⟨.buffered bytes, c.attributes⟩ := by
  cases hread : (c.payload.readAll d.streams).1 with
  | error fault =>
    rw [step_materialize_error hcontent hread] at hstep
    cases hstep
  | ok bytes =>
    rw [step_materialize_ok hcontent hread] at hstep
    cases hstep
    refine ⟨rfl, bytes, rfl, content?_eq_some.mpr (live?_eq_some.mpr ?_)⟩
    exact ⟨{ handle := .content ⟨.buffered bytes, c.attributes⟩, source := .read i },
      List.getElem?_concat_length, rfl, rfl⟩

/-- **Once for all.** Handles came about and were read and given up in any order, and then again.

* An operation that needs a stream gets it, with all the pieces that the body was opened with, if it is
  the first one. Otherwise it is refused.
* Once an operation has needed a stream, every handle that it backs is consumed, for ever, and only then.
* Two handles are backed by one stream exactly if they descend by clones from one body.
* Content in memory gives its bytes at every reading until it is used up itself, and keeps its attributes
  until it gets a stamp itself.
* Content that is read into memory becomes content of that kind, with its own attributes. -/
theorem shared_once {before after : List HandleOp} (hbefore : ({} : Holdings).run before = some d)
    (hafter : d.run after = some d') :
    (∀ op i h body, op.subject? = some i → d.live? i = some h → h.payload = .streaming body →
      h.Allows op → ∃ r chunks report next, d.Descends i r ∧ d.Opened r h.payload chunks ∧
        d.step op = some (report, next) ∧
        (¬ d.Used before body.stream ∧ op.Obtains h.payload chunks d.held.length report ∨
          d.Used before body.stream ∧ op.Refused h.payload report)) ∧
    (∀ i h body, d'.live? i = some h → h.payload = .streaming body →
      (d.Used before body.stream → d'.streams.isConsumed body = true) ∧
      (d'.streams.isConsumed body = true ↔ d'.Used (before ++ after) body.stream)) ∧
    (∀ i j a b, d'.live? i = some a → d'.live? j = some b →
      (a.payload.sharesStream b.payload = true ↔ ∃ r, d'.Descends i r ∧ d'.Descends j r)) ∧
    (∀ i c bytes, d.content? i = some c → c.payload = .buffered bytes → .intoBytes i ∉ after →
      ∃ c', d'.content? i = some c' ∧ c'.payload = .buffered bytes ∧
        ((∀ stamp, .restamp i stamp ∉ after) → c'.attributes = c.attributes) ∧
        ∀ op, op.subject? = some i → op.forBody = false → ∃ report next,
          d'.step op = some (report, next) ∧ op.InMemory bytes d'.held.length report) ∧
    (∀ i c k next, d.content? i = some c → d.step (.materialize i) = some (.copy (.ok k), next) →
      k = d.held.length ∧ ∃ bytes, (c.payload.readAll d.streams).1 = .ok bytes ∧
        next.content? k = some ⟨.buffered bytes, c.attributes⟩) := by
  have hd : d.Sound before := Sound.empty.run hbefore
  have hd' : d'.Sound (before ++ after) := hd.run hafter
  refine ⟨?_, ?_, ?_, ?_, ?_⟩
  · intro op i h body subject hlive hpayload allows
    exact hd.obtains_or_refused subject hlive hpayload allows
  · intro i h body hlive hpayload
    obtain ⟨source, hstock⟩ := stock_of_live? hlive
    rw [hpayload] at hstock
    exact ⟨fun hused => (hd'.isConsumed_iff hstock).mpr (hused.run hafter), hd'.isConsumed_iff hstock⟩
  · intro i j a b ha hb
    obtain ⟨source, hi⟩ := stock_of_live? ha
    obtain ⟨source', hj⟩ := stock_of_live? hb
    exact hd'.sharesStream_iff hi hj
  · intro i c bytes hcontent hpayload kept
    exact inMemory_of_run hafter hcontent hpayload kept
  · intro i c k next hcontent hstep
    exact content_of_materialize hcontent hstep

/-- Content around a body, a clone of it and an answer with a clone of the payload. The body is read from
the answer. -/
def threeHandles : List HandleOp :=
  [.openBody [.data [1], .data [2]] none {}, .clone 0, .attach 1 { status := 200 }, .readAll 2]

/-- What they come to. -/
def threeHeld : Holdings where
  streams := { open? := [none], pulled := [(0, .data [1]), (0, .data [2])] }
  held := [
    { handle := .content ⟨.streaming ⟨0, none⟩, {}⟩, source := .opened [.data [1], .data [2]] },
    { handle := .content ⟨.streaming ⟨0, none⟩, {}⟩, source := .cloned 0 },
    { handle := .answer { status := 200 } (.streaming ⟨0, none⟩), source := .cloned 1 }]

/-- The content comes too late to give the body up, and its clone to be read into memory. -/
theorem threeHandles_too_late : ({} : Holdings).run threeHandles = some threeHeld ∧
    threeHeld.run [.release 0] = some threeHeld ∧
    (∃ next, threeHeld.step (.materialize 1) = some (.copy (.error .consumed), next)) ∧
    threeHeld.streams.isConsumed ⟨0, none⟩ = true := by
  have hrun : ({} : Holdings).run threeHandles = some threeHeld := rfl
  have hlater : threeHeld.run [.release 0] = some threeHeld := rfl
  have hused : threeHeld.Used threeHandles 0 := ⟨.readAll 2, by simp [threeHandles], 2, rfl, rfl⟩
  obtain ⟨hfirst, hconsumed, -⟩ := shared_once hrun hlater
  refine ⟨hrun, hlater, ?_, (hconsumed 0 _ ⟨0, none⟩ rfl rfl).1 hused⟩
  obtain ⟨r, chunks, report, next, -, -, hstep, ⟨hunused, -⟩ | ⟨-, hrefused⟩⟩ :=
    hfirst (.materialize 1) 1 _ ⟨0, none⟩ rfl rfl rfl ⟨fun _ => ⟨_, rfl⟩, nofun⟩
  · exact absurd hused hunused
  · cases hrefused
    exact ⟨next, hstep⟩

end Holdings

end PullCache
