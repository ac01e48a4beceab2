import Mathlib.Algebra.GroupWithZero.Nat
import PullCache.Proofs.Lists
import PullCache.Proofs.Proxy.Sharing
/-!
# Proofs.Proxy.SingleFetch

How often the origin is asked for one resource. Gets that come in while nothing is cached share one
request, as long as each of them makes its call before the fetch of that request gives up the key.
A get that has seen the store without a copy and makes its call after that leads a fetch of its own,
which does not look at the store again, so the origin is asked once more. This is the exact
condition: `single_fetch_iff` says that the origin is asked once if and only if nobody is late.

Requests, answers and releases are counted along the moves of a scene, against the phases of the
fetches. What is left to do for gets, calls and fetches goes down by one with every step, so all runs
come to rest.
-/

namespace PullCache

/-! ## Weights of phases -/

namespace FetchPhase

/-- Whether the request has been sent. -/
def asked : FetchPhase → Nat
  | recheck | rejudge _ | ask _ => 0
  | _ => 1

/-- Whether the answer is there. -/
def replied : FetchPhase → Nat
  | recheck | rejudge _ | ask _ | waiting .. => 0
  | _ => 1

/-- Whether the key is given up. -/
def released : FetchPhase → Nat
  | closed => 1
  | _ => 0

/-- The steps that are left of a fetch that asks the origin and keeps what it answers. -/
def left : FetchPhase → Nat
  | ask _ => 6
  | waiting .. => 5
  | answered .. => 4
  | storing .. => 3
  | ended _ => 2
  | published => 1
  | _ => 0

end FetchPhase

/-- The steps that are left of a get and, if it has not made its call, of a fetch for it. -/
def GetPhase.left : GetPhase → Nat
  | lookUp => 10
  | judge _ => 9
  | enter _ => 8
  | _ => 0

/-- The step that is left of a call. -/
def CallPhase.left {α : Type} (phase : CallPhase α) : Nat :=
  if phase.isLive then 1 else 0

namespace Proxy

/-! ## What is counted about a run -/

/-- A request is sent to the origin. -/
def isAsk : ProxyEvent → Bool
  | .ask _ => true
  | _ => false

/-- How often the origin is asked. -/
def asks (events : List ProxyEvent) : Nat := events.countP isAsk

def reply? : ProxyEvent → Option Reply
  | .answer _ (.ok reply) => some reply
  | _ => none

/-- The answers of the origin, in order. -/
def replies (events : List ProxyEvent) : List Reply := events.filterMap reply?

/-- A fetch gives up the key. -/
def isRelease : ProxyEvent → Bool
  | .release _ => true
  | _ => false

/-- A get makes its call. -/
def isEnter : ProxyEvent → Bool
  | .enter _ => true
  | _ => false

/-- Something goes on, apart from new gets and from time. -/
def isWork : ProxyEvent → Bool
  | .request _ | .tick _ => false
  | _ => true

/-- No get makes its call after a fetch has given up the key. -/
def NobodyLate (events : List ProxyEvent) : Prop :=
  events.Pairwise fun before after => ¬(isRelease before = true ∧ isEnter after = true)

/-- Nothing is left to be done, whatever answer the origin might still give. -/
def AtRest (capacity : Nat) (r : Resource) (p : Proxy MemoryStore) : Prop :=
  ∀ e, isWork e = true → Undisturbed capacity r e → p.step MemoryStore.ops e = none

theorem nobodyLate_concat {events : List ProxyEvent} {e : ProxyEvent} :
    NobodyLate (events ++ [e]) ↔
      NobodyLate events ∧ (isEnter e = true → events.countP isRelease = 0) := by
  rw [NobodyLate, List.pairwise_append, List.countP_eq_zero]
  simp only [List.pairwise_singleton, true_and, List.mem_singleton, forall_eq]
  refine and_congr_right fun _ => ⟨fun h he before hb hr => h before hb ⟨hr, he⟩, ?_⟩
  rintro h before hb ⟨hr, he⟩
  exact h he before hb hr

/-! ## Weighing a state -/

/-- The fetches by the weights of their phases. -/
def weigh {σ : Type} (w : FetchPhase → Nat) (p : Proxy σ) : Nat :=
  (p.fetches.map fun fetch => w fetch.phase).sum

/-- The steps that are left at most. -/
def left {σ : Type} (p : Proxy σ) : Nat :=
  p.weigh FetchPhase.left + (p.gets.map fun get => get.phase.left).sum +
    (p.coop.calls.map fun call => call.phase.left).sum

section Left

variable {σ : Type} {p : Proxy σ}

/-- A new get has all its steps to come. -/
theorem left_request (r : Resource) :
    ({ p with gets := p.gets ++ [⟨r, .lookUp⟩] } : Proxy σ).left = p.left + 10 := by
  simp only [left, weigh, sum_map_concat, GetPhase.left]
  omega

/-- A get that moves changes the steps to come by those of its phase. -/
theorem left_setGet {g : Nat} {get : Get} (found : p.gets[g]? = some get) (phase : GetPhase) :
    (p.setGet g phase).left + get.phase.left = p.left + phase.left := by
  have h := sum_map_modify (w := fun get : Get => get.phase.left)
    (f := fun get => { get with phase }) found
  dsimp only at h
  unfold left weigh
  rw [setGet_gets, setGet_fetches, setGet_coop]
  omega

/-- A new fetch has all its steps to come. -/
theorem left_addFetch (place : WorkPlace) (r : Resource) (sharing : Bool) (phase : FetchPhase) :
    (p.addFetch place r sharing phase).left = p.left + phase.left := by
  unfold left weigh
  rw [addFetch_fetches, sum_map_concat, addFetch_gets, addFetch_coop]
  dsimp only
  omega

/-- A fetch that moves changes the steps to come by those of its phase. -/
theorem left_setFetch {i : Nat} {fetch : Fetch} (found : p.fetches[i]? = some fetch)
    (phase : FetchPhase) :
    (p.setFetch i phase).left + fetch.phase.left = p.left + phase.left := by
  have h := sum_map_modify (w := fun fetch : Fetch => fetch.phase.left)
    (f := fun fetch => { fetch with phase }) found
  dsimp only at h
  unfold left weigh
  rw [setFetch_gets, setFetch_fetches, setFetch_coop]
  omega

/-- A new call has the steps to come of its phase. -/
theorem left_call {coop : Cooperation (Option Content)} {call : Call (Option Content)}
    (h : coop.calls = p.coop.calls ++ [call]) :
    ({ p with coop } : Proxy σ).left = p.left + call.phase.left := by
  simp only [left, weigh, h, sum_map_concat]
  omega

/-- A call that stops to wait changes the steps to come by those of its phase. -/
theorem left_leave {c : Nat} {call : Call (Option Content)} (found : p.coop.calls[c]? = some call)
    (phase : CallPhase (Option Content)) :
    ({ p with coop := p.coop.leave c call.phase phase } : Proxy σ).left + call.phase.left =
      p.left + phase.left := by
  have h := sum_map_modify (w := fun call : Call (Option Content) => call.phase.left)
    (f := fun call => { call with phase }) found
  dsimp only at h
  simp only [left, weigh, Cooperation.leave_calls]
  omega

end Left

end Proxy

namespace Scene

variable {S : Scene} {p p' : Proxy MemoryStore} {e : ProxyEvent} {events : List ProxyEvent}

/-- What else changes with a turn of a fetch are no fetches. -/
theorem FetchTurn.fetches {i : Nat} {before after : FetchPhase} {next : Proxy MemoryStore}
    (turn : S.FetchTurn p i before e after next) : next.fetches = p.fetches := by
  rw [turn.frame.1]

/-- A move leaves the weight of the fetches alone and is none of their events that count, or it is a
turn of a fetch, which changes its weight. -/
theorem Move.weigh (move : S.Move p e p') {w : FetchPhase → Nat} (begins : w (.ask none) = 0) :
    p'.weigh w = p.weigh w ∧ Proxy.isAsk e = false ∧ Proxy.reply? e = none ∧
        Proxy.isRelease e = false ∨
      ∃ i before after next, S.FetchTurn p i before e after next ∧
        p'.weigh w + w before = p.weigh w + w after := by
  cases move with
  | @fetch before after e next i found turn =>
    refine .inr ⟨i, before, after, next, turn, ?_⟩
    unfold Proxy.weigh
    rw [Proxy.setFetch_fetches, turn.fetches]
    exact sum_map_modify found
  | lead g call found phase free =>
    refine .inl ⟨?_, rfl, rfl, rfl⟩
    unfold Proxy.weigh
    rw [Proxy.addFetch_fetches, sum_map_concat]
    exact congrArg _ begins
  | get g found turn => cases turn <;> exact .inl ⟨rfl, rfl, rfl, rfl⟩
  | request | follow | deliver | tick => exact .inl ⟨rfl, rfl, rfl, rfl⟩

/-- Every question is asked by a fetch that has not asked before. -/
theorem Move.asks (move : S.Move p e p') :
    p'.weigh FetchPhase.asked = p.weigh FetchPhase.asked + Proxy.asks [e] := by
  obtain ⟨h, hask, -, -⟩ | ⟨i, before, after, next, turn, h⟩ :=
    move.weigh (w := FetchPhase.asked) rfl
  · simp [h, Proxy.asks, hask]
  · cases turn <;> simp_all [FetchPhase.asked, Proxy.asks, Proxy.isAsk]

/-- Every answer goes to a fetch that has none. -/
theorem Move.replies (move : S.Move p e p') :
    p'.weigh FetchPhase.replied =
      p.weigh FetchPhase.replied + (Proxy.replies [e]).length := by
  obtain ⟨h, -, hreply, -⟩ | ⟨i, before, after, next, turn, h⟩ :=
    move.weigh (w := FetchPhase.replied) rfl
  · simp [h, Proxy.replies, hreply]
  · cases turn <;> simp_all [FetchPhase.replied, Proxy.replies, Proxy.reply?]

/-- Every release is that of a fetch that had not released its key. -/
theorem Move.releases (move : S.Move p e p') :
    p'.weigh FetchPhase.released =
      p.weigh FetchPhase.released + [e].countP Proxy.isRelease := by
  obtain ⟨h, -, -, hrelease⟩ | ⟨i, before, after, next, turn, h⟩ :=
    move.weigh (w := FetchPhase.released) rfl
  · simp [h, hrelease]
  · cases turn <;> simp_all [FetchPhase.released, Proxy.isRelease]

/-- With every turn of a fetch, one step less is left of it. -/
theorem FetchTurn.left {i : Nat} {before after : FetchPhase} {next : Proxy MemoryStore}
    (turn : S.FetchTurn p i before e after next) :
    after.left + 1 = before.left ∧ Proxy.isWork e = true := by
  cases turn <;> exact ⟨rfl, rfl⟩

/-- A turn of a get leaves it one step less. -/
theorem GetTurn.left {g : Nat} {before after : GetPhase} (turn : S.GetTurn g before e after) :
    after.left + 1 ≤ before.left ∧ Proxy.isWork e = true := by
  cases turn with
  | found copy brought => exact ⟨Nat.le_refl _, rfl⟩
  | stale => exact ⟨Nat.le_refl _, rfl⟩
  | fresh c brought => exact ⟨Nat.succ_le_succ (Nat.zero_le _), rfl⟩

/-- A get that makes its call leaves eight steps behind, and brings in those of the call. -/
theorem entered_left {g : Nat} (coop : Cooperation (Option Content)) {call : Call (Option Content)}
    (found : p.gets[g]? = some ⟨S.resource, .enter none⟩)
    (calls : coop.calls = p.coop.calls ++ [call]) :
    (({ p with coop } : Proxy MemoryStore).setGet g (.called p.coop.calls.length)).left + 8 =
      p.left + call.phase.left := by
  have hget := Proxy.left_setGet (p := { p with coop }) found (.called p.coop.calls.length)
  rw [Proxy.left_call calls] at hget
  exact hget

/-- What is left to be done goes down with every step, and a new get adds ten steps. -/
theorem Move.left (move : S.Move p e p') :
    [e].countP Proxy.isWork + p'.left + 10 * p.gets.length ≤ p.left + 10 * p'.gets.length := by
  rw [List.countP_singleton]
  cases move with
  | request =>
    rw [Proxy.left_request, List.length_append, List.length_singleton]
    simp only [Proxy.isWork, Bool.false_eq_true, if_false]
    omega
  | @get before after e g found turn =>
    obtain ⟨hleft, hwork⟩ := turn.left
    have h := Proxy.left_setGet found after
    rw [if_pos hwork, Proxy.setGet_gets, List.length_modify]
    dsimp only at h
    omega
  | follow g l call found there phase held =>
    have hcall : call.phase.left = 1 := by rw [phase]; rfl
    have h := entered_left { p.coop.countWaiter l 1 with calls := p.coop.calls ++ [call] } found rfl
    dsimp only at h
    simp only [Proxy.isWork, if_true, Proxy.setGet_gets, List.length_modify]
    omega
  | lead g call found phase free =>
    have hcall : call.phase.left = 1 := by rw [phase]; rfl
    have h := entered_left { p.coop.startLease S.resource.key p.coop.calls.length false with
      calls := p.coop.calls ++ [call] } found rfl
    dsimp only at h
    have hask : (FetchPhase.ask none).left = 6 := rfl
    simp only [Proxy.isWork, if_true, Proxy.addFetch_gets, Proxy.setGet_gets, List.length_modify,
      Proxy.left_addFetch]
    omega
  | deliver g c call content found live brought =>
    have h := Proxy.left_leave found (.returned (.ok (some content)))
    have hcall : call.phase.left = 1 := if_pos live
    have hreturned : (CallPhase.returned (.ok (some content)) : CallPhase (Option Content)).left = 0 :=
      rfl
    simp only [Proxy.isWork, if_true]
    omega
  | @fetch before after e next i found turn =>
    obtain ⟨hleft, hwork⟩ := turn.left
    have hfound : next.fetches[i]? = some ⟨.lease i, S.resource, true, before⟩ :=
      turn.fetches ▸ found
    have h := Proxy.left_setFetch hfound after
    have hnext : next.left = p.left ∧ next.gets = p.gets := by
      obtain ⟨hframe, hcalls, -⟩ := turn.frame
      unfold Proxy.left Proxy.weigh
      rw [turn.fetches, hcalls, hframe]
      exact ⟨rfl, rfl⟩
    rw [if_pos hwork, Proxy.setFetch_gets, hnext.2]
    dsimp only at h
    omega
  | tick nanos => exact Nat.le_of_eq (by simp [Proxy.isWork]; rfl)

/-! ## The tally of a run -/

/-- Keys have been given up exactly if some fetch is over. -/
theorem Works.released_eq_zero {done : Nat} (h : S.Works p done) :
    p.weigh FetchPhase.released = 0 ↔ done = 0 := by
  unfold Proxy.weigh
  rw [List.sum_eq_zero_iff_forall_eq_nat]
  simp only [List.mem_map, forall_exists_index, and_imp, forall_apply_eq_imp_iff₂]
  constructor
  · intro hnone
    by_contra hdone
    have hlt : 0 < p.fetches.length := by
      obtain ⟨-, hlength⟩ | ⟨-, hlength⟩ := h.table
      · omega
      · omega
    have hfirst : p.fetches[0]? = some p.fetches[0] := List.getElem?_eq_getElem hlt
    have hclosed := (h.closed 0 _ hfirst).mpr (Nat.pos_of_ne_zero hdone)
    have hzero := hnone _ (List.mem_of_getElem? hfirst)
    rw [hclosed] at hzero
    contradiction
  · rintro rfl fetch hfetch
    obtain ⟨i, hi⟩ := List.getElem?_of_mem hfetch
    have hopen : fetch.phase ≠ .closed := fun hclosed =>
      Nat.not_lt_zero i ((h.closed i fetch hi).mp hclosed)
    cases hphase : fetch.phase with
    | closed => exact absurd hphase hopen
    | _ => rfl

/-- The events of a run against the phases that its fetches have come to. -/
structure Tally (events : List ProxyEvent) (p : Proxy MemoryStore) : Prop where
  asks : Proxy.asks events = p.weigh FetchPhase.asked
  replies : (Proxy.replies events).length = p.weigh FetchPhase.replied
  releases : events.countP Proxy.isRelease = p.weigh FetchPhase.released
  work : events.countP Proxy.isWork + p.left ≤ 10 * p.gets.length
  late : Proxy.NobodyLate events ↔ p.fetches.length ≤ 1

/-- A get that makes its call leads a new fetch exactly if all others are over. -/
theorem Tally.late_of_move (h : Tally events p) (shared : S.Shared p) (move : S.Move p e p') :
    Proxy.NobodyLate (events ++ [e]) ↔ p'.fetches.length ≤ 1 := by
  obtain ⟨done, hworks⟩ := shared.works
  have hdone : events.countP Proxy.isRelease = 0 ↔ done = 0 := by
    rw [h.releases]
    exact hworks.released_eq_zero
  rw [Proxy.nobodyLate_concat, h.late]
  cases move with
  | follow g l call found there phase held =>
    have hlength : p.fetches.length = done + 1 := by
      obtain ⟨hempty, -⟩ | ⟨-, hlength⟩ := hworks.table
      · exact absurd hempty held
      · exact hlength
    simp only [Proxy.isEnter, true_implies, hdone, Proxy.setGet_fetches, hlength]
    omega
  | lead g call found phase free =>
    have hlength : p.fetches.length = done := by
      obtain ⟨-, hlength⟩ | ⟨hheld, -⟩ := hworks.table
      · exact hlength
      · simp [free] at hheld
    simp only [Proxy.isEnter, true_implies, hdone, Proxy.addFetch_fetches, Proxy.setGet_fetches,
      List.length_append, List.length_singleton, hlength]
    omega
  | get g found turn => cases turn <;> simp [Proxy.isEnter]
  | fetch i found turn =>
    rw [Proxy.setFetch_fetches, List.length_modify, turn.fetches]
    cases turn <;> simp [Proxy.isEnter]
  | request | deliver | tick => simp [Proxy.isEnter]

/-- The tally is right after every move. -/
theorem Tally.of_move (h : Tally events p) (shared : S.Shared p) (move : S.Move p e p') :
    Tally (events ++ [e]) p' where
  asks := by
    have hsplit : Proxy.asks (events ++ [e]) = Proxy.asks events + Proxy.asks [e] :=
      List.countP_append
    rw [hsplit, h.asks, move.asks]
  replies := by
    have hsplit : Proxy.replies (events ++ [e]) = Proxy.replies events ++ Proxy.replies [e] :=
      List.filterMap_append
    rw [hsplit, List.length_append, h.replies, move.replies]
  releases := by rw [List.countP_append, h.releases, move.releases]
  work := by
    have hleft := move.left
    have hwork := h.work
    rw [List.countP_append]
    omega
  late := h.late_of_move shared move

/-- After a run that nothing disturbs, the proxy is in the middle of its scene. -/
theorem shared_of_run (idle : Idle S.start S.resource) {q : Proxy MemoryStore}
    (hrun : S.start.run MemoryStore.ops events = some q)
    (plain : ∀ e ∈ events, Undisturbed S.capacity S.resource e)
    (replies : ∀ reply ∈ Proxy.replies events, reply ∈ S.replies) (young : S.Young q) :
    S.Shared q ∧ Tally events q := by
  have hall := Proxy.run_invariant (p := S.start)
    (I := fun events q => (∀ e ∈ events, Undisturbed S.capacity S.resource e) →
      (∀ reply ∈ Proxy.replies events, reply ∈ S.replies) → S.Young q →
      S.Shared q ∧ Tally events q) ?_ ?_ hrun
  · exact hall plain replies young
  · intro _ _ _
    refine ⟨shared_start idle, ?_⟩
    constructor <;> simp [Proxy.asks, Proxy.weigh, Proxy.left, Proxy.replies, Proxy.NobodyLate,
      idle.gets, idle.fetches, idle.coop]
  · intro events q q' e _ hbefore hstep plain replies young
    have hyoung : S.Young q := by
      have hnow := Proxy.now_le_of_step hstep
      unfold Young at young ⊢
      omega
    have hsplit : Proxy.replies (events ++ [e]) = Proxy.replies events ++ Proxy.replies [e] :=
      List.filterMap_append
    obtain ⟨hshared, htally⟩ := hbefore (fun e he => plain e (List.mem_append_left _ he))
      (fun reply hr => replies reply (hsplit ▸ List.mem_append_left _ hr)) hyoung
    have hmove := hshared.move idle hyoung (plain e (by simp))
      (fun i reply he => replies reply (by rw [hsplit, he]; simp [Proxy.replies, Proxy.reply?]))
      hstep
    exact ⟨hshared.of_move hmove, htally.of_move hshared hmove⟩

/-! ## Rest -/

variable {i g : Nat} {q : Proxy MemoryStore}

/-- A fetch that is not over can go on. -/
theorem Shared.fetch_progress (h : S.Shared p) (idle : Idle S.start S.resource) {fetch : Fetch}
    (hi : p.fetches[i]? = some fetch) (on : fetch.phase ≠ .closed) :
    ∃ e, Proxy.isWork e = true ∧ Undisturbed S.capacity S.resource e ∧
      p.step MemoryStore.ops e ≠ none := by
  obtain ⟨done, hworks⟩ := h.works
  obtain ⟨outcome, released, heq, htag, hstage⟩ := hworks.fetches i fetch hi
  obtain ⟨lease, hlease, -, houtcome, hreleased⟩ := Cooperation.tags_eq_some.mp htag
  have hplace : fetch.place = .lease i := by rw [heq]
  have hresource : fetch.resource = S.resource := by rw [heq]
  have hfound : p.fetch? i = some fetch :=
    Proxy.fetch?_eq_some.mpr ⟨hi, by rw [hplace]; rfl⟩
  generalize hphase : fetch.phase = phase at hstage on
  cases hstage with
  | ask =>
    refine ⟨.ask i, rfl, trivial, ?_⟩
    obtain ⟨url, hurl⟩ := idle.below
    simp [Proxy.step, Proxy.ask, hfound, hphase, hresource, h.remote, hurl]
  | waiting request =>
    refine ⟨.answer i (.ok (Reply.ofBytes [])), rfl, ⟨_, _, rfl, Reply.ofBytes_brings (Nat.zero_le _)⟩, ?_⟩
    simp [Proxy.step, Proxy.answer, hfound, hphase]
  | answered request response opened =>
    refine ⟨.handle i, rfl, trivial, ?_⟩
    simp only [Proxy.step, Proxy.handle, hfound, hphase, Option.bind_eq_bind, Option.bind_some]
    split <;> simp
  | storing response remote readable =>
    refine ⟨.stored i, rfl, trivial, ?_⟩
    simp only [Proxy.step, Proxy.stored, hfound, hphase, Option.bind_eq_bind, Option.bind_some]
    split
    · simp
    · split <;> simp
  | ended c brought =>
    obtain ⟨coop, hpublish⟩ : ∃ coop, p.coop.publish i (some (.ok (some c))) = some coop :=
      ⟨_, Cooperation.publish_eq_some.mpr ⟨lease, hlease, houtcome, rfl⟩⟩
    have hstep := Proxy.publish_eq_some.mpr ⟨fetch, some (.ok (some c)), i, _, hfound, hphase,
      hplace, hpublish, rfl⟩
    exact ⟨.publish i, rfl, trivial, fun hnone => by simp [Proxy.step, hstep] at hnone⟩
  | published c brought =>
    have hrelease := Cooperation.release_eq_some.mpr
      ⟨lease, hlease, by rw [houtcome]; rfl, hreleased, rfl⟩
    have hstep := Proxy.release_eq_some.mpr ⟨fetch, i, _, hfound, hphase, hplace, hrelease, rfl⟩
    exact ⟨.release i, rfl, trivial, fun hnone => by simp [Proxy.step, hstep] at hnone⟩
  | closed c brought => exact absurd rfl on

/-- A lease whose fetch is over has an outcome. -/
theorem Works.outcome?_of_closed {done l : Nat} (h : S.Works p done)
    (closed : ∀ fetch ∈ p.fetches, fetch.phase = .closed) (there : l < p.coop.leases.length) :
    ∃ outcome, p.coop.outcome? l = some outcome := by
  have hlt : l < p.fetches.length := h.length ▸ there
  have hl : p.fetches[l]? = some p.fetches[l] := List.getElem?_eq_getElem hlt
  obtain ⟨outcome, released, -, htag, hstage⟩ := h.fetches l _ hl
  obtain ⟨lease, hlease, -, houtcome, -⟩ := Cooperation.tags_eq_some.mp htag
  rw [closed _ (List.mem_of_getElem? hl)] at hstage
  cases hstage with
  | closed c brought => exact ⟨_, by rw [Cooperation.outcome?, hlease, Option.bind_some, houtcome]⟩

/-- A call whose lease has an outcome can return it. -/
theorem deliver_progress {c l : Nat} {call : Call (Option Content)}
    {outcome : Except Fault (Option Content)} (hcall : p.callOf? g = some c)
    (found : p.coop.calls[c]? = some call) (waits : call.phase.lease? = some l)
    (ho : p.coop.outcome? l = some outcome) :
    ∃ e, Proxy.isWork e = true ∧ Undisturbed S.capacity S.resource e ∧
      p.step MemoryStore.ops e ≠ none := by
  have hdeliver := Cooperation.deliver_eq_some.mpr ⟨call, l, outcome, found, waits, ho, rfl⟩
  have hstep : p.callStep g .deliver = some _ :=
    Proxy.callStep_eq_some.mpr ⟨c, _, hcall, hdeliver, rfl⟩
  exact ⟨.deliver g, rfl, trivial, fun hnone => by simp [Proxy.step, hstep] at hnone⟩

/-- When all fetches are over, a get has returned what an answer brought, or it can go on. -/
theorem Shared.get_progress (h : S.Shared p)
    (closed : ∀ fetch ∈ p.fetches, fetch.phase = .closed) (hg : g < p.gets.length) :
    (∃ c, p.getState g = .returned (.ok (some c)) ∧ S.Brought c) ∨
      ∃ e, Proxy.isWork e = true ∧ Undisturbed S.capacity S.resource e ∧
        p.step MemoryStore.ops e ≠ none := by
  obtain ⟨done, hworks⟩ := h.works
  obtain ⟨get, hget⟩ : ∃ get, p.gets[g]? = some get := ⟨_, List.getElem?_eq_getElem hg⟩
  obtain ⟨-, hstage⟩ := h.gets g get hget
  generalize hphase : get.phase = phase at hstage
  cases hstage with
  | lookUp =>
    refine .inr ⟨.lookUp g, rfl, trivial, ?_⟩
    simp only [Proxy.step, Proxy.lookUp, hget, hphase, Option.bind_eq_bind, Option.bind_some]
    split <;> simp
  | judge copy brought =>
    refine .inr ⟨.judge g, rfl, trivial, ?_⟩
    simp only [Proxy.step, Proxy.judge, hget, hphase, Option.bind_eq_bind, Option.bind_some]
    split <;> simp
  | enter =>
    refine .inr ⟨.enter g, rfl, trivial, ?_⟩
    simp only [Proxy.step, Proxy.enter, hget, hphase, Option.bind_eq_bind, Option.bind_some]
    split <;> simp
  | called c there =>
    have hcall : p.callOf? g = some c := Proxy.callOf?_eq_some.mpr ⟨get, hget, hphase⟩
    obtain ⟨call, hfound⟩ : ∃ call, p.coop.calls[c]? = some call :=
      ⟨_, List.getElem?_eq_getElem there⟩
    have hstage := h.calls c call hfound
    generalize hwaits : call.phase = phase at hstage
    cases hstage with
    | leading l there =>
      obtain ⟨outcome, ho⟩ := hworks.outcome?_of_closed closed there
      exact .inr (deliver_progress hcall hfound (by rw [hwaits]; rfl) ho)
    | following l deadline there =>
      obtain ⟨outcome, ho⟩ := hworks.outcome?_of_closed closed there
      exact .inr (deliver_progress hcall hfound (by rw [hwaits]; rfl) ho)
    | returned content brought =>
      exact .inl ⟨content, by simp [Proxy.getState, hget, hphase, hfound, hwaits], brought⟩
  | returned content brought =>
    exact .inl ⟨content, by simp [Proxy.getState, hget, hphase], brought⟩

/-- When nothing is left to be done, all fetches are over and all gets have returned. -/
theorem Shared.done_of_atRest (h : S.Shared p) (idle : Idle S.start S.resource)
    (rest : Proxy.AtRest S.capacity S.resource p) :
    (∀ fetch ∈ p.fetches, fetch.phase = .closed) ∧
      ∀ g < p.gets.length, ∃ c, p.getState g = .returned (.ok (some c)) ∧ S.Brought c := by
  have hclosed : ∀ fetch ∈ p.fetches, fetch.phase = .closed := by
    intro fetch hfetch
    obtain ⟨i, hi⟩ := List.getElem?_of_mem hfetch
    by_contra on
    obtain ⟨e, hwork, hplain, hstep⟩ := h.fetch_progress idle hi on
    exact hstep (rest e hwork hplain)
  refine ⟨hclosed, fun g hg => ?_⟩
  obtain hreturned | ⟨e, hwork, hplain, hstep⟩ := h.get_progress hclosed hg
  · exact hreturned
  · exact absurd (rest e hwork hplain) hstep

end Scene

namespace Proxy

/-! ## How often the origin is asked -/

variable {start q : Proxy MemoryStore} {r : Resource} {events : List ProxyEvent}

/-- When all fetches are closed each of them weighs one. -/
theorem weigh_of_closed {w : FetchPhase → Nat} (h : w .closed = 1)
    (closed : ∀ fetch ∈ q.fetches, fetch.phase = .closed) : q.weigh w = q.fetches.length := by
  unfold weigh
  rw [List.map_congr_left fun fetch hfetch => by rw [closed fetch hfetch, h], List.map_const',
    List.sum_replicate_nat, Nat.mul_one]

/-- **One request for many.** Any number of gets for a resource of which there is no copy go through
their steps in any order, with nothing to disturb them, until nothing is left to be done. Then there
were at most ten steps for each get, and every get has returned a body that the origin sent. The
origin was asked exactly once, and all gets have returned that one body, if and only if no get made
its call after a fetch had given up the key. -/
theorem single_fetch_iff (idle : Idle start r) (hrun : start.run MemoryStore.ops events = some q)
    (plain : ∀ e ∈ events, Undisturbed start.store.capacity r e)
    (young : (q.coop.now : Int) < (start.controller r).maxAge * 1000000000)
    (rest : AtRest start.store.capacity r q) (wanted : q.gets ≠ []) :
    events.countP isWork ≤ 10 * q.gets.length ∧
    (∀ g < q.gets.length, ∃ reply ∈ replies events, ∃ bytes stamp,
      reply.Brings start.store.capacity bytes ∧
      q.getState g = .returned (.ok (some (reply.content bytes stamp)))) ∧
    ((asks events = 1 ∧ ∃ reply bytes, replies events = [reply] ∧
        reply.Brings start.store.capacity bytes ∧ ∀ g < q.gets.length, ∃ stamp,
          q.getState g = .returned (.ok (some (reply.content bytes stamp)))) ↔
      NobodyLate events) := by
  let S : Scene := ⟨start, r, replies events⟩
  obtain ⟨hshared, htally⟩ := Scene.shared_of_run (S := S) idle hrun plain (fun _ h => h) young
  obtain ⟨hclosed, hreturned⟩ := hshared.done_of_atRest idle rest
  have hasks : asks events = q.fetches.length :=
    htally.asks.trans (weigh_of_closed rfl hclosed)
  have hreplies : (replies events).length = q.fetches.length :=
    htally.replies.trans (weigh_of_closed rfl hclosed)
  have hbodies : ∀ g < q.gets.length, ∃ reply ∈ replies events, ∃ bytes stamp,
      reply.Brings start.store.capacity bytes ∧
      q.getState g = .returned (.ok (some (reply.content bytes stamp))) := by
    intro g hg
    obtain ⟨c, hstate, reply, bytes, taken, hreply, hbrings, -, rfl⟩ := hreturned g hg
    exact ⟨reply, hreply, bytes, _, hbrings, hstate⟩
  refine ⟨by have := htally.work; omega, hbodies, ?_⟩
  -- Nobody is late exactly if there is one fetch; and there are as many questions as fetches.
  rw [htally.late]
  constructor
  · rintro ⟨hone, -⟩
    omega
  · intro hfew
    obtain ⟨first, hfirst, bytes, -, hbrings, -⟩ :=
      hbodies 0 (List.length_pos_iff.mpr wanted)
    -- Some get has returned a body, so there is an answer, and by `hfew` no second one.
    have hsome : 0 < (replies events).length := List.length_pos_of_mem hfirst
    obtain ⟨reply, hreply⟩ := List.length_eq_one_iff.mp (show (replies events).length = 1 by omega)
    have hsole : ∀ other ∈ replies events, other = reply := fun other hother =>
      List.mem_singleton.mp (hreply ▸ hother)
    rw [hsole first hfirst] at hbrings
    refine ⟨by omega, reply, bytes, hreply, hbrings, fun g hg => ?_⟩
    obtain ⟨other, hother, bytes', stamp, hbrings', hstate⟩ := hbodies g hg
    rw [hsole other hother] at hbrings' hstate
    rw [hbrings.unique hbrings'] at hstate
    exact ⟨stamp, hstate⟩

/-- Nothing is left to be done when all fetches are over and all calls have returned. -/
theorem atRest_of_done {capacity : Nat}
    (gets : ∀ get ∈ q.gets, ∃ c, get.phase = .called c)
    (calls : ∀ call ∈ q.coop.calls, ∃ result, call.phase = .returned result)
    (fetches : ∀ fetch ∈ q.fetches, fetch.phase = .closed) : AtRest capacity r q := by
  have hget : ∀ {g : Nat} {get : Get}, q.gets[g]? = some get → ∃ c, get.phase = .called c :=
    fun hg => gets _ (List.mem_of_getElem? hg)
  have hcall : ∀ {c : Nat} {call : Call (Option Content)}, q.coop.calls[c]? = some call →
      ∃ result, call.phase = .returned result :=
    fun hc => calls _ (List.mem_of_getElem? hc)
  have hfetch : ∀ {i : Nat} {fetch : Fetch}, q.fetch? i = some fetch → fetch.phase = .closed :=
    fun hi => fetches _ (List.mem_of_getElem? (fetch?_eq_some.mp hi).1)
  intro e hwork plain
  -- Every step but the excluded ones asks for a phase that none of them is in any more.
  cases hstep : q.step MemoryStore.ops e with
  | none => rfl
  | some q' =>
    exfalso
    cases e with
    | request | tick => exact absurd hwork (by simp [isWork])
    | exhaust | drop | crash | update | invalidate | change => exact plain
    | lookUp g =>
      obtain ⟨get, found, hp, -⟩ := lookUp_cases (show q.lookUp MemoryStore.ops g = _ from hstep)
      obtain ⟨c, hc⟩ := hget found
      exact absurd (hp.symm.trans hc) (by simp)
    | judge g =>
      obtain ⟨get, cached, found, hp, -⟩ := judge_cases hstep
      obtain ⟨c, hc⟩ := hget found
      exact absurd (hp.symm.trans hc) (by simp)
    | enter g =>
      obtain ⟨get, cached, found, hp, -⟩ := enter_cases hstep
      obtain ⟨c, hc⟩ := hget found
      exact absurd (hp.symm.trans hc) (by simp)
    | deliver g =>
      obtain ⟨c, coop, -, hs, -⟩ := callStep_eq_some.mp hstep
      obtain ⟨call, l, outcome, found, hl, -⟩ := Cooperation.deliver_eq_some.mp hs
      obtain ⟨result, hp⟩ := hcall found
      simp [hp, CallPhase.lease?] at hl
    | takeOver g =>
      obtain ⟨get, c, coop, -, -, hs, -⟩ := takeOver_cases hstep
      obtain ⟨call, l, found, hp, -⟩ := Cooperation.takeOver_cases hs
      obtain ⟨result, hr⟩ := hcall found
      exact absurd (hp.symm.trans hr) (by simp)
    | timeOut g =>
      obtain ⟨c, coop, -, hs, -⟩ := callStep_eq_some.mp hstep
      obtain ⟨call, l, deadline, found, hp, -⟩ := Cooperation.timeOut_eq_some.mp hs
      obtain ⟨result, hr⟩ := hcall found
      simp [hr] at hp
    | recheck i =>
      obtain ⟨fetch, found, hp, -⟩ := recheck_cases (show q.recheck MemoryStore.ops i = _ from hstep)
      exact absurd (hp.symm.trans (hfetch found)) (by simp)
    | rejudge i =>
      obtain ⟨fetch, copy, found, hp, -⟩ := rejudge_cases hstep
      exact absurd (hp.symm.trans (hfetch found)) (by simp)
    | ask i =>
      obtain ⟨fetch, copy, found, hp, -⟩ := ask_cases hstep
      exact absurd (hp.symm.trans (hfetch found)) (by simp)
    | answer i reply =>
      obtain ⟨fetch, copy, request, found, hp, -⟩ := answer_cases hstep
      exact absurd (hp.symm.trans (hfetch found)) (by simp)
    | handle i =>
      obtain ⟨fetch, copy, request, answer, found, hp, -⟩ := handle_cases hstep
      exact absurd (hp.symm.trans (hfetch found)) (by simp)
    | stored i =>
      obtain ⟨fetch, copy, response, remote, found, hp, -⟩ :=
        stored_cases (show q.stored MemoryStore.ops i = _ from hstep)
      exact absurd (hp.symm.trans (hfetch found)) (by simp)
    | copied i =>
      obtain ⟨fetch, copy, response, kept, found, hp, -⟩ := copied_cases hstep
      exact absurd (hp.symm.trans (hfetch found)) (by simp)
    | verified i =>
      obtain ⟨fetch, copy, response, stamp, found, hp, -⟩ :=
        verified_cases (show q.verified MemoryStore.ops i = _ from hstep)
      exact absurd (hp.symm.trans (hfetch found)) (by simp)
    | publish i =>
      obtain ⟨fetch, outcome, l, coop, found, hp, -⟩ := publish_eq_some.mp hstep
      exact absurd (hp.symm.trans (hfetch found)) (by simp)
    | release i =>
      obtain ⟨fetch, l, coop, found, hp, -⟩ := release_eq_some.mp hstep
      exact absurd (hp.symm.trans (hfetch found)) (by simp)
    | finish i =>
      obtain ⟨fetch, outcome, c, coop, found, hp, -⟩ := finish_eq_some.mp hstep
      exact absurd (hp.symm.trans (hfetch found)) (by simp)

/-- A proxy that nobody has asked for anything, with room for so many bytes. -/
def quiet (capacity : Nat) : Proxy MemoryStore where
  store := .empty capacity
  controllers := .new 86400 86400
  remote := { scheme := "https", host := some (.domain "origin.test"), path := .segments ["repo", ""] }
  passive := .ofSeconds 600
  active := .ofSeconds 10
  origin := .ofMillis 0

def pom : Resource := ⟨"a.pom", [], .content⟩

theorem idle_quiet (capacity : Nat) : Idle (quiet capacity) pom where
  gets := rfl
  fetches := rfl
  coop := rfl
  sharing := (by decide : (Duration.ofSeconds 600).nanos ≠ 0)
  numbered := MemoryStore.wellNumbered_empty capacity
  uncached c h := by cases h
  below := ⟨_, rfl⟩

/-- A get finds no copy and is about to make its call. -/
def looksUp (g : Nat) : List ProxyEvent := [.lookUp g, .judge g]

/-- A fetch from its request to the end of its hold on the key. -/
def fetchedBy (i : Nat) (bytes : Bytes) : List ProxyEvent :=
  [.ask i, .answer i (.ok (Reply.ofBytes bytes)), .handle i, .stored i, .publish i, .release i]

/-- Both gets make their calls before the fetch gives up the key. -/
def together : List ProxyEvent :=
  [.request pom, .request pom] ++ looksUp 0 ++ [.enter 0] ++ looksUp 1 ++ [.enter 1] ++
    fetchedBy 0 [7] ++ [.deliver 0, .deliver 1]

/-- The second get has seen that there is no copy, and makes its call when the fetch is over. -/
def late : List ProxyEvent :=
  [.request pom, .request pom] ++ looksUp 0 ++ looksUp 1 ++ [.enter 0] ++ fetchedBy 0 [7] ++
    [.deliver 0, .enter 1] ++ fetchedBy 1 [7] ++ [.deliver 1]

/-- The second get comes in when the first has returned. -/
def inTurn : List ProxyEvent :=
  [.request pom] ++ looksUp 0 ++ [.enter 0] ++ fetchedBy 0 [] ++ [.deliver 0, .request pom] ++
    looksUp 1 ++ [.enter 1] ++ fetchedBy 1 [] ++ [.deliver 1]

/-- A proxy after two gets that have returned the same bytes, with so many fetches. -/
def settled (p : Proxy MemoryStore) (blobs : List (Nat × Bytes)) (bytes : Bytes) (fetches : Nat) :
    Proxy MemoryStore :=
  let attributes : Attributes := { stamp := some ⟨.ofMillis 0, 86400, some (.issued 0)⟩ }
  let result : Except Fault (Option Content) := .ok (some ⟨.buffered bytes, attributes⟩)
  let call : Call (Option Content) :=
    ⟨pom.key, .ofSeconds 600, .ofSeconds 10, 0, .returned result⟩
  { p with
    store := ⟨[(pom.key, ⟨fetches - 1, attributes⟩)], blobs, fetches, p.store.capacity⟩
    coop := {
      leases := (List.range fetches).map fun l => ⟨pom.key, l, false, 0, 0, some result, true⟩
      calls := [call, call] }
    gets := [⟨pom, .called 0⟩, ⟨pom, .called 1⟩]
    fetches := (List.range fetches).map fun i => ⟨.lease i, pom, true, .closed⟩ }

theorem atRest_settled (capacity : Nat) (p : Proxy MemoryStore) (blobs : List (Nat × Bytes))
    (bytes : Bytes) (fetches : Nat) : AtRest capacity pom (settled p blobs bytes fetches) := by
  refine atRest_of_done ?_ ?_ ?_
  · simp [settled]
  · simp [settled]
  · simp [settled]

/-- Two gets that come in together share one request. -/
theorem single_fetch_together :
    (quiet 1000).run MemoryStore.ops together = some (settled (quiet 1000) [(0, [7])] [7] 1) ∧
    asks together = 1 ∧ ∃ reply bytes, replies together = [reply] ∧ reply.Brings 1000 bytes ∧
      ∀ g < 2, ∃ stamp, (settled (quiet 1000) [(0, [7])] [7] 1).getState g =
        .returned (.ok (some (reply.content bytes stamp))) := by
  have hrun : (quiet 1000).run MemoryStore.ops together =
      some (settled (quiet 1000) [(0, [7])] [7] 1) := rfl
  have hanswer : ∃ bytes, (Reply.ofBytes [7]).Brings 1000 bytes :=
    ⟨[7], Reply.ofBytes_brings (by decide)⟩
  have hplain : ∀ e ∈ together, Undisturbed 1000 pom e := by
    simp [together, looksUp, fetchedBy, Undisturbed, hanswer]
  have hnobody : NobodyLate together := by
    unfold NobodyLate
    decide
  exact ⟨hrun, (single_fetch_iff (idle_quiet 1000) hrun hplain (by decide)
    (atRest_settled 1000 (quiet 1000) [(0, [7])] [7] 1) (by simp [settled])).2.2.mpr hnobody⟩

/-- The origin is asked twice: for two gets that both look at the store first, when the second makes
its call after the fetch of the first is over; and for two gets that come in one after the other, when
the store accepts what it has no room to keep. -/
theorem single_fetch_fails :
    (∃ q, Idle (quiet 1000) pom ∧ (quiet 1000).run MemoryStore.ops late = some q ∧
      (∀ e ∈ late, Undisturbed 1000 pom e) ∧
      (q.coop.now : Int) < ((quiet 1000).controller pom).maxAge * 1000000000 ∧
      AtRest 1000 pom q ∧ asks late = 2) ∧
    ∃ q, Idle (quiet 0) pom ∧ (quiet 0).run MemoryStore.ops inTurn = some q ∧
      (∀ e ∈ inTurn, Undisturbed 0 pom e) ∧
      (q.coop.now : Int) < ((quiet 0).controller pom).maxAge * 1000000000 ∧
      AtRest 0 pom q ∧ asks inTurn = 2 := by
  have hanswer : ∃ bytes, (Reply.ofBytes [7]).Brings 1000 bytes :=
    ⟨[7], Reply.ofBytes_brings (by decide)⟩
  have hempty : ∃ bytes, (Reply.ofBytes []).Brings 0 bytes :=
    ⟨[], Reply.ofBytes_brings (by decide)⟩
  refine ⟨⟨settled (quiet 1000) [(1, [7])] [7] 2, idle_quiet 1000, rfl, ?_, by decide,
      atRest_settled _ _ _ _ _, rfl⟩, settled (quiet 0) [] [] 2, idle_quiet 0, rfl, ?_, by decide,
      atRest_settled _ _ _ _ _, rfl⟩
  · simp [late, looksUp, fetchedBy, Undisturbed, hanswer]
  · simp [inTurn, looksUp, fetchedBy, Undisturbed, hempty]

end Proxy

end PullCache
