import PullCache.Proofs.Cooperation.Spacing
/-!
# Proofs.Cooperation.Discipline

When a call's work is started, and how leases replace each other.

Every lease stands for one start of work: the call it leads, and whether the work was told to look at
the cache again (`works`). A call that still waits has started none, and can start work only by coming
in or by taking over, so it starts work once at most. `Course` keeps, for each call, the state it came
in at and what led to its work since then.

A lease that the table holds stays there until its work is over or another lease replaces it. Leases
that come later have higher numbers, so a lease that was replaced is never in the table again.
-/

namespace PullCache.Cooperation

variable {α : Type} {s s' q q' : Cooperation α} {e : CoopEvent α} {events : List (CoopEvent α)}
  {c l : Nat} {k : Key}

/-! ## Events at their places -/

/-- The event at a place of a run, and the state it comes in. -/
structure Happens (events : List (CoopEvent α)) (i : Nat) (q : Cooperation α) (e : CoopEvent α) :
    Prop where
  run : ({} : Cooperation α).run (events.take i) = some q
  event : events[i]? = some e

theorem Happens.lt {i : Nat} (h : Happens events i q e) : i < events.length :=
  (List.getElem?_eq_some_iff.mp h.event).1

/-- What happened in a run happened in every longer one. -/
theorem Happens.concat {i : Nat} {e' : CoopEvent α} (h : Happens events i q e) :
    Happens (events ++ [e']) i q e where
  run := by rw [List.take_append_of_le_length (Nat.le_of_lt h.lt), h.run]
  event := by rw [List.getElem?_append_left h.lt, h.event]

theorem happens_last (h : ({} : Cooperation α).run events = some q) :
    Happens (events ++ [e]) events.length q e where
  run := by rw [List.take_left, h]
  event := List.getElem?_concat_length

/-! ## Starts of work -/

/-- For each lease the call whose work it is, and whether that was told to look at the cache again. -/
def works (s : Cooperation α) : List (Nat × Bool) :=
  s.leases.map fun lease => (lease.leader, lease.recheck)

/-- The work of the call was started for the lease, with or without a look at the cache. -/
def Works (s : Cooperation α) (c l : Nat) (recheck : Bool) : Prop :=
  s.works[l]? = some (c, recheck)

@[simp] theorem length_works : s.works.length = s.leases.length := by
  simp [works]

theorem works_modify {f : Lease α → Lease α} (h : s'.leases = s.leases.modify l f)
    (keeps : ∀ x, (f x).leader = x.leader ∧ (f x).recheck = x.recheck) : s'.works = s.works := by
  rw [works, works, h]
  exact map_modify_of_keeps (fun x => by simp only [keeps x]) _ _

@[simp] theorem works_countWaiter (change : Int) : (s.countWaiter l change).works = s.works :=
  works_modify rfl fun _ => ⟨rfl, rfl⟩

@[simp] theorem works_startLease (recheck : Bool) :
    (s.startLease k c recheck).works = s.works ++ [(c, recheck)] := by
  simp [works, startLease]

@[simp] theorem works_leave (phase next : CallPhase α) : (s.leave c phase next).works = s.works := by
  rw [leave_eq]
  cases phase.followed? with
  | none => rfl
  | some l => exact works_countWaiter (-1)

/-- The work that an event starts: that of a call which comes in when the table has nothing for its
key, and that of a call which takes over. -/
def startedBy (s : Cooperation α) : CoopEvent α → List (Nat × Bool)
  | .arrive k passive _ =>
    if passive.nanos ≠ 0 ∧ s.registered? k = none then [(s.calls.length, false)] else []
  | .takeOver c =>
    match s.calls[c]? with
    | some ⟨k, _, _, _, .exhausted l⟩ =>
      if s.registered? k = none ∨ s.registered? k = some l then [(c, true)] else []
    | _ => []
  | _ => []

/-- A call that takes over starts work if the key is free, or still held by the lease that it gave
up on. -/
theorem startedBy_takeOver {call : Call α} (hc : s.calls[c]? = some call)
    (hp : call.phase = .exhausted l) :
    s.startedBy (.takeOver c) =
      if s.registered? call.key = none ∨ s.registered? call.key = some l then [(c, true)] else [] := by
  obtain ⟨k, passive, active, arrived, phase⟩ := call
  cases hp
  simp only [startedBy, hc]

/-- A call takes over from its lease if the key is given up or still held by that lease. -/
theorem startedBy_of_free {call : Call α} (hc : s.calls[c]? = some call)
    (hp : call.phase = .exhausted l)
    (free : s.registered? call.key = none ∨ s.registered? call.key = some l) :
    s.startedBy (.takeOver c) = [(c, true)] := by
  rw [startedBy_takeOver hc hp, if_pos free]

/-- It starts nothing if another lease holds the key by then. -/
theorem startedBy_of_held {other : Nat} {call : Call α} (hc : s.calls[c]? = some call)
    (hp : call.phase = .exhausted l) (ne : other ≠ l)
    (held : s.registered? call.key = some other) : s.startedBy (.takeOver c) = [] := by
  rw [startedBy_takeOver hc hp, if_neg]
  rw [held]
  simpa using ne

/-- Work is started by calls that come in or take over, and is never forgotten. -/
theorem step_works (h : s.step e = some s') : s'.works = s.works ++ s.startedBy e := by
  -- Only calls that come in or take over start work.
  cases e with
  | arrive k passive active =>
    cases h
    obtain ⟨off, h⟩ | ⟨on, l, held, h⟩ | ⟨on, free, h⟩ := arrive_cases s k passive active
    · have hnone : s.startedBy (.arrive k passive active) = [] := if_neg fun hlead => hlead.1 off
      rw [h, hnone, List.append_nil]
      rfl
    · have hnone : s.startedBy (.arrive k passive active) = [] := if_neg fun hlead => by
        rw [hlead.2] at held
        contradiction
      rw [h, hnone, List.append_nil]
      exact works_countWaiter 1
    · have hlead : s.startedBy (.arrive k passive active) = [(s.calls.length, false)] :=
        if_pos ⟨on, free⟩
      rw [h, hlead]
      exact works_startLease false
  | publish l outcome =>
    obtain ⟨lease, -, -, rfl⟩ := publish_eq_some.mp h
    refine Eq.trans ?_ (List.append_nil _).symm
    exact works_modify rfl fun _ => ⟨rfl, rfl⟩
  | release l =>
    obtain ⟨lease, -, -, -, rfl⟩ := release_eq_some.mp h
    refine Eq.trans ?_ (List.append_nil _).symm
    exact works_modify rfl fun _ => ⟨rfl, rfl⟩
  | deliver c =>
    obtain ⟨call, l, outcome, -, -, -, rfl⟩ := deliver_eq_some.mp h
    exact (works_leave ..).trans (List.append_nil _).symm
  | exhaust c =>
    obtain ⟨call, l, deadline, -, -, -, -, rfl⟩ := exhaust_eq_some.mp h
    exact (works_leave ..).trans (List.append_nil _).symm
  | takeOver c =>
    obtain ⟨call, l, found, phase, ⟨free, rfl⟩ | ⟨other, ne, held, rfl⟩⟩ := takeOver_cases h
    · rw [startedBy_of_free found phase free]
      exact works_startLease true
    · rw [startedBy_of_held found phase ne held, List.append_nil]
      exact works_countWaiter 1
  | timeOut c =>
    obtain ⟨call, l, deadline, -, -, -, -, rfl⟩ := timeOut_eq_some.mp h
    exact (works_leave ..).trans (List.append_nil _).symm
  | finish c outcome =>
    obtain ⟨call, -, -, rfl⟩ := finish_eq_some.mp h
    exact (List.append_nil _).symm
  | drop c =>
    obtain ⟨call, -, -, -, rfl⟩ := drop_eq_some.mp h
    exact (works_leave ..).trans (List.append_nil _).symm
  | tick nanos =>
    cases h
    exact (List.append_nil _).symm

/-- A step that starts no work of the call leaves its work as it is. -/
theorem works_of_idle (h : s.step e = some s') (hidle : ∀ b, (c, b) ∉ s.startedBy e) (l : Nat)
    (b : Bool) : s'.Works c l b ↔ s.Works c l b := by
  rw [Works, Works, step_works h, List.getElem?_append]
  split
  · exact Iff.rfl
  · next hnew =>
    have hbefore : s.works[l]? = none := List.getElem?_eq_none (Nat.le_of_not_lt hnew)
    rw [hbefore]
    exact ⟨fun hstart => absurd (List.mem_of_getElem? hstart) (hidle b), nofun⟩

/-- A step that starts work of the call starts it for the next lease. -/
theorem works_of_start (h : s.step e = some s') {b : Bool} (hstart : s.startedBy e = [(c, b)])
    (l : Nat) (b' : Bool) :
    s'.Works c l b' ↔ s.Works c l b' ∨ l = s.leases.length ∧ b' = b := by
  rw [Works, Works, step_works h, hstart, getElem?_concat_eq_some, length_works, Prod.mk.injEq]
  simp only [true_and, @eq_comm _ b b']

/-- Work is that of a call that came in. -/
theorem Works.lt (hrun : ({} : Cooperation α).run events = some s) {b : Bool} (h : s.Works c l b) :
    c < s.calls.length := by
  rw [Works, works, List.getElem?_map, Option.map_eq_some_iff] at h
  obtain ⟨lease, hl, hworks⟩ := h
  have hleader : lease.leader = c := congrArg Prod.fst hworks
  have hbirth : s.births[l]? = some (lease.key, c, lease.started) :=
    births_eq_some.mpr ⟨lease, hl, rfl, hleader, rfl⟩
  obtain ⟨call, hc, -⟩ := leads_of_run hrun l _ _ _ hbirth
  exact (List.getElem?_eq_some_iff.mp hc).1

/-! ## The course of a call -/

/-- The call came in at a place of the run. -/
structure CameIn (events : List (CoopEvent α)) (i : Nat) (q : Cooperation α) (c : Nat)
    (call : Call α) : Prop where
  happens : Happens events i q (.arrive call.key call.passive call.active)
  number : q.calls.length = c
  arrived : call.arrived = q.now

/-- At a place of the run the passive wait of the call runs out: it has followed the lease since it
came in, its whole passive timeout ago, and nothing has been published. -/
def GaveUp (events : List (CoopEvent α)) (j c : Nat) (call : Call α) (l : Nat) : Prop :=
  ∃ q, Happens events j q (.exhaust c) ∧
    q.calls[c]? = some { call with phase := .following l (call.arrived + call.passive.nanos) } ∧
    call.arrived + call.passive.nanos ≤ q.now ∧ q.outcome? l = none

/-- At a place of the run the call takes over with a lease of its own, because the table has the lease
it gave up or nothing for its key. -/
def TookOver (events : List (CoopEvent α)) (m c : Nat) (call : Call α) (l own : Nat) : Prop :=
  ∃ q, Happens events m q (.takeOver c) ∧ q.leases.length = own ∧
    (q.registered? call.key = none ∨ q.registered? call.key = some l)

/-- No work of the call has been started. -/
def Idle (s : Cooperation α) (c : Nat) : Prop :=
  ∀ l b, ¬ s.Works c l b

/-- How the work of a call that came in at a place of the run was started. -/
structure Past (events : List (CoopEvent α)) (s : Cooperation α) (i : Nat) (q : Cooperation α)
    (c : Nat) (call : Call α) : Prop where
  cameIn : CameIn events i q c call
  first : ∀ l, s.Works c l false ↔
    l = q.leases.length ∧ call.passive.nanos ≠ 0 ∧ q.registered? call.key = none
  again : ∀ own, s.Works c own true → ∃ l j m, q.registered? call.key = some l ∧ i < j ∧ j < m ∧
    GaveUp events j c call l ∧ TookOver events m c call l own
  once : ∀ l l' b b', s.Works c l b → s.Works c l' b' → l = l'

/-- What a call has done since it came in: as long as it waits as a follower, and until it takes over,
no work of it has been started. -/
structure Course (events : List (CoopEvent α)) (s : Cooperation α) (i : Nat) (q : Cooperation α)
    (c : Nat) (call : Call α) : Prop extends Past events s i q c call where
  following : ∀ l d, call.phase = .following l d →
    q.registered? call.key = some l ∧ d = call.arrived + call.passive.nanos ∧ s.Idle c
  exhausted : ∀ l, call.phase = .exhausted l →
    q.registered? call.key = some l ∧ s.Idle c ∧ ∃ j, i < j ∧ GaveUp events j c call l

theorem GaveUp.concat {j : Nat} {call : Call α} (h : GaveUp events j c call l)
    (phase : CallPhase α) : GaveUp (events ++ [e]) j c { call with phase } l := by
  obtain ⟨q, hq, hcall⟩ := h
  exact ⟨q, hq.concat, hcall⟩

theorem TookOver.concat {m own : Nat} {call : Call α} (h : TookOver events m c call l own)
    (phase : CallPhase α) : TookOver (events ++ [e]) m c { call with phase } l own := by
  obtain ⟨q, hq, hfree⟩ := h
  exact ⟨q, hq.concat, hfree⟩

theorem idle_congr (hworks : ∀ l b, s'.Works c l b ↔ s.Works c l b) (h : s.Idle c) : s'.Idle c :=
  fun l b hw => h l b ((hworks l b).mp hw)

/-- A step that starts no work of a call adds nothing to its past. -/
theorem Past.later {i : Nat} {call : Call α} (h : Past events s i q c call)
    (hworks : ∀ l b, s'.Works c l b ↔ s.Works c l b) (phase : CallPhase α) :
    Past (events ++ [e]) s' i q c { call with phase } where
  cameIn := ⟨h.cameIn.happens.concat, h.cameIn.number, h.cameIn.arrived⟩
  first l := (hworks l false).trans (h.first l)
  again own hown := by
    obtain ⟨l, j, m, hheld, hij, hjm, hgave, htook⟩ := h.again own ((hworks own true).mp hown)
    exact ⟨l, j, m, hheld, hij, hjm, hgave.concat phase, htook.concat phase⟩
  once l l' b b' hl hl' := h.once l l' b b' ((hworks l b).mp hl) ((hworks l' b').mp hl')

/-- A call that is as it was before a step has not started work in it. -/
theorem not_mem_startedBy (h : s.step e = some s') {call : Call α} (hc : s.calls[c]? = some call)
    (hc' : s'.calls[c]? = some call) (b : Bool) : (c, b) ∉ s.startedBy e := by
  intro hmem
  cases e with
  | arrive k passive active =>
    have hlt := (List.getElem?_eq_some_iff.mp hc).1
    rw [startedBy] at hmem
    split at hmem
    · rw [List.mem_singleton, Prod.mk.injEq] at hmem
      omega
    · contradiction
  | takeOver c' =>
    obtain ⟨before, l, found, phase, ⟨free, rfl⟩ | ⟨other, ne, held, rfl⟩⟩ := takeOver_cases h
    · rw [startedBy_of_free found phase free, List.mem_singleton, Prod.mk.injEq] at hmem
      obtain ⟨rfl, -⟩ := hmem
      obtain rfl : before = call := Option.some.inj (found.symm.trans hc)
      have hmoved := congrArg (Option.map Call.phase) hc'
      simp [setPhase, hc, phase] at hmoved
    · rw [startedBy_of_held found phase ne held] at hmem
      contradiction
  | publish | release | deliver | exhaust | timeOut | finish | drop | tick => contradiction

/-- A call that nothing happens to keeps its course. -/
theorem Course.kept {i : Nat} {call : Call α} (h : Course events s i q c call)
    (hstep : s.step e = some s') (hc : s.calls[c]? = some call) (hc' : s'.calls[c]? = some call) :
    Course (events ++ [e]) s' i q c call := by
  have hworks := works_of_idle hstep (not_mem_startedBy hstep hc hc')
  refine ⟨h.toPast.later hworks call.phase, fun l d hp => ?_, fun l hp => ?_⟩
  · obtain ⟨hheld, hd, hidle⟩ := h.following l d hp
    exact ⟨hheld, hd, idle_congr hworks hidle⟩
  · obtain ⟨hheld, hidle, j, hij, hgave⟩ := h.exhausted l hp
    exact ⟨hheld, idle_congr hworks hidle, j, hij, hgave.concat call.phase⟩

/-- A call that has come to the end of its waiting, without starting work. -/
theorem Course.settled {i : Nat} {call : Call α} (h : Course events s i q c call)
    (hstep : s.step e = some s') (hnone : s.startedBy e = []) {phase : CallPhase α}
    (hfollowing : ∀ l d, phase ≠ .following l d) (hexhausted : ∀ l, phase ≠ .exhausted l) :
    Course (events ++ [e]) s' i q c { call with phase } := by
  have hworks := works_of_idle hstep (c := c) (fun b => by rw [hnone]; exact List.not_mem_nil)
  exact ⟨h.toPast.later hworks phase, fun l d hp => absurd hp (hfollowing l d),
    fun l hp => absurd hp (hexhausted l)⟩

/-- A call that moves goes on with its course. -/
theorem Course.move {i : Nat} {call : Call α} (h : Course events s i q c call)
    (hrun : ({} : Cooperation α).run events = some s) (hstep : s.step e = some s')
    (hc : s.calls[c]? = some call) {phase : CallPhase α} (hmove : CallMove s s' c call e phase) :
    Course (events ++ [e]) s' i q c { call with phase } := by
  cases hmove with
  | delivered | timedOut | dropped => exact h.settled hstep rfl nofun nofun
  | finished outcome =>
    cases outcome with
    | some result => exact h.settled hstep rfl nofun nofun
    | none => exact h.settled hstep rfl nofun nofun
  | joined l other hphase ne held =>
    exact h.settled hstep (startedBy_of_held hc hphase ne held) nofun nofun
  | exhausted l d hphase due pending =>
    have hworks := works_of_idle hstep (c := c) (fun b => List.not_mem_nil)
    obtain ⟨hheld, rfl, hidle⟩ := h.following l d hphase
    refine ⟨h.toPast.later hworks _, nofun, ?_⟩
    rintro l' ⟨⟩
    have hcall : s.calls[c]? =
        some { call with phase := .following l (call.arrived + call.passive.nanos) } := by
      rw [hc, ← hphase]
    exact ⟨hheld, idle_congr hworks hidle, events.length, h.cameIn.happens.lt,
      s, happens_last hrun, hcall, due, pending⟩
  | led l hphase free =>
    have hworks := works_of_start hstep (startedBy_of_free hc hphase free)
    obtain ⟨hheld, hidle, j, hij, hgave⟩ := h.exhausted l hphase
    refine ⟨⟨?_, ?_, ?_, ?_⟩, nofun, nofun⟩
    · exact ⟨h.cameIn.happens.concat, h.cameIn.number, h.cameIn.arrived⟩
    · exact fun l => ((hworks l false).trans (or_iff_left nofun)).trans (h.first l)
    · intro own hown
      obtain hbefore | ⟨rfl, -⟩ := (hworks own true).mp hown
      · exact absurd hbefore (hidle own true)
      · have hjm : j < events.length := hgave.choose_spec.1.lt
        exact ⟨l, j, events.length, hheld, hij, hjm, hgave.concat _, s, happens_last hrun, rfl, free⟩
    · intro l₁ l₂ b₁ b₂ h₁ h₂
      obtain hbefore | ⟨rfl, -⟩ := (hworks l₁ b₁).mp h₁
      · exact absurd hbefore (hidle l₁ b₁)
      · obtain hbefore | ⟨rfl, -⟩ := (hworks l₂ b₂).mp h₂
        · exact absurd hbefore (hidle l₂ b₂)
        · rfl

/-- A call that no work was started for has none to account for. -/
theorem past_of_idle {i : Nat} {call : Call α} (hcameIn : CameIn events i q c call)
    (hidle : s.Idle c) (hno : ¬ (call.passive.nanos ≠ 0 ∧ q.registered? call.key = none)) :
    Past events s i q c call where
  cameIn := hcameIn
  first l := iff_of_false (hidle l false) fun hlead => hno hlead.2
  again own hw := absurd hw (hidle own true)
  once l _ b _ hw := absurd hw (hidle l b)

/-- A call begins its course when it comes in. -/
theorem Entry.course {passive active : Duration} {phase : CallPhase α}
    (h : Entry s s' k passive phase) (hrun : ({} : Cooperation α).run events = some s)
    (hstep : s.step (.arrive k passive active) = some s') :
    Course (events ++ [.arrive k passive active]) s' events.length s s.calls.length
      ⟨k, passive, active, s.now, phase⟩ := by
  have hcameIn : CameIn (events ++ [.arrive k passive active]) events.length s s.calls.length
      ⟨k, passive, active, s.now, phase⟩ := ⟨happens_last hrun, rfl, rfl⟩
  have hidle : s.Idle s.calls.length := fun l b hw => absurd (hw.lt hrun) (Nat.lt_irrefl _)
  have hstays : ¬ (passive.nanos ≠ 0 ∧ s.registered? k = none) → s'.Idle s.calls.length := by
    intro hno
    have hnone : s.startedBy (.arrive k passive active) = [] := if_neg hno
    exact idle_congr (works_of_idle hstep fun b => by rw [hnone]; exact List.not_mem_nil) hidle
  cases h with
  | alone off =>
    have hno : ¬ (passive.nanos ≠ 0 ∧ s.registered? k = none) := fun hlead => hlead.1 off
    exact ⟨past_of_idle hcameIn (hstays hno) hno, nofun, nofun⟩
  | follows l on held =>
    have hno : ¬ (passive.nanos ≠ 0 ∧ s.registered? k = none) := by simp [held]
    refine ⟨past_of_idle hcameIn (hstays hno) hno, ?_, nofun⟩
    rintro l' d ⟨⟩
    exact ⟨held, rfl, hstays hno⟩
  | leads on free =>
    have hworks := works_of_start hstep (if_pos ⟨on, free⟩)
    have hnew : ∀ l b, s'.Works s.calls.length l b → l = s.leases.length ∧ b = false :=
      fun l b hw => ((hworks l b).mp hw).resolve_left (hidle l b)
    refine ⟨⟨hcameIn, ?_, ?_, ?_⟩, nofun, nofun⟩
    · exact fun l => ⟨fun hw => ⟨(hnew l false hw).1, on, free⟩,
        fun hlead => (hworks l false).mpr (.inr ⟨hlead.1, rfl⟩)⟩
    · intro own hw
      exact absurd (hnew own true hw).2 nofun
    · intro l l' b b' hw hw'
      exact (hnew l b hw).1.trans (hnew l' b' hw').1.symm

/-- In every state of a run each call has come in and gone its course. -/
theorem course_of_run (h : ({} : Cooperation α).run events = some s) :
    ∀ (c : Nat) (call : Call α), s.calls[c]? = some call → ∃ i q, Course events s i q c call := by
  refine run_history (I := fun events s => ∀ (c : Nat) (call : Call α), s.calls[c]? = some call →
    ∃ i q, Course events s i q c call) (fun c call hc => by simp at hc) ?_ h
  intro events r r' e hrun ih hstep c call hc'
  obtain hc | ⟨rfl, k, passive, active, phase, rfl, entry, rfl⟩ | ⟨before, phase, hc, hmove, rfl⟩ :=
    (step_calls hstep).before hc'
  · obtain ⟨i, q, hcourse⟩ := ih c call hc
    exact ⟨i, q, hcourse.kept hstep hc hc'⟩
  · exact ⟨events.length, r, entry.course hrun hstep⟩
  · obtain ⟨i, q, hcourse⟩ := ih c before hc
    exact ⟨i, q, hcourse.move hrun hstep hc hmove⟩

/-! ## Calls that are answered while they follow -/

/-- From the place of an event the run goes on. -/
theorem Happens.next {i : Nat} (h : Happens events i q e)
    (hrun : ({} : Cooperation α).run events = some s) :
    ∃ q', q.step e = some q' ∧ ({} : Cooperation α).run (events.take (i + 1)) = some q' ∧
      q'.run (events.drop (i + 1)) = some s := by
  obtain ⟨q', hq', hrest⟩ := run_split (i + 1) hrun
  have htake : events.take (i + 1) = events.take i ++ [e] := by
    rw [List.take_add_one, h.event]
    rfl
  have hstep := hq'
  rw [htake, run_append, h.run, Option.bind_some, run_cons, Option.bind_eq_some_iff] at hstep
  obtain ⟨q'', hq'', hlast⟩ := hstep
  cases hlast
  exact ⟨q', hq'', hq', hrest⟩

/-- Once a call has come to an end, no work of it is started. -/
theorem idle_of_ended {call : Call α} (h : s.run events = some s') (hc : s.calls[c]? = some call)
    (hended : call.phase.isLive = false) (hidle : s.Idle c) : s'.Idle c := by
  refine (run_invariant (I := fun s => s.calls[c]? = some call ∧ s.Idle c) ?_ ⟨hc, hidle⟩ h).2
  rintro q q' e ⟨hc, hidle⟩ hstep
  obtain ⟨phase, hc', hsame⟩ := call_of_step hstep hc
  rw [hsame hended] at hc'
  exact ⟨hc', idle_congr (works_of_idle hstep (not_mem_startedBy hstep hc hc')) hidle⟩

/-- A call that is given the outcome of the lease it follows never starts its work. -/
theorem idle_of_delivered (hrun : ({} : Cooperation α).run events = some s) {j d : Nat}
    {call : Call α} (h : Happens events j q (.deliver c)) (hc : q.calls[c]? = some call)
    (hp : call.phase = .following l d) : s.Idle c := by
  obtain ⟨q', hstep, -, hrest⟩ := h.next hrun
  obtain ⟨i, r, hcourse⟩ := course_of_run h.run c call hc
  obtain ⟨-, -, hidle⟩ := hcourse.following l d hp
  obtain ⟨found, l', outcome, hfound, -, -, rfl⟩ := deliver_eq_some.mp hstep
  obtain rfl : found = call := Option.some.inj (hfound.symm.trans hc)
  have hworks := works_of_idle hstep (c := c) (fun b => List.not_mem_nil)
  have hc' : (q.leave c found.phase (.returned outcome)).calls[c]? =
      some { found with phase := .returned outcome } := by
    rw [leave_calls, List.getElem?_modify_eq, hc]
    rfl
  exact idle_of_ended hrest hc' rfl (idle_congr hworks hidle)

/-! ## Leases that replace each other -/

/-- At a place of the run another lease takes the place of a lease in the table. -/
def Replaces (events : List (CoopEvent α)) (k : Key) (i l l' : Nat) : Prop :=
  ∃ e q q', Happens events i q e ∧ q.step e = some q' ∧ q.registered? k = some l ∧
    q'.registered? k = some l' ∧ l ≠ l'

/-- A lease stays the lease of its key through any run. -/
theorem IsFor.of_run (h : s.IsFor l k) (hrun : s.run events = some s') : s'.IsFor l k :=
  run_invariant (I := fun s => s.IsFor l k) (fun hs hstep => hs.step hstep) h hrun

/-- A lease is for one key. -/
theorem IsFor.unique {k' : Key} (h : s.IsFor l k) (h' : s.IsFor l k') : k = k' := by
  obtain ⟨lease, hlease, rfl⟩ := h
  obtain ⟨lease', hlease', rfl⟩ := h'
  rw [Option.some.inj (hlease.symm.trans hlease')]

theorem run_singleton (h : s.step e = some s') : s.run [e] = some s' := by
  rw [run_cons, h]
  rfl

/-- The last lease for a key is never an earlier one than it was. -/
theorem latest?_le_of_run {a : Nat} (h : s.run events = some s') (ha : s.latest? k = some a) :
    ∃ b, s'.latest? k = some b ∧ a ≤ b := by
  obtain ⟨t, hstarted⟩ := started_of_latest? ha
  have hstarted' : s'.Started k a t := run_invariant (I := fun s => s.Started k a t)
    (fun hs hstep => hs.step hstep) hstarted h
  exact exists_latest? hstarted'

/-- Between two places of a run. -/
theorem run_between {i j : Nat} (hi : ({} : Cooperation α).run (events.take i) = some q)
    (hj : ({} : Cooperation α).run (events.take j) = some q') (hij : i ≤ j) :
    ∃ between, q.run between = some q' := by
  obtain ⟨r, hr, hrest⟩ := run_split i hj
  rw [List.take_take, Nat.min_eq_left hij, hi, Option.some.injEq] at hr
  exact ⟨_, hr ▸ hrest⟩

/-- A lease that was replaced came before the other one. -/
theorem Replaces.lt {i l' : Nat} (h : Replaces events k i l l') : l < l' := by
  obtain ⟨e, q, q', hat, hstep, hheld, hheld', hne⟩ := h
  have htable := tableInv_of_run hat.run
  have hlatest := (htable.registered?_iff.mp hheld).1
  have hlatest' := ((htable.step hstep).registered?_iff.mp hheld').1
  obtain ⟨b, hb, hle⟩ := latest?_le_of_run (run_singleton hstep) hlatest
  rw [hlatest', Option.some.injEq] at hb
  omega

/-- A lease that was replaced is never in the table again. -/
theorem Replaces.gone {i j l' : Nat} (h : Replaces events k i l l') (hij : i < j)
    (hrun : ({} : Cooperation α).run events = some s)
    (hq : ({} : Cooperation α).run (events.take j) = some q) (k' : Key) :
    q.registered? k' ≠ some l := by
  intro hheld
  have hlt := h.lt
  obtain ⟨e, r, r', hat, hstep, hl, hl', -⟩ := h
  obtain ⟨r'', hstep', hr'', -⟩ := hat.next hrun
  obtain rfl : r'' = r' := Option.some.inj (hstep'.symm.trans hstep)
  obtain ⟨between, hbetween⟩ := run_between hr'' hq hij
  -- The lease still has its key, and a later lease has been the last for that.
  have hfor : q.IsFor l k := (((tableInv_of_run hat.run).isFor hl).step hstep).of_run hbetween
  have hkey : k' = k := ((tableInv_of_run hq).isFor hheld).unique hfor
  obtain ⟨b, hb, hle⟩ := latest?_le_of_run hbetween ((tableInv_of_run hr'').registered?_iff.mp hl').1
  have hlatest := ((tableInv_of_run hq).registered?_iff.mp hheld).1
  rw [hkey, hb, Option.some.injEq] at hlatest
  omega

/-- No lease is replaced twice. -/
theorem Replaces.unique {i j l₁ l₂ : Nat} {k' : Key}
    (hrun : ({} : Cooperation α).run events = some s) (h : Replaces events k i l l₁)
    (h' : Replaces events k' j l l₂) : i = j ∧ l₁ = l₂ := by
  obtain hlt | rfl | hgt := Nat.lt_trichotomy i j
  · obtain ⟨e, q, q', hat, -, hheld, -⟩ := h'
    exact absurd hheld (h.gone hlt hrun hat.run k')
  · obtain ⟨e, q, q', hat, hstep, hheld, hnext, -⟩ := h
    obtain ⟨e', r, r', hat', hstep', hheld', hnext', -⟩ := h'
    obtain rfl : e' = e := Option.some.inj (hat'.event.symm.trans hat.event)
    obtain rfl : r = q := Option.some.inj (hat'.run.symm.trans hat.run)
    obtain rfl : r' = q' := Option.some.inj (hstep'.symm.trans hstep)
    have htable := tableInv_of_run hat.run
    have hkey : k' = k := (htable.isFor hheld').unique (htable.isFor hheld)
    rw [hkey, hnext, Option.some.injEq] at hnext'
    exact ⟨rfl, hnext'⟩
  · obtain ⟨e, q, q', hat, -, hheld, -⟩ := h
    exact absurd hheld (h'.gone hgt hrun hat.run k)

/-- Work that runs after a step was running before it, if it had started. -/
theorem isRunning_before_step (h : s.step e = some s') (hlt : l < s.leases.length)
    (hrunning : s'.isRunning l = true) : s.isRunning l = true := by
  rw [isRunning_eq] at hrunning ⊢
  cases step_ledger h with
  | same table ledger => rwa [ledger] at hrunning
  | start k' table ledger =>
    rwa [ledger, List.getElem?_append_left (by rwa [length_ledger])] at hrunning
  | release k' l' runs table ledger =>
    rw [ledger, List.getElem?_set] at hrunning
    split at hrunning
    · split at hrunning <;> simp at hrunning
    · exact hrunning

/-- As long as its work runs, a lease stays in the table or another one takes its place. -/
theorem registered?_of_step (htable : TableInv s) (h : s.step e = some s')
    (hheld : s.registered? k = some l) (hrunning : s'.isRunning l = true) :
    ∃ l', s'.registered? k = some l' := by
  have hlatest := (htable.registered?_iff.mp hheld).1
  obtain ⟨b, hb, hle⟩ := latest?_le_of_run (run_singleton h) hlatest
  have hheld' : s'.isRunning b = true → s'.registered? k = some b :=
    fun hb' => (htable.step h).registered?_iff.mpr ⟨hb, hb'⟩
  obtain rfl | hlt := Nat.eq_or_lt_of_le hle
  · exact ⟨l, hheld' hrunning⟩
  · obtain ⟨released, hledger⟩ := exists_of_latest? hb
    rw [getElem?_ledger] at hledger
    obtain ⟨lease', hlease', hkey⟩ := Option.map_eq_some_iff.mp hledger
    obtain ⟨lease, hlease⟩ | ⟨-, -, hreleased⟩ := lease_before_step h hlease'
    · -- A lease for the key that was there before does not come after the last one.
      obtain ⟨lease'', hlease'', hsame, -⟩ := lease_of_step h hlease
      obtain rfl : lease'' = lease' := Option.some.inj (hlease''.symm.trans hlease')
      obtain ⟨t, hstarted⟩ := started_of_isFor ⟨lease, hlease, hsame.symm.trans (congrArg Prod.fst hkey)⟩
      obtain ⟨m, hm, hbm⟩ := exists_latest? hstarted
      rw [hlatest, Option.some.injEq] at hm
      omega
    · exact ⟨b, hheld' (by rw [isRunning, hlease', Option.any_some, hreleased]; rfl)⟩

/-- A lease that was in the table and whose work runs is there, unless it was replaced. -/
theorem registered?_iff_not_replaced {i n : Nat} (hrun : ({} : Cooperation α).run events = some s)
    (hq : ({} : Cooperation α).run (events.take i) = some q) (hheld : q.registered? k = some l)
    (hin : i ≤ n) (hn : n ≤ events.length)
    (hq' : ({} : Cooperation α).run (events.take n) = some q') (hrunning : q'.isRunning l = true) :
    q'.registered? k = some l ↔ ∀ j l', j < n → ¬ Replaces events k j l l' := by
  constructor
  · intro hstill j l' hj hreplaced
    exact hreplaced.gone hj hrun hq' k hstill
  · intro hnever
    induction n, hin using Nat.le_induction generalizing q' with
    | base =>
      obtain rfl : q = q' := Option.some.inj (hq.symm.trans hq')
      exact hheld
    | succ n hin ih =>
      obtain ⟨r, hr, hrest⟩ := run_split n hrun
      have hat : Happens events n r events[n] := ⟨hr, List.getElem?_eq_getElem (by omega)⟩
      obtain ⟨r', hstep, hr', -⟩ := hat.next hrun
      obtain rfl : r' = q' := Option.some.inj (hr'.symm.trans hq')
      have hlt : l < r.leases.length := by
        obtain ⟨between, hbetween⟩ := run_between hq hr hin
        obtain ⟨lease, hlease, -⟩ := ((tableInv_of_run hq).isFor hheld).of_run hbetween
        exact (List.getElem?_eq_some_iff.mp hlease).1
      have hbefore := ih (by omega) hr (isRunning_before_step hstep hlt hrunning)
        fun j l' hj => hnever j l' (by omega)
      obtain ⟨l', hl'⟩ := registered?_of_step (tableInv_of_run hr) hstep hbefore hrunning
      by_cases hne : l = l'
      · rw [hl', hne]
      · exact absurd ⟨_, r, r', hat, hstep, hbefore, hl', hne⟩ (hnever n l' (Nat.lt_succ_self n))

/-! ## The discipline of calls -/

/-- A call that gave up a lease joins the lease that was started in its place, if the table still has
that: it starts no work. -/
theorem joined_of_registered? {l' m : Nat} {call : Call α} (hat : Happens events m q (.takeOver c))
    (hrun : ({} : Cooperation α).run events = some s) (hc : q.calls[c]? = some call)
    (hp : call.phase = .exhausted l) (hne : l ≠ l') (hheld : q.registered? call.key = some l') :
    ∃ q', q.step (.takeOver c) = some q' ∧ q'.works = q.works ∧
      q'.calls[c]? = some { call with phase := .joined l' (q.now + call.active.nanos) } := by
  obtain ⟨q', hstep, -⟩ := hat.next hrun
  obtain ⟨found, l₀, hfound, hphase, ⟨free, -⟩ | ⟨other, -, hother, rfl⟩⟩ := takeOver_cases hstep
  · obtain rfl : found = call := Option.some.inj (hfound.symm.trans hc)
    obtain rfl : l₀ = l := by
      rw [hp, CallPhase.exhausted.injEq] at hphase
      exact hphase.symm
    rw [hheld] at free
    obtain free | free := free
    · contradiction
    · exact absurd (Option.some.inj free).symm hne
  · obtain rfl : found = call := Option.some.inj (hfound.symm.trans hc)
    obtain rfl : other = l' := Option.some.inj (hother.symm.trans hheld)
    refine ⟨_, hstep, works_countWaiter 1, ?_⟩
    rw [setPhase, List.getElem?_modify_eq, countWaiter_calls, hc]
    rfl

/-- **The discipline of calls.** In every run:

* A call that shares work starts its work at most once. It starts it without a look at the cache if,
  and only if, the table has nothing for its key when it comes in; and with a look at the cache only
  after it has followed the lease that was there for its whole passive timeout and nothing was
  published by then, when the table has that lease or nothing for the key.
* A call that is given an outcome while it follows never starts its work.
* No lease is replaced by two others.
* A call that gave up a lease while the work of its replacement runs finds that replacement in the
  table, and joins it, unless the replacement has been replaced itself. -/
theorem work_discipline (hrun : ({} : Cooperation α).run events = some s) :
    (∀ (c : Nat) (call : Call α), s.calls[c]? = some call → call.passive.nanos ≠ 0 →
      (∀ l l' b b', s.Works c l b → s.Works c l' b' → l = l') ∧
      ∃ i q, CameIn events i q c call ∧
        (∀ l, s.Works c l false ↔ l = q.leases.length ∧ q.registered? call.key = none) ∧
        ∀ own, s.Works c own true → ∃ l j m, q.registered? call.key = some l ∧ i < j ∧ j < m ∧
          GaveUp events j c call l ∧ TookOver events m c call l own) ∧
    (∀ c j q (call : Call α) l d, Happens events j q (.deliver c) → q.calls[c]? = some call →
      call.phase = .following l d → s.Idle c) ∧
    (∀ k k' i j l l₁ l₂, Replaces events k i l l₁ → Replaces events k' j l l₂ → i = j ∧ l₁ = l₂) ∧
    (∀ i l l' c m q (call : Call α), Replaces events call.key i l l' → i < m →
      Happens events m q (.takeOver c) → q.calls[c]? = some call → call.phase = .exhausted l →
      q.isRunning l' = true →
      (q.registered? call.key = some l' ↔ ∀ j l'', j < m → ¬ Replaces events call.key j l' l'') ∧
      (q.registered? call.key = some l' → ∃ q', q.step (.takeOver c) = some q' ∧
        q'.works = q.works ∧
        q'.calls[c]? = some { call with phase := .joined l' (q.now + call.active.nanos) })) := by
  refine ⟨fun c call hc hon => ?_, fun c j q call l d hat hc hp => idle_of_delivered hrun hat hc hp,
    fun k k' i j l l₁ l₂ h h' => h.unique hrun h',
    fun i l l' c m q call hreplaced him hat hc hp hrunning => ?_⟩
  · obtain ⟨i, q, hcourse⟩ := course_of_run hrun c call hc
    refine ⟨hcourse.once, i, q, hcourse.cameIn, fun l => ?_, hcourse.again⟩
    rw [hcourse.first l, and_iff_right hon]
  · have hne : l ≠ l' := Nat.ne_of_lt hreplaced.lt
    -- What is registered later is what replaced the lease, unless it was replaced in turn.
    obtain ⟨e, r, r', hat', hstep, -, hheld, -⟩ := hreplaced
    obtain ⟨r'', hstep', hr'', -⟩ := hat'.next hrun
    obtain rfl : r'' = r' := Option.some.inj (hstep'.symm.trans hstep)
    exact ⟨registered?_iff_not_replaced hrun hr'' hheld him (Nat.le_of_lt hat.lt) hat.run hrunning,
      joined_of_registered? hat hrun hc hp hne⟩

/-- Four calls for one key. The second takes over from the first, which the third still follows then;
the fourth takes over from the second just before the third gives up. -/
def overtaken : List (CoopEvent Nat) :=
  [.arrive ⟨"a"⟩ ⟨2⟩ ⟨9⟩, .arrive ⟨"a"⟩ ⟨2⟩ ⟨9⟩, .tick 2, .arrive ⟨"a"⟩ ⟨2⟩ ⟨9⟩, .exhaust 1,
    .takeOver 1, .arrive ⟨"a"⟩ ⟨2⟩ ⟨9⟩, .tick 2, .exhaust 3, .takeOver 3, .exhaust 2, .takeOver 2]

/-- The fourth call takes over with the third lease, after it has followed the second in vain. -/
theorem overtaken_discipline : ∃ (s : Cooperation Nat) (call : Call Nat),
    ({} : Cooperation Nat).run overtaken = some s ∧ s.calls[3]? = some call ∧
      s.Works 3 2 true ∧ ∃ l j m, j < m ∧ GaveUp overtaken j 3 call l ∧
        TookOver overtaken m 3 call l 2 := by
  have hrun : ({} : Cooperation Nat).run overtaken = some _ := rfl
  obtain ⟨hcalls, -⟩ := work_discipline hrun
  obtain ⟨-, i, q, -, -, hagain⟩ := hcalls 3 _ rfl (by decide)
  obtain ⟨l, j, m, -, -, hjm, hgave, htook⟩ := hagain 2 rfl
  exact ⟨_, _, hrun, rfl, rfl, l, j, m, hjm, hgave, htook⟩

/-- A call can give up a lease while the work of its replacement runs, and not join that. All passive
timeouts are the same here, and all waits end on time. -/
theorem overtaken_not_shared : ∃ s, ({} : Cooperation Nat).run overtaken = some s ∧
    s.calls.all (fun call => call.passive.nanos = 2) = true ∧ Punctual overtaken ∧
    Replaces overtaken ⟨"a"⟩ 5 0 1 ∧
    ∃ q call, Happens overtaken 11 q (.takeOver 2) ∧ q.calls[2]? = some call ∧
      call.phase = .exhausted 0 ∧ q.isRunning 1 = true ∧
      s.calls[2]? = some { call with phase := .joined 2 13 } :=
  ⟨_, rfl, rfl, by decide, ⟨_, _, _, ⟨rfl, rfl⟩, rfl, rfl, rfl, by decide⟩,
    _, _, ⟨rfl, rfl⟩, rfl, rfl, rfl, rfl⟩

end PullCache.Cooperation
