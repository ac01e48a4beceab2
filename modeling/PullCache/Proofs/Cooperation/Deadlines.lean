import PullCache.Proofs.Cooperation.Discipline
/-!
# Proofs.Cooperation.Deadlines

How long a call waits that found a lease when it came in.

The model lets time pass whenever it likes. In a *timed* run (`Timed`) time passes only when nothing is
left that happens by itself, and never beyond the end of a wait; so every wait ends on time, if nothing
ends it before. Then a follower is at the end of its passive wait exactly its passive timeout after it
came in, takes over or joins at that instant, and is at the end of its second wait exactly its active
timeout later (`Timely`).

None of this hangs on what the leaders do. Time can always go on (`goes_on`), so the call does come to
its end.
-/

namespace PullCache

/-- When the second wait of a call that has to take over is at its end. -/
def Call.due {α : Type} (call : Call α) : Nat :=
  call.arrived + call.passive.nanos + call.active.nanos

/-- A lease without the count of those who follow it. -/
def Lease.uncounted {α : Type} (lease : Lease α) : Lease α :=
  { lease with waiters := 0 }

namespace Cooperation

variable {α : Type} {s s' q q' : Cooperation α} {e : CoopEvent α} {events : List (CoopEvent α)}
  {c l : Nat} {call : Call α}

/-! ## Runs on time -/

/-- The event puts nothing off: it lets time pass only if nothing is left that happens by itself, and
not beyond the end of a wait. -/
def PutsNothingOff (s : Cooperation α) (e : CoopEvent α) : Prop :=
  nanosOf e ≠ 0 →
    AtRest s ∧ ∀ call ∈ s.calls, ∀ d ∈ call.phase.deadline?, s.now + nanosOf e ≤ d

/-- Nothing in the run is put off. -/
def Timed (events : List (CoopEvent α)) : Prop :=
  ∀ i q e, Happens events i q e → q.PutsNothingOff e

/-- Only steps of the calls and leases that are there can be left at rest. -/
theorem atRest_iff : AtRest s ↔ (∀ l < s.leases.length, (s.release l).isNone) ∧
    ∀ c < s.calls.length, (s.deliver c).isNone ∧ (s.exhaust c).isNone ∧ (s.takeOver c).isNone ∧
      (s.timeOut c).isNone := by
  simp only [Option.isNone_iff_eq_none]
  constructor
  · intro h
    exact ⟨fun l _ => h (.release l) rfl, fun c _ => ⟨h (.deliver c) rfl, h (.exhaust c) rfl,
      h (.takeOver c) rfl, h (.timeOut c) rfl⟩⟩
  · rintro ⟨hleases, hcalls⟩ e he
    have hnone : ∀ {c}, ¬ c < s.calls.length → s.calls[c]? = none := by
      intro c hc
      exact List.getElem?_eq_none (Nat.le_of_not_lt hc)
    cases e with
    | release l =>
      by_cases hl : l < s.leases.length
      · exact hleases l hl
      · simp [step, release, hl]
    | deliver c | exhaust c | takeOver c | timeOut c =>
      by_cases hc : c < s.calls.length
      · simp [step, hcalls c hc]
      · simp [step, deliver, exhaust, takeOver, timeOut, hnone hc]
    | _ => contradiction

instance : Decidable (AtRest s) :=
  decidable_of_iff _ atRest_iff.symm

instance : Decidable (PutsNothingOff s e) :=
  inferInstanceAs (Decidable (nanosOf e ≠ 0 →
    AtRest s ∧ ∀ call ∈ s.calls, ∀ d ∈ call.phase.deadline?, s.now + nanosOf e ≤ d))

/-- A run is timed if no event of it puts anything off. -/
theorem timed_iff : Timed events ↔ ∀ i < events.length,
    ∀ q ∈ ({} : Cooperation α).run (events.take i), ∀ e ∈ events[i]?, q.PutsNothingOff e := by
  constructor
  · exact fun h i _ q hq e he => h i q e ⟨hq, he⟩
  · exact fun h i q e hat => h i hat.lt q hat.run e hat.event

instance : Decidable (Timed events) :=
  decidable_of_iff _ timed_iff.symm

/-- What happens at a place of a run that is longer by an event happened before, or is that event. -/
theorem happens_concat_cases {i : Nat} {e' : CoopEvent α}
    (hrun : ({} : Cooperation α).run events = some s) (h : Happens (events ++ [e]) i q e') :
    Happens events i q e' ∨ i = events.length ∧ q = s ∧ e' = e := by
  obtain ⟨hq, hevent⟩ := h
  obtain hevent | ⟨rfl, rfl⟩ := getElem?_concat_eq_some.mp hevent
  · have hlt := (List.getElem?_eq_some_iff.mp hevent).1
    rw [List.take_append_of_le_length (Nat.le_of_lt hlt)] at hq
    exact .inl ⟨hq, hevent⟩
  · rw [List.take_left, hrun, Option.some.injEq] at hq
    exact .inr ⟨rfl, hq.symm, rfl⟩

theorem Timed.of_concat (h : Timed (events ++ [e])) : Timed events :=
  fun i q e' hat => h i q e' hat.concat

theorem Timed.last (h : Timed (events ++ [e])) (hrun : ({} : Cooperation α).run events = some s) :
    s.PutsNothingOff e :=
  h events.length s e (happens_last hrun)

theorem Timed.concat (h : Timed events) (hrun : ({} : Cooperation α).run events = some s)
    (hlast : s.PutsNothingOff e) : Timed (events ++ [e]) := by
  intro i q e' hat
  obtain hbefore | ⟨-, rfl, rfl⟩ := happens_concat_cases hrun hat
  · exact h i q e' hbefore
  · exact hlast

/-- Events that take no time put nothing off. -/
theorem putsNothingOff_of_instant (h : nanosOf e = 0) : s.PutsNothingOff e :=
  fun hne => absurd h hne

/-- What is known at the start of a timed run and kept by each of its steps is known at its end. -/
theorem timed_history {I : List (CoopEvent α) → Cooperation α → Prop} (start : I [] {})
    (keeps : ∀ {events : List (CoopEvent α)} {q q' : Cooperation α} {e : CoopEvent α},
      ({} : Cooperation α).run events = some q → Timed (events ++ [e]) → I events q →
        q.step e = some q' → I (events ++ [e]) q')
    (hrun : ({} : Cooperation α).run events = some s) (htimed : Timed events) : I events s := by
  refine run_history (I := fun events s => Timed events → I events s) (fun _ => start) ?_ hrun htimed
  intro events q q' e hq ih hstep htimed
  exact keeps hq htimed (ih htimed.of_concat) hstep

/-! ## Where a call stands in time -/

/-- The waits of a call that follows end at set times, and are not over yet; a call whose passive wait
is over takes over at that instant. -/
structure Timely (s : Cooperation α) (call : Call α) : Prop where
  following : ∀ l d, call.phase = .following l d →
    d = call.arrived + call.passive.nanos ∧ s.now ≤ d
  exhausted : ∀ l, call.phase = .exhausted l → s.now = call.arrived + call.passive.nanos
  active : ∀ l d, call.phase = .leadingTakeover l d ∨ call.phase = .joined l d →
    d = call.due ∧ s.now ≤ d

/-- A call that is in no wait with an end. -/
theorem timely_of_unbounded (h : call.phase.deadline? = none)
    (hexhausted : ∀ l, call.phase ≠ .exhausted l) : Timely s call where
  following l d hp := by
    rw [hp] at h
    contradiction
  exhausted l hp := absurd hp (hexhausted l)
  active l d hp := by
    obtain hp | hp := hp <;> rw [hp] at h <;> contradiction

/-- In a step that puts nothing off, time does not go beyond the wait of a call. -/
theorem Timely.step (h : Timely s call) (hc : s.calls[c]? = some call) (hlast : s.PutsNothingOff e)
    (hstep : s.step e = some s') : Timely s' call := by
  have hnow := now_of_step hstep
  have hlimit : ∀ d, call.phase.deadline? = some d → s.now ≤ d → s'.now ≤ d := by
    intro d hd hle
    by_cases hzero : nanosOf e = 0
    · omega
    · have := (hlast hzero).2 call (List.mem_of_getElem? hc) d hd
      omega
  refine ⟨fun l d hp => ?_, fun l hp => ?_, fun l d hp => ?_⟩
  · obtain ⟨hd, hle⟩ := h.following l d hp
    exact ⟨hd, hlimit d (by rw [hp]; rfl) hle⟩
  · have hzero : nanosOf e = 0 := by
      by_contra hne
      exact ((hlast hne).1.pending hc).2 l hp
    rw [hnow, hzero, Nat.add_zero]
    exact h.exhausted l hp
  · obtain ⟨hd, hle⟩ := h.active l d hp
    exact ⟨hd, hlimit d (by obtain hp | hp := hp <;> rw [hp] <;> rfl) hle⟩

/-- A call that comes in is in time. -/
theorem Entry.timely {k : Key} {passive active : Duration} {phase : CallPhase α}
    (h : Entry s s' k passive phase) (hnow : s'.now = s.now) :
    Timely s' ⟨k, passive, active, s.now, phase⟩ := by
  cases h with
  | alone off => exact timely_of_unbounded rfl nofun
  | leads on free births => exact timely_of_unbounded rfl nofun
  | follows l on held =>
    refine ⟨?_, nofun, by simp⟩
    rintro l' d ⟨⟩
    exact ⟨rfl, by omega⟩

/-- A call that moves is in time for its next deadline. -/
theorem CallMove.timely {phase : CallPhase α} (h : CallMove s s' c call e phase)
    (htimely : Timely s call) (hnow : s'.now = s.now) : Timely s' { call with phase } := by
  cases h with
  | delivered | timedOut | dropped => exact timely_of_unbounded rfl nofun
  | finished outcome =>
    cases outcome with
    | some result => exact timely_of_unbounded rfl nofun
    | none => exact timely_of_unbounded rfl nofun
  | exhausted l d hphase due pending =>
    obtain ⟨rfl, hle⟩ := htimely.following l d hphase
    refine ⟨nofun, ?_, by simp⟩
    rintro l' ⟨⟩
    exact hnow.trans (Nat.le_antisymm hle due)
  | led l hphase free births =>
    have hlate := htimely.exhausted l hphase
    refine ⟨nofun, nofun, fun l' d hp => ?_⟩
    simp only [CallPhase.leadingTakeover.injEq, reduceCtorEq, or_false] at hp
    simp only [Call.due]
    omega
  | joined l other hphase ne held =>
    have hlate := htimely.exhausted l hphase
    refine ⟨nofun, nofun, fun l' d hp => ?_⟩
    simp only [CallPhase.joined.injEq, reduceCtorEq, false_or] at hp
    simp only [Call.due]
    omega

/-- Only calls that do not move can see time pass. -/
theorem CallMove.instant {phase : CallPhase α} (h : CallMove s s' c call e phase) :
    nanosOf e = 0 := by
  cases h <;> rfl

/-- In every state of a timed run all calls are in time. -/
theorem timely_of_run (hrun : ({} : Cooperation α).run events = some s) (htimed : Timed events) :
    ∀ (c : Nat) (call : Call α), s.calls[c]? = some call → Timely s call := by
  refine timed_history (I := fun _ s => ∀ (c : Nat) (call : Call α), s.calls[c]? = some call →
    Timely s call) (fun c call hc => by simp at hc) ?_ hrun htimed
  intro events q q' e hq htimed ih hstep c call hc
  have hnow := now_of_step hstep
  obtain hc | ⟨rfl, k, passive, active, phase, rfl, entry, rfl⟩ | ⟨before, phase, found, move, rfl⟩ :=
    (step_calls hstep).before hc
  · exact (ih c call hc).step hc (htimed.last hq) hstep
  · exact entry.timely hnow
  · exact move.timely (ih c before found) (by rw [hnow, move.instant, Nat.add_zero])

/-! ## Calls that found a lease -/

/-- There was a lease for its key when the call came in, and it shares work. -/
def FoundLease (events : List (CoopEvent α)) (c : Nat) (call : Call α) : Prop :=
  ∃ i q, CameIn events i q c call ∧ call.passive.nanos ≠ 0 ∧ ∃ l, q.registered? call.key = some l

theorem length_calls_le_of_step (h : s.step e = some s') : s.calls.length ≤ s'.calls.length := by
  cases step_calls h with
  | same calls => rw [calls]
  | arrived k passive active phase entry calls => rw [calls, List.length_append]; omega
  | move c call phase found move calls => rw [calls, List.length_modify]

theorem length_calls_le_of_run (h : s.run events = some s') : s.calls.length ≤ s'.calls.length :=
  run_history (I := fun _ q => s.calls.length ≤ q.calls.length) (Nat.le_refl _)
    (fun _ hle hstep => Nat.le_trans hle (length_calls_le_of_step hstep)) h

/-- A call that came in is one of the calls from then on. -/
theorem CameIn.lt {i : Nat} (h : CameIn events i q c call)
    (hrun : ({} : Cooperation α).run events = some s) : c < s.calls.length := by
  obtain ⟨q', hstep, -, hrest⟩ := h.happens.next hrun
  have hnew : q'.calls.length = q.calls.length + 1 := by
    cases hstep
    obtain ⟨-, harrive⟩ | ⟨-, l, -, harrive⟩ | ⟨-, -, harrive⟩ :=
      arrive_cases q call.key call.passive call.active
    all_goals simp [harrive]
  have hnumber := h.number
  have hle := length_calls_le_of_run hrest
  omega

/-- In a run that is longer by an event, a call came in before that event or with it. -/
theorem cameIn_concat_cases {i : Nat} {r : Cooperation α}
    (hrun : ({} : Cooperation α).run events = some q)
    (h : CameIn (events ++ [e]) i r c call) :
    CameIn events i r c call ∨ r = q ∧ q.calls.length = c := by
  obtain hbefore | ⟨-, rfl, -⟩ := happens_concat_cases hrun h.happens
  · exact .inl ⟨hbefore, h.number, h.arrived⟩
  · exact .inr ⟨rfl, h.number⟩

/-- A call that found a lease never waits without an end. -/
theorem FoundLease.bounded (hrun : ({} : Cooperation α).run events = some s)
    (hc : s.calls[c]? = some call) (hfound : FoundLease events c call) :
    call.phase ≠ .alone ∧ ∀ l, call.phase ≠ .leading l := by
  refine run_history (I := fun events s => ∀ (c : Nat) (call : Call α), s.calls[c]? = some call →
    FoundLease events c call → call.phase ≠ .alone ∧ ∀ l, call.phase ≠ .leading l)
    (fun c call hc => by simp at hc) ?_ hrun c call hc hfound
  intro events q q' e hq ih hstep c call hc' hfound
  obtain ⟨i, r, hcame, hon, l, hl⟩ := hfound
  have hplace := cameIn_concat_cases hq hcame
  obtain hc | ⟨rfl, k, passive, active, phase, rfl, entry, rfl⟩ | ⟨before, phase, hc, move, rfl⟩ :=
    (step_calls hstep).before hc'
  · have hlt := (List.getElem?_eq_some_iff.mp hc).1
    obtain hin | ⟨-, hnumber⟩ := hplace
    · exact ih c call hc ⟨i, r, hin, hon, l, hl⟩
    · omega
  · obtain hin | ⟨rfl, -⟩ := hplace
    · exact absurd (hin.lt hq) (Nat.lt_irrefl _)
    · cases entry with
      | alone off => contradiction
      | follows => simp
      | leads on free =>
        rw [free] at hl
        contradiction
  · have hlt := (List.getElem?_eq_some_iff.mp hc).1
    obtain hin | ⟨-, hnumber⟩ := hplace
    · cases move with
      | finished outcome halone =>
        have hbefore := ih c before hc ⟨i, r, ⟨hin.happens, hin.number, hin.arrived⟩, hon, l, hl⟩
        exact absurd halone hbefore.1
      | delivered | exhausted | led | joined | timedOut | dropped => simp
    · omega

/-! ## The end of the waits -/

/-- At rest, no wait is at its end: it would run out. -/
theorem AtRest.lt_deadline (h : AtRest s) (hc : s.calls[c]? = some call) {d : Nat}
    (hd : call.phase.deadline? = some d) : s.now < d := by
  have hpending := (h.pending hc).1
  by_contra hover
  have hdue : d ≤ s.now := Nat.le_of_not_lt hover
  cases hp : call.phase with
  | following l d' =>
    obtain rfl : d' = d := by simpa [hp, CallPhase.deadline?] using hd
    have hstep := exhaust_eq_some.mpr
      ⟨call, l, d', hc, hp, hdue, hpending l (by simp [hp, CallPhase.lease?]), rfl⟩
    rw [show s.exhaust c = none from h (.exhaust c) rfl] at hstep
    contradiction
  | leadingTakeover l d' | joined l d' =>
    obtain rfl : d' = d := by simpa [hp, CallPhase.deadline?] using hd
    have hstep := timeOut_eq_some.mpr
      ⟨call, l, d', hc, by simp [hp], hdue, hpending l (by simp [hp, CallPhase.lease?]), rfl⟩
    rw [show s.timeOut c = none from h (.timeOut c) rfl] at hstep
    contradiction
  | _ => simp [hp, CallPhase.deadline?] at hd

/-- A call that found a lease and still goes on is not beyond its two waits, and at rest it is not at
the end of them either. -/
theorem FoundLease.in_time (hrun : ({} : Cooperation α).run events = some s)
    (htimed : Timed events) (hc : s.calls[c]? = some call) (hfound : FoundLease events c call)
    (hlive : call.phase.isLive = true) :
    s.now ≤ call.due ∧ (AtRest s → s.now < call.due) := by
  have htimely := timely_of_run hrun htimed c call hc
  obtain ⟨halone, hleading⟩ := hfound.bounded hrun hc
  cases hp : call.phase with
  | following l d =>
    obtain ⟨hd, hle⟩ := htimely.following l d hp
    have hbefore : AtRest s → s.now < d := fun hrest => hrest.lt_deadline hc (by rw [hp]; rfl)
    simp only [Call.due]
    grind
  | exhausted l =>
    have hnow := htimely.exhausted l hp
    have hnever : ¬ AtRest s := fun hrest => (hrest.pending hc).2 l hp
    simp only [Call.due]
    grind
  | leadingTakeover l d =>
    obtain ⟨rfl, hle⟩ := htimely.active l d (.inl hp)
    exact ⟨hle, fun hrest => hrest.lt_deadline hc (by rw [hp]; rfl)⟩
  | joined l d =>
    obtain ⟨rfl, hle⟩ := htimely.active l d (.inr hp)
    exact ⟨hle, fun hrest => hrest.lt_deadline hc (by rw [hp]; rfl)⟩
  | leading l => exact absurd hp (hleading l)
  | alone => exact absurd hp halone
  | returned | panicked | dropped => simp [hp, CallPhase.isLive] at hlive

/-! ## How calls end -/

/-- At a place of the run the second wait of the call runs out: it is due, and the lease that it leads
or has joined since it took over has published nothing. -/
def RanOut (events : List (CoopEvent α)) (i c : Nat) (call : Call α) : Prop :=
  ∃ q l phase, Happens events i q (.timeOut c) ∧ q.now = call.due ∧ q.outcome? l = none ∧
    q.calls[c]? = some { call with phase } ∧
    (phase = .leadingTakeover l call.due ∨ phase = .joined l call.due)

/-- A call that has come to an end did so by a move at some place of the run. -/
theorem moved_of_ended (hrun : ({} : Cooperation α).run events = some s)
    (hc : s.calls[c]? = some call) (hended : call.phase.isLive = false) :
    ∃ i q q' e before, Happens events i q e ∧ q.step e = some q' ∧
      q.calls[c]? = some { call with phase := before } ∧
      CallMove q q' c { call with phase := before } e call.phase := by
  refine run_history (I := fun events s => ∀ (c : Nat) (call : Call α), s.calls[c]? = some call →
    call.phase.isLive = false → ∃ i q q' e before, Happens events i q e ∧ q.step e = some q' ∧
      q.calls[c]? = some { call with phase := before } ∧
      CallMove q q' c { call with phase := before } e call.phase)
    (fun c call hc => by simp at hc) ?_ hrun c call hc hended
  intro events r r' e hr ih hstep c call hc' hended
  obtain hc | ⟨rfl, k, passive, active, phase, rfl, entry, rfl⟩ | ⟨before, phase, hc, move, rfl⟩ :=
    (step_calls hstep).before hc'
  · obtain ⟨i, q, q', e', before, hat, hmove⟩ := ih c call hc hended
    exact ⟨i, q, q', e', before, hat.concat, hmove⟩
  · cases entry <;> simp [CallPhase.isLive] at hended
  · exact ⟨events.length, r, r', e, before.phase, happens_last hr, hstep, hc, move⟩

/-- What happens in the first part of a run happens in the run. -/
theorem Happens.of_take {i j : Nat} (h : Happens (events.take j) i q e) : Happens events i q e := by
  have hlt : i < j := by
    have := h.lt
    rw [List.length_take] at this
    omega
  obtain ⟨hrun, hevent⟩ := h
  rw [List.take_take, Nat.min_eq_left (Nat.le_of_lt hlt)] at hrun
  rw [List.getElem?_take_of_lt hlt] at hevent
  exact ⟨hrun, hevent⟩

theorem Timed.take (h : Timed events) (j : Nat) : Timed (events.take j) :=
  fun i q e hat => h i q e hat.of_take

/-- A call that shares work returns the outcome of a lease of its key that it waited on, or its second
wait has run out, just when it was due. -/
theorem answered_or_ranOut (hrun : ({} : Cooperation α).run events = some s)
    (htimed : Timed events) (hc : s.calls[c]? = some call) (hon : call.passive.nanos ≠ 0)
    {result : Except Fault α} (hresult : call.phase = .returned result) :
    (∃ l, AnsweredBy events c l ∧ s.IsFor l call.key ∧ s.outcome? l = some result) ∨
      result = .error (.timedOut call.key.text call.active) ∧ ∃ i, RanOut events i c call := by
  obtain ⟨i, q, q', e, before, hat, hstep, hbefore, hmove⟩ :=
    moved_of_ended hrun hc (by rw [hresult]; rfl)
  obtain ⟨r, hr, hrest⟩ := run_split i hrun
  obtain rfl : r = q := Option.some.inj (hr.symm.trans hat.run)
  have hserved := served_of_run hat.run c _ hbefore
  generalize hphase : call.phase = phase at hmove
  rw [hresult] at hphase
  cases hmove with
  | delivered l outcome waits published =>
    cases hphase
    exact .inl ⟨l, ⟨i, hat.event, r, _, hat.run, hbefore, waits⟩,
      (hserved.waits l waits).of_run hrest, outcome?_of_run hrest published⟩
  | timedOut l d hwaits due pending =>
    cases hphase
    obtain ⟨rfl, hle⟩ := (timely_of_run hat.run (htimed.take i) c _ hbefore).active l d hwaits
    exact .inr ⟨rfl, i, r, l, before, hat, Nat.le_antisymm hle due, pending, hbefore, hwaits⟩
  | finished outcome halone => exact absurd (hserved.alone halone) hon
  | exhausted | led | joined | dropped => contradiction

/-- A call that shares work does not panic with it. -/
theorem not_panicked (hrun : ({} : Cooperation α).run events = some s)
    (hc : s.calls[c]? = some call) (hon : call.passive.nanos ≠ 0) : call.phase ≠ .panicked := by
  intro hpanicked
  obtain ⟨i, q, q', e, before, hat, hstep, hbefore, hmove⟩ :=
    moved_of_ended hrun hc (by rw [hpanicked]; rfl)
  rw [hpanicked] at hmove
  have hserved := served_of_run hat.run c _ hbefore
  generalize hphase : (CallPhase.panicked : CallPhase α) = phase at hmove
  cases hmove with
  | finished outcome halone => exact hon (hserved.alone halone)
  | delivered | timedOut | exhausted | led | joined | dropped => contradiction

/-- A call is dropped when its client goes away. -/
theorem drop_of_dropped (hrun : ({} : Cooperation α).run events = some s)
    (hc : s.calls[c]? = some call) (hdropped : call.phase = .dropped) :
    ∃ i q, Happens events i q (.drop c) := by
  obtain ⟨i, q, q', e, before, hat, hstep, hbefore, hmove⟩ :=
    moved_of_ended hrun hc (by rw [hdropped]; rfl)
  generalize hphase : call.phase = phase at hmove
  rw [hdropped] at hphase
  cases hmove with
  | dropped => exact ⟨i, q, hat⟩
  | finished outcome => cases outcome <;> contradiction
  | delivered | timedOut | exhausted | led | joined => contradiction

/-! ## Calls are told at once -/

/-- What becomes of a call that waits when the work of its lease ends: it goes on waiting within the
instant, its client goes away, or it returns the outcome within the instant. -/
inductive Told (events : List (CoopEvent α)) (s : Cooperation α) (j now c l : Nat) (call : Call α)
    (outcome : Except Fault α) : Prop where
  | waits (found : s.calls[c]? = some call) (instant : s.now = now)
      (published : s.outcome? l = some outcome) :
    Told events s j now c l call outcome
  | dropped (m : Nat) (r : Cooperation α) (later : j < m) (drops : Happens events m r (.drop c))
      (instant : r.now = now) (found : s.calls[c]? = some { call with phase := .dropped }) :
    Told events s j now c l call outcome
  | returned (m : Nat) (r : Cooperation α) (later : j < m) (delivers : Happens events m r (.deliver c))
      (instant : r.now = now) (found : s.calls[c]? = some { call with phase := .returned outcome }) :
    Told events s j now c l call outcome

/-- A call whose lease has its outcome can only return it or be dropped, and no time passes until
then. -/
theorem Told.step {j now : Nat} {outcome : Except Fault α} (h : Told events s j now c l call outcome)
    (hrun : ({} : Cooperation α).run events = some s) (hj : j < events.length)
    (hwaits : call.phase.lease? = some l) (hlast : s.PutsNothingOff e) (hstep : s.step e = some s') :
    Told (events ++ [e]) s' j now c l call outcome := by
  -- A wait that is over stays over; while one goes on, time stands still, for nothing is put off.
  cases h with
  | dropped m r later drops instant found =>
    obtain ⟨phase, hc, hsame⟩ := call_of_step hstep found
    rw [hsame rfl] at hc
    exact .dropped m r later drops.concat instant hc
  | returned m r later delivers instant found =>
    obtain ⟨phase, hc, hsame⟩ := call_of_step hstep found
    rw [hsame rfl] at hc
    exact .returned m r later delivers.concat instant hc
  | waits found instant published =>
    have hzero : nanosOf e = 0 := by
      by_contra hne
      have hpending := ((hlast hne).1.pending found).1 l hwaits
      rw [published] at hpending
      contradiction
    have hnow : s'.now = now := by rw [now_of_step hstep, hzero, Nat.add_zero, instant]
    have hpublished := outcome?_of_step hstep published
    cases step_calls hstep with
    | same calls => exact .waits (by rw [calls, found]) hnow hpublished
    | arrived k passive active phase entry calls =>
      have hlt := (List.getElem?_eq_some_iff.mp found).1
      exact .waits (by rw [calls, List.getElem?_append_left hlt, found]) hnow hpublished
    | move c' before phase hbefore move calls =>
      by_cases hcc : c' = c
      · subst hcc
        obtain rfl : before = call := Option.some.inj (hbefore.symm.trans found)
        have hc : s'.calls[c']? = some { before with phase } := by
          rw [calls, List.getElem?_modify_eq, found]
          rfl
        cases move with
        | delivered l' outcome' waits' published' =>
          obtain rfl : l' = l := Option.some.inj (waits'.symm.trans hwaits)
          obtain rfl : outcome' = outcome := Option.some.inj (published'.symm.trans published)
          exact .returned events.length s hj (happens_last hrun) instant hc
        | dropped => exact .dropped events.length s hj (happens_last hrun) instant hc
        | exhausted l' d hphase due pending =>
          obtain rfl : l' = l := by simpa [hphase, CallPhase.lease?] using hwaits
          simp [published] at pending
        | timedOut l' d hphase due pending =>
          obtain rfl : l' = l := by
            obtain hphase | hphase := hphase <;> simpa [hphase, CallPhase.lease?] using hwaits
          simp [published] at pending
        | led l' hphase | joined l' other hphase | finished result hphase =>
          simp [hphase, CallPhase.lease?] at hwaits
      · exact .waits (by rw [calls, List.getElem?_modify_ne _ _ hcc, found]) hnow hpublished

/-- What a follower is told when the work ends, at every later state of the run. -/
theorem told_of_run (hrun : ({} : Cooperation α).run events = some s) (htimed : Timed events)
    {j : Nat} {result : Option (Except Fault α)} {lease : Lease α}
    (hat : Happens events j q (.publish l result)) (hlease : q.leases[l]? = some lease)
    (hc : q.calls[c]? = some call) (hwaits : call.phase.lease? = some l) :
    Told events s j q.now c l call (written lease result) := by
  refine timed_history (I := fun events s => Happens events j q (.publish l result) →
    Told events s j q.now c l call (written lease result)) (fun hat => absurd hat.lt (Nat.not_lt_zero j))
    ?_ hrun htimed hat
  intro events r r' e hr htimed ih hstep hat
  obtain hbefore | ⟨rfl, rfl, rfl⟩ := happens_concat_cases hr hat
  · exact (ih hbefore).step hr hbefore.lt hwaits (htimed.last hr) hstep
  · obtain ⟨found, hfound, -, rfl⟩ := publish_eq_some.mp hstep
    obtain rfl : found = lease := Option.some.inj (hfound.symm.trans hlease)
    refine .waits hc rfl ?_
    rw [outcome?, List.getElem?_modify_eq, hlease]
    rfl

/-- When the instant is over, or nothing is left that happens by itself, the call has been told. -/
theorem Told.over {j now : Nat} {outcome : Except Fault α} (h : Told events s j now c l call outcome)
    (hwaits : call.phase.lease? = some l) (hover : now < s.now ∨ AtRest s) :
    (s.calls[c]? = some { call with phase := .dropped } ∧
      ∃ m r, j < m ∧ Happens events m r (.drop c) ∧ r.now = now) ∨
    ∃ m r, j < m ∧ Happens events m r (.deliver c) ∧ r.now = now ∧
      s.calls[c]? = some { call with phase := .returned outcome } := by
  cases h with
  | waits found instant published =>
    obtain hlt | hrest := hover
    · omega
    · have hpending := (hrest.pending found).1 l hwaits
      rw [published] at hpending
      contradiction
  | dropped m r later drops instant found => exact .inl ⟨found, m, r, later, drops, instant⟩
  | returned m r later delivers instant found => exact .inr ⟨m, r, later, delivers, instant, found⟩

/-! ## Giving up touches nobody else -/

/-- Only the number of those who wait on a lease changes when a call stops to wait. -/
theorem uncounted_leave (phase next : CallPhase α) :
    (s.leave c phase next).leases.map Lease.uncounted = s.leases.map Lease.uncounted := by
  rw [leave_eq]
  cases phase.followed? with
  | none => rfl
  | some l =>
    exact map_modify_of_keeps (v := Lease.uncounted)
      (f := fun lease => { lease with waiters := lease.waiters + -1 }) (fun _ => rfl) s.leases l

/-- A call whose second wait runs out leaves the table, the work that runs and all other calls as they
are. -/
theorem timeOut_keeps (h : s.step (.timeOut c) = some s') :
    s'.table = s.table ∧ s'.leases.map Lease.uncounted = s.leases.map Lease.uncounted ∧
      s'.now = s.now ∧ ∀ c' ≠ c, s'.calls[c']? = s.calls[c']? := by
  obtain ⟨call, l, d, -, -, -, -, rfl⟩ := timeOut_eq_some.mp h
  refine ⟨leave_table .., uncounted_leave .., leave_now .., fun c' hne => ?_⟩
  rw [leave_calls, List.getElem?_modify_ne _ _ (Ne.symm hne)]

/-! ## Time goes on -/

/-- The events of a run in which clients and work do nothing. -/
def isQuiet : CoopEvent α → Bool
  | .tick _ => true
  | e => isReady e

/-- Whatever can happen by itself can happen at once. -/
theorem exists_atRest (hrun : ({} : Cooperation α).run events = some s) (htimed : Timed events) :
    ∃ later s', (∀ e ∈ later, isQuiet e = true) ∧ ({} : Cooperation α).run (events ++ later) = some s' ∧
      Timed (events ++ later) ∧ s'.now = s.now ∧ AtRest s' := by
  induction hn : s.readySteps using Nat.strong_induction_on generalizing events s with
  | _ n ih =>
    by_cases hrest : AtRest s
    · exact ⟨[], s, by simp, by simpa using hrun, by simpa using htimed, rfl, hrest⟩
    · simp only [AtRest, not_forall] at hrest
      obtain ⟨e, he, hsome⟩ := hrest
      obtain ⟨q, hstep⟩ := Option.ne_none_iff_exists'.mp hsome
      have hzero : nanosOf e = 0 := by cases e <;> simp [isReady] at he <;> rfl
      have hquiet : isQuiet e = true := by cases e <;> simp [isReady] at he <;> rfl
      have hlt := readySteps_lt_of_step he hstep
      have hnext : ({} : Cooperation α).run (events ++ [e]) = some q :=
        run_concat_eq_some.mpr ⟨s, hrun, hstep⟩
      obtain ⟨later, s', hlater, hrun', htimed', hnow, hrest⟩ := ih q.readySteps (by omega) hnext
        (htimed.concat hrun (putsNothingOff_of_instant hzero)) rfl
      rw [List.append_assoc, List.singleton_append] at hrun' htimed'
      have hnow' := now_of_step hstep
      refine ⟨e :: later, s', ?_, hrun', htimed', by omega, hrest⟩
      simpa using ⟨hquiet, hlater⟩

/-- Without anything that clients or work do, time can go on to any instant, and everything that is
left to happen by then happens. -/
theorem goes_on (hrun : ({} : Cooperation α).run events = some s) (htimed : Timed events) {t : Nat}
    (ht : s.now ≤ t) :
    ∃ later s', (∀ e ∈ later, isQuiet e = true) ∧ ({} : Cooperation α).run (events ++ later) = some s' ∧
      Timed (events ++ later) ∧ s'.now = t ∧ AtRest s' := by
  induction hn : t - s.now generalizing events s with
  | zero =>
    obtain ⟨later, s', hlater, hrun', htimed', hnow, hrest⟩ := exists_atRest hrun htimed
    exact ⟨later, s', hlater, hrun', htimed', by omega, hrest⟩
  | succ n ih =>
    obtain ⟨before, q, hbefore, hq, htimed', hnow, hrest⟩ := exists_atRest hrun htimed
    -- At rest every wait has at least a nanosecond left.
    have htick : q.PutsNothingOff (.tick 1) := fun _ => ⟨hrest, fun call hcall d hd => by
      obtain ⟨c, hc⟩ := List.getElem?_of_mem hcall
      exact hrest.lt_deadline hc hd⟩
    have hnext : ({} : Cooperation α).run (events ++ before ++ [.tick 1]) =
        some { q with now := q.now + 1 } := run_concat_eq_some.mpr ⟨q, hq, rfl⟩
    obtain ⟨after, s', hafter, hrun', htimed'', hnow', hrest'⟩ :=
      ih hnext (htimed'.concat hq htick) (by simp only; omega) (by simp only; omega)
    simp only [List.append_assoc] at hrun' htimed''
    refine ⟨before ++ ([.tick 1] ++ after), s', ?_, hrun', htimed'', hnow', hrest'⟩
    intro e he
    simp only [List.mem_append, List.mem_singleton] at he
    obtain he | rfl | he := he
    · exact hbefore e he
    · rfl
    · exact hafter e he

/-! ## The deadlines of followers -/

/-- **Deadlines of followers.** In every run in which nothing is put off:

* A call that shares work and found a lease when it came in goes on no longer than its passive and its
  active timeout after that, whatever the leaders do; when nothing is left to happen then, it has come
  to an end. Unless its client went away, it has returned the outcome of a lease of its key that it
  waited on, or that its second wait ran out: exactly when that was due, with nothing published by the
  lease it led or had joined.
* A call that waits on a lease when its work ends returns the outcome at that instant, unless its
  client goes away first, at that instant too.
* A call whose second wait runs out changes neither the table nor the work that runs.
* Time can go on to every instant, with nothing done by clients or work. -/
theorem followers_meet_deadlines (hrun : ({} : Cooperation α).run events = some s)
    (htimed : Timed events) :
    (∀ (c : Nat) (call : Call α), s.calls[c]? = some call → FoundLease events c call →
      (call.phase.isLive = true → s.now ≤ call.due ∧ (AtRest s → s.now < call.due)) ∧
      (call.phase.isLive = false →
        (call.phase = .dropped ∧ ∃ i q, Happens events i q (.drop c)) ∨
        ∃ result, call.phase = .returned result ∧
          ((∃ l, AnsweredBy events c l ∧ s.IsFor l call.key ∧ s.outcome? l = some result) ∨
            result = .error (.timedOut call.key.text call.active) ∧ ∃ i, RanOut events i c call))) ∧
    (∀ j q l result lease c (call : Call α), Happens events j q (.publish l result) →
      q.leases[l]? = some lease → q.calls[c]? = some call → call.phase.lease? = some l →
      q.now < s.now ∨ AtRest s →
      (s.calls[c]? = some { call with phase := .dropped } ∧
        ∃ m r, j < m ∧ Happens events m r (.drop c) ∧ r.now = q.now) ∨
      ∃ m r, j < m ∧ Happens events m r (.deliver c) ∧ r.now = q.now ∧
        s.calls[c]? = some { call with phase := .returned (written lease result) }) ∧
    (∀ i q c, Happens events i q (.timeOut c) → ∃ q', q.step (.timeOut c) = some q' ∧
      q'.table = q.table ∧ q'.leases.map Lease.uncounted = q.leases.map Lease.uncounted ∧
      q'.now = q.now ∧ ∀ c' ≠ c, q'.calls[c']? = q.calls[c']?) ∧
    ∀ t, s.now ≤ t → ∃ later s', (∀ e ∈ later, isQuiet e = true) ∧
      ({} : Cooperation α).run (events ++ later) = some s' ∧ Timed (events ++ later) ∧ s'.now = t ∧
      AtRest s' := by
  refine ⟨fun c call hc hfound => ⟨hfound.in_time hrun htimed hc, fun hended => ?_⟩,
    fun j q l result lease c call hat hlease hc hwaits hover =>
      (told_of_run hrun htimed hat hlease hc hwaits).over hwaits hover,
    fun i q c hat => ?_, fun t ht => goes_on hrun htimed ht⟩
  · obtain ⟨i, q, hcame, hon, -⟩ := hfound
    cases hp : call.phase with
    | dropped => exact .inl ⟨rfl, drop_of_dropped hrun hc hp⟩
    | returned result => exact .inr ⟨result, rfl, answered_or_ranOut hrun htimed hc hon hp⟩
    | panicked => exact absurd hp (not_panicked hrun hc hon)
    | _ => simp [hp, CallPhase.isLive] at hended
  · obtain ⟨q', hstep, -⟩ := hat.next hrun
    exact ⟨q', hstep, timeOut_keeps hstep⟩

/-- The second call follows the work of the first for 2, takes over, and gives up after 3 more; the work
of the first call ends in between. -/
def patienceLost : List (CoopEvent Nat) :=
  [.arrive ⟨"a"⟩ ⟨2⟩ ⟨3⟩, .arrive ⟨"a"⟩ ⟨2⟩ ⟨3⟩, .tick 2, .exhaust 1, .takeOver 1, .tick 1,
    .publish 0 (some (.ok 7)), .deliver 0, .release 0, .tick 2, .timeOut 1]

/-- The first call is told at 3, when its work ends, and the second one gives up when it is due at 5. -/
theorem patienceLost_deadlines : ∃ (s : Cooperation Nat) (call : Call Nat),
    ({} : Cooperation Nat).run patienceLost = some s ∧ Timed patienceLost ∧
      s.calls[1]? = some call ∧ FoundLease patienceLost 1 call ∧ call.due = 5 ∧
      call.phase = .returned (.error (.timedOut "a" ⟨3⟩)) ∧ (∃ i, RanOut patienceLost i 1 call) ∧
      ∃ m r, 6 < m ∧ Happens patienceLost m r (.deliver 0) ∧ r.now = 3 ∧
        s.calls[0]? = some ⟨⟨"a"⟩, ⟨2⟩, ⟨3⟩, 0, .returned (.ok 7)⟩ := by
  have hrun : ({} : Cooperation Nat).run patienceLost = some _ := rfl
  have htimed : Timed patienceLost := by decide
  have hfound : FoundLease patienceLost 1
      ⟨⟨"a"⟩, ⟨2⟩, ⟨3⟩, 0, .returned (.error (.timedOut "a" ⟨3⟩))⟩ :=
    ⟨1, _, ⟨⟨rfl, rfl⟩, rfl, rfl⟩, by decide, 0, rfl⟩
  obtain ⟨hcalls, htold, -⟩ := followers_meet_deadlines hrun htimed
  obtain ⟨hdropped, -⟩ | ⟨result, ⟨⟩, ⟨l, ⟨k, hanswered, -⟩, -⟩ | ⟨-, hranOut⟩⟩ :=
    (hcalls 1 _ rfl hfound).2 rfl
  · contradiction
  · have hmem := List.mem_of_getElem? hanswered
    simp [patienceLost] at hmem
  · have hat : Happens patienceLost 6 _ (.publish 0 (some (.ok 7))) := ⟨rfl, rfl⟩
    obtain ⟨hdropped, -⟩ | hreturned := htold 6 _ 0 _ _ 0 _ hat rfl rfl rfl (.inl (by decide))
    · have hphase : CallPhase.returned (.ok 7) = .dropped :=
        congrArg Call.phase (Option.some.inj hdropped)
      contradiction
    · exact ⟨_, _, hrun, htimed, rfl, hfound, rfl, rfl, hranOut, hreturned⟩

end Cooperation

end PullCache
