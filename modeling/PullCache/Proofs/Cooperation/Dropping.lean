import PullCache.Proofs.Cooperation.Deadlines
/-!
# Proofs.Cooperation.Dropping

What the others notice when the client of a call goes away.

Two states *agree but for a call* (`AgreeBut`) if they show the same time, the same table, the same
work and the same other calls; how many followers are counted on a lease may differ. Whatever is not a
step of that call is then possible in both or in neither, and they agree again afterwards
(`AgreeBut.step`). A step of the call itself changes nothing that the others see, unless the call takes
over (`agreeBut_of_own`). So a call that cannot take over any more, or not yet, can go away at any time:
every way in which the run goes on is still there, without the steps of that call, and there is no new
one (`drop_unnoticed`).
-/

namespace PullCache

/-- In this phase a call does not take over up to an instant: it is not about to, and if it follows,
its passive wait lasts longer. -/
def CallPhase.StaysUntil {α : Type} (instant : Nat) (phase : CallPhase α) : Prop :=
  (∀ l, phase ≠ .exhausted l) ∧ ∀ l d, phase = .following l d → instant < d

namespace Cooperation

variable {α : Type} {s s' t t' : Cooperation α} {e : CoopEvent α}
  {before events : List (CoopEvent α)} {c l : Nat} {call : Call α}

/-- The events of a run that are not steps of a call. -/
def without (c : Nat) (events : List (CoopEvent α)) : List (CoopEvent α) :=
  events.filter fun e => e.call? ≠ some c

theorem without_concat_of_ne (h : e.call? ≠ some c) :
    without c (events ++ [e]) = without c events ++ [e] := by
  simp [without, h]

/-- The last event of a run goes if it is one of the call. -/
theorem without_concat_of_eq (h : e.call? = some c) :
    without c (events ++ [e]) = without c events := by
  simp [without, h]

/-! ## States that agree but for a call -/

/-- Two states that show the same to everyone but a call. Only that call and the number of followers
that are counted may differ. -/
structure AgreeBut (c : Nat) (s t : Cooperation α) : Prop where
  now : t.now = s.now
  table : t.table = s.table
  works : t.leases.map Lease.uncounted = s.leases.map Lease.uncounted
  arrivals : t.calls.length = s.calls.length
  calls : ∀ i ≠ c, t.calls[i]? = s.calls[i]?

namespace AgreeBut

theorem refl (c : Nat) (s : Cooperation α) : AgreeBut c s s :=
  ⟨rfl, rfl, rfl, rfl, fun _ _ => rfl⟩

theorem symm (h : AgreeBut c s t) : AgreeBut c t s :=
  ⟨h.now.symm, h.table.symm, h.works.symm, h.arrivals.symm, fun i hi => (h.calls i hi).symm⟩

theorem trans (h : AgreeBut c s t) (h' : AgreeBut c t t') : AgreeBut c s t' :=
  ⟨h'.now.trans h.now, h'.table.trans h.table, h'.works.trans h.works, h'.arrivals.trans h.arrivals,
    fun i hi => (h'.calls i hi).trans (h.calls i hi)⟩

theorem registered?_eq (h : AgreeBut c s t) (k : Key) : t.registered? k = s.registered? k := by
  rw [registered?, registered?, h.table]

theorem leases_length (h : AgreeBut c s t) : t.leases.length = s.leases.length := by
  simpa using congrArg List.length h.works

/-- Each lease is there in both states, with the same work. -/
theorem lease (h : AgreeBut c s t) {lease : Lease α} (hl : s.leases[l]? = some lease) :
    ∃ lease', t.leases[l]? = some lease' ∧ lease'.key = lease.key ∧ lease'.outcome = lease.outcome ∧
      lease'.released = lease.released := by
  have hsame := congrArg (·[l]?) h.works
  simp only [List.getElem?_map, hl, Option.map_some, Option.map_eq_some_iff] at hsame
  obtain ⟨lease', hl', heq⟩ := hsame
  simp only [Lease.uncounted, Lease.mk.injEq] at heq
  obtain ⟨hkey, -, -, -, -, houtcome, hreleased⟩ := heq
  exact ⟨lease', hl', hkey, houtcome, hreleased⟩

theorem outcome?_eq (h : AgreeBut c s t) (l : Nat) : t.outcome? l = s.outcome? l := by
  rw [outcome?, outcome?]
  cases hl : s.leases[l]? with
  | none =>
    have hnone : t.leases[l]? = none := by
      rw [List.getElem?_eq_none_iff] at hl ⊢
      rw [h.leases_length]
      exact hl
    rw [hnone]
  | some lease =>
    obtain ⟨lease', hl', -, houtcome, -⟩ := h.lease hl
    rw [hl']
    exact houtcome

/-! ### Small changes made to both -/

/-- The same change of a lease, which does not look at its followers, is made in both states. -/
theorem modify_lease (h : AgreeBut c s t) {f : Lease α → Lease α}
    (hf : ∀ x y : Lease α, x.uncounted = y.uncounted → (f x).uncounted = (f y).uncounted)
    (table : List (Key × Nat)) :
    AgreeBut c { s with leases := s.leases.modify l f, table }
      { t with leases := t.leases.modify l f, table } :=
  ⟨h.now, rfl, map_modify_congr hf h.works l, h.arrivals, h.calls⟩

/-- Counting keeps the two alike. -/
theorem countWaiter (h : AgreeBut c s t) (l : Nat) (change : Int) :
    AgreeBut c (s.countWaiter l change) (t.countWaiter l change) := by
  have hsame := h.modify_lease (l := l)
    (f := fun lease => { lease with waiters := lease.waiters + change }) (fun _ _ heq => heq) s.table
  exact ⟨hsame.now, h.table, hsame.works, hsame.arrivals, hsame.calls⟩

/-- A change of phase keeps the two alike. -/
theorem setPhase (h : AgreeBut c s t) (c' : Nat) (phase : CallPhase α) :
    AgreeBut c (s.setPhase c' phase) (t.setPhase c' phase) := by
  refine ⟨h.now, h.table, h.works, ?_, fun i hi => ?_⟩
  · simp only [Cooperation.setPhase, List.length_modify, h.arrivals]
  · simp only [Cooperation.setPhase, List.getElem?_modify, h.calls i hi]

/-- The end of a wait keeps the two alike. -/
theorem leave (h : AgreeBut c s t) (c' : Nat) (phase next : CallPhase α) :
    AgreeBut c (s.leave c' phase next) (t.leave c' phase next) := by
  rw [leave_eq, leave_eq]
  cases phase.followed? with
  | none => exact h.setPhase c' next
  | some l => exact (h.countWaiter l (-1)).setPhase c' next

/-- A new lease keeps the two alike. -/
theorem startLease (h : AgreeBut c s t) (k : Key) (leader : Nat) (recheck : Bool) :
    AgreeBut c (s.startLease k leader recheck) (t.startLease k leader recheck) := by
  refine ⟨h.now, ?_, ?_, h.arrivals, h.calls⟩
  · simp only [Cooperation.startLease, h.table, h.leases_length]
  · simp only [Cooperation.startLease, List.map_append, h.works, h.now]

/-- A call comes in at the same time, with the same phase. -/
theorem enter (h : AgreeBut c s t) (k : Key) (passive active : Duration) {phase phase' : CallPhase α}
    (hphase : phase' = phase) :
    AgreeBut c { s with calls := s.calls ++ [⟨k, passive, active, s.now, phase⟩] }
      { t with calls := t.calls ++ [⟨k, passive, active, t.now, phase'⟩] } := by
  subst hphase
  refine ⟨h.now, h.table, h.works, ?_, fun i hi => ?_⟩
  · simp only [List.length_append, List.length_singleton, h.arrivals]
  · simp only [List.getElem?_append, h.arrivals, h.calls i hi, h.now]

/-- A call that comes in keeps the two alike. -/
theorem arrive (h : AgreeBut c s t) (k : Key) (passive active : Duration) :
    AgreeBut c (s.arrive k passive active) (t.arrive k passive active) := by
  simp only [Cooperation.arrive, h.registered?_eq, h.leases_length, h.arrivals]
  split
  · exact h.enter k passive active rfl
  · split
    · exact (h.countWaiter _ 1).enter k passive active (by rw [h.now])
    · exact (h.startLease k _ false).enter k passive active rfl

/-! ### Steps of the others -/

/-- What is not a step of the call is possible in both states or in neither, and does the same to
both. -/
theorem step (h : AgreeBut c s t) (he : e.call? ≠ some c) (hs : s.step e = some s') :
    ∃ t', t.step e = some t' ∧ AgreeBut c s' t' := by
  have found : ∀ {c' : Nat} {call : Call α}, some c' ≠ some c → s.calls[c']? = some call →
      t.calls[c']? = some call := fun hne hc => by
    rw [h.calls _ fun heq => hne (congrArg some heq), hc]
  -- Steps of others do not ask for the call, nor for the counters.
  cases e with
  | arrive k passive active =>
    cases hs
    exact ⟨_, rfl, h.arrive k passive active⟩
  | publish l outcome =>
    obtain ⟨lease, hl, hpending, rfl⟩ := publish_eq_some.mp hs
    obtain ⟨lease', hl', hkey, houtcome, -⟩ := h.lease hl
    have hwritten : written lease' outcome = written lease outcome := by rw [written, written, hkey]
    refine ⟨_, publish_eq_some.mpr ⟨lease', hl', houtcome.trans hpending, rfl⟩, ?_⟩
    rw [hwritten, h.table]
    refine h.modify_lease (fun x y hxy => ?_) s.table
    simp only [Lease.uncounted, Lease.mk.injEq] at hxy ⊢
    exact ⟨hxy.1, hxy.2.1, hxy.2.2.1, hxy.2.2.2.1, trivial, trivial, hxy.2.2.2.2.2.2⟩
  | release l =>
    obtain ⟨lease, hl, hended, hheld, rfl⟩ := release_eq_some.mp hs
    obtain ⟨lease', hl', hkey, houtcome, hreleased⟩ := h.lease hl
    refine ⟨_, release_eq_some.mpr
      ⟨lease', hl', by rw [houtcome]; exact hended, hreleased.trans hheld, rfl⟩, ?_⟩
    rw [hkey, h.table]
    refine h.modify_lease (fun x y hxy => ?_) _
    simp only [Lease.uncounted, Lease.mk.injEq] at hxy ⊢
    exact ⟨hxy.1, hxy.2.1, hxy.2.2.1, hxy.2.2.2.1, trivial, hxy.2.2.2.2.2.1, trivial⟩
  | deliver c' =>
    obtain ⟨call, l, outcome, hc, hwaits, hpublished, rfl⟩ := deliver_eq_some.mp hs
    exact ⟨_, deliver_eq_some.mpr ⟨call, l, outcome, found he hc, hwaits,
      by rw [h.outcome?_eq]; exact hpublished, rfl⟩, h.leave ..⟩
  | exhaust c' =>
    obtain ⟨call, l, deadline, hc, hphase, hdue, hpending, rfl⟩ := exhaust_eq_some.mp hs
    exact ⟨_, exhaust_eq_some.mpr ⟨call, l, deadline, found he hc, hphase,
      by rw [h.now]; exact hdue, by rw [h.outcome?_eq]; exact hpending, rfl⟩, h.leave ..⟩
  | takeOver c' =>
    obtain ⟨call, l, hc, hphase, ⟨hfree, rfl⟩ | ⟨other, hne, hheld, rfl⟩⟩ := takeOver_cases hs
    · refine ⟨_, takeOver_of_free (found he hc) hphase (by rw [h.registered?_eq]; exact hfree), ?_⟩
      rw [h.leases_length, h.now]
      exact (h.startLease ..).setPhase ..
    · refine ⟨_, takeOver_of_held (found he hc) hphase hne (by rw [h.registered?_eq]; exact hheld), ?_⟩
      rw [h.now]
      exact (h.countWaiter ..).setPhase ..
  | timeOut c' =>
    obtain ⟨call, l, deadline, hc, hphase, hdue, hpending, rfl⟩ := timeOut_eq_some.mp hs
    exact ⟨_, timeOut_eq_some.mpr ⟨call, l, deadline, found he hc, hphase,
      by rw [h.now]; exact hdue, by rw [h.outcome?_eq]; exact hpending, rfl⟩, h.leave ..⟩
  | finish c' outcome =>
    obtain ⟨call, hc, hphase, rfl⟩ := finish_eq_some.mp hs
    exact ⟨_, finish_eq_some.mpr ⟨call, found he hc, hphase, rfl⟩, h.setPhase ..⟩
  | drop c' =>
    obtain ⟨call, hc, hlive, hsettled, rfl⟩ := drop_eq_some.mp hs
    exact ⟨_, drop_eq_some.mpr ⟨call, found he hc, hlive, hsettled, rfl⟩, h.leave ..⟩
  | tick nanos =>
    cases hs
    exact ⟨_, rfl, congrArg (· + nanos) h.now, h.table, h.works, h.arrivals, h.calls⟩

end AgreeBut

/-! ## Steps of the call itself -/

/-- The phase of the call is what the two may differ in. -/
theorem agreeBut_setPhase (phase : CallPhase α) : AgreeBut c s (s.setPhase c phase) := by
  refine ⟨rfl, rfl, rfl, ?_, fun i hi => ?_⟩
  · simp only [setPhase, List.length_modify]
  · simp only [setPhase, List.getElem?_modify_ne _ _ (Ne.symm hi)]

/-- What the call does to its counter is what the two may differ in. -/
theorem agreeBut_leave (phase next : CallPhase α) : AgreeBut c s (s.leave c phase next) := by
  refine ⟨leave_now .., leave_table .., uncounted_leave .., ?_, fun i hi => ?_⟩
  · rw [leave_calls, List.length_modify]
  · rw [leave_calls, List.getElem?_modify_ne _ _ (Ne.symm hi)]

/-- The others see nothing of what a call does, unless it takes over. -/
theorem agreeBut_of_own (he : e.call? = some c) (hne : e ≠ .takeOver c) (hs : s.step e = some s') :
    AgreeBut c s s' := by
  cases e with
  | deliver c' =>
    obtain rfl := Option.some.inj he
    obtain ⟨call, l, outcome, -, -, -, rfl⟩ := deliver_eq_some.mp hs
    exact agreeBut_leave ..
  | exhaust c' =>
    obtain rfl := Option.some.inj he
    obtain ⟨call, l, deadline, -, -, -, -, rfl⟩ := exhaust_eq_some.mp hs
    exact agreeBut_leave ..
  | takeOver c' =>
    obtain rfl := Option.some.inj he
    contradiction
  | timeOut c' =>
    obtain rfl := Option.some.inj he
    obtain ⟨call, l, deadline, -, -, -, -, rfl⟩ := timeOut_eq_some.mp hs
    exact agreeBut_leave ..
  | finish c' outcome =>
    obtain rfl := Option.some.inj he
    obtain ⟨call, -, -, rfl⟩ := finish_eq_some.mp hs
    exact agreeBut_setPhase _
  | drop c' =>
    obtain rfl := Option.some.inj he
    obtain ⟨call, -, -, -, rfl⟩ := drop_eq_some.mp hs
    exact agreeBut_leave ..
  | _ => contradiction

/-! ## A call that has gone -/

/-- The client of the call has gone away. -/
def Gone (s : Cooperation α) (c : Nat) : Prop :=
  ∃ call, s.calls[c]? = some call ∧ call.phase = .dropped

/-- A call that is gone stays gone. -/
theorem Gone.step (h : Gone s c) (hs : s.step e = some s') : Gone s' c := by
  obtain ⟨call, hc, hphase⟩ := h
  obtain ⟨phase, hc', hended⟩ := call_of_step hs hc
  exact ⟨_, hc', (hended (by rw [hphase]; rfl)).trans hphase⟩

/-- A call that has gone has no more steps. -/
theorem Gone.not_own (h : Gone s c) (hs : s.step e = some s') : e.call? ≠ some c := by
  intro he
  obtain ⟨call, hc, hphase⟩ := h
  obtain ⟨call', phase, hc', hmove, -⟩ := callMove_of_own he hs
  obtain rfl : call = call' := Option.some.inj (hc.symm.trans hc')
  have hlive := hmove.live
  rw [hphase] at hlive
  contradiction

/-- Where a call has gone, no more is left to happen by itself, and no more waits run out. -/
theorem AgreeBut.putsNothingOff (h : AgreeBut c s t) (hgone : Gone t c) (hs : s.PutsNothingOff e) :
    t.PutsNothingOff e := by
  intro hne
  obtain ⟨hrest, hdeadlines⟩ := hs hne
  refine ⟨fun e' he' => ?_, fun call hcall d hd => ?_⟩
  · cases ht : t.step e' with
    | none => rfl
    | some t' =>
      obtain ⟨s', hs', -⟩ := h.symm.step (hgone.not_own ht) ht
      rw [hrest e' he'] at hs'
      contradiction
  · obtain ⟨i, hi⟩ := List.getElem?_of_mem hcall
    obtain ⟨gone, hc, hphase⟩ := hgone
    by_cases hic : i = c
    · subst hic
      obtain rfl : call = gone := Option.some.inj (hi.symm.trans hc)
      rw [hphase] at hd
      contradiction
    · rw [h.calls i hic] at hi
      rw [h.now]
      exact hdeadlines call (List.mem_of_getElem? hi) d hd

/-! ## Calls that do not take over -/

/-- A call that stays until an instant does so in its next phase as well. -/
theorem CallMove.staysUntil {instant : Nat} {phase : CallPhase α}
    (h : CallMove s s' c call e phase) (hstays : call.phase.StaysUntil instant)
    (hnow : s.now ≤ instant) : phase.StaysUntil instant := by
  obtain ⟨hcalm, hlasts⟩ := hstays
  cases h with
  | exhausted l d hphase due =>
    have hlt := hlasts l d hphase
    omega
  | led l hphase | joined l other hphase => exact absurd hphase (hcalm l)
  | finished outcome =>
    cases outcome <;> exact ⟨fun l hl => by contradiction, fun l d hl => by contradiction⟩
  | _ => exact ⟨fun l hl => by contradiction, fun l d hl => by contradiction⟩

/-- The call does not take over up to an instant. -/
def Stays (s : Cooperation α) (c instant : Nat) : Prop :=
  ∃ call, s.calls[c]? = some call ∧ call.phase.StaysUntil instant

/-- A call that stays until an instant does not take over before. -/
theorem Stays.not_takeOver {instant : Nat} (h : Stays s c instant) (hs : s.step e = some s') :
    e ≠ .takeOver c := by
  obtain ⟨call, hc, hcalm, -⟩ := h
  rintro rfl
  obtain ⟨call', l, hc', hphase, -⟩ := takeOver_cases hs
  obtain rfl : call = call' := Option.some.inj (hc.symm.trans hc')
  exact hcalm l hphase

/-- It stays, step by step. -/
theorem Stays.step {instant : Nat} (h : Stays s c instant) (hs : s.step e = some s')
    (hnow : s.now ≤ instant) : Stays s' c instant := by
  obtain ⟨call, hc, hstays⟩ := h
  cases step_calls hs with
  | same calls => exact ⟨call, by rw [calls, hc], hstays⟩
  | arrived k passive active phase entry calls =>
    have hlt := (List.getElem?_eq_some_iff.mp hc).1
    exact ⟨call, by rw [calls, List.getElem?_append_left hlt, hc], hstays⟩
  | move c' found phase hfound hmove calls =>
    by_cases hcc : c' = c
    · subst hcc
      obtain rfl : found = call := Option.some.inj (hfound.symm.trans hc)
      exact ⟨{ found with phase }, by rw [calls, List.getElem?_modify_eq, hc]; rfl,
        hmove.staysUntil hstays hnow⟩
    · exact ⟨call, by rw [calls, List.getElem?_modify_ne _ _ hcc, hc], hstays⟩

/-! ## Runs -/

/-- As long as the call does not take over, a run goes on without it as it does with it. -/
theorem AgreeBut.run {instant : Nat} (h : AgreeBut c s t) (hgone : Gone t c)
    (hstays : Stays s c instant) (hrun : s.run events = some s') (hlate : s'.now ≤ instant) :
    Stays s' c instant ∧
      ∃ t', t.run (without c events) = some t' ∧ AgreeBut c s' t' ∧ Gone t' c := by
  induction events using List.reverseRecOn generalizing s' with
  | nil =>
    cases hrun
    exact ⟨hstays, t, rfl, h, hgone⟩
  | append_singleton events e ih =>
    obtain ⟨q, hq, hstep⟩ := run_concat_eq_some.mp hrun
    have hnow : q.now ≤ instant := Nat.le_trans (now_le_of_step hstep) hlate
    obtain ⟨hstays, q', hq', hagree, hgone⟩ := ih hq hnow
    refine ⟨hstays.step hstep hnow, ?_⟩
    by_cases hown : e.call? = some c
    · rw [without_concat_of_eq hown]
      have hunseen := agreeBut_of_own hown (hstays.not_takeOver hstep) hstep
      exact ⟨q', hq', hunseen.symm.trans hagree, hgone⟩
    · rw [without_concat_of_ne hown]
      obtain ⟨t', hstep', hagree'⟩ := hagree.step hown hstep
      exact ⟨t', run_concat_eq_some.mpr ⟨q', hq', hstep'⟩, hagree', hgone.step hstep'⟩

/-- Nothing can happen without the call that could not happen with it. -/
theorem AgreeBut.run_of_gone (h : AgreeBut c s t) (hgone : Gone t c) (hrun : t.run events = some t') :
    without c events = events ∧ ∃ s', s.run events = some s' ∧ AgreeBut c s' t' := by
  induction events generalizing s t with
  | nil =>
    cases hrun
    exact ⟨rfl, s, rfl, h⟩
  | cons e rest ih =>
    rw [run_cons, Option.bind_eq_some_iff] at hrun
    obtain ⟨q', hstep, hrest⟩ := hrun
    have hother := hgone.not_own hstep
    obtain ⟨q, hq, hagree⟩ := h.symm.step hother hstep
    obtain ⟨hwithout, s', hs', hagree'⟩ := ih hagree.symm (hgone.step hstep) hrest
    refine ⟨?_, s', ?_, hagree'⟩
    · simpa [without, hother] using hwithout
    · rw [run_cons, hq]
      exact hs'

/-- If nothing is put off in a run, nothing is put off without the call. -/
theorem timed_without {instant : Nat} (hbefore : ({} : Cooperation α).run before = some s)
    (hdrop : s.step (.drop c) = some t) (h : AgreeBut c s t) (hgone : Gone t c)
    (hstays : Stays s c instant) (hrun : s.run events = some s') (hlate : s'.now ≤ instant)
    (htimed : Timed (before ++ events)) : Timed (before ++ .drop c :: without c events) := by
  induction events using List.reverseRecOn generalizing s' with
  | nil =>
    rw [List.append_nil] at htimed
    exact htimed.concat hbefore (putsNothingOff_of_instant rfl)
  | append_singleton events e ih =>
    obtain ⟨q, hq, hstep⟩ := run_concat_eq_some.mp hrun
    have hnow : q.now ≤ instant := Nat.le_trans (now_le_of_step hstep) hlate
    rw [← List.append_assoc] at htimed
    have hrest := ih hq hnow htimed.of_concat
    by_cases hown : e.call? = some c
    · rw [without_concat_of_eq hown]
      exact hrest
    · obtain ⟨-, q', hq', hagree, hgone⟩ := h.run hgone hstays hq hnow
      have hon : ({} : Cooperation α).run (before ++ .drop c :: without c events) = some q' := by
        rw [run_append, hbefore, Option.bind_some, run_cons, hdrop]
        exact hq'
      have hwhole : ({} : Cooperation α).run (before ++ events) = some q := by
        rw [run_append, hbefore]
        exact hq
      have hputs := hagree.putsNothingOff hgone (htimed.last hwhole)
      rw [without_concat_of_ne hown]
      simpa using hrest.concat hon hputs

/-- **Dropping a call is harmless.** If the client of a waiting call goes away at any time in a run:

* Every way in which the run goes on with the call is there without it, less the steps of the call. All
  along both show the same time, the same table, the same work with the same outcomes, and the same
  phase of every other call; only the number of followers on a lease can differ. If the call follows,
  this holds up to the end of its passive wait. If nothing is put off in the one run, nothing is in the
  other.
* There is no other way in which the run goes on without the call. -/
theorem drop_unnoticed (hbefore : ({} : Cooperation α).run before = some s)
    (hc : s.calls[c]? = some call) (hwaits : call.phase.lease?.isSome) :
    ∃ t, s.step (.drop c) = some t ∧ AgreeBut c s t ∧
      (∀ events s', s.run events = some s' →
        (∀ l d, call.phase = .following l d → s'.now < d) →
        ∃ t', t.run (without c events) = some t' ∧ AgreeBut c s' t' ∧
          (Timed (before ++ events) → Timed (before ++ .drop c :: without c events))) ∧
      ∀ events t', t.run events = some t' → without c events = events ∧
        ∃ s', s.run events = some s' ∧ AgreeBut c s' t' := by
  have hlive : call.phase.isLive = true := by
    cases hp : call.phase <;> simp [hp, CallPhase.lease?] at hwaits <;> rfl
  have hcalm : ∀ l, call.phase ≠ .exhausted l := by
    intro l hp
    simp [hp, CallPhase.lease?] at hwaits
  have hdrop : s.step (.drop c) = some (s.leave c call.phase .dropped) :=
    drop_eq_some.mpr ⟨call, hc, hlive, hcalm, rfl⟩
  have hagree : AgreeBut c s (s.leave c call.phase .dropped) := agreeBut_leave ..
  have hgone : Gone (s.leave c call.phase .dropped) c :=
    ⟨{ call with phase := .dropped }, by rw [leave_calls, List.getElem?_modify_eq, hc]; rfl, rfl⟩
  refine ⟨_, hdrop, hagree, fun events s' hrun hlasts => ?_,
    fun events t' hrun => hagree.run_of_gone hgone hrun⟩
  have hstays : Stays s c s'.now := ⟨call, hc, hcalm, hlasts⟩
  obtain ⟨-, t', hrun', hagree', -⟩ := hagree.run hgone hstays hrun (Nat.le_refl _)
  exact ⟨t', hrun', hagree',
    timed_without hbefore hdrop hagree hgone hstays hrun (Nat.le_refl _)⟩

/-- The first call leads and the second follows until 5; the work ends at 2. -/
def sharedWork : List (CoopEvent Nat) :=
  [.arrive ⟨"a"⟩ ⟨5⟩ ⟨9⟩, .arrive ⟨"a"⟩ ⟨5⟩ ⟨9⟩]

/-- What happens after both have come in. -/
def sharedEnd : List (CoopEvent Nat) :=
  [.tick 2, .publish 0 (some (.ok 7)), .deliver 0, .deliver 1, .release 0]

/-- Whichever of the two goes away at once, the other one returns the outcome of the work at 2. -/
theorem sharedWork_unnoticed : ∃ s s' : Cooperation Nat,
    ({} : Cooperation Nat).run sharedWork = some s ∧ s.run sharedEnd = some s' ∧ s'.now = 2 ∧
      (∃ t t', s.step (.drop 0) = some t ∧ t.run (without 0 sharedEnd) = some t' ∧
        AgreeBut 0 s' t' ∧ t'.calls[1]? = some ⟨⟨"a"⟩, ⟨5⟩, ⟨9⟩, 0, .returned (.ok 7)⟩ ∧
        Timed (sharedWork ++ .drop 0 :: without 0 sharedEnd)) ∧
      ∃ t t', s.step (.drop 1) = some t ∧ t.run (without 1 sharedEnd) = some t' ∧
        AgreeBut 1 s' t' ∧ t'.calls[0]? = some ⟨⟨"a"⟩, ⟨5⟩, ⟨9⟩, 0, .returned (.ok 7)⟩ := by
  have hbefore : ({} : Cooperation Nat).run sharedWork = some _ := rfl
  have htimed : Timed (sharedWork ++ sharedEnd) := by decide
  refine ⟨_, _, hbefore, rfl, rfl, ?_, ?_⟩
  · obtain ⟨t, hdrop, -, hgoes, -⟩ := drop_unnoticed (c := 0) hbefore rfl rfl
    obtain ⟨t', hrun, hagree, hon⟩ := hgoes sharedEnd _ rfl (fun l d h => by contradiction)
    exact ⟨t, t', hdrop, hrun, hagree, hagree.calls 1 (by decide), hon htimed⟩
  · obtain ⟨t, hdrop, -, hgoes, -⟩ := drop_unnoticed (c := 1) hbefore rfl rfl
    obtain ⟨t', hrun, hagree, -⟩ := hgoes sharedEnd _ rfl (fun l d h => by cases h; decide)
    exact ⟨t, t', hdrop, hrun, hagree, hagree.calls 0 (by decide)⟩

end Cooperation

end PullCache
