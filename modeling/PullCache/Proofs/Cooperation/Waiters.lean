import PullCache.Proofs.Cooperation.Independence
/-!
# Proofs.Cooperation.Waiters

The counters of followers. A call is counted for a lease exactly while it waits on it as a follower, in
its passive wait or after it joined a takeover: it starts to count in the step in which it starts to
wait, and stops in the step in which it stops, whichever way that comes about (`counted_of_run`). What
is shown for a key is the counter of the lease in the table, so the followers of a lease that was
replaced are not in it.

A call whose work runs, or ran, for a lease is past all that: it never waits as a follower again
(`leadersPast_of_run`).
-/

namespace PullCache

namespace CallPhase

variable {α : Type}

/-- The call waits on the lease as a follower: in its passive wait, or after it joined a takeover. -/
def follows (l : Nat) : CallPhase α → Bool
  | following l' _ | joined l' _ => l' == l
  | _ => false

/-- The call waits as a follower, or may do so yet. -/
def mayFollow : CallPhase α → Bool
  | following .. | exhausted _ | joined .. => true
  | _ => false

variable {phase : CallPhase α} {l : Nat}

theorem follows_iff : phase.follows l = true ↔ phase.followed? = some l := by
  cases phase <;> simp [follows, followed?]

theorem mayFollow_of_follows (h : phase.follows l = true) : phase.mayFollow = true := by
  cases phase <;> first | rfl | contradiction

theorem isLive_of_follows (h : phase.follows l = true) : phase.isLive = true := by
  cases phase <;> first | rfl | contradiction

end CallPhase

namespace Cooperation

variable {α : Type} {s s' : Cooperation α} {e : CoopEvent α} {events : List (CoopEvent α)}
  {c l : Nat} {call : Call α}

/-- The number of calls that wait on a lease as followers. -/
def followers (s : Cooperation α) (l : Nat) : Nat :=
  s.calls.countP fun call => call.phase.follows l

/-- At some place of a run, the call waited on the lease as a follower. -/
def Followed (events : List (CoopEvent α)) (c l : Nat) : Prop :=
  ∃ i q call, ({} : Cooperation α).run (events.take i) = some q ∧ q.calls[c]? = some call ∧
    call.phase.follows l = true

/-! ## Counting -/

/-- A place among the followers of a lease. -/
def seat (l : Nat) (phase : CallPhase α) : Nat :=
  if phase.follows l then 1 else 0

/-- A phase takes one seat at the lease that it follows, and none elsewhere. -/
theorem seat_eq (phase : CallPhase α) : seat l phase = if phase.followed? = some l then 1 else 0 := by
  simp only [seat, CallPhase.follows_iff]

theorem seat_of_followed? {phase : CallPhase α} (h : phase.followed? = none) : seat l phase = 0 := by
  simp [seat_eq, h]

/-- A call that comes in takes its seat beside the others. -/
theorem followers_concat (h : s'.calls = s.calls ++ [call]) :
    s'.followers l = s.followers l + seat l call.phase := by
  rw [followers, followers, h, List.countP_append, List.countP_singleton, seat]

/-- A call that changes its phase gives up one seat and takes another. -/
theorem followers_modify (hc : s.calls[c]? = some call) {phase : CallPhase α}
    (h : s'.calls = s.calls.modify c fun call => { call with phase }) :
    s'.followers l + seat l call.phase = s.followers l + seat l phase := by
  obtain ⟨hlt, hget⟩ := List.getElem?_eq_some_iff.mp hc
  have hset : s'.calls = s.calls.set c { call with phase } := by
    rw [h, List.modify_eq_set_getElem?, hc]
    rfl
  have hseat : seat l call.phase ≤ s.followers l := by
    unfold seat
    split
    · next hfollows =>
      exact List.countP_pos_iff.mpr ⟨call, List.mem_of_getElem? hc, hfollows⟩
    · exact Nat.zero_le _
  have hcount : s'.followers l = s.followers l - seat l call.phase + seat l phase := by
    rw [followers, hset, List.countP_set hlt, hget]
    rfl
  omega

/-- And so it does when nothing else changes. -/
theorem followers_setPhase (hc : s.calls[c]? = some call) (phase : CallPhase α) :
    (s.setPhase c phase).followers l + seat l call.phase = s.followers l + seat l phase :=
  followers_modify hc rfl

@[simp] theorem followers_countWaiter (l' : Nat) (change : Int) :
    (s.countWaiter l' change).followers l = s.followers l := rfl

/-- The counters of the leases. -/
def gauges (s : Cooperation α) : List Int :=
  s.leases.map (·.waiters)

/-- The counter of each lease says how many followers wait on it. -/
def Counted (s : Cooperation α) : Prop :=
  ∀ (l : Nat) (n : Int), s.gauges[l]? = some n → n = s.followers l

@[simp] theorem length_gauges : s.gauges.length = s.leases.length :=
  List.length_map ..

/-- Changes of leases that keep the counter keep the gauges. -/
theorem gauges_modify {f : Lease α → Lease α} (h : s'.leases = s.leases.modify l f)
    (keeps : ∀ x, (f x).waiters = x.waiters) : s'.gauges = s.gauges := by
  rw [gauges, gauges, h]
  exact map_modify_of_keeps keeps _ _

/-- Counting changes one gauge. -/
theorem gauges_countWaiter (change : Int) :
    (s.countWaiter l change).gauges = s.gauges.modify l (· + change) := by
  apply List.ext_getElem?
  intro i
  rw [gauges, gauges, countWaiter, List.getElem?_map, List.getElem?_modify, List.getElem?_modify,
    List.getElem?_map]
  cases s.leases[i]? with
  | none => rfl
  | some lease => by_cases hi : l = i <;> simp [hi]

/-- The counters stay right if neither they nor the followers change. -/
theorem Counted.of_same (h : Counted s) (gauges : s'.gauges = s.gauges)
    (followers : ∀ l, s'.followers l = s.followers l) : Counted s' := by
  intro l n hn
  rw [followers]
  exact h l n (gauges ▸ hn)

/-- A counter is changed as the number of followers is. -/
theorem Counted.of_count (h : Counted s) (l : Nat) (change : Int)
    (gauges : s'.gauges = s.gauges.modify l (· + change))
    (here : (s'.followers l : Int) = s.followers l + change)
    (others : ∀ l', l' ≠ l → s'.followers l' = s.followers l') : Counted s' := by
  intro l' n hn
  by_cases hl : l = l'
  · subst hl
    rw [gauges, List.getElem?_modify_eq] at hn
    obtain ⟨m, hm, rfl⟩ := Option.map_eq_some_iff.mp hn
    rw [here, h l m hm]
  · rw [gauges, List.getElem?_modify_ne _ _ hl] at hn
    rw [others l' (Ne.symm hl)]
    exact h l' n hn

/-- Nobody waits on a lease that has just been started. -/
theorem Counted.of_start (h : Counted s) (gauges : s'.gauges = s.gauges ++ [0])
    (followers : ∀ l, s'.followers l = s.followers l)
    (fresh : s.followers s.leases.length = 0) : Counted s' := by
  intro l n hn
  rw [followers]
  rw [gauges, getElem?_concat_eq_some] at hn
  obtain hn | ⟨rfl, rfl⟩ := hn
  · exact h l n hn
  · rw [length_gauges, fresh]
    rfl

/-! ## Steps -/

/-- All followers wait on leases that are there. -/
theorem followers_fresh (h : Separate s) : s.followers s.leases.length = 0 := by
  rw [followers, List.countP_eq_zero]
  intro call hmem hfollows
  obtain ⟨c, hc⟩ := List.getElem?_of_mem hmem
  exact Nat.lt_irrefl _ (h.followed hc (CallPhase.follows_iff.mp hfollows)).lt

/-- Whoever stops waiting as a follower stops counting. -/
theorem Counted.leave (h : Counted s) (hc : s.calls[c]? = some call) {next : CallPhase α}
    (hnext : next.followed? = none) : Counted (s.leave c call.phase next) := by
  have hcount : ∀ l, (s.leave c call.phase next).followers l + seat l call.phase = s.followers l := by
    intro l
    rw [followers_modify hc (leave_calls c call.phase next), seat_of_followed? hnext, Nat.add_zero]
  cases hf : call.phase.followed? with
  | none =>
    refine h.of_same (by rw [leave_eq, hf]; rfl) fun l => ?_
    rw [← hcount l, seat_of_followed? hf, Nat.add_zero]
  | some l =>
    have hseat : ∀ l', seat l' call.phase = if l' = l then 1 else 0 := by
      intro l'
      simp [seat_eq, hf, eq_comm]
    refine h.of_count l (-1) ?_ ?_ fun l' hl => ?_
    · rw [leave_eq, hf]
      exact gauges_countWaiter (-1)
    · have := hcount l
      rw [hseat, if_pos rfl] at this
      omega
    · rw [← hcount l', hseat, if_neg hl, Nat.add_zero]

/-- Whoever comes in as a follower counts from then on. -/
theorem Counted.arrive (h : Counted s) (hs : Separate s) (k : Key) (passive active : Duration) :
    Counted (s.arrive k passive active) := by
  obtain ⟨-, harrive⟩ | ⟨-, l, -, harrive⟩ | ⟨-, -, harrive⟩ := arrive_cases s k passive active
  · refine h.of_same (by rw [harrive]; rfl) fun l => ?_
    exact followers_concat (congrArg calls harrive)
  · have hcount : ∀ l', (s.arrive k passive active).followers l' =
        s.followers l' + seat l' (.following l (s.now + passive.nanos) : CallPhase α) :=
      fun l' => followers_concat (congrArg calls harrive)
    refine h.of_count l 1 ?_ ?_ fun l' hl => ?_
    · rw [harrive]
      exact gauges_countWaiter 1
    · rw [hcount]
      simp [seat, CallPhase.follows]
    · rw [hcount]
      simp [seat, CallPhase.follows, Ne.symm hl]
  · refine h.of_start ?_ (fun l => ?_) (followers_fresh hs)
    · rw [harrive]
      simp [gauges, startLease]
    · exact followers_concat (congrArg calls harrive)

/-- A call whose passive wait ran out counts again if it joins a takeover, and not if it leads one. -/
theorem Counted.takeOver (h : Counted s) (hs : Separate s) (hstep : s.takeOver c = some s') :
    Counted s' := by
  obtain ⟨call, l, hc, hphase, ⟨-, rfl⟩ | ⟨other, -, -, rfl⟩⟩ := takeOver_cases hstep
  · refine h.of_start (by simp [gauges, setPhase, startLease]) (fun l' => ?_) (followers_fresh hs)
    have hcount := followers_setPhase (l := l') (s := s.startLease call.key c true) hc
      (.leadingTakeover s.leases.length (s.now + call.active.nanos))
    rwa [hphase] at hcount
  · have hcount : ∀ l', ((s.countWaiter other 1).setPhase c
        (.joined other (s.now + call.active.nanos))).followers l' =
        s.followers l' + if other = l' then 1 else 0 := by
      intro l'
      have hcount := followers_setPhase (l := l') (s := s.countWaiter other 1) hc
        (.joined other (s.now + call.active.nanos))
      rw [hphase] at hcount
      simpa [seat, CallPhase.follows] using hcount
    refine h.of_count other 1 (gauges_countWaiter 1) ?_ fun l' hl => ?_
    · rw [hcount, if_pos rfl]
      rfl
    · rw [hcount, if_neg (Ne.symm hl), Nat.add_zero]

/-- Every step changes the counter of a lease by as much as the number of its followers. -/
theorem Counted.step (h : Counted s) (hs : Separate s) (hstep : s.step e = some s') :
    Counted s' := by
  cases e with
  | arrive k passive active =>
    cases hstep
    exact h.arrive hs k passive active
  | publish l outcome =>
    obtain ⟨lease, -, -, rfl⟩ := publish_eq_some.mp hstep
    exact h.of_same (gauges_modify rfl fun _ => rfl) fun _ => rfl
  | release l =>
    obtain ⟨lease, -, -, -, rfl⟩ := release_eq_some.mp hstep
    exact h.of_same (gauges_modify rfl fun _ => rfl) fun _ => rfl
  | deliver c =>
    obtain ⟨call, l, outcome, hc, -, -, rfl⟩ := deliver_eq_some.mp hstep
    exact h.leave hc rfl
  | exhaust c =>
    obtain ⟨call, l, deadline, hc, -, -, -, rfl⟩ := exhaust_eq_some.mp hstep
    exact h.leave hc rfl
  | takeOver c => exact h.takeOver hs hstep
  | timeOut c =>
    obtain ⟨call, l, deadline, hc, -, -, -, rfl⟩ := timeOut_eq_some.mp hstep
    exact h.leave hc rfl
  | finish c outcome =>
    obtain ⟨call, hc, hphase, rfl⟩ := finish_eq_some.mp hstep
    refine h.of_same rfl fun l => ?_
    have hcount := followers_setPhase (l := l) hc ((outcome.map .returned).getD .panicked)
    have hended : seat l ((outcome.map .returned).getD .panicked : CallPhase α) = 0 := by
      cases outcome <;> rfl
    rwa [hended, hphase] at hcount
  | drop c =>
    obtain ⟨call, hc, -, -, rfl⟩ := drop_eq_some.mp hstep
    exact h.leave hc rfl
  | tick nanos =>
    cases hstep
    exact h.of_same rfl fun _ => rfl

/-- In every state of a run the counters are right. -/
theorem counted_of_run (hrun : ({} : Cooperation α).run events = some s) : Counted s :=
  run_history (I := fun _ s => Counted s) (fun l n hn => by simp [gauges] at hn)
    (fun hq hcounted hstep => hcounted.step (separate_of_run hq) hstep) hrun

/-! ## Calls that lead -/

/-- A call whose work was started for a lease no longer waits as a follower, and never will again. -/
def LeadersPast (s : Cooperation α) : Prop :=
  ∀ (l : Nat) (lease : Lease α) (call : Call α), s.leases[l]? = some lease →
    s.calls[lease.leader]? = some call → call.phase.mayFollow = false

/-- From a phase in which a call cannot wait as a follower it comes to no phase in which it can. -/
theorem CallMove.past {phase : CallPhase α} (h : CallMove s s' c call e phase)
    (hpast : call.phase.mayFollow = false) : phase.mayFollow = false := by
  cases h with
  | exhausted l deadline hphase => simp [hphase, CallPhase.mayFollow] at hpast
  | joined l other hphase => simp [hphase, CallPhase.mayFollow] at hpast
  | finished outcome => cases outcome <;> rfl
  | delivered | led | timedOut | dropped => rfl

/-- A call whose work has just been started leads. -/
theorem Birth.past {k : Key} (h : s.Birth e k c) (hstep : s.step e = some s')
    (hc : s'.calls[c]? = some call) : call.phase.mayFollow = false := by
  cases h with
  | arrival k passive active on free =>
    cases hstep
    obtain ⟨off, -⟩ | ⟨-, l, held, -⟩ | ⟨-, -, harrive⟩ := arrive_cases s k passive active
    · contradiction
    · rw [held] at free
      contradiction
    · rw [harrive, List.getElem?_concat_length] at hc
      cases hc
      rfl
  | takeover c before l found phase free =>
    have htaken := takeOver_of_free found phase free
    obtain rfl := Option.some.inj (htaken.symm.trans hstep)
    have hled : call = { before with
        phase := .leadingTakeover s.leases.length (s.now + before.active.nanos) } := by
      simpa [setPhase, found, eq_comm] using hc
    rw [hled]
    rfl

/-- No step gives a lease back to a call that may still follow. -/
theorem LeadersPast.step (h : LeadersPast s) (hs : Separate s) (hstep : s.step e = some s') :
    LeadersPast s' := by
  intro l lease' call' hl' hc'
  have hbirth := births_eq_some.mpr ⟨lease', hl', rfl, rfl, rfl⟩
  obtain hbefore | ⟨-, -, hborn⟩ := birth_before_step hstep hbirth
  · obtain ⟨lease, hl, -, hleader, -⟩ := births_eq_some.mp hbefore
    obtain ⟨call, hc, -⟩ := hs.leaders l lease hl
    have hpast := h l lease call hl hc
    rw [hleader] at hc
    obtain hsame | ⟨hnew, -⟩ | ⟨before, phase, hfound, hmove, rfl⟩ := (step_calls hstep).before hc'
    · rwa [Option.some.inj (hsame.symm.trans hc)]
    · rw [hnew, List.getElem?_eq_none (Nat.le_refl _)] at hc
      contradiction
    · rw [Option.some.inj (hfound.symm.trans hc)] at hmove
      exact hmove.past hpast
  · exact hborn.past hstep hc'

/-- In every state of a run the leaders are past following. -/
theorem leadersPast_of_run (hrun : ({} : Cooperation α).run events = some s) : LeadersPast s :=
  run_history (I := fun _ s => LeadersPast s) (fun l lease call hl => by simp at hl)
    (fun hq hpast hstep => hpast.step (separate_of_run hq) hstep) hrun

/-! ## The counters over whole runs -/

/-- **The counters of followers.** In every state of a run the counter of each lease is the number of
calls that wait on it as followers, so it is never below zero. What is shown for a key is the counter of
the lease that the table holds for it, and nobody waits if it holds none.

Whoever is counted is a call that still goes on, it is counted for one lease only, and that is one for
its key; so the followers of a lease that was replaced are not in the count of its replacement. A call
whose work was started for a lease, when it came in or when it took over, is not counted anywhere. And
once all the calls that ever followed a lease have ended, its counter is zero. -/
theorem waiters_exact (hrun : ({} : Cooperation α).run events = some s) :
    (∀ k, s.waiters k = match s.registered? k with
      | some l => (s.followers l : Int)
      | none => 0) ∧
    (∀ (l : Nat) (lease : Lease α), s.leases[l]? = some lease →
      lease.waiters = (s.followers l : Int) ∧ 0 ≤ lease.waiters) ∧
    (∀ (c : Nat) (call : Call α) (l : Nat), s.calls[c]? = some call → call.phase.follows l = true →
      call.phase.isLive = true ∧ s.IsFor l call.key ∧
        ∀ l', call.phase.follows l' = true → l' = l) ∧
    (∀ (l : Nat) (lease : Lease α) (call : Call α) (l' : Nat), s.leases[l]? = some lease →
      s.calls[lease.leader]? = some call → call.phase.follows l' = false) ∧
    (∀ (l : Nat) (lease : Lease α), s.leases[l]? = some lease →
      (∀ c, Followed events c l → ∃ call, s.calls[c]? = some call ∧ call.phase.isLive = false) →
      lease.waiters = 0) := by
  have hcounted := counted_of_run hrun
  have hseparate := separate_of_run hrun
  have hlease : ∀ (l : Nat) (lease : Lease α), s.leases[l]? = some lease →
      lease.waiters = (s.followers l : Int) := by
    intro l lease hl
    exact hcounted l lease.waiters (by rw [gauges, List.getElem?_map, hl]; rfl)
  refine ⟨fun k => ?_, fun l lease hl => ⟨hlease l lease hl, ?_⟩, ?_, ?_, ?_⟩
  · unfold waiters
    cases hr : s.registered? k with
    | none => rfl
    | some l =>
      obtain ⟨lease, hl, -⟩ := hseparate.registered hr
      simp [hl, hlease l lease hl]
  · rw [hlease l lease hl]
    exact Int.natCast_nonneg _
  · intro c call l hc hfollows
    have hfollowed := CallPhase.follows_iff.mp hfollows
    refine ⟨CallPhase.isLive_of_follows hfollows, hseparate.followed hc hfollowed, fun l' hl' => ?_⟩
    exact Option.some.inj ((CallPhase.follows_iff.mp hl').symm.trans hfollowed)
  · intro l lease call l' hl hc
    -- The leader of a lease is past following, so it does not follow even a later lease.
    have hpast := leadersPast_of_run hrun l lease call hl hc
    by_contra hfollows
    rw [Bool.not_eq_false] at hfollows
    rw [CallPhase.mayFollow_of_follows hfollows] at hpast
    contradiction
  · intro l lease hl hended
    -- Whoever follows now has followed at some point, and those calls are over.
    have hnone : s.followers l = 0 := by
      rw [followers, List.countP_eq_zero]
      intro call hmem hfollows
      obtain ⟨c, hc⟩ := List.getElem?_of_mem hmem
      have hnow : Followed events c l :=
        ⟨events.length, s, call, by rw [List.take_length, hrun], hc, hfollows⟩
      obtain ⟨call', hc', hover⟩ := hended c hnow
      rw [Option.some.inj (hc'.symm.trans hc), CallPhase.isLive_of_follows hfollows] at hover
      contradiction
    rw [hlease l lease hl, hnone]
    rfl

/-- Of three followers one takes over, one joins it and one still waits on the first leader. A fourth
comes in later and is dropped. -/
def sharedTakeover : List (CoopEvent Nat) :=
  [.arrive ⟨"a"⟩ ⟨5⟩ ⟨9⟩, .arrive ⟨"a"⟩ ⟨5⟩ ⟨9⟩, .arrive ⟨"a"⟩ ⟨5⟩ ⟨9⟩, .arrive ⟨"a"⟩ ⟨8⟩ ⟨9⟩, .tick 5,
    .exhaust 1, .takeOver 1, .exhaust 2, .takeOver 2, .arrive ⟨"a"⟩ ⟨5⟩ ⟨9⟩, .drop 4]

/-- Only the call that joined is counted for the key; the one that waits on the lease before is counted
for that lease. -/
theorem waiters_of_sharedTakeover : ∃ s lease, ({} : Cooperation Nat).run sharedTakeover = some s ∧
    s.leases[0]? = some lease ∧ s.waiters ⟨"a"⟩ = 1 ∧ lease.waiters = 1 := by
  have hrun : ({} : Cooperation Nat).run sharedTakeover = some _ := rfl
  obtain ⟨hshown, hcount, -⟩ := waiters_exact hrun
  exact ⟨_, _, hrun, rfl, hshown ⟨"a"⟩, (hcount 0 _ rfl).1⟩

end Cooperation

end PullCache
