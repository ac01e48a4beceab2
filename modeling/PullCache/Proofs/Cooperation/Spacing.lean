import Mathlib.Algebra.Order.Floor.Div
import Mathlib.Data.Finset.Card
import Mathlib.GroupTheory.GroupAction.Ring
import PullCache.Proofs.Cooperation.Outcome
/-!
# Proofs.Cooperation.Spacing

How much work one key can have at a time. New work for a key starts only when the table has nothing
for it, so that the last work is over, or when a call has waited in vain, for its whole passive
timeout, on the last work. So work that still runs has run for at least the passive timeout when
other work for its key starts, however the works before it were taken over (`Spaced`).

From that the number of works is counted: works that are at least `P` apart and all start within `W`
are at most `W / P`, rounded up (`card_le_of_spaced`).
-/

namespace PullCache

/-- The passive wait of a call, if it is in one or has just come to its end, is not over by now. -/
def Call.onTime {α : Type} (call : Call α) (now : Nat) : Bool :=
  match call.phase with
  | .following .. | .exhausted _ => now ≤ call.arrived + call.passive.nanos
  | _ => true

namespace Cooperation

variable {α : Type} {s s' : Cooperation α} {e : CoopEvent α} {events : List (CoopEvent α)}
  {c l : Nat} {k : Key}

/-! ## Instants of a run -/

/-- How much time passes in a run. -/
def clock (events : List (CoopEvent α)) : Nat :=
  (events.map nanosOf).sum

/-- When the work of a lease ends in a run. -/
def endOf? (l : Nat) : List (CoopEvent α) → Option Nat
  | [] => none
  | e :: rest =>
    if (endings [e] l).isEmpty then (endOf? l rest).map (nanosOf e + ·) else some 0

/-- The lease is for the key, and its work started at the time. -/
def Started (s : Cooperation α) (k : Key) (l a : Nat) : Prop :=
  ∃ c, s.births[l]? = some (k, c, a)

/-- The work of a lease, started at `a`, runs at an instant of the run: it has started and not yet
ended. -/
def RunsAt (events : List (CoopEvent α)) (s : Cooperation α) (k : Key) (l a t : Nat) : Prop :=
  s.Started k l a ∧ a ≤ t ∧ t ≤ s.now ∧ ∀ ended ∈ endOf? l events, t < ended

/-- Passive waits end on time: in no state of the run is one overdue. -/
def Punctual (events : List (CoopEvent α)) : Prop :=
  ∀ i ≤ events.length,
    (({} : Cooperation α).run (events.take i)).all fun q => q.calls.all (·.onTime q.now)

instance : Decidable (Punctual events) :=
  inferInstanceAs (Decidable (∀ i ≤ events.length,
    (({} : Cooperation α).run (events.take i)).all fun q => q.calls.all (·.onTime q.now)))

theorem now_of_run (h : ({} : Cooperation α).run events = some s) : s.now = clock events := by
  refine run_history (I := fun events s => s.now = clock events) rfl ?_ h
  intro events q q' e hq hnow hstep
  rw [now_of_step hstep, hnow, clock, clock, sum_map_concat]

/-- The first event that ends the work is the end of it. -/
theorem endOf?_concat : endOf? l (events ++ [e]) =
    (endOf? l events).or (if (endings [e] l).isEmpty then none else some (clock events)) := by
  induction events with
  | nil => by_cases he : (endings [e] l).isEmpty <;> simp [endOf?, clock, he]
  | cons first rest ih =>
    rw [List.cons_append, endOf?, endOf?, ih]
    by_cases hfirst : (endings [first] l).isEmpty
    · rw [if_pos hfirst, if_pos hfirst]
      cases endOf? l rest with
      | some t => rfl
      | none => by_cases he : (endings [e] l).isEmpty <;> simp [he, clock]
    · rw [if_neg hfirst, if_neg hfirst, Option.some_or]

/-- Work that has ended stays ended. -/
theorem endOf?_concat_of_some {t : Nat} (h : endOf? l events = some t) :
    endOf? l (events ++ [e]) = some t := by
  rw [endOf?_concat, h, Option.some_or]

/-- In a run that is longer by an event, work ends where it did before, or with that event. -/
theorem endOf?_concat_cases {t : Nat} (h : endOf? l (events ++ [e]) = some t) :
    endOf? l events = some t ∨ endOf? l events = none ∧ t = clock events := by
  rw [endOf?_concat] at h
  cases hend : endOf? l events with
  | some t' =>
    rw [hend, Option.some_or] at h
    exact .inl h
  | none =>
    rw [hend, Option.none_or] at h
    split at h
    · contradiction
    · exact .inr ⟨rfl, (Option.some.inj h).symm⟩

/-- Work without an end has no endings. -/
theorem endOf?_eq_none_iff : endOf? l events = none ↔ endings events l = [] := by
  induction events with
  | nil => simp [endOf?, endings]
  | cons first rest ih =>
    have hcons : endings (first :: rest) l = endings [first] l ++ endings rest l :=
      List.filterMap_append (l := [first])
    rw [endOf?, hcons, List.append_eq_nil_iff, ← ih]
    by_cases hfirst : (endings [first] l).isEmpty
    · rw [if_pos hfirst, Option.map_eq_none_iff]
      exact (and_iff_right (List.isEmpty_iff.mp hfirst)).symm
    · rw [if_neg hfirst]
      simp [List.isEmpty_iff] at hfirst
      simp [hfirst]

/-- Work has ended before now. -/
theorem endOf?_le_now (h : ({} : Cooperation α).run events = some s) {t : Nat}
    (hend : endOf? l events = some t) : t ≤ s.now := by
  refine run_history (I := fun events s => ∀ t, endOf? l events = some t → t ≤ s.now)
    (by simp [endOf?]) ?_ h t hend
  intro events q q' e hq ih hstep t hend
  have hle := now_le_of_step hstep
  obtain hend | ⟨-, rfl⟩ := endOf?_concat_cases hend
  · exact Nat.le_trans (ih t hend) hle
  · rw [← now_of_run hq]
    exact hle

/-! ## Starts of work -/

/-- A lease stays the one that was started then. -/
theorem Started.step {a : Nat} (h : s.Started k l a) (hstep : s.step e = some s') :
    s'.Started k l a := by
  obtain ⟨c, hb⟩ := h
  exact ⟨c, births_of_step hstep hb⟩

/-- A lease starts once. -/
theorem Started.unique {a b : Nat} (h : s.Started k l a) (h' : s.Started k l b) : a = b := by
  obtain ⟨c, hb⟩ := h
  obtain ⟨c', hb'⟩ := h'
  cases Option.some.inj (hb.symm.trans hb')
  rfl

/-- No lease starts in the future. -/
theorem started_le_now (h : ({} : Cooperation α).run events = some s) {a : Nat}
    (hs : s.Started k l a) : a ≤ s.now := by
  refine run_history (I := fun _ s => ∀ k l a, s.Started k l a → a ≤ s.now)
    (fun k l a ⟨c, hb⟩ => by simp [births] at hb) ?_ h k l a hs
  rintro events q q' e hq ih hstep k l a ⟨c, hb⟩
  have hle := now_le_of_step hstep
  obtain hb | ⟨-, rfl, -⟩ := birth_before_step hstep hb
  · exact Nat.le_trans (ih k l a ⟨c, hb⟩) hle
  · exact hle

/-- Every lease was started at some time. -/
theorem started_of_isFor (h : s.IsFor l k) : ∃ a, s.Started k l a := by
  obtain ⟨lease, hl, hkey⟩ := h
  exact ⟨lease.started, lease.leader, births_eq_some.mpr ⟨lease, hl, hkey, rfl, rfl⟩⟩

/-- Work that has not ended runs. -/
theorem pending_of_endOf?_eq_none (h : ({} : Cooperation α).run events = some s)
    (hend : endOf? l events = none) : s.outcome? l = none := by
  rw [outcome?]
  cases hl : s.leases[l]? with
  | none => rfl
  | some lease =>
    have hwritten := (written_of_run h).leases l lease hl
    rw [endOf?_eq_none_iff.mp hend] at hwritten
    cases ho : lease.outcome with
    | none => exact ho
    | some outcome => simp [ho] at hwritten

/-- Work without an outcome has not ended. -/
theorem endOf?_eq_none_of_pending (h : ({} : Cooperation α).run events = some s) {a : Nat}
    (hs : s.Started k l a) (ho : s.outcome? l = none) : endOf? l events = none := by
  obtain ⟨c, hb⟩ := hs
  obtain ⟨lease, hl, -⟩ := births_eq_some.mp hb
  rw [outcome?, hl] at ho
  exact endOf?_eq_none_iff.mpr ((written_of_run h).endings_eq_nil hl ho)

/-- Every lease for a key comes no later than the last one. -/
theorem exists_latest? {a : Nat} (hs : s.Started k l a) : ∃ m, s.latest? k = some m ∧ l ≤ m := by
  obtain ⟨c, hb⟩ := hs
  obtain ⟨lease, hl, hkey, -⟩ := births_eq_some.mp hb
  have hlt : l < s.leases.length := (List.getElem?_eq_some_iff.mp hl).1
  have hmem : l ∈ (List.range s.leases.length).reverse := by simpa using hlt
  cases hm : s.latest? k with
  | none =>
    have hnone := List.find?_eq_none.mp hm l hmem
    simp [hl, hkey] at hnone
  | some m =>
    refine ⟨m, rfl, ?_⟩
    by_contra hgt
    obtain ⟨-, before, after, hsplit, hbefore⟩ := List.find?_eq_some_iff_append.mp hm
    have hsorted : (List.range s.leases.length).reverse.Pairwise (· > ·) :=
      List.pairwise_reverse.mpr List.pairwise_lt_range
    rw [hsplit] at hmem hsorted
    obtain hmem | hmem := List.mem_append.mp hmem
    · have := hbefore l hmem
      simp [hl, hkey] at this
    · obtain rfl | hmem := List.mem_cons.mp hmem
      · omega
      · have := List.rel_of_pairwise_cons (List.pairwise_append.mp hsorted).2.1 hmem
        omega

/-- The last lease for a key has started. -/
theorem started_of_latest? (h : s.latest? k = some l) : ∃ a, s.Started k l a := by
  obtain ⟨released, hledger⟩ := exists_of_latest? h
  rw [getElem?_ledger] at hledger
  obtain ⟨lease, hlease, hkey⟩ := Option.map_eq_some_iff.mp hledger
  exact started_of_isFor ⟨lease, hlease, congrArg Prod.fst hkey⟩

/-- A step starts one lease at most, so all leases before one that has started were there before it. -/
theorem Started.of_lt {k' : Key} {l' a b : Nat} (hs : s'.Started k l a) (hs' : s'.Started k' l' b)
    (hlt : l < l') (hstep : s.step e = some s') : s.Started k l a := by
  obtain ⟨c, hb⟩ := hs
  obtain ⟨c', hb'⟩ := hs'
  have hbound := (List.getElem?_eq_some_iff.mp hb').1
  obtain hb | ⟨hl, -⟩ := birth_before_step hstep hb
  · exact ⟨c, hb⟩
  · obtain hsame | ⟨k'', c'', -, hnew⟩ := step_births hstep
    · rw [hsame] at hbound
      omega
    · rw [hnew, List.length_append, List.length_singleton] at hbound
      omega

/-! ## Waiting in vain -/

/-- The work of a lease for the key runs for at least a time. -/
def Outlasts (events : List (CoopEvent α)) (s : Cooperation α) (k : Key) (l P : Nat) : Prop :=
  ∃ a, s.Started k l a ∧ a + P ≤ s.now ∧ ∀ ended ∈ endOf? l events, a + P ≤ ended

/-- How long a call has waited: it follows work that has started before it came in, for its passive
timeout, and then it takes over only if the work has run for so long. -/
structure Patient (events : List (CoopEvent α)) (s : Cooperation α) (call : Call α) : Prop where
  arrived : call.arrived ≤ s.now
  following : ∀ l d, call.phase = .following l d →
    d = call.arrived + call.passive.nanos ∧ ∃ a, s.Started call.key l a ∧ a ≤ call.arrived
  exhausted : ∀ l, call.phase = .exhausted l →
    Outlasts events s call.key l call.passive.nanos

/-- Work that outlasted a wait has done so for ever. -/
theorem Outlasts.step {P : Nat} (hrun : ({} : Cooperation α).run events = some s)
    (h : Outlasts events s k l P) (hstep : s.step e = some s') :
    Outlasts (events ++ [e]) s' k l P := by
  obtain ⟨a, hstarted, hnow, hend⟩ := h
  refine ⟨a, hstarted.step hstep, Nat.le_trans hnow (now_le_of_step hstep), fun ended hended => ?_⟩
  obtain hbefore | ⟨-, rfl⟩ := endOf?_concat_cases hended
  · exact hend ended hbefore
  · rw [← now_of_run hrun]
    exact hnow

/-- A call that nothing happens to is as patient as before. -/
theorem Patient.step {call : Call α} (hrun : ({} : Cooperation α).run events = some s)
    (h : Patient events s call) (hstep : s.step e = some s') : Patient (events ++ [e]) s' call where
  arrived := Nat.le_trans h.arrived (now_le_of_step hstep)
  following l d hp := by
    obtain ⟨hd, a, hstarted, hle⟩ := h.following l d hp
    exact ⟨hd, a, hstarted.step hstep, hle⟩
  exhausted l hp := (h.exhausted l hp).step hrun hstep

/-- A call that neither follows nor is about to take over only has to have come in. -/
theorem patient_of_settled {call : Call α} (harrived : call.arrived ≤ s.now)
    (hfollowing : ∀ l d, call.phase ≠ .following l d) (hexhausted : ∀ l, call.phase ≠ .exhausted l) :
    Patient events s call where
  arrived := harrived
  following l d hp := absurd hp (hfollowing l d)
  exhausted l hp := absurd hp (hexhausted l)

/-- A call that comes in is patient. -/
theorem Entry.patient {passive active : Duration} {phase : CallPhase α}
    (h : Entry s s' k passive phase) (hrun : ({} : Cooperation α).run events = some s)
    (hstep : s.step e = some s') :
    Patient (events ++ [e]) s' ⟨k, passive, active, s.now, phase⟩ := by
  have hnow := now_le_of_step hstep
  cases h with
  | alone off => exact patient_of_settled hnow nofun nofun
  | leads on free births => exact patient_of_settled hnow nofun nofun
  | follows l on held =>
    obtain ⟨a, hstarted⟩ := started_of_isFor ((tableInv_of_run hrun).isFor held)
    refine ⟨hnow, ?_, nofun⟩
    rintro l' d ⟨⟩
    exact ⟨rfl, a, hstarted.step hstep, started_le_now hrun hstarted⟩

/-- A call gives up its wait only after the whole of it. -/
theorem CallMove.patient {call : Call α} {phase : CallPhase α} (h : CallMove s s' c call e phase)
    (hrun : ({} : Cooperation α).run events = some s) (hpatient : Patient events s call)
    (hstep : s.step e = some s') : Patient (events ++ [e]) s' { call with phase } := by
  have harrived := (hpatient.step hrun hstep).arrived
  cases h with
  | exhausted l d hphase due pending =>
    obtain ⟨rfl, a, hstarted, hle⟩ := hpatient.following l d hphase
    -- The work is not over, and has run since before the call came in.
    have houtlasts : Outlasts events s call.key l call.passive.nanos := by
      refine ⟨a, hstarted, by omega, fun ended hended => ?_⟩
      rw [endOf?_eq_none_of_pending hrun hstarted pending] at hended
      contradiction
    refine ⟨harrived, nofun, ?_⟩
    rintro l' ⟨⟩
    exact houtlasts.step hrun hstep
  | delivered | led | joined | timedOut | dropped => exact patient_of_settled harrived nofun nofun
  | finished outcome =>
    cases outcome with
    | some result => exact patient_of_settled harrived nofun nofun
    | none => exact patient_of_settled harrived nofun nofun

/-- In every state of a run all calls are patient. -/
theorem patient_of_run (h : ({} : Cooperation α).run events = some s) :
    ∀ (c : Nat) (call : Call α), s.calls[c]? = some call → Patient events s call := by
  refine run_history (I := fun events s => ∀ (c : Nat) (call : Call α), s.calls[c]? = some call →
    Patient events s call) (fun c call hc => by simp at hc) ?_ h
  intro events q q' e hq hpatient hstep c call hc
  obtain hc | ⟨rfl, k, passive, active, phase, rfl, entry, rfl⟩ | ⟨before, phase, found, move, rfl⟩ :=
    (step_calls hstep).before hc
  · exact (hpatient c call hc).step hq hstep
  · exact entry.patient hq hstep
  · exact move.patient hq (hpatient c before found) hstep

/-! ## Works apart from each other -/

/-- When work starts, each work for its key that started before has run for the passive timeout, or
is over. -/
def Spaced (P : Nat) (events : List (CoopEvent α)) (s : Cooperation α) : Prop :=
  ∀ k l l' a b, l < l' → s.Started k l a → s.Started k l' b →
    a + P ≤ b ∨ ∃ ended ∈ endOf? l events, ended ≤ b

/-- What is there before work starts: all other work for the key has run for the passive timeout, or
is over. -/
theorem Spaced.ready {P : Nat} (h : Spaced P events s)
    (hrun : ({} : Cooperation α).run events = some s)
    (hfree : s.registered? k = none ∨
      ∃ l₀ P₀, s.registered? k = some l₀ ∧ P ≤ P₀ ∧ Outlasts events s k l₀ P₀)
    {a : Nat} (hs : s.Started k l a) : a + P ≤ s.now ∨ ∃ ended ∈ endOf? l events, ended ≤ s.now := by
  cases hend : endOf? l events with
  | some ended => exact .inr ⟨ended, rfl, endOf?_le_now hrun hend⟩
  | none =>
    refine .inl ?_
    obtain ⟨m, hlatest, hle⟩ := exists_latest? hs
    obtain rfl | hlt := Nat.eq_or_lt_of_le hle
    · -- The work is the last for its key, so the table holds it.
      have hpending := pending_of_endOf?_eq_none hrun hend
      have hheld := (tableInv_of_run hrun).registered?_iff.mpr
        ⟨hlatest, isRunning_of_outcome?_eq_none (endsInOrder_of_run hrun) hlatest hpending⟩
      obtain hnone | ⟨l₀, P₀, hsome, hle₀, a₀, hs₀, hnow, -⟩ := hfree
      · rw [hnone] at hheld
        contradiction
      · obtain rfl : l₀ = l := Option.some.inj (hsome.symm.trans hheld)
        rw [hs.unique hs₀]
        omega
    · -- Work has started for the key since then, and by that time this work had run long enough.
      obtain ⟨b, hsm⟩ := started_of_latest? hlatest
      have hbnow := started_le_now hrun hsm
      obtain hapart | ⟨ended, hended, -⟩ := h k l m a b hlt hs hsm
      · omega
      · rw [hend] at hended
        contradiction

/-- Every step leaves one passive wait between two works of a key. -/
theorem Spaced.step {P : Nat} (h : Spaced P events s)
    (hrun : ({} : Cooperation α).run events = some s)
    (hpassive : ∀ (c : Nat) (call : Call α), s.calls[c]? = some call → P ≤ call.passive.nanos)
    (hstep : s.step e = some s') : Spaced P (events ++ [e]) s' := by
  rintro k l l' a b hlt hs ⟨c', hb'⟩
  have hlater : (∃ ended ∈ endOf? l events, ended ≤ b) →
      ∃ ended ∈ endOf? l (events ++ [e]), ended ≤ b :=
    fun ⟨ended, hended, hle⟩ => ⟨ended, endOf?_concat_of_some hended, hle⟩
  have hs : s.Started k l a := hs.of_lt ⟨c', hb'⟩ hlt hstep
  obtain hb' | ⟨-, rfl, hbirth⟩ := birth_before_step hstep hb'
  · exact (h k l l' a b hlt hs ⟨c', hb'⟩).imp_right hlater
  · refine (h.ready hrun ?_ hs).imp_right hlater
    cases hbirth with
    | arrival k passive active on free => exact .inl free
    | takeover c call l₀ found phase free =>
      obtain free | held := free
      · exact .inl free
      · exact .inr ⟨l₀, call.passive.nanos, held, hpassive _ call found,
          (patient_of_run hrun _ call found).exhausted l₀ phase⟩

/-- A call that has come in keeps its key, its timeouts and the time it came in. -/
theorem passive_of_step {P : Nat} (hstep : s.step e = some s')
    (h : ∀ (c : Nat) (call : Call α), s'.calls[c]? = some call → P ≤ call.passive.nanos)
    (c : Nat) (call : Call α) (hc : s.calls[c]? = some call) : P ≤ call.passive.nanos := by
  obtain ⟨phase, hc', -⟩ := call_of_step hstep hc
  exact h c { call with phase } hc'

/-- In every state of a run the works of a key are a passive wait apart. -/
theorem spaced_of_run {P : Nat} (h : ({} : Cooperation α).run events = some s)
    (hpassive : ∀ (c : Nat) (call : Call α), s.calls[c]? = some call → P ≤ call.passive.nanos) :
    Spaced P events s := by
  refine run_history (I := fun events s =>
    (∀ (c : Nat) (call : Call α), s.calls[c]? = some call → P ≤ call.passive.nanos) →
      Spaced P events s) ?_ ?_ h hpassive
  · rintro - k l l' a b - ⟨c, hb⟩
    simp [births] at hb
  · intro events q q' e hq hspaced hstep hpassive
    have hbefore := passive_of_step hstep hpassive
    exact (hspaced hbefore).step hq hbefore hstep

/-- Two works for a key that run at the same instant started apart. -/
theorem Spaced.of_runsAt {P : Nat} (h : Spaced P events s) {l l' a b t : Nat} (hlt : l < l')
    (hr : RunsAt events s k l a t) (hr' : RunsAt events s k l' b t) : a + P ≤ b := by
  obtain hapart | ⟨ended, hended, hle⟩ := h k l l' a b hlt hr.1 hr'.1
  · exact hapart
  · have hrunning := hr.2.2.2 ended hended
    have hstarted := hr'.2.1
    omega

/-! ## Where work comes from -/

/-- A call starts work when it comes in, or after work for its key has run for its whole passive
timeout; if passive waits end on time, no later than that after it came in. -/
structure Leads (events : List (CoopEvent α)) (s : Cooperation α) (k : Key) (a : Nat)
    (call : Call α) : Prop where
  key : call.key = k
  arrived_le : call.arrived ≤ a
  cause : a = call.arrived ∨ ∃ l₀, Outlasts events s k l₀ call.passive.nanos
  le_of_punctual : Punctual events → a ≤ call.arrived + call.passive.nanos

theorem Punctual.of_concat (h : Punctual (events ++ [e])) : Punctual events := by
  intro i hi
  have hat := h i (by rw [List.length_append]; omega)
  rwa [List.take_append_of_le_length hi] at hat

/-- In a punctual run no deadline passes unused. -/
theorem Punctual.onTime (h : Punctual events) (hrun : ({} : Cooperation α).run events = some s)
    {call : Call α} (hc : s.calls[c]? = some call) : call.onTime s.now = true := by
  have hat := h events.length (Nat.le_refl _)
  rw [List.take_length, hrun, Option.all_some, List.all_eq_true] at hat
  exact hat call (List.mem_of_getElem? hc)

/-- A call leads its lease from one step to the next. -/
theorem Leads.step {a : Nat} {call : Call α} (h : Leads events s k a call)
    (hrun : ({} : Cooperation α).run events = some s) (hstep : s.step e = some s')
    (phase : CallPhase α) : Leads (events ++ [e]) s' k a { call with phase } where
  key := h.key
  arrived_le := h.arrived_le
  cause := h.cause.imp_right fun ⟨l₀, houtlasts⟩ => ⟨l₀, houtlasts.step hrun hstep⟩
  le_of_punctual hp := h.le_of_punctual hp.of_concat

/-- In every state of a run each lease is led by the call that started it. -/
theorem leads_of_run (h : ({} : Cooperation α).run events = some s) :
    ∀ (l : Nat) k c a, s.births[l]? = some (k, c, a) →
      ∃ call, s.calls[c]? = some call ∧ Leads events s k a call := by
  refine run_history (I := fun events s => ∀ (l : Nat) k c a, s.births[l]? = some (k, c, a) →
    ∃ call, s.calls[c]? = some call ∧ Leads events s k a call)
    (fun l k c a hb => by simp [births] at hb) ?_ h
  intro events q q' e hq ih hstep l k c a hb
  obtain hb | ⟨-, rfl, hbirth⟩ := birth_before_step hstep hb
  · obtain ⟨call, hc, hleads⟩ := ih l k c a hb
    obtain ⟨phase, hc', -⟩ := call_of_step hstep hc
    exact ⟨_, hc', hleads.step hq hstep phase⟩
  · cases hbirth with
    | arrival k passive active on free =>
      obtain ⟨off, -⟩ | ⟨-, l, held, -⟩ | ⟨-, -, harrive⟩ := arrive_cases q k passive active
      · exact absurd off on
      · rw [free] at held
        contradiction
      · cases hstep
        refine ⟨⟨k, passive, active, q.now, .leading q.leases.length⟩, ?_,
          ⟨rfl, Nat.le_refl _, .inl rfl, fun _ => Nat.le_add_right ..⟩⟩
        rw [harrive]
        exact List.getElem?_concat_length
    | takeover c call l₀ found phase free =>
      obtain ⟨next, hc', -⟩ := call_of_step hstep found
      have hpatient := patient_of_run hq c call found
      refine ⟨_, hc', rfl, hpatient.arrived,
        .inr ⟨l₀, (hpatient.exhausted l₀ phase).step hq hstep⟩, fun hp => ?_⟩
      have honTime := hp.of_concat.onTime hq found
      rw [Call.onTime, phase] at honTime
      exact of_decide_eq_true honTime

/-! ## Counting -/

/-- The work of a lease started at this time, if the lease is there. -/
def startOf (s : Cooperation α) (l : Nat) : Nat :=
  (s.births[l]?).elim 0 (·.2.2)

/-- No work for the key lasts longer than `D`. -/
def LastsAtMost (events : List (CoopEvent α)) (s : Cooperation α) (k : Key) (D : Nat) : Prop :=
  ∀ l a t, RunsAt events s k l a t → t < a + D

/-- No work for the key ends sooner than `D` after its start. -/
def LastsAtLeast (events : List (CoopEvent α)) (s : Cooperation α) (k : Key) (D : Nat) : Prop :=
  ∀ l a, s.Started k l a → ∀ ended ∈ endOf? l events, a + D ≤ ended

/-- The lease is for the key, and the call whose work it is came in at the time. -/
def LeaderCameIn (s : Cooperation α) (k : Key) (l t : Nat) : Prop :=
  ∃ c a call, s.births[l]? = some (k, c, a) ∧ s.calls[c]? = some call ∧ call.arrived = t

theorem Started.startOf_eq {a : Nat} (h : s.Started k l a) : s.startOf l = a := by
  obtain ⟨c, hb⟩ := h
  rw [startOf, hb, Option.elim_some]

/-- Works that start within `W` of each other and at least `P` apart. -/
theorem card_le_of_spaced {works : Finset Nat} (start : Nat → Nat) {P W t : Nat} (hP : 0 < P)
    (hwindow : ∀ l ∈ works, t ≤ start l ∧ start l < t + W)
    (hspaced : ∀ l ∈ works, ∀ l' ∈ works, l < l' → start l + P ≤ start l') :
    works.card ≤ W ⌈/⌉ P := by
  -- Cut the time into pieces of length `P`: no two works start in the same one.
  have hmaps : Set.MapsTo (fun l => (start l - t) / P) works (Finset.range (W ⌈/⌉ P)) := by
    intro l hl
    obtain ⟨hfrom, huntil⟩ := hwindow l hl
    have hlt : (start l - t) / P < W ⌈/⌉ P := by
      rw [Nat.ceilDiv_eq_add_pred_div, Nat.div_lt_iff_lt_mul hP]
      have := Nat.lt_div_mul_add (a := W + P - 1) hP
      omega
    simpa using hlt
  have hpiece : ∀ l ∈ works, ∀ l' ∈ works, l < l' → (start l - t) / P ≠ (start l' - t) / P := by
    intro l hl l' hl' hlt
    have hapart := hspaced l hl l' hl' hlt
    have hfrom := (hwindow l hl).1
    have hle : (start l - t + P) / P ≤ (start l' - t) / P := Nat.div_le_div_right (by omega)
    rw [Nat.add_div_right _ hP] at hle
    omega
  have hinj : Set.InjOn (fun l => (start l - t) / P) works := by
    intro l hl l' hl' heq
    obtain hlt | rfl | hgt := Nat.lt_trichotomy l l'
    · exact absurd heq (hpiece l hl l' hl' hlt)
    · rfl
    · exact absurd heq.symm (hpiece l' hl' l hl hgt)
  simpa using Finset.card_le_card_of_injOn _ hmaps hinj

theorem add_ceilDiv_self {P : Nat} (hP : 0 < P) (W : Nat) : (W + P) ⌈/⌉ P = W ⌈/⌉ P + 1 := by
  rw [Nat.ceilDiv_eq_add_pred_div, Nat.ceilDiv_eq_add_pred_div, ← Nat.add_div_right _ hP]
  congr 1
  omega

theorem succ_ceilDiv {P : Nat} (hP : 0 < P) (D : Nat) : (D + 1) ⌈/⌉ P = D / P + 1 := by
  rw [Nat.ceilDiv_eq_add_pred_div, ← Nat.add_div_right _ hP]
  congr 1
  omega

/-- Works that all run at one instant have started within the time that a work can last. -/
theorem Spaced.card_le_of_runsAt {P D t : Nat} (h : Spaced P events s) (hP : 0 < P)
    (hmost : LastsAtMost events s k D) {works : Finset Nat}
    (hworks : ∀ l ∈ works, ∃ a, RunsAt events s k l a t) : works.card ≤ D ⌈/⌉ P := by
  refine card_le_of_spaced s.startOf (t := t + 1 - D) hP (fun l hl => ?_) ?_
  · obtain ⟨a, hr⟩ := hworks l hl
    have hlong := hmost l a t hr
    have hstarted := hr.2.1
    rw [hr.1.startOf_eq]
    omega
  · intro l hl l' hl' hlt
    obtain ⟨a, hr⟩ := hworks l hl
    obtain ⟨b, hr'⟩ := hworks l' hl'
    rw [hr.1.startOf_eq, hr'.1.startOf_eq]
    exact h.of_runsAt hlt hr hr'

/-- Works that last at least `D` start at least `P` or `D` apart. -/
theorem Spaced.of_lastsAtLeast {P D : Nat} (h : Spaced P events s)
    (hleast : LastsAtLeast events s k D) {l l' a b : Nat} (hlt : l < l') (hs : s.Started k l a)
    (hs' : s.Started k l' b) : a + P ≤ b ∨ a + D ≤ b := by
  refine (h k l l' a b hlt hs hs').imp_right ?_
  rintro ⟨ended, hended, hle⟩
  exact Nat.le_trans (hleast l a hs ended hended) hle

/-- Work that is over sooner than a passive timeout is never waited on in vain. -/
theorem LastsAtMost.not_outlasts {P D : Nat} (h : LastsAtMost events s k D) (hlt : D < P) :
    ¬ Outlasts events s k l P := by
  rintro ⟨a, hs, hnow, hend⟩
  have hruns : RunsAt events s k l a (a + D) :=
    ⟨hs, Nat.le_add_right .., by omega, fun ended hended => by have := hend ended hended; omega⟩
  exact Nat.lt_irrefl _ (h l a _ hruns)

/-- The works of calls that come in within `W` of each other, if works last exactly `D`: calls whose
passive timeout is longer never take over, and others start work no later than it takes them to lose
their patience. -/
theorem card_le_of_cameIn {P D W t₀ : Nat} (hP : 0 < P)
    (hrun : ({} : Cooperation α).run events = some s)
    (hpassive : ∀ (c : Nat) (call : Call α), s.calls[c]? = some call → call.passive.nanos = P)
    (hmost : LastsAtMost events s k D) (hleast : LastsAtLeast events s k D)
    (hpunctual : Punctual events) {works : Finset Nat}
    (hworks : ∀ l ∈ works, ∃ t, s.LeaderCameIn k l t ∧ t₀ ≤ t ∧ t < t₀ + W) :
    (P ≤ D → works.card ≤ W ⌈/⌉ P + 1) ∧ (0 < D → D < P → works.card ≤ W ⌈/⌉ D) := by
  have hspaced := spaced_of_run hrun fun c call hc => Nat.le_of_eq (hpassive c call hc).symm
  have hapart : ∀ l ∈ works, ∀ l' ∈ works, l < l' →
      s.startOf l + P ≤ s.startOf l' ∨ s.startOf l + D ≤ s.startOf l' := by
    intro l hl l' hl' hlt
    obtain ⟨-, ⟨c, a, call, hb, -⟩, -⟩ := hworks l hl
    obtain ⟨-, ⟨c', b, call', hb', -⟩, -⟩ := hworks l' hl'
    have hs : s.Started k l a := ⟨c, hb⟩
    have hs' : s.Started k l' b := ⟨c', hb'⟩
    rw [hs.startOf_eq, hs'.startOf_eq]
    exact hspaced.of_lastsAtLeast hleast hlt hs hs'
  have hstart : ∀ l ∈ works, t₀ ≤ s.startOf l ∧ s.startOf l < t₀ + (W + P) ∧
      (D < P → s.startOf l < t₀ + W) := by
    intro l hl
    obtain ⟨t, ⟨c, a, call, hb, hc, rfl⟩, hfrom, huntil⟩ := hworks l hl
    obtain ⟨call', hc', hleads⟩ := leads_of_run hrun l k c a hb
    obtain rfl : call' = call := Option.some.inj (hc'.symm.trans hc)
    have hs : s.Started k l a := ⟨c, hb⟩
    have hpatience := hleads.le_of_punctual hpunctual
    have harrived := hleads.arrived_le
    rw [hpassive c call' hc] at hpatience
    rw [hs.startOf_eq]
    refine ⟨by omega, by omega, fun hlt => ?_⟩
    obtain rfl | ⟨l₀, houtlasts⟩ := hleads.cause
    · exact huntil
    · rw [hpassive c call' hc] at houtlasts
      exact absurd houtlasts (hmost.not_outlasts hlt)
  constructor
  · intro hle
    rw [← add_ceilDiv_self hP]
    refine card_le_of_spaced s.startOf hP (fun l hl => ⟨(hstart l hl).1, (hstart l hl).2.1⟩) ?_
    intro l hl l' hl' hlt
    have := hapart l hl l' hl' hlt
    omega
  · intro hD hlt
    refine card_le_of_spaced s.startOf hD (fun l hl => ⟨(hstart l hl).1, (hstart l hl).2.2 hlt⟩) ?_
    intro l hl l' hl' hlt'
    have := hapart l hl l' hl' hlt'
    omega

/-! ## Work of one key over whole runs -/

/-- **Work of one key.** In every run whose calls have the passive timeout `P`:

* Two works for a key that run at the same instant started at least `P` apart.
* If no work for a key lasts longer than `D`, no more than `D / P` of them, rounded up, ever run at
  the same instant.
* If all works for a key last exactly `D` and passive waits end on time, the calls that come in from
  any instant on until before `D` after it start at most `D / P`, rounded up, and one more works; and
  if those are counted too that come in `D` after it, at most `D / P`, rounded down, and two more. -/
theorem work_spaced {P : Nat} (hP : 0 < P) (hrun : ({} : Cooperation α).run events = some s)
    (hpassive : ∀ (c : Nat) (call : Call α), s.calls[c]? = some call → call.passive.nanos = P) :
    (∀ k l l' a b t, l < l' → RunsAt events s k l a t → RunsAt events s k l' b t → a + P ≤ b) ∧
    (∀ k D, LastsAtMost events s k D → ∀ t (works : Finset Nat),
      (∀ l ∈ works, ∃ a, RunsAt events s k l a t) → works.card ≤ max 1 (D ⌈/⌉ P)) ∧
    (∀ k D, LastsAtMost events s k D → LastsAtLeast events s k D → Punctual events →
      ∀ t₀ (works : Finset Nat),
        ((∀ l ∈ works, ∃ t, s.LeaderCameIn k l t ∧ t₀ ≤ t ∧ t < t₀ + D) →
          works.card ≤ D ⌈/⌉ P + 1) ∧
        (0 < D → (∀ l ∈ works, ∃ t, s.LeaderCameIn k l t ∧ t₀ ≤ t ∧ t ≤ t₀ + D) →
          works.card ≤ D / P + 2)) := by
  have hspaced := spaced_of_run hrun fun c call hc => Nat.le_of_eq (hpassive c call hc).symm
  refine ⟨fun k l l' a b t hlt hr hr' => hspaced.of_runsAt hlt hr hr',
    fun k D hmost t works hworks =>
      Nat.le_trans (hspaced.card_le_of_runsAt hP hmost hworks) (Nat.le_max_right ..),
    fun k D hmost hleast hpunctual t₀ works => ⟨fun hworks => ?_, fun hD hworks => ?_⟩⟩
  · obtain ⟨hlong, hshort⟩ := card_le_of_cameIn hP hrun hpassive hmost hleast hpunctual hworks
    obtain hlt | hle := Nat.lt_or_ge D P
    · obtain rfl | hD := Nat.eq_zero_or_pos D
      · have hnone : works = ∅ := Finset.eq_empty_of_forall_notMem fun l hl => by
          obtain ⟨t, -, hfrom, huntil⟩ := hworks l hl
          omega
        rw [hnone, Finset.card_empty]
        exact Nat.zero_le _
      · have hone : D ⌈/⌉ D = 1 := by
          have hself := add_ceilDiv_self hD 0
          rwa [Nat.zero_add, zero_ceilDiv] at hself
        have hcard := hshort hD hlt
        omega
    · exact hlong hle
  · -- A window with its last instant is one without it that is an instant longer.
    have hclosed : ∀ l ∈ works, ∃ t, s.LeaderCameIn k l t ∧ t₀ ≤ t ∧ t < t₀ + (D + 1) := by
      intro l hl
      obtain ⟨t, hled, hfrom, huntil⟩ := hworks l hl
      exact ⟨t, hled, hfrom, by omega⟩
    obtain ⟨hlong, hshort⟩ := card_le_of_cameIn hP hrun hpassive hmost hleast hpunctual hclosed
    obtain hlt | hle := Nat.lt_or_ge D P
    · have hcard := hshort hD hlt
      rw [succ_ceilDiv hD, Nat.div_self hD] at hcard
      exact Nat.le_trans hcard (Nat.le_add_left ..)
    · have hcard := hlong hle
      rw [succ_ceilDiv hP] at hcard
      exact hcard

/-- Works of four for one key that take over from each other every two; the last of the calls comes
in just when the first work is over. -/
def relay : List (CoopEvent Nat) :=
  [.arrive ⟨"a"⟩ ⟨2⟩ ⟨9⟩, .arrive ⟨"a"⟩ ⟨2⟩ ⟨9⟩,
    .tick 2, .exhaust 1, .takeOver 1, .arrive ⟨"a"⟩ ⟨2⟩ ⟨9⟩,
    .tick 2, .publish 0 (some (.ok 1)), .release 0, .deliver 0, .exhaust 2, .takeOver 2,
    .arrive ⟨"a"⟩ ⟨2⟩ ⟨9⟩,
    .tick 2, .publish 1 (some (.ok 2)), .release 1, .deliver 1, .exhaust 3, .takeOver 3,
    .tick 2, .publish 2 (some (.ok 3)), .release 2, .deliver 2,
    .tick 2, .publish 3 (some (.ok 4)), .release 3, .deliver 3]

/-- When the works of the relay started, and when the calls came in whose works they are. -/
theorem relay_run : ∃ s, ({} : Cooperation Nat).run relay = some s ∧
    s.births = [(⟨"a"⟩, 0, 0), (⟨"a"⟩, 1, 2), (⟨"a"⟩, 2, 4), (⟨"a"⟩, 3, 6)] ∧
    s.calls.all (fun call => call.passive.nanos = 2) = true ∧
    s.LeaderCameIn ⟨"a"⟩ 0 0 ∧ s.LeaderCameIn ⟨"a"⟩ 1 0 ∧
    s.LeaderCameIn ⟨"a"⟩ 2 2 ∧ s.LeaderCameIn ⟨"a"⟩ 3 4 :=
  ⟨_, rfl, rfl, rfl, ⟨0, 0, _, rfl, rfl, rfl⟩, ⟨1, 2, _, rfl, rfl, rfl⟩,
    ⟨2, 4, _, rfl, rfl, rfl⟩, ⟨3, 6, _, rfl, rfl, rfl⟩⟩

/-- Each work of the relay lasts four. -/
theorem relay_lasts {s : Cooperation Nat}
    (hbirths : s.births = [(⟨"a"⟩, 0, 0), (⟨"a"⟩, 1, 2), (⟨"a"⟩, 2, 4), (⟨"a"⟩, 3, 6)]) (k : Key) :
    LastsAtMost relay s k 4 ∧ LastsAtLeast relay s k 4 := by
  have hends : ∀ l a, s.Started k l a → endOf? l relay = some (a + 4) := by
    rintro l a ⟨c, hb⟩
    rw [hbirths] at hb
    match l, hb with
    | 0, rfl | 1, rfl | 2, rfl | 3, rfl => rfl
  constructor
  · rintro l a t ⟨hs, -, -, hend⟩
    exact hend (a + 4) (hends l a hs)
  · intro l a hs ended hended
    rw [hends l a hs] at hended
    cases hended
    exact Nat.le_refl _

/-- All that is asked of a run for the last part of the count: its calls have the passive timeout 2,
its waits end on time, and its four works last four and are those of calls that come in within four
of the start of the first. -/
theorem relay_within : ∃ s, ({} : Cooperation Nat).run relay = some s ∧
    (∀ (c : Nat) (call : Call Nat), s.calls[c]? = some call → call.passive.nanos = 2) ∧
    Punctual relay ∧ LastsAtMost relay s ⟨"a"⟩ 4 ∧ LastsAtLeast relay s ⟨"a"⟩ 4 ∧
    s.Started ⟨"a"⟩ 0 0 ∧
    ∀ l ∈ Finset.range 4, ∃ t, s.LeaderCameIn ⟨"a"⟩ l t ∧ 0 ≤ t ∧ t ≤ 0 + 4 := by
  obtain ⟨s, hrun, hbirths, hcalls, h0, h1, h2, h3⟩ := relay_run
  obtain ⟨hmost, hleast⟩ := relay_lasts hbirths ⟨"a"⟩
  refine ⟨s, hrun, fun c call hc => ?_, by decide, hmost, hleast, ⟨0, by rw [hbirths]; rfl⟩, ?_⟩
  · exact of_decide_eq_true (List.all_eq_true.mp hcalls call (List.mem_of_getElem? hc))
  · intro l hl
    match l, Finset.mem_range.mp hl with
    | 0, _ => exact ⟨0, h0, by omega, by omega⟩
    | 1, _ => exact ⟨0, h1, by omega, by omega⟩
    | 2, _ => exact ⟨2, h2, by omega, by omega⟩
    | 3, _ => exact ⟨4, h3, by omega, by omega⟩

/-- The relay has as many works as there can be. -/
theorem relay_spaced : ∃ s, ({} : Cooperation Nat).run relay = some s ∧
    (∀ l ∈ Finset.range 4, ∃ t, s.LeaderCameIn ⟨"a"⟩ l t ∧ 0 ≤ t ∧ t ≤ 0 + 4) ∧
    (Finset.range 4).card ≤ 4 / 2 + 2 := by
  obtain ⟨s, hrun, hpassive, hpunctual, hmost, hleast, -, hworks⟩ := relay_within
  have hcount := (work_spaced (by decide) hrun hpassive).2.2 ⟨"a"⟩ 4 hmost hleast hpunctual 0
    (Finset.range 4)
  exact ⟨s, hrun, hworks, hcount.2 (by decide) hworks⟩

/-- Calls that come in within the time of a work, the end of that time included, can start one work
more than the calls before it. -/
theorem relay_exceeds : ∃ s, ({} : Cooperation Nat).run relay = some s ∧
    (∀ (c : Nat) (call : Call Nat), s.calls[c]? = some call → call.passive.nanos = 2) ∧
    Punctual relay ∧ LastsAtMost relay s ⟨"a"⟩ 4 ∧ LastsAtLeast relay s ⟨"a"⟩ 4 ∧
    s.Started ⟨"a"⟩ 0 0 ∧
    (∀ l ∈ Finset.range 4, ∃ t, s.LeaderCameIn ⟨"a"⟩ l t ∧ 0 ≤ t ∧ t ≤ 0 + 4) ∧
    ¬ (Finset.range 4).card ≤ 4 ⌈/⌉ 2 + 1 := by
  obtain ⟨s, hrun, hpassive, hpunctual, hmost, hleast, hstart, hworks⟩ := relay_within
  refine ⟨s, hrun, hpassive, hpunctual, hmost, hleast, hstart, hworks, ?_⟩
  rw [Nat.ceilDiv_eq_add_pred_div, Finset.card_range]
  decide

end Cooperation

end PullCache
