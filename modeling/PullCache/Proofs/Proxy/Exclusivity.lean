import PullCache.Proofs.Cooperation.Spacing
import PullCache.Proofs.Proxy.Flow
/-!
# Proofs.Proxy.Exclusivity

Whether a store is asked to change twice at the same time for one resource. While sharing is on, the
fetches and the leases go hand in hand: each lease has one fetch that works for it, and no outcome
before that fetch has published one (`Enlisted`).

Work for a key starts beside work that still goes on in one way only: a get takes over, after it has
followed the work that the table holds for its whole passive timeout (`Overtaken`). The work that was
too slow is not stopped by that, so both can be with the store at the same time. The store is spared
this as long as every work for a resource is done with it within the passive timeout.
-/

namespace PullCache

/-- The store takes new content in, or notes that the copy is unchanged. -/
def FetchPhase.mutates : FetchPhase → Bool
  | storing .. | verifying .. => true
  | _ => false

/-- A fetch acts on the store before it publishes. -/
theorem FetchPhase.rank_of_mutates {phase : FetchPhase} (h : phase.mutates = true) :
    phase.rank < FetchPhase.published.rank := by
  cases phase with
  | storing | verifying => simp [rank]
  | _ => contradiction

namespace Proxy

variable {σ : Type} {ops : StoreOps σ} {start p p' q q' : Proxy σ} {e : ProxyEvent}
  {events : List ProxyEvent} {g i j k l : Nat} {fetch : Fetch} {call : Call (Option Content)}

/-- A call that changes the store for the key is under way in a fetch. -/
def Mutates (p : Proxy σ) (key : Key) (i : Nat) : Prop :=
  ∃ fetch, p.fetch? i = some fetch ∧ fetch.resource.key = key ∧ fetch.phase.mutates = true

/-- Sharing is on in every state of the run. -/
def SharesThroughout (ops : StoreOps σ) (start : Proxy σ) (events : List ProxyEvent) : Prop :=
  ∀ n ≤ events.length, (start.run ops (events.take n)).all fun p => p.passive.nanos != 0

instance : Decidable (SharesThroughout ops start events) :=
  inferInstanceAs (Decidable (∀ n ≤ events.length,
    (start.run ops (events.take n)).all fun p => p.passive.nanos != 0))

/-- With sharing on throughout, it is on at every point of the run. -/
theorem SharesThroughout.on (h : SharesThroughout ops start events) (hk : k ≤ events.length)
    (hp : start.run ops (events.take k) = some p) : p.passive.nanos ≠ 0 := by
  have hall := h k hk
  rw [hp, Option.all_some, bne_iff_ne] at hall
  exact hall

/-! ## A fetch for each lease -/

/-- For each fetch where its work runs. -/
def places (p : Proxy σ) : List WorkPlace :=
  p.fetches.map Fetch.place

/-- As long as no get makes a call or takes over, neither leases nor fetches begin. -/
theorem places_of_other (h : p.step ops e = some p') (enters : ∀ g, e ≠ .enter g)
    (takes : ∀ g, e ≠ .takeOver g) :
    p'.places = p.places ∧ p'.coop.leases.length = p.coop.leases.length := by
  constructor
  · cases (step_effect h).fetches with
    | same fetches => rw [places, places, fetches]
    | added fetch begun =>
      cases begun with
      | entered g => exact absurd rfl (enters g)
      | tookOver g => exact absurd rfl (takes g)
    | move i fetch phase found move fetches =>
      rw [places, places, fetches]
      exact map_modify_of_keeps (f := fun fetch : Fetch => { fetch with phase }) (fun _ => rfl) _ _
  · obtain hsame | ⟨event, hshares, hstep⟩ := coop_of_step h
    · rw [hsame]
    · obtain hsame | ⟨key, c, hbirth, -⟩ := Cooperation.step_births hstep
      · rw [← Cooperation.length_births, hsame, Cooperation.length_births]
      · cases hbirth with
        | arrival =>
          cases hshares with
          | enter g => exact absurd rfl (enters g)
        | takeover =>
          cases hshares with
          | takeOver g => exact absurd rfl (takes g)

/-- A lease begins and with it a fetch that works for it, or neither does. -/
def InStep (p p' : Proxy σ) : Prop :=
  (p'.places = p.places ∧ p'.coop.leases.length = p.coop.leases.length) ∨
    (p'.places = p.places ++ [.lease p.coop.leases.length] ∧
      p'.coop.leases.length = p.coop.leases.length + 1)

/-- With sharing on, a call that comes in starts a lease and its fetch together, or neither. -/
theorem inStep_enter (on : p.passive.nanos ≠ 0) (h : p.enter g = some p') : InStep p p' := by
  obtain ⟨get, cached, -, -, next, rfl, hnext⟩ := enter_cases h
  obtain ⟨off, -⟩ | ⟨-, l, hheld, harrive⟩ | ⟨-, free, harrive⟩ :=
    Cooperation.arrive_cases p.coop get.resource.key p.passive p.active
  · exact absurd off on
  · obtain ⟨off, -⟩ | ⟨-, -, rfl⟩ | ⟨-, free, -⟩ := hnext
    · exact absurd off on
    · refine .inl ⟨rfl, ?_⟩
      rw [setGet_coop, harrive]
      exact List.length_modify ..
    · rw [hheld] at free
      contradiction
  · obtain ⟨off, -⟩ | ⟨-, ⟨l, hheld⟩, -⟩ | ⟨-, -, rfl⟩ := hnext
    · exact absurd off on
    · rw [hheld] at free
      contradiction
    · refine .inr ⟨List.map_append, ?_⟩
      rw [addFetch_coop, setGet_coop, harrive]
      exact List.length_append

/-- So does a call that takes over. -/
theorem inStep_takeOver (h : p.takeOver g = some p') : InStep p p' := by
  obtain ⟨get, c, coop, -, -, htook, hnext⟩ := takeOver_cases h
  have hlength : coop.leases.length = p.coop.leases.length + 1 ∨
      coop.leases.length = p.coop.leases.length := by
    obtain ⟨call, l, -, -, ⟨-, rfl⟩ | ⟨other, -, -, rfl⟩⟩ := Cooperation.takeOver_cases htook
    · exact .inl List.length_append
    · exact .inr (List.length_modify ..)
  obtain ⟨hleads, rfl⟩ | ⟨hjoins, rfl⟩ := hnext
  · exact .inr ⟨List.map_append, hlength.resolve_right (Nat.ne_of_gt hleads)⟩
  · exact .inl ⟨rfl, hlength.resolve_left fun hmore => by omega⟩

/-- While sharing is on, leases and fetches begin together. -/
theorem inStep_of_step (on : p.passive.nanos ≠ 0) (h : p.step ops e = some p') : InStep p p' := by
  cases e with
  | enter g => exact inStep_enter on h
  | takeOver g => exact inStep_takeOver h
  | _ => exact .inl (places_of_other h nofun nofun)

/-- Each lease has one fetch that works for it, and no outcome before that has published one. -/
structure Enlisted (p : Proxy σ) : Prop where
  places : p.places = (List.range p.coop.leases.length).map .lease
  pending : ∀ i fetch, p.fetches[i]? = some fetch →
    fetch.phase.rank < FetchPhase.published.rank → p.coop.outcome? i = none

/-- There are as many fetches as leases. -/
theorem Enlisted.length (h : Enlisted p) : p.fetches.length = p.coop.leases.length := by
  have hlength := congrArg List.length h.places
  rwa [Proxy.places, List.length_map, List.length_map, List.length_range] at hlength

/-- The fetch with a number is the work of the lease with that number. -/
theorem Enlisted.place (h : Enlisted p) (hi : p.fetches[i]? = some fetch) :
    fetch.place = .lease i := by
  have hlt : i < p.coop.leases.length := h.length ▸ (List.getElem?_eq_some_iff.mp hi).1
  have hplace := congrArg (·[i]?) h.places
  rw [Proxy.places, List.getElem?_map, hi, List.getElem?_map, List.getElem?_range hlt] at hplace
  exact Option.some.inj hplace

/-- A lease gets its outcome when its fetch publishes that, and at no other time. -/
theorem Enlisted.outcome?_of_step (h : Enlisted p) (hstep : p.step ops e = some p')
    (there : i < p.coop.leases.length) (hpending : p.coop.outcome? i = none)
    (hi : p'.fetches[i]? = some fetch) (early : fetch.phase.rank < FetchPhase.published.rank) :
    p'.coop.outcome? i = none := by
  obtain hsame | ⟨event, hshares, hcoop⟩ := coop_of_step hstep
  · rwa [hsame]
  · have hlease : p.coop.leases[i]? = some p.coop.leases[i] := List.getElem?_eq_getElem there
    obtain ⟨lease, hlease', -, hkeeps | ⟨outcome, rfl, -⟩, -⟩ :=
      Cooperation.lease_of_step hcoop hlease
    · rw [Cooperation.outcome?, hlease, Option.bind_some] at hpending
      rw [Cooperation.outcome?, hlease', Option.bind_some, hkeeps, hpending]
    · cases hshares with
      | publish j _ publishing _ found _ place =>
        obtain rfl : i = j := WorkPlace.lease.inj (place.symm.trans (h.place found))
        obtain ⟨-, -, -, coop, -, -, -, -, rfl⟩ := publish_eq_some.mp hstep
        rw [setFetch_fetches, List.getElem?_modify_eq, found] at hi
        cases hi
        exact absurd early (Nat.lt_irrefl _)

/-- Every step keeps fetches and leases in line. -/
theorem Enlisted.step (h : Enlisted p) (on : p.passive.nanos ≠ 0)
    (hstep : p.step ops e = some p') : Enlisted p' where
  places := by
    obtain ⟨hplaces, hlength⟩ | ⟨hplaces, hlength⟩ := inStep_of_step on hstep
    · rw [hplaces, hlength, h.places]
    · rw [hplaces, hlength, h.places, List.range_succ, List.map_append, List.map_singleton]
  pending i fetch hi early := by
    have hthere : ∀ {before : Fetch}, p.fetches[i]? = some before → i < p.coop.leases.length :=
      fun hbefore => h.length ▸ (List.getElem?_eq_some_iff.mp hbefore).1
    obtain hbefore | ⟨rfl, -⟩ | ⟨before, phase, found, move, rfl⟩ :=
      (step_effect hstep).fetches.before hi
    · exact h.outcome?_of_step hstep (hthere hbefore) (h.pending i fetch hbefore early) hi early
    · -- The lease of a fetch that begins is a new one.
      have hnew : p.coop.leases[p.fetches.length]? = none :=
        List.getElem?_eq_none (Nat.le_of_eq h.length.symm)
      rw [Cooperation.outcome?]
      cases hlease : p'.coop.leases[p.fetches.length]? with
      | none => rfl
      | some lease =>
        obtain hsame | ⟨event, -, hcoop⟩ := coop_of_step hstep
        · rw [hsame, hnew] at hlease
          contradiction
        · obtain ⟨old, hold⟩ | ⟨-, hpending, -⟩ := Cooperation.lease_before_step hcoop hlease
          · rw [hnew] at hold
            contradiction
          · exact hpending
    · exact h.outcome?_of_step hstep (hthere found)
        (h.pending i before found (Nat.lt_trans move.rank_lt early)) hi early

/-! ## Takeovers -/

/-- At a place of the run a get takes over from the work of a lease that goes on: its call has followed
that until its passive wait was over, and the table still holds the lease. -/
structure TakesOver (ops : StoreOps σ) (start : Proxy σ) (events : List ProxyEvent) (n : Nat)
    (p : Proxy σ) (l : Nat) (call : Call (Option Content)) : Prop where
  run : start.run ops (events.take n) = some p
  event : ∃ g c, events[n]? = some (.takeOver g) ∧ p.callOf? g = some c ∧
    p.coop.calls[c]? = some call
  exhausted : call.phase = .exhausted l
  held : p.coop.registered? call.key = some l
  pending : p.coop.outcome? l = none

/-- Work that still goes on, while other work for its key has started since, was taken over before:
it had gone on for the whole passive timeout of the call that took over. -/
def Overtaken (ops : StoreOps σ) (start : Proxy σ) (events : List ProxyEvent) (q : Proxy σ) : Prop :=
  ∀ key l l' a b, l < l' → q.coop.Started key l a → q.coop.Started key l' b →
    q.coop.outcome? l = none → ∃ n p call, TakesOver ops start events n p l call ∧
      call.key = key ∧ a + call.passive.nanos ≤ p.coop.now ∧ p.coop.now ≤ b

/-- Work that goes on is in the table, or it was taken over. -/
theorem Overtaken.held_or (h : Overtaken ops start events q)
    {shared : List (CoopEvent (Option Content))}
    (hshared : ({} : Cooperation (Option Content)).run shared = some q.coop) {key : Key} {a : Nat}
    (hstarted : q.coop.Started key l a) (hpending : q.coop.outcome? l = none) :
    q.coop.registered? key = some l ∨ ∃ n p call, TakesOver ops start events n p l call ∧
      call.key = key ∧ a + call.passive.nanos ≤ p.coop.now ∧ p.coop.now ≤ q.coop.now := by
  obtain ⟨m, hlatest, hle⟩ := Cooperation.exists_latest? hstarted
  obtain rfl | hlt := Nat.eq_or_lt_of_le hle
  · have hrunning := Cooperation.isRunning_of_outcome?_eq_none
      (Cooperation.endsInOrder_of_run hshared) hlatest hpending
    exact .inl ((Cooperation.tableInv_of_run hshared).registered?_iff.mpr ⟨hlatest, hrunning⟩)
  · obtain ⟨b, hlast⟩ := Cooperation.started_of_latest? hlatest
    obtain ⟨n, p, call, htakes, hkey, hlong, hle⟩ := h key l m a b hlt hstarted hlast hpending
    exact .inr ⟨n, p, call, htakes, hkey, hlong,
      Nat.le_trans hle (Cooperation.started_le_now hshared hlast)⟩

/-- A lease that was overtaken before a step is overtaken after it. -/
theorem Overtaken.step (h : Overtaken ops start events q)
    {shared : List (CoopEvent (Option Content))}
    (hshared : ({} : Cooperation (Option Content)).run shared = some q.coop)
    (hevent : events[k]? = some e) (hq : start.run ops (events.take k) = some q)
    (hstep : q.step ops e = some q') : Overtaken ops start events q' := by
  obtain hsame | ⟨event, hshares, hcoop⟩ := coop_of_step hstep
  · unfold Overtaken
    rw [hsame]
    exact h
  · intro key l l' a b hlt hl hl' hpending'
    have hstarted := hl.of_lt hl' hlt hcoop
    have hpending : q.coop.outcome? l = none := by
      cases houtcome : q.coop.outcome? l with
      | none => rfl
      | some outcome =>
        rw [Cooperation.outcome?_of_step hcoop houtcome] at hpending'
        contradiction
    obtain ⟨c', hborn⟩ := hl'
    obtain hbefore | ⟨-, rfl, hbirth⟩ := Cooperation.birth_before_step hcoop hborn
    · exact h key l l' a b hlt hstarted ⟨c', hbefore⟩ hpending
    · obtain hheld | htaken := h.held_or hshared hstarted hpending
      · cases hbirth with
        | arrival _ passive active on free =>
          rw [hheld] at free
          contradiction
        | takeover _ call l₀ found phase free =>
          rw [hheld] at free
          obtain rfl : l = l₀ := Option.some.inj (free.resolve_left nofun)
          cases hshares with
          | takeOver g _ hcall =>
            obtain ⟨a', hsince, hlong, -⟩ :=
              (Cooperation.patient_of_run hshared c' call found).exhausted l phase
            rw [hsince.unique hstarted] at hlong
            exact ⟨k, q, call, ⟨hq, ⟨g, c', hevent, hcall, found⟩, phase, hheld, hpending⟩, rfl,
              hlong, Nat.le_refl _⟩
      · exact htaken

/-- A call that is there stays there, with its key and its timeouts. -/
theorem call_of_run {c : Nat} (h : p.run ops events = some q)
    (hc : p.coop.calls[c]? = some call) :
    ∃ phase, q.coop.calls[c]? = some { call with phase } := by
  refine run_invariant (I := fun _ q => ∃ phase, q.coop.calls[c]? = some { call with phase })
    ⟨call.phase, hc⟩ ?_ h
  rintro before p p' e - ⟨phase, hphase⟩ hstep
  obtain hsame | ⟨event, -, hcoop⟩ := coop_of_step hstep
  · exact ⟨phase, by rw [hsame, hphase]⟩
  · obtain ⟨phase', hphase', -⟩ := Cooperation.call_of_step hcoop hphase
    exact ⟨phase', hphase'⟩

/-- While sharing is on, all calls that come in have a passive wait. -/
theorem passive_of_step (on : p.passive.nanos ≠ 0)
    (h : ∀ (c : Nat) (call : Call (Option Content)), p.coop.calls[c]? = some call →
      call.passive.nanos ≠ 0) (hstep : p.step ops e = some p') (c : Nat)
    (call : Call (Option Content)) (hc : p'.coop.calls[c]? = some call) :
    call.passive.nanos ≠ 0 := by
  obtain hsame | ⟨event, hshares, hcoop⟩ := coop_of_step hstep
  · exact h c call (hsame ▸ hc)
  · obtain hbefore | ⟨-, key, passive, active, phase, rfl, -, rfl⟩ | ⟨before, phase, found, -, rfl⟩ :=
      (Cooperation.step_calls hcoop).before hc
    · exact h c call hbefore
    · cases hshares with
      | enter => exact on
    · exact h c before found

/-! ## Calls to the store -/

/-- What holds in a run in which sharing is on throughout. -/
structure Sharing (ops : StoreOps σ) (start : Proxy σ) (events : List ProxyEvent) (q : Proxy σ) :
    Prop where
  enlisted : Enlisted q
  matched : Matched q
  patient : ∀ (c : Nat) (call : Call (Option Content)), q.coop.calls[c]? = some call →
    call.passive.nanos ≠ 0
  overtaken : Overtaken ops start events q
  coop : ∃ shared, ({} : Cooperation (Option Content)).run shared = some q.coop

/-- What sharing comes to in every state of a run. -/
theorem sharing_of_run {config : Config} {store : σ} {now : Instant}
    (hnew : Proxy.new config store now = .ok start) (hrun : start.run ops events = some q)
    (hon : SharesThroughout ops start events) : Sharing ops start events q := by
  have hcoop := new_coop hnew
  obtain ⟨-, hgets, hfetches, -⟩ := new_eq_ok hnew
  have hstart : Sharing ops start events start := by
    constructor
    · constructor
      · rw [places, hfetches, hcoop]
        rfl
      · simp [hfetches]
    · exact ⟨by simp [hgets], by simp [hfetches]⟩
    · simp [hcoop]
    · rintro key l l' a b - ⟨c, hbirth⟩
      rw [hcoop] at hbirth
      simp [Cooperation.births] at hbirth
    · exact ⟨[], by rw [hcoop]; rfl⟩
  rw [← List.take_length (l := events)] at hrun
  refine place_induction (I := fun _ q => Sharing ops start events q) rfl hstart ?_
    (Nat.zero_le _) (Nat.le_refl _) hrun
  intro k q q' e _ hevent hq hstep h
  obtain ⟨shared, hshared⟩ := h.coop
  have on := hon.on (Nat.le_of_lt (List.getElem?_eq_some_iff.mp hevent).1) hq
  exact ⟨h.enlisted.step on hstep, h.matched.step hstep, passive_of_step on h.patient hstep,
    h.overtaken.step hshared hevent hq hstep, coop_run_of_step hstep ⟨shared, hshared⟩⟩

/-- The work of a fetch that calls the store has no outcome yet. -/
theorem Sharing.of_mutates (h : Sharing ops start events q) {key : Key} (hi : q.Mutates key i) :
    (∃ a, q.coop.Started key i a) ∧ q.coop.outcome? i = none := by
  obtain ⟨fetch, hfetch, rfl, hmutates⟩ := hi
  have hfound := (fetch?_eq_some.mp hfetch).1
  have hwork := h.matched.fetches i fetch hfound
  rw [h.enlisted.place hfound] at hwork
  exact ⟨Cooperation.started_of_isFor hwork,
    h.enlisted.pending i fetch hfound (FetchPhase.rank_of_mutates hmutates)⟩

/-- A call that takes over is there until the end of the run. -/
theorem TakesOver.call_of_run {n : Nat} (h : TakesOver ops start events n p l call)
    (hrun : start.run ops events = some q) :
    ∃ (c : Nat) (phase : CallPhase (Option Content)),
      q.coop.calls[c]? = some { call with phase } := by
  obtain ⟨g, c, hevent, -, hcall⟩ := h.event
  have hle := Nat.le_of_lt (List.getElem?_eq_some_iff.mp hevent).1
  rw [← List.take_length (l := events)] at hrun
  exact ⟨c, Proxy.call_of_run (run_between hle h.run hrun) hcall⟩

/-- The work of one fetch was taken over before that of another began: a get had followed it for its
whole passive timeout. -/
def TakenOver (ops : StoreOps σ) (start : Proxy σ) (events : List ProxyEvent) (q : Proxy σ)
    (key : Key) (i j : Nat) : Prop :=
  ∃ a b n p call, q.coop.Started key i a ∧ q.coop.Started key j b ∧
    TakesOver ops start events n p i call ∧ call.key = key ∧ call.passive.nanos ≠ 0 ∧
    a + call.passive.nanos ≤ p.coop.now ∧ p.coop.now ≤ b

/-- Of two fetches that act on the store, the later one has taken over from the earlier. -/
theorem Sharing.takenOver (h : Sharing ops start events q) (hrun : start.run ops events = some q)
    {key : Key} (hlt : i < j) (hi : q.Mutates key i) (hj : q.Mutates key j) :
    TakenOver ops start events q key i j := by
  obtain ⟨⟨a, ha⟩, hpending⟩ := h.of_mutates hi
  obtain ⟨⟨b, hb⟩, -⟩ := h.of_mutates hj
  obtain ⟨n, p, call, htakes, hkey, hlong, hle⟩ := h.overtaken key i j a b hlt ha hb hpending
  obtain ⟨c, phase, hc⟩ := htakes.call_of_run hrun
  have hpassive : call.passive.nanos ≠ 0 := h.patient c { call with phase } hc
  exact ⟨a, b, n, p, call, ha, hb, htakes, hkey, hpassive, hlong, hle⟩

/-- Work that was taken over is as old as the shortest passive timeout of the calls for its key. -/
theorem TakenOver.not_young {key : Key} {P : Nat} (h : TakenOver ops start events q key i j)
    (hrun : start.run ops events = some q)
    (hshared : ∃ shared, ({} : Cooperation (Option Content)).run shared = some q.coop)
    (hpassive : ∀ (c : Nat) call, q.coop.calls[c]? = some call → call.key = key →
      P ≤ call.passive.nanos) :
    ∃ a, q.coop.Started key i a ∧ a + P ≤ q.coop.now := by
  obtain ⟨a, b, n, p, call, ha, hb, htakes, hkey, -, hlong, hle⟩ := h
  obtain ⟨c, phase, hc⟩ := htakes.call_of_run hrun
  obtain ⟨shared, hshared⟩ := hshared
  have hwait : P ≤ call.passive.nanos := hpassive c { call with phase } hc hkey
  have hnow := Cooperation.started_le_now hshared hb
  exact ⟨a, ha, by omega⟩

/-- **Calls that change the store.** In every run in which sharing is on throughout, over any store
and with any number of gets:

* Two calls that change the store for one key are under way together only if the earlier work was
  taken over: a get had followed it for its whole passive timeout, which is not zero, and the table
  held it still. The later work started after that.
* If the calls for a key all wait for at least `P`, and no work is as old as that while it calls the
  store, then no two calls that change the store are under way together for the key. -/
theorem mutations_apart {config : Config} {store : σ} {now : Instant}
    (hnew : Proxy.new config store now = .ok start) (hrun : start.run ops events = some q)
    (hon : SharesThroughout ops start events) :
    (∀ key i j, i < j → q.Mutates key i → q.Mutates key j →
      TakenOver ops start events q key i j) ∧
    (∀ key P, (∀ (c : Nat) call, q.coop.calls[c]? = some call → call.key = key →
        P ≤ call.passive.nanos) →
      (∀ i a, q.Mutates key i → q.coop.Started key i a → q.coop.now < a + P) →
      ∀ i j, q.Mutates key i → q.Mutates key j → i = j) := by
  have hsharing := sharing_of_run hnew hrun hon
  refine ⟨fun key i j => hsharing.takenOver hrun, fun key P hpassive hyoung => ?_⟩
  -- The later of two fetches took over from the earlier one, which was too old by then.
  have hnever : ∀ i j, i < j → q.Mutates key i → ¬ q.Mutates key j := by
    intro i j hlt hi hj
    obtain ⟨a, ha, hold⟩ :=
      (hsharing.takenOver hrun hlt hi hj).not_young hrun hsharing.coop hpassive
    exact Nat.not_le_of_lt (hyoung i a hi ha) hold
  intro i j hi hj
  obtain hlt | rfl | hgt := Nat.lt_trichotomy i j
  · exact absurd hj (hnever i j hlt hi)
  · rfl
  · exact absurd hi (hnever j i hgt hj)

/-- A run in which the store takes ten minutes to take in what the first fetch brought, the time it
takes for the body to come in. A second get takes over, and its fetch brings another answer. -/
def slowBody : List ProxyEvent :=
  asked ++ [.answer 0 (revision "v1" [1]), .handle 0] ++
  [.request jar, .lookUp 1, .judge 1, .enter 1, .tick 600000000000, .exhaust 1, .takeOver 1,
    .recheck 1, .rejudge 1, .ask 1, .answer 1 (revision "v2" [2]), .handle 1]

/-- The first fetch was taken over after the whole passive timeout of the second get. Before that, no
two calls that change the store can be under way together. -/
theorem slowBody_taken_over :
    (∃ q, oldStart.run MemoryStore.ops slowBody = some q ∧ q.Mutates jar.key 0 ∧
      q.Mutates jar.key 1 ∧ TakenOver MemoryStore.ops oldStart slowBody q jar.key 0 1) ∧
    ∃ q, oldStart.run MemoryStore.ops (slowBody.take 11) = some q ∧ q.Mutates jar.key 0 ∧
      ∀ i j, q.Mutates jar.key i → q.Mutates jar.key j → i = j := by
  have hshares : SharesThroughout MemoryStore.ops oldStart slowBody := by decide
  have hshares' : SharesThroughout MemoryStore.ops oldStart (slowBody.take 11) := by decide
  have hcalls : (oldStart.run MemoryStore.ops (slowBody.take 11)).map
      (fun q => q.coop.calls.all fun call => call.passive.nanos == 600000000000) = some true := rfl
  obtain ⟨q, hrun, hmutates, hmutates'⟩ : ∃ q, oldStart.run MemoryStore.ops slowBody = some q ∧
      q.Mutates jar.key 0 ∧ q.Mutates jar.key 1 := ⟨_, rfl, ⟨_, rfl, rfl, rfl⟩, ⟨_, rfl, rfl, rfl⟩⟩
  obtain ⟨q', hrun', hfirst, hnow⟩ : ∃ q, oldStart.run MemoryStore.ops (slowBody.take 11) = some q ∧
      q.Mutates jar.key 0 ∧ q.coop.now = 0 := ⟨_, rfl, ⟨_, rfl, rfl, rfl⟩, rfl⟩
  refine ⟨⟨q, hrun, hmutates, hmutates', ?_⟩, q', hrun', hfirst, ?_⟩
  · exact (mutations_apart new_oldConfig hrun hshares).1 jar.key 0 1 (by decide) hmutates hmutates'
  · refine (mutations_apart new_oldConfig hrun' hshares').2 jar.key 600000000000 ?_ ?_
    · intro c call hc _
      rw [hrun', Option.map_some, Option.some.injEq, List.all_eq_true] at hcalls
      have hpassive := hcalls call (List.mem_of_getElem? hc)
      rw [beq_iff_eq] at hpassive
      exact Nat.le_of_eq hpassive.symm
    · intro i a _ _
      rw [hnow]
      omega

/-- Two calls that change the store for one resource are under way together. -/
theorem slowBody_overlaps :
    Proxy.new oldConfig (.empty 1000) (.ofMillis 0) = .ok oldStart ∧
    SharesThroughout MemoryStore.ops oldStart slowBody ∧
    ∃ q, oldStart.run MemoryStore.ops slowBody = some q ∧ q.Mutates jar.key 0 ∧
      q.Mutates jar.key 1 :=
  ⟨new_oldConfig, by decide, _, rfl, ⟨_, rfl, rfl, rfl⟩, ⟨_, rfl, rfl, rfl⟩⟩

end Proxy

end PullCache
