import PullCache.Proofs.Cooperation.Deadlines
import PullCache.Proofs.Ranks
/-!
# Proofs.Cooperation.Independence

Calls of different keys do not notice each other.

`only k` is what a state shows of one key: its calls, its leases and its entry of the table, numbered
among themselves. It is the state of a run in which no other key ever comes up: an event of the key does
to it what it does to the whole state, and is possible in the one exactly if it is in the other
(`only_step`), while an event of another key leaves it alone (`only_step_of_ne`). So a run with all calls
of other keys taken out (`onlyEvents`) goes through exactly these states.

All this rests on one invariant: whatever has to do with a key names only leases and calls of that key
(`Separate`).
-/

namespace PullCache

variable {α : Type}

/-! ## Other numbers -/

namespace CallPhase

variable {phase : CallPhase α} {f g : Nat → Nat}

/-- The lease that a call waits on, or has waited on in vain. -/
def about? : CallPhase α → Option Nat
  | exhausted l => some l
  | phase => phase.lease?

/-- The phase with other numbers for the leases. -/
def renumber (f : Nat → Nat) : CallPhase α → CallPhase α
  | leading l => leading (f l)
  | following l deadline => following (f l) deadline
  | exhausted l => exhausted (f l)
  | leadingTakeover l deadline => leadingTakeover (f l) deadline
  | joined l deadline => joined (f l) deadline
  | phase => phase

/-- What a call has returned. -/
def result? : CallPhase α → Option (Except Fault α)
  | returned result => some result
  | _ => none

/-- Only the lease that a phase is about needs its new number. -/
theorem renumber_congr (h : ∀ l, phase.about? = some l → f l = g l) :
    phase.renumber f = phase.renumber g := by
  cases phase <;> simp_all [renumber, about?, lease?]

theorem about?_of_lease? {l : Nat} (h : phase.lease? = some l) : phase.about? = some l := by
  cases phase <;> simp_all [about?, lease?]

@[simp] theorem lease?_renumber : (phase.renumber f).lease? = phase.lease?.map f := by
  cases phase <;> rfl

@[simp] theorem followed?_renumber : (phase.renumber f).followed? = phase.followed?.map f := by
  cases phase <;> rfl

@[simp] theorem deadline?_renumber : (phase.renumber f).deadline? = phase.deadline? := by
  cases phase <;> rfl

@[simp] theorem result?_renumber : (phase.renumber f).result? = phase.result? := by
  cases phase <;> rfl

end CallPhase

/-- The call with other numbers for the leases. -/
def Call.renumber (f : Nat → Nat) (call : Call α) : Call α :=
  { call with phase := call.phase.renumber f }

/-- The lease with other numbers for the calls. -/
def Lease.renumber (f : Nat → Nat) (lease : Lease α) : Lease α :=
  { lease with leader := f lease.leader }

/-- The event with other numbers for leases and calls. -/
def CoopEvent.renumber (leases calls : Nat → Nat) : CoopEvent α → CoopEvent α
  | arrive k passive active => arrive k passive active
  | publish l outcome => publish (leases l) outcome
  | release l => release (leases l)
  | deliver c => deliver (calls c)
  | exhaust c => exhaust (calls c)
  | takeOver c => takeOver (calls c)
  | timeOut c => timeOut (calls c)
  | finish c outcome => finish (calls c) outcome
  | drop c => drop (calls c)
  | tick nanos => tick nanos

namespace Cooperation

variable {s s' t q : Cooperation α} {e e₁ : CoopEvent α} {events : List (CoopEvent α)} {k k' : Key}
  {c l : Nat} {call : Call α} {lease : Lease α} {phase : CallPhase α}

/-! ## What a state shows of one key -/

/-- The number of a lease among the leases of a key. -/
def leaseRank (s : Cooperation α) (k : Key) : Nat → Nat :=
  rank (fun lease => lease.key = k) s.leases

/-- The number of a call among the calls of a key. -/
def callRank (s : Cooperation α) (k : Key) : Nat → Nat :=
  rank (fun call => call.key = k) s.calls

/-- What a state shows of one key, numbered as if there were no other. -/
def only (s : Cooperation α) (k : Key) : Cooperation α where
  now := s.now
  leases := (s.leases.filter fun lease => lease.key = k).map (Lease.renumber (s.callRank k))
  table := (s.table.filter fun entry => entry.1 = k).map fun entry =>
    (entry.1, s.leaseRank k entry.2)
  calls := (s.calls.filter fun call => call.key = k).map (Call.renumber (s.leaseRank k))

/-- The key that an event is about. Time passes for all keys. -/
def keyOf? (s : Cooperation α) : CoopEvent α → Option Key
  | .arrive k _ _ => some k
  | .publish l _ | .release l => s.leases[l]?.map (·.key)
  | .deliver c | .exhaust c | .takeOver c | .timeOut c | .finish c _ | .drop c =>
    s.calls[c]?.map (·.key)
  | .tick _ => none

/-- What is left of an event if only one key is there. -/
def eventOf? (s : Cooperation α) (k : Key) (e : CoopEvent α) : Option (CoopEvent α) :=
  if (s.keyOf? e).all (· = k) then some (e.renumber (s.leaseRank k) (s.callRank k)) else none

/-- A run with all calls of other keys taken out. -/
def onlyEvents (k : Key) : Cooperation α → List (CoopEvent α) → List (CoopEvent α)
  | _, [] => []
  | s, e :: rest => (s.eventOf? k e).toList ++ onlyEvents k (s.after e) rest

@[simp] theorem only_now : (s.only k).now = s.now := rfl

theorem only_leases_length : s.leaseRank k s.leases.length = (s.only k).leases.length := by
  simp only [only, List.length_map]
  exact rank_length

theorem only_calls_length : s.callRank k s.calls.length = (s.only k).calls.length := by
  simp only [only, List.length_map]
  exact rank_length

/-- Each call of the key is shown at its rank. -/
theorem only_call (hc : s.calls[c]? = some call) (hk : call.key = k) :
    (s.only k).calls[s.callRank k c]? = some (call.renumber (s.leaseRank k)) := by
  rw [only, List.getElem?_map, callRank, getElem?_filter_rank hc (by simpa using hk), Option.map_some]

/-- Each lease of the key is shown at its rank. -/
theorem only_lease (hl : s.leases[l]? = some lease) (hk : lease.key = k) :
    (s.only k).leases[s.leaseRank k l]? = some (lease.renumber (s.callRank k)) := by
  rw [only, List.getElem?_map, leaseRank, getElem?_filter_rank hl (by simpa using hk),
    Option.map_some]

/-- Every call that is shown stands for one with the key. -/
theorem exists_of_only_call {m : Nat} {shown : Call α} (h : (s.only k).calls[m]? = some shown) :
    ∃ c call, s.calls[c]? = some call ∧ call.key = k ∧ s.callRank k c = m ∧
      call.renumber (s.leaseRank k) = shown := by
  rw [only, List.getElem?_map, Option.map_eq_some_iff] at h
  obtain ⟨call, h, hshown⟩ := h
  obtain ⟨c, hc, hk, hrank⟩ := exists_rank h
  exact ⟨c, call, hc, by simpa using hk, hrank, hshown⟩

/-- Every lease that is shown stands for one with the key. -/
theorem exists_of_only_lease {m : Nat} {shown : Lease α} (h : (s.only k).leases[m]? = some shown) :
    ∃ l lease, s.leases[l]? = some lease ∧ lease.key = k ∧ s.leaseRank k l = m ∧
      lease.renumber (s.callRank k) = shown := by
  rw [only, List.getElem?_map, Option.map_eq_some_iff] at h
  obtain ⟨lease, h, hshown⟩ := h
  obtain ⟨l, hl, hk, hrank⟩ := exists_rank h
  exact ⟨l, lease, hl, by simpa using hk, hrank, hshown⟩

/-- Leases are shown with their outcomes. -/
theorem only_outcome? (h : s.IsFor l k) : (s.only k).outcome? (s.leaseRank k l) = s.outcome? l := by
  obtain ⟨lease, hl, hk⟩ := h
  rw [outcome?, only_lease hl hk, outcome?, hl]
  rfl

/-- The table is shown as far as it is about the key. -/
theorem only_registered? : (s.only k).registered? k = (s.registered? k).map (s.leaseRank k) := by
  rw [registered?, registered?, ← lookup_filter_key s.table k]
  simp only [only]
  cases hentries : s.table.filter (fun entry => entry.1 = k) with
  | nil => rfl
  | cons entry rest =>
    obtain ⟨key, n⟩ := entry
    have hmem : (key, n) ∈ s.table.filter (fun entry => entry.1 = k) := by simp [hentries]
    obtain rfl : key = k := by simpa using (List.mem_filter.mp hmem).2
    simp

/-! ## Keys do not mix -/

/-- Whatever has to do with a key names only leases and calls of that key. -/
structure Separate (s : Cooperation α) : Prop where
  table : ∀ k l, (k, l) ∈ s.table → s.IsFor l k
  calls : ∀ (c : Nat) (call : Call α) l, s.calls[c]? = some call → call.phase.about? = some l →
    s.IsFor l call.key
  leaders : ∀ (l : Nat) (lease : Lease α), s.leases[l]? = some lease →
    ∃ call, s.calls[lease.leader]? = some call ∧ call.key = lease.key

theorem IsFor.lt (h : s.IsFor l k) : l < s.leases.length := by
  obtain ⟨lease, hl, -⟩ := h
  exact (List.getElem?_eq_some_iff.mp hl).1

/-- Calls take up only leases of their key. -/
theorem CallMove.isFor (h : CallMove s s' c call e phase) (htable : TableInv s)
    (hbefore : ∀ l, call.phase.about? = some l → s.IsFor l call.key) (hstep : s.step e = some s')
    (hl : phase.about? = some l) : s'.IsFor l call.key := by
  cases h with
  | exhausted l' deadline hphase =>
    cases hl
    exact (hbefore l (by rw [hphase]; rfl)).step hstep
  | led l' hphase free births =>
    cases hl
    refine isFor_of_births (c := c) (t := s.now) ?_
    rw [births, ← length_births]
    exact List.getElem?_concat_length
  | joined l' other hphase ne held =>
    cases hl
    exact (htable.isFor held).step hstep
  | finished outcome => cases outcome <;> contradiction
  | delivered | timedOut | dropped => contradiction

/-- So does a call that comes in. -/
theorem Entry.isFor {passive : Duration} (h : Entry s s' k passive phase) (htable : TableInv s)
    (hstep : s.step e = some s') (hl : phase.about? = some l) : s'.IsFor l k := by
  cases h with
  | alone => contradiction
  | follows l' on held =>
    cases hl
    exact (htable.isFor held).step hstep
  | leads on free births =>
    cases hl
    refine isFor_of_births (c := s.calls.length) (t := s.now) ?_
    rw [births, ← length_births]
    exact List.getElem?_concat_length

/-- In every state of a run, what belongs to one key refers to nothing of another one. -/
theorem separate_of_run (hrun : ({} : Cooperation α).run events = some s) : Separate s where
  table k l hmem := by
    have htable := tableInv_of_run hrun
    exact htable.isFor (htable.registered?_iff_mem.mpr hmem)
  calls := by
    refine run_history (I := fun _ s => ∀ (c : Nat) (call : Call α) l, s.calls[c]? = some call →
      call.phase.about? = some l → s.IsFor l call.key) (fun c call l hc => by simp at hc) ?_ hrun
    intro events q q' e hq ih hstep c call l hc hl
    have htable := tableInv_of_run hq
    obtain hc | ⟨rfl, k, passive, active, phase, rfl, entry, rfl⟩ |
      ⟨before, phase, found, move, rfl⟩ := (step_calls hstep).before hc
    · exact (ih c call l hc hl).step hstep
    · exact entry.isFor htable hstep hl
    · exact move.isFor htable (fun l => ih c before l found) hstep hl
  leaders l lease hl := by
    obtain ⟨call, hc, hleads⟩ := leads_of_run hrun l lease.key lease.leader lease.started
      (births_eq_some.mpr ⟨lease, hl, rfl, rfl, rfl⟩)
    exact ⟨call, hc, hleads.key⟩

/-- The table holds leases under their own keys. -/
theorem Separate.registered (hs : Separate s) (h : s.registered? k = some l) : s.IsFor l k := by
  obtain ⟨before, after, htable, -⟩ := List.lookup_eq_some_iff.mp h
  exact hs.table k l (by simp [htable])

/-- A call follows only leases of its own key. -/
theorem Separate.followed (hs : Separate s) (hc : s.calls[c]? = some call)
    (hl : call.phase.followed? = some l) : s.IsFor l call.key := by
  refine hs.calls c call l hc ?_
  cases hp : call.phase <;> simp_all [CallPhase.followed?, CallPhase.about?, CallPhase.lease?]

/-! ## Small changes -/

/-- A call with the key changes its phase where it is shown. -/
theorem only_setPhase (hc : s.calls[c]? = some call) (hk : call.key = k) (phase : CallPhase α) :
    (s.setPhase c phase).only k = (s.only k).setPhase (s.callRank k c)
      (phase.renumber (s.leaseRank k)) := by
  have hranks : (s.setPhase c phase).callRank k = s.callRank k := by
    funext n
    exact rank_modify (by simp) c n
  have hcalls : ((s.setPhase c phase).calls.filter fun call => call.key = k) =
      (s.calls.filter fun call => call.key = k).modify (s.callRank k c)
        fun call => { call with phase } :=
    filter_modify_of_pos (by simp) hc (by simpa using hk)
  simp only [only, hranks, hcalls]
  simp only [setPhase]
  congr 1
  exact map_modify (by intro _; rfl) _ _

/-- The phase of a call with another key is not shown. -/
theorem only_setPhase_of_ne (hc : s.calls[c]? = some call) (hk : call.key ≠ k) :
    (s.setPhase c phase).only k = s.only k := by
  have hranks : (s.setPhase c phase).callRank k = s.callRank k := by
    funext n
    exact rank_modify (by simp) c n
  have hcalls : ((s.setPhase c phase).calls.filter fun call => call.key = k) =
      s.calls.filter fun call => call.key = k :=
    filter_modify_of_neg (by simp) hc (by simpa using hk)
  simp only [only, hranks, hcalls]
  rfl

/-- A change of a lease of the key that keeps key and leader is the same change at its rank. -/
theorem only_modifyLease {f : Lease α → Lease α} (keeps : ∀ x, (f x).key = x.key)
    (commutes : ∀ x g, (f x).renumber g = f (x.renumber g)) (table : List (Key × Nat))
    (hl : s.IsFor l k) :
    ({ s with leases := s.leases.modify l f, table } : Cooperation α).only k =
      { s.only k with
        leases := (s.only k).leases.modify (s.leaseRank k l) f
        table := (table.filter fun entry => entry.1 = k).map fun entry =>
          (entry.1, s.leaseRank k entry.2) } := by
  obtain ⟨lease, hl, hk⟩ := hl
  have hranks : ({ s with leases := s.leases.modify l f, table } : Cooperation α).leaseRank k =
      s.leaseRank k := by
    funext n
    exact rank_modify (by simp [keeps]) l n
  have hleases : ((s.leases.modify l f).filter fun lease => lease.key = k) =
      (s.leases.filter fun lease => lease.key = k).modify (s.leaseRank k l) f :=
    filter_modify_of_pos (by simp [keeps]) hl (by simpa using hk)
  simp only [only, hranks, hleases]
  congr 1
  exact map_modify (fun x => commutes x _) _ _

/-- Changes of leases with other keys are not shown. -/
theorem only_modifyLease_of_ne {f : Lease α → Lease α} (keeps : ∀ x, (f x).key = x.key)
    (table : List (Key × Nat)) (hl : s.IsFor l k') (hne : k' ≠ k)
    (htable : table.filter (fun entry => entry.1 = k) =
      s.table.filter fun entry => entry.1 = k) :
    ({ s with leases := s.leases.modify l f, table } : Cooperation α).only k = s.only k := by
  obtain ⟨lease, hl, rfl⟩ := hl
  have hranks : ({ s with leases := s.leases.modify l f, table } : Cooperation α).leaseRank k =
      s.leaseRank k := by
    funext n
    exact rank_modify (by simp [keeps]) l n
  have hleases : ((s.leases.modify l f).filter fun lease => lease.key = k) =
      s.leases.filter fun lease => lease.key = k :=
    filter_modify_of_neg (by simp [keeps]) hl (by simpa using hne)
  simp only [only, hranks, htable, hleases]
  rfl

/-- The count of a lease with the key changes where it is shown. -/
theorem only_countWaiter (change : Int) (hl : s.IsFor l k) :
    (s.countWaiter l change).only k = (s.only k).countWaiter (s.leaseRank k l) change :=
  only_modifyLease (by intro _; rfl) (by intro _ _; rfl) s.table hl

/-- The count of a lease with another key is not shown. -/
theorem only_countWaiter_of_ne (change : Int) (hl : s.IsFor l k') (hne : k' ≠ k) :
    (s.countWaiter l change).only k = s.only k :=
  only_modifyLease_of_ne (by intro _; rfl) s.table hl hne rfl

@[simp] theorem callRank_countWaiter (change : Int) :
    (s.countWaiter l change).callRank k = s.callRank k := rfl

@[simp] theorem leaseRank_countWaiter (change : Int) :
    (s.countWaiter l change).leaseRank k = s.leaseRank k := by
  funext n
  exact rank_modify (by simp) l n

/-- A call with the key stops to wait where it is shown. -/
theorem only_leave (hs : Separate s) (hc : s.calls[c]? = some call) (hk : call.key = k)
    (next : CallPhase α) :
    (s.leave c call.phase next).only k = (s.only k).leave (s.callRank k c)
      (call.phase.renumber (s.leaseRank k)) (next.renumber (s.leaseRank k)) := by
  rw [leave_eq, leave_eq, CallPhase.followed?_renumber]
  cases hl : call.phase.followed? with
  | none => exact only_setPhase hc hk next
  | some l =>
    simp only [Option.map_some, Option.getD_some]
    rw [only_setPhase (s := s.countWaiter l (-1)) hc hk next,
      only_countWaiter (-1) (hk ▸ hs.followed hc hl), leaseRank_countWaiter, callRank_countWaiter]

/-- Calls with other keys are not shown when they stop to wait. -/
theorem only_leave_of_ne (hs : Separate s) (hc : s.calls[c]? = some call) (hk : call.key ≠ k) :
    (s.leave c call.phase phase).only k = s.only k := by
  rw [leave_eq]
  cases hl : call.phase.followed? with
  | none => exact only_setPhase_of_ne hc hk
  | some l =>
    simp only [Option.map_some, Option.getD_some]
    rw [only_setPhase_of_ne (s := s.countWaiter l (-1)) hc hk,
      only_countWaiter_of_ne (-1) (hs.followed hc hl) hk]

/-- A new lease takes the next number, so the numbers that are there keep their ranks. -/
theorem leaseRank_startLease {recheck : Bool} {n : Nat} (hn : n ≤ s.leases.length) :
    (s.startLease k' c recheck).leaseRank k n = s.leaseRank k n :=
  rank_concat hn

/-- What the calls and the table name keeps its number when a lease is added. -/
theorem Separate.renumbered (hs : Separate s) {f : Nat → Nat}
    (hf : ∀ n < s.leases.length, f n = s.leaseRank k n) :
    (s.calls.filter fun call => call.key = k).map (Call.renumber f) = (s.only k).calls ∧
    ((s.table.filter fun entry => entry.1 = k).map fun entry => (entry.1, f entry.2)) =
      (s.only k).table := by
  constructor
  · refine List.map_congr_left fun call hcall => ?_
    obtain ⟨c, hc⟩ := List.getElem?_of_mem (List.mem_of_mem_filter hcall)
    rw [Call.renumber, Call.renumber,
      CallPhase.renumber_congr fun l hl => hf l (hs.calls c call l hc hl).lt]
  · refine List.map_congr_left fun entry hentry => ?_
    rw [hf _ (hs.table entry.1 entry.2 (List.mem_of_mem_filter hentry)).lt]

/-- A new lease for the key is shown as the next one. -/
theorem only_startLease (hs : Separate s) (recheck : Bool) :
    (s.startLease k c recheck).only k = (s.only k).startLease k (s.callRank k c) recheck := by
  obtain ⟨hcalls, htable⟩ := hs.renumbered (k := k)
    (f := (s.startLease k c recheck).leaseRank k) fun n hn => leaseRank_startLease (Nat.le_of_lt hn)
  have hnew : (s.startLease k c recheck).leaseRank k s.leases.length = (s.only k).leases.length :=
    (leaseRank_startLease (Nat.le_refl _)).trans only_leases_length
  have hothers : (s.only k).table.filter (fun entry => entry.1 ≠ k) = [] := by
    rw [List.filter_eq_nil_iff]
    intro entry hentry
    obtain ⟨found, hfound, rfl⟩ := List.mem_map.mp hentry
    simpa using (List.mem_filter.mp hfound).2
  have hsole : (s.table.filter fun entry => entry.1 ≠ k).filter (fun entry => entry.1 = k) = [] := by
    rw [List.filter_filter, List.filter_eq_nil_iff]
    simp
  have hentries : (s.startLease k c recheck).table.filter (fun entry => entry.1 = k) =
      [(k, s.leases.length)] := by
    simp only [startLease, List.filter_append, hsole]
    simp
  refine (?_ : _ = Cooperation.mk _ _ _ _)
  rw [only, hentries]
  simp only [startLease_calls, hcalls, List.map_cons, List.map_nil, hnew]
  simp only [startLease, hothers, List.filter_append]
  simp [only, Lease.renumber, callRank]

/-- New leases for other keys are not shown. -/
theorem only_startLease_of_ne (hs : Separate s) (hne : k' ≠ k) (recheck : Bool) :
    (s.startLease k' c recheck).only k = s.only k := by
  obtain ⟨hcalls, htable⟩ := hs.renumbered (k := k)
    (f := (s.startLease k' c recheck).leaseRank k) fun n hn => leaseRank_startLease (Nat.le_of_lt hn)
  have hentries : (s.startLease k' c recheck).table.filter (fun entry => entry.1 = k) =
      s.table.filter fun entry => entry.1 = k := by
    simp only [startLease, List.filter_append, List.filter_filter]
    rw [List.filter_cons_of_neg (by simpa using hne), List.filter_nil, List.append_nil]
    refine List.filter_congr fun entry _ => ?_
    by_cases hk : entry.1 = k <;> simp [hk, Ne.symm hne]
  rw [only, hentries, startLease_calls, hcalls, htable]
  simp [only, startLease, hne, callRank]

/-- Leases of calls that are there, or come in now, keep the number of their leader. -/
theorem shown_leases_enter (hleaders : ∀ lease ∈ s.leases, lease.leader ≤ s.calls.length)
    (call : Call α) :
    (s.leases.filter fun lease => lease.key = k).map
        (Lease.renumber (({ s with calls := s.calls ++ [call] } : Cooperation α).callRank k)) =
      (s.only k).leases := by
  refine List.map_congr_left fun lease hlease => ?_
  rw [Lease.renumber, Lease.renumber, callRank, callRank,
    rank_concat (hleaders lease (List.mem_of_mem_filter hlease))]

/-- A call of the key comes in. -/
theorem only_enter (call : Call α) (hleaders : ∀ lease ∈ s.leases, lease.leader ≤ s.calls.length)
    (hk : call.key = k) :
    ({ s with calls := s.calls ++ [call] } : Cooperation α).only k =
      { s.only k with calls := (s.only k).calls ++ [call.renumber (s.leaseRank k)] } := by
  rw [only, shown_leases_enter hleaders call]
  simp only [List.filter_append, List.map_append]
  rw [List.filter_cons_of_pos (by simpa using hk), List.filter_nil]
  rfl

/-- A call that comes in with another key is not shown. -/
theorem only_enter_of_ne (call : Call α)
    (hleaders : ∀ lease ∈ s.leases, lease.leader ≤ s.calls.length) (hk : call.key ≠ k) :
    ({ s with calls := s.calls ++ [call] } : Cooperation α).only k = s.only k := by
  rw [only, shown_leases_enter hleaders call]
  simp only [List.filter_append]
  rw [List.filter_cons_of_neg (by simpa using hk), List.filter_nil, List.append_nil]
  rfl

/-- Leaders are calls that are there. -/
theorem Separate.leaders_le (hs : Separate s) : ∀ lease ∈ s.leases, lease.leader ≤ s.calls.length := by
  intro lease hlease
  obtain ⟨l, hl⟩ := List.getElem?_of_mem hlease
  obtain ⟨call, hc, -⟩ := hs.leaders l lease hl
  exact Nat.le_of_lt (List.getElem?_eq_some_iff.mp hc).1

theorem Separate.leaders_countWaiter_le (hs : Separate s) (change : Int) :
    ∀ lease ∈ (s.countWaiter l change).leases, lease.leader ≤ s.calls.length := by
  have hsame : (s.countWaiter l change).leases.map (·.leader) = s.leases.map (·.leader) :=
    map_modify_of_keeps (by intro _; rfl) s.leases l
  intro lease hlease
  have hmem : lease.leader ∈ s.leases.map (·.leader) := hsame ▸ List.mem_map_of_mem hlease
  obtain ⟨before, hbefore, heq⟩ := List.mem_map.mp hmem
  exact heq ▸ hs.leaders_le before hbefore

theorem Separate.leaders_startLease_le (hs : Separate s) (recheck : Bool) :
    ∀ lease ∈ (s.startLease k' s.calls.length recheck).leases, lease.leader ≤ s.calls.length := by
  intro lease hlease
  obtain hold | hnew := List.mem_append.mp hlease
  · exact hs.leaders_le lease hold
  · cases List.mem_singleton.mp hnew
    exact Nat.le_refl _

/-! ## Steps -/

/-- A call of the key comes in: it sees the same lease, if there is one. -/
theorem only_arrive (hs : Separate s) (passive active : Duration) :
    (s.arrive k passive active).only k = (s.only k).arrive k passive active := by
  have hhere := only_registered? (s := s) (k := k)
  obtain ⟨hoff, h⟩ | ⟨hon, l, hr, h⟩ | ⟨hon, hr, h⟩ := arrive_cases s k passive active
  · rw [h, only_enter _ hs.leaders_le rfl]
    simp [arrive, hoff, Call.renumber, CallPhase.renumber]
  · have henter := only_enter (s := s.countWaiter l 1) (k := k)
      ⟨k, passive, active, s.now, .following l (s.now + passive.nanos)⟩
      (hs.leaders_countWaiter_le 1) rfl
    rw [only_countWaiter 1 (hs.registered hr)] at henter
    refine (congrArg (only · k) h).trans (henter.trans ?_)
    simp [arrive, hon, hhere, hr, Call.renumber, CallPhase.renumber]
  · have henter := only_enter (s := s.startLease k s.calls.length false) (k := k)
      ⟨k, passive, active, s.now, .leading s.leases.length⟩ (hs.leaders_startLease_le false) rfl
    have hnew : (s.startLease k s.calls.length false).leaseRank k s.leases.length =
        (s.only k).leases.length :=
      (leaseRank_startLease (Nat.le_refl _)).trans only_leases_length
    rw [only_startLease hs, only_calls_length] at henter
    refine (congrArg (only · k) h).trans (henter.trans ?_)
    simp [arrive, hon, hhere, hr, Call.renumber, CallPhase.renumber, hnew]

/-- And neither is anything that it brings with it. -/
theorem only_arrive_of_ne (hs : Separate s) (hne : k' ≠ k) (passive active : Duration) :
    (s.arrive k' passive active).only k = s.only k := by
  obtain ⟨-, h⟩ | ⟨-, l, hr, h⟩ | ⟨-, -, h⟩ := arrive_cases s k' passive active
  · rw [h, only_enter_of_ne _ hs.leaders_le hne]
  · exact (congrArg (only · k) h).trans ((only_enter_of_ne (s := s.countWaiter l 1) _
      (hs.leaders_countWaiter_le 1) hne).trans (only_countWaiter_of_ne 1 (hs.registered hr) hne))
  · exact (congrArg (only · k) h).trans ((only_enter_of_ne
      (s := s.startLease k' s.calls.length false) _ (hs.leaders_startLease_le false) hne).trans
        (only_startLease_of_ne hs hne false))

/-- The work of a lease ends where it is shown, if it can end at all. -/
theorem only_publish (hl : s.leases[l]? = some lease) (hk : lease.key = k)
    (outcome : Option (Except Fault α)) :
    (s.only k).publish (s.leaseRank k l) outcome = (s.publish l outcome).map (·.only k) := by
  have hshown := only_lease hl hk
  have hwrite := only_modifyLease (s := s) (k := k) (l := l)
    (f := fun x => { x with outcome := some (written lease outcome) })
    (by intro _; rfl) (by intro _ _; rfl) s.table ⟨lease, hl, hk⟩
  cases ho : lease.outcome with
  | some ended => simp [publish, hl, hshown, ho, Lease.renumber]
  | none =>
    simp only [publish, hl, hshown, ho, Lease.renumber, Option.bind_eq_bind, Option.bind_some,
      Option.isSome_none, Bool.false_eq_true, if_false, Option.map_some]
    exact congrArg some hwrite.symm

/-- A key is given up where it is shown, if it can be given up at all. -/
theorem only_release (hs : Separate s) (hl : s.leases[l]? = some lease) (hk : lease.key = k) :
    (s.only k).release (s.leaseRank k l) = (s.release l).map (·.only k) := by
  have hshown := only_lease hl hk
  have hentries : ((s.table.filter fun entry => ¬ (entry.1 = lease.key ∧ entry.2 = l)).filter
      fun entry => entry.1 = k).map (fun entry => (entry.1, s.leaseRank k entry.2)) =
      (s.only k).table.filter fun entry =>
        ¬ (entry.1 = lease.key ∧ entry.2 = s.leaseRank k l) := by
    simp only [only, List.filter_map, List.filter_filter]
    congr 1
    refine List.filter_congr fun entry hentry => ?_
    obtain ⟨found, hfound, hkey⟩ := hs.table entry.1 entry.2 hentry
    by_cases hentryk : entry.1 = k
    · have hsame : s.leaseRank k entry.2 = s.leaseRank k l ↔ entry.2 = l :=
        ⟨rank_inj hfound hl (by simp [hkey, hentryk]) (by simpa using hk), fun h => by rw [h]⟩
      simp [hentryk, hk, hsame]
    · simp [hentryk]
  have hgive := only_modifyLease (s := s) (k := k) (l := l)
    (f := fun x => { x with released := true }) (by intro _; rfl) (by intro _ _; rfl)
    (s.table.filter fun entry => ¬ (entry.1 = lease.key ∧ entry.2 = l)) ⟨lease, hl, hk⟩
  rw [hentries] at hgive
  simp only [release, hl, hshown, Option.bind_eq_bind, Option.bind_some, Lease.renumber]
  split
  · rfl
  · exact congrArg some hgive.symm

/-- A call returns where it is shown, if it can return at all. -/
theorem only_deliver (hs : Separate s) (hc : s.calls[c]? = some call) (hk : call.key = k) :
    (s.only k).deliver (s.callRank k c) = (s.deliver c).map (·.only k) := by
  have hshown := only_call hc hk
  simp only [deliver, hc, hshown, Option.bind_eq_bind, Option.bind_some, Call.renumber,
    CallPhase.lease?_renumber]
  cases hl : call.phase.lease? with
  | none => rfl
  | some l =>
    have hfor := hk ▸ hs.calls c call l hc (CallPhase.about?_of_lease? hl)
    simp only [Option.map_some, Option.bind_some, only_outcome? hfor]
    cases s.outcome? l with
    | none => rfl
    | some outcome => exact congrArg some (only_leave hs hc hk (.returned outcome)).symm

/-- A passive wait runs out where it is shown, if it can run out at all. -/
theorem only_exhaust (hs : Separate s) (hc : s.calls[c]? = some call) (hk : call.key = k) :
    (s.only k).exhaust (s.callRank k c) = (s.exhaust c).map (·.only k) := by
  have hshown := only_call hc hk
  have hleave := fun l => only_leave hs hc hk (.exhausted l)
  simp only [exhaust, hc, hshown, Option.bind_eq_bind, Option.bind_some, Call.renumber]
  cases hp : call.phase with
  | following l deadline =>
    have hfor := hk ▸ hs.calls c call l hc (by rw [hp]; rfl)
    rw [hp] at hleave
    simp only [CallPhase.renumber, only_outcome? hfor, only_now]
    split
    · exact congrArg some (hleave l).symm
    · rfl
  | _ => rfl

/-- A call takes over or joins where it is shown, just as it does among all the others. -/
theorem only_takeOver (hs : Separate s) (hc : s.calls[c]? = some call) (hk : call.key = k) :
    (s.only k).takeOver (s.callRank k c) = (s.takeOver c).map (·.only k) := by
  subst hk
  have hshown := only_call hc rfl
  have hhere := only_registered? (s := s) (k := call.key)
  have hlead := only_setPhase (s := s.startLease call.key c true) hc rfl
    (.leadingTakeover s.leases.length (s.now + call.active.nanos))
  rw [only_startLease hs] at hlead
  have hnew : (s.startLease call.key c true).leaseRank call.key s.leases.length =
      (s.only call.key).leases.length :=
    (leaseRank_startLease (Nat.le_refl _)).trans only_leases_length
  simp only [takeOver, hc, hshown, Option.bind_eq_bind, Option.bind_some, Call.renumber]
  cases hp : call.phase with
  | exhausted l =>
    obtain ⟨old, hold, holdkey⟩ := hs.calls c call l hc (by rw [hp]; rfl)
    simp only [CallPhase.renumber, hhere]
    cases hr : s.registered? call.key with
    | none =>
      simp only [Option.map_none, Option.map_some, hlead, CallPhase.renumber, hnew]
      rfl
    | some other =>
      have hfor := hs.registered hr
      obtain ⟨held, hheld, hheldkey⟩ := hs.registered hr
      have hsame : s.leaseRank call.key other = s.leaseRank call.key l ↔ other = l :=
        ⟨rank_inj hheld hold (by simpa using hheldkey) (by simpa using holdkey), fun h => by rw [h]⟩
      have hjoin := only_setPhase (s := s.countWaiter other 1) hc rfl
        (.joined other (s.now + call.active.nanos))
      rw [only_countWaiter 1 hfor, leaseRank_countWaiter] at hjoin
      simp only [Option.map_some, hsame]
      split
      · simp only [Option.map_some, hlead, CallPhase.renumber, hnew]
        rfl
      · simp only [Option.map_some, hjoin, CallPhase.renumber]
        rfl
  | _ => rfl

/-- A second wait runs out where it is shown, if it can run out at all. -/
theorem only_timeOut (hs : Separate s) (hc : s.calls[c]? = some call) (hk : call.key = k) :
    (s.only k).timeOut (s.callRank k c) = (s.timeOut c).map (·.only k) := by
  have hshown := only_call hc hk
  have hleave := only_leave hs hc hk (.returned (.error (.timedOut call.key.text call.active)))
  simp only [timeOut, hc, hshown, Option.bind_eq_bind, Option.bind_some, Call.renumber]
  cases hp : call.phase with
  | leadingTakeover l deadline | joined l deadline =>
    have hfor := hk ▸ hs.calls c call l hc (by rw [hp]; rfl)
    rw [hp] at hleave
    simp only [CallPhase.renumber, only_outcome? hfor, only_now]
    split
    · exact congrArg some hleave.symm
    · rfl
  | _ => rfl

/-- Work inside a call ends where it is shown, if it can end at all. -/
theorem only_finish (hc : s.calls[c]? = some call) (hk : call.key = k)
    (outcome : Option (Except Fault α)) :
    (s.only k).finish (s.callRank k c) outcome = (s.finish c outcome).map (·.only k) := by
  have hshown := only_call hc hk
  simp only [finish, hc, hshown, Option.bind_eq_bind, Option.bind_some, Call.renumber]
  cases hp : call.phase with
  | alone =>
    cases outcome with
    | some result => exact congrArg some (only_setPhase hc hk (.returned result)).symm
    | none => exact congrArg some (only_setPhase hc hk .panicked).symm
  | _ => rfl

/-- A client goes away where its call is shown, if it can go away at all. -/
theorem only_drop (hs : Separate s) (hc : s.calls[c]? = some call) (hk : call.key = k) :
    (s.only k).drop (s.callRank k c) = (s.drop c).map (·.only k) := by
  have hshown := only_call hc hk
  have hleave := only_leave hs hc hk .dropped
  simp only [drop, hc, hshown, Option.bind_eq_bind, Option.bind_some, Call.renumber]
  cases hp : call.phase with
  | exhausted l | returned result | panicked | dropped => rfl
  | leading l | following l deadline | leadingTakeover l deadline | joined l deadline | alone =>
    rw [hp] at hleave
    exact congrArg some hleave.symm

/-- An event of the key is possible for the key alone exactly if it is possible among the others, and
does the same to it. -/
theorem only_step (hs : Separate s) (hk : s.keyOf? e = some k) :
    (s.only k).step (e.renumber (s.leaseRank k) (s.callRank k)) = (s.step e).map (·.only k) := by
  cases e with
  | arrive k' passive active =>
    obtain rfl : k' = k := Option.some.inj hk
    exact congrArg some (only_arrive hs passive active).symm
  | publish l outcome =>
    obtain ⟨lease, hl, hk⟩ := Option.map_eq_some_iff.mp hk
    exact only_publish hl hk outcome
  | release l =>
    obtain ⟨lease, hl, hk⟩ := Option.map_eq_some_iff.mp hk
    exact only_release hs hl hk
  | deliver c =>
    obtain ⟨call, hc, hk⟩ := Option.map_eq_some_iff.mp hk
    exact only_deliver hs hc hk
  | exhaust c =>
    obtain ⟨call, hc, hk⟩ := Option.map_eq_some_iff.mp hk
    exact only_exhaust hs hc hk
  | takeOver c =>
    obtain ⟨call, hc, hk⟩ := Option.map_eq_some_iff.mp hk
    exact only_takeOver hs hc hk
  | timeOut c =>
    obtain ⟨call, hc, hk⟩ := Option.map_eq_some_iff.mp hk
    exact only_timeOut hs hc hk
  | finish c outcome =>
    obtain ⟨call, hc, hk⟩ := Option.map_eq_some_iff.mp hk
    exact only_finish hc hk outcome
  | drop c =>
    obtain ⟨call, hc, hk⟩ := Option.map_eq_some_iff.mp hk
    exact only_drop hs hc hk
  | tick nanos => contradiction

/-- An event of another key leaves alone what is shown of the key. -/
theorem only_step_of_ne (hs : Separate s) (hk : s.keyOf? e = some k') (hne : k' ≠ k)
    (h : s.step e = some s') : s'.only k = s.only k := by
  -- What a step about another key changes is left out of what is shown, case by case.
  cases e with
  | arrive k passive active =>
    obtain rfl : k = k' := Option.some.inj hk
    cases h
    exact only_arrive_of_ne hs hne passive active
  | publish l outcome =>
    obtain ⟨lease, hl, hk⟩ := Option.map_eq_some_iff.mp hk
    obtain ⟨-, -, -, rfl⟩ := publish_eq_some.mp h
    exact only_modifyLease_of_ne (by intro _; rfl) s.table ⟨lease, hl, hk⟩ hne rfl
  | release l =>
    obtain ⟨lease, hl, hk⟩ := Option.map_eq_some_iff.mp hk
    obtain ⟨lease', hl', -, -, rfl⟩ := release_eq_some.mp h
    obtain rfl : lease' = lease := Option.some.inj (hl'.symm.trans hl)
    refine only_modifyLease_of_ne (by intro _; rfl) _ ⟨_, hl, hk⟩ hne ?_
    rw [List.filter_filter]
    refine List.filter_congr fun entry _ => ?_
    by_cases hentry : entry.1 = k
    · have hother : k ≠ lease'.key := fun heq => hne (heq.trans hk).symm
      simp [hentry, hother]
    · simp [hentry]
  | deliver c =>
    obtain ⟨call, hc, rfl⟩ := Option.map_eq_some_iff.mp hk
    obtain ⟨call', l, outcome, hc', -, -, rfl⟩ := deliver_eq_some.mp h
    obtain rfl : call' = call := Option.some.inj (hc'.symm.trans hc)
    exact only_leave_of_ne hs hc hne
  | exhaust c =>
    obtain ⟨call, hc, rfl⟩ := Option.map_eq_some_iff.mp hk
    obtain ⟨call', l, deadline, hc', -, -, -, rfl⟩ := exhaust_eq_some.mp h
    obtain rfl : call' = call := Option.some.inj (hc'.symm.trans hc)
    exact only_leave_of_ne hs hc hne
  | takeOver c =>
    obtain ⟨call, hc, rfl⟩ := Option.map_eq_some_iff.mp hk
    obtain ⟨call', l, hc', -, ⟨-, rfl⟩ | ⟨other, -, hr, rfl⟩⟩ := takeOver_cases h
    · obtain rfl : call' = call := Option.some.inj (hc'.symm.trans hc)
      rw [only_setPhase_of_ne (s := s.startLease call'.key c true) hc hne,
        only_startLease_of_ne hs hne]
    · obtain rfl : call' = call := Option.some.inj (hc'.symm.trans hc)
      rw [only_setPhase_of_ne (s := s.countWaiter other 1) hc hne,
        only_countWaiter_of_ne 1 (hs.registered hr) hne]
  | timeOut c =>
    obtain ⟨call, hc, rfl⟩ := Option.map_eq_some_iff.mp hk
    obtain ⟨call', l, deadline, hc', -, -, -, rfl⟩ := timeOut_eq_some.mp h
    obtain rfl : call' = call := Option.some.inj (hc'.symm.trans hc)
    exact only_leave_of_ne hs hc hne
  | finish c outcome =>
    obtain ⟨call, hc, rfl⟩ := Option.map_eq_some_iff.mp hk
    obtain ⟨call', hc', -, rfl⟩ := finish_eq_some.mp h
    exact only_setPhase_of_ne hc hne
  | drop c =>
    obtain ⟨call, hc, rfl⟩ := Option.map_eq_some_iff.mp hk
    obtain ⟨call', hc', -, -, rfl⟩ := drop_eq_some.mp h
    obtain rfl : call' = call := Option.some.inj (hc'.symm.trans hc)
    exact only_leave_of_ne hs hc hne
  | tick nanos => contradiction

/-! ## Runs -/

/-- Only the passing of time is about no key. -/
theorem keyOf?_of_step (h : s.step e = some s') :
    (∃ nanos, e = .tick nanos) ∨ ∃ k, s.keyOf? e = some k := by
  cases e with
  | tick nanos => exact .inl ⟨nanos, rfl⟩
  | arrive k passive active => exact .inr ⟨k, rfl⟩
  | publish l outcome =>
    obtain ⟨lease, hl, -⟩ := publish_eq_some.mp h
    exact .inr ⟨lease.key, by simp [keyOf?, hl]⟩
  | release l =>
    obtain ⟨lease, hl, -⟩ := release_eq_some.mp h
    exact .inr ⟨lease.key, by simp [keyOf?, hl]⟩
  | deliver c | exhaust c | takeOver c | timeOut c | finish c outcome | drop c =>
    obtain ⟨call, -, hc, -⟩ := callMove_of_own rfl h
    exact .inr ⟨call.key, by simp [keyOf?, hc]⟩

/-- Events about the key are shown with the new numbers. -/
theorem eventOf?_of_key (hk : s.keyOf? e = some k) :
    s.eventOf? k e = some (e.renumber (s.leaseRank k) (s.callRank k)) := by
  simp [eventOf?, hk]

/-- A step of the whole is a step of the key or leaves it alone. -/
theorem only_of_step (hs : Separate s) (h : s.step e = some s') :
    (∃ e₁, s.eventOf? k e = some e₁ ∧ (s.only k).step e₁ = some (s'.only k)) ∨
      s.eventOf? k e = none ∧ s'.only k = s.only k := by
  obtain ⟨nanos, rfl⟩ | ⟨k', hk'⟩ := keyOf?_of_step h
  · cases h
    exact .inl ⟨.tick nanos, rfl, rfl⟩
  · by_cases hk : k' = k
    · subst hk
      exact .inl ⟨_, eventOf?_of_key hk', by rw [only_step hs hk', h]; rfl⟩
    · exact .inr ⟨by simp [eventOf?, hk', hk], only_step_of_ne hs hk' hk h⟩

/-- The leases and calls that an event names in what is shown of a key are some of the whole. -/
theorem exists_renumber (h : (s.only k).step e₁ = some t)
    (harrive : ∀ k' passive active, e₁ = .arrive k' passive active → k' = k) :
    (∃ nanos, e₁ = .tick nanos) ∨
      ∃ e, s.keyOf? e = some k ∧ e.renumber (s.leaseRank k) (s.callRank k) = e₁ := by
  have hlease : ∀ {m : Nat} {shown : Lease α}, (s.only k).leases[m]? = some shown →
      ∃ l, s.leases[l]?.map (·.key) = some k ∧ s.leaseRank k l = m := by
    intro m shown hm
    obtain ⟨l, lease, hl, hk, hrank, -⟩ := exists_of_only_lease hm
    exact ⟨l, by simp [hl, hk], hrank⟩
  have hcall : ∀ {m : Nat}, e₁.call? = some m →
      ∃ c, s.calls[c]?.map (·.key) = some k ∧ s.callRank k c = m := by
    intro m hown
    obtain ⟨shown, -, hm, -⟩ := callMove_of_own hown h
    obtain ⟨c, call, hc, hk, hrank, -⟩ := exists_of_only_call hm
    exact ⟨c, by simp [hc, hk], hrank⟩
  cases e₁ with
  | tick nanos => exact .inl ⟨nanos, rfl⟩
  | arrive k' passive active =>
    obtain rfl := harrive k' passive active rfl
    exact .inr ⟨.arrive k' passive active, rfl, rfl⟩
  | publish m outcome =>
    obtain ⟨shown, hm, -⟩ := publish_eq_some.mp h
    obtain ⟨l, hk, rfl⟩ := hlease hm
    exact .inr ⟨.publish l outcome, hk, rfl⟩
  | release m =>
    obtain ⟨shown, hm, -⟩ := release_eq_some.mp h
    obtain ⟨l, hk, rfl⟩ := hlease hm
    exact .inr ⟨.release l, hk, rfl⟩
  | deliver m =>
    obtain ⟨c, hk, rfl⟩ := hcall rfl
    exact .inr ⟨.deliver c, hk, rfl⟩
  | exhaust m =>
    obtain ⟨c, hk, rfl⟩ := hcall rfl
    exact .inr ⟨.exhaust c, hk, rfl⟩
  | takeOver m =>
    obtain ⟨c, hk, rfl⟩ := hcall rfl
    exact .inr ⟨.takeOver c, hk, rfl⟩
  | timeOut m =>
    obtain ⟨c, hk, rfl⟩ := hcall rfl
    exact .inr ⟨.timeOut c, hk, rfl⟩
  | finish m outcome =>
    obtain ⟨c, hk, rfl⟩ := hcall rfl
    exact .inr ⟨.finish c outcome, hk, rfl⟩
  | drop m =>
    obtain ⟨c, hk, rfl⟩ := hcall rfl
    exact .inr ⟨.drop c, hk, rfl⟩

/-- What can happen to the key alone can happen to it among the others. -/
theorem exists_of_only_step (hs : Separate s) (h : (s.only k).step e₁ = some t)
    (harrive : ∀ k' passive active, e₁ = .arrive k' passive active → k' = k) :
    ∃ e s', s.step e = some s' ∧ s.eventOf? k e = some e₁ ∧ s'.only k = t := by
  obtain ⟨nanos, rfl⟩ | ⟨e, hk, rfl⟩ := exists_renumber h harrive
  · cases h
    exact ⟨.tick nanos, _, rfl, rfl, rfl⟩
  · rw [only_step hs hk, Option.map_eq_some_iff] at h
    obtain ⟨s', hstep, hshown⟩ := h
    exact ⟨e, s', hstep, eventOf?_of_key hk, hshown⟩

/-- What is shown of an event is the event with the new numbers. -/
theorem eventOf?_eq_some (h : s.eventOf? k e = some e₁) :
    e₁ = e.renumber (s.leaseRank k) (s.callRank k) := by
  unfold eventOf? at h
  split at h
  · exact (Option.some.inj h).symm
  · contradiction

@[simp] theorem nanosOf_renumber (f g : Nat → Nat) : nanosOf (e.renumber f g) = nanosOf e := by
  cases e <;> rfl

@[simp] theorem isReady_renumber (f g : Nat → Nat) : isReady (e.renumber f g) = isReady e := by
  cases e <;> rfl

/-- If nothing is put off in the whole, nothing is put off for the key. -/
theorem putsNothingOff_only (hs : Separate s) (he : s.eventOf? k e = some e₁)
    (h : s.PutsNothingOff e) : (s.only k).PutsNothingOff e₁ := by
  obtain rfl := eventOf?_eq_some he
  intro hne
  rw [nanosOf_renumber] at hne ⊢
  obtain ⟨hrest, hdeadlines⟩ := h hne
  refine ⟨fun e' he' => ?_, fun shown hshown d hd => ?_⟩
  · cases hstep : (s.only k).step e' with
    | none => rfl
    | some t =>
      obtain ⟨own, s', hown, heq, -⟩ := exists_of_only_step hs hstep (by rintro k' _ _ rfl; contradiction)
      obtain rfl := eventOf?_eq_some heq
      rw [hrest own (by simpa using he')] at hown
      contradiction
  · obtain ⟨m, hm⟩ := List.getElem?_of_mem hshown
    obtain ⟨c, call, hc, -, -, rfl⟩ := exists_of_only_call hm
    exact hdeadlines call (List.mem_of_getElem? hc) d (by simpa [Call.renumber] using hd)

theorem onlyEvents_append (hrun : s.run events = some q) (more : List (CoopEvent α)) :
    onlyEvents k s (events ++ more) = onlyEvents k s events ++ onlyEvents k q more := by
  induction events generalizing s with
  | nil =>
    cases hrun
    rfl
  | cons first rest ih =>
    rw [run_cons, Option.bind_eq_some_iff] at hrun
    obtain ⟨next, hstep, hrest⟩ := hrun
    have hafter : s.after first = next := by rw [after, hstep, Option.getD_some]
    rw [List.cons_append, onlyEvents, onlyEvents, hafter, ih hrest, List.append_assoc]

theorem onlyEvents_concat (hrun : s.run events = some q) (e : CoopEvent α) :
    onlyEvents k s (events ++ [e]) = onlyEvents k s events ++ (q.eventOf? k e).toList := by
  rw [onlyEvents_append hrun, onlyEvents, onlyEvents, List.append_nil]

/-- A run with the calls of other keys taken out leads to what the whole run shows of the key, and puts
nothing off if the whole run does not. -/
theorem run_onlyEvents (k : Key) (hrun : ({} : Cooperation α).run events = some s) :
    ({} : Cooperation α).run (onlyEvents k {} events) = some (s.only k) ∧
      (Timed events → Timed (onlyEvents k {} events)) := by
  refine run_history (I := fun events s =>
    ({} : Cooperation α).run (onlyEvents k {} events) = some (s.only k) ∧
      (Timed events → Timed (onlyEvents k {} events))) ⟨rfl, id⟩ ?_ hrun
  intro events q q' e hq ⟨ih, ihtimed⟩ hstep
  have hs := separate_of_run hq
  rw [onlyEvents_concat hq]
  obtain ⟨e₁, he, hstep₁⟩ | ⟨he, hsame⟩ := only_of_step (k := k) hs hstep
  · rw [he]
    exact ⟨run_concat_eq_some.mpr ⟨_, ih, hstep₁⟩, fun htimed =>
      (ihtimed htimed.of_concat).concat ih (putsNothingOff_only hs he (htimed.last hq))⟩
  · rw [he, hsame, Option.toList_none, List.append_nil]
    exact ⟨ih, fun htimed => ihtimed htimed.of_concat⟩

/-- What a run has shown of a key by some instant it has shown in the same order from the start. -/
theorem onlyEvents_take (k : Key) (i : Nat) (hrun : ({} : Cooperation α).run events = some s) :
    onlyEvents k {} (events.take i) <+: onlyEvents k {} events := by
  obtain ⟨q, hq, -⟩ := run_split i hrun
  refine ⟨onlyEvents k q (events.drop i), ?_⟩
  rw [← onlyEvents_append hq, List.take_append_drop]

/-! ## What can be seen -/

/-- Of one key, two states show the same: the time, the number of followers, the lease and its age, the
works with what they were told and what came of them, and the calls with what they have returned. -/
structure Shows (k : Key) (s t : Cooperation α) : Prop where
  now : t.now = s.now
  waiters : t.waiters k = s.waiters k
  lease : t.registered? k = (s.registered? k).map (s.leaseRank k)
  age : t.leaseAge? k = s.leaseAge? k
  works : t.leases.map (fun x => (x.key, x.recheck, x.started, x.waiters, x.outcome, x.released)) =
    (s.leases.filter fun x => x.key = k).map fun x =>
      (x.key, x.recheck, x.started, x.waiters, x.outcome, x.released)
  calls : t.calls.map (fun x => (x.key, x.passive, x.active, x.arrived, x.phase.result?)) =
    (s.calls.filter fun x => x.key = k).map fun x =>
      (x.key, x.passive, x.active, x.arrived, x.phase.result?)

/-- The lease of the key is shown with all that it is. -/
theorem only_lease_of_registered (hs : Separate s) :
    ((s.only k).registered? k >>= fun l => (s.only k).leases[l]?) =
      (s.registered? k >>= fun l => s.leases[l]?).map (Lease.renumber (s.callRank k)) := by
  rw [only_registered?]
  cases hr : s.registered? k with
  | none => rfl
  | some l =>
    obtain ⟨lease, hl, hk⟩ := hs.registered hr
    simp [hl, only_lease hl hk]

/-- A state shows what is shown of it. -/
theorem shows_only (hs : Separate s) (k : Key) : Shows k s (s.only k) where
  now := rfl
  waiters := by
    rw [waiters, waiters, only_lease_of_registered hs]
    cases s.registered? k >>= fun l => s.leases[l]? <;> rfl
  lease := only_registered?
  age := by
    rw [leaseAge?, leaseAge?, only_lease_of_registered hs, Option.map_map]
    rfl
  works := by
    rw [only, List.map_map]
    rfl
  calls := by
    rw [only, List.map_map]
    refine List.map_congr_left fun call _ => ?_
    simp [Call.renumber]

/-! ## Nothing is shared -/

/-- A call keeps its key, its timeouts and the time at which it came in. -/
theorem call_of_run (hrun : s.run events = some s') (hc : s.calls[c]? = some call) :
    ∃ phase, s'.calls[c]? = some { call with phase } := by
  refine run_history (I := fun _ q => ∃ phase, q.calls[c]? = some { call with phase })
    ⟨call.phase, hc⟩ ?_ hrun
  intro events q q' e _ ⟨phase, hq⟩ hstep
  obtain ⟨phase', hq', -⟩ := call_of_step hstep hq
  exact ⟨phase', hq'⟩

/-- What answers a call is a lease of its key. -/
theorem AnsweredBy.isFor (h : AnsweredBy events c l)
    (hrun : ({} : Cooperation α).run events = some s) (hc : s.calls[c]? = some call) :
    s.IsFor l call.key := by
  obtain ⟨i, -, q, before, hq, hbefore, hl⟩ := h
  obtain ⟨q', hq', hrest⟩ := run_split i hrun
  obtain rfl : q' = q := Option.some.inj (hq'.symm.trans hq)
  obtain ⟨phase, hc'⟩ := call_of_run hrest hbefore
  obtain rfl : { before with phase } = call := Option.some.inj (hc'.symm.trans hc)
  exact ((separate_of_run hq).calls c before l hbefore (CallPhase.about?_of_lease? hl)).of_run hrest

/-- **Keys are independent.** For every run and every key:

* With all calls of other keys taken out, the run is still a run. At each instant it shows the same of
  the key: the number of followers, the lease and its age, the works in the order of their start, each
  with whether it was to look at the cache again, and the calls in the order of their arrival with what
  they have returned.
* If nothing is put off in the run, nothing is with the others taken out.
* Whatever can happen next to the key alone can happen to it among the others as well.
* What a call waits on, has waited on in vain or is answered by is work for its own key, led by a call
  for that key. -/
theorem keys_independent (k : Key) (hrun : ({} : Cooperation α).run events = some s) :
    (∀ i q, ({} : Cooperation α).run (events.take i) = some q →
      onlyEvents k {} (events.take i) <+: onlyEvents k {} events ∧
      ({} : Cooperation α).run (onlyEvents k {} (events.take i)) = some (q.only k) ∧
      Shows k q (q.only k)) ∧
    (Timed events → Timed (onlyEvents k {} events)) ∧
    (∀ e₁ t, (∀ k' passive active, e₁ = .arrive k' passive active → k' = k) →
      (s.only k).step e₁ = some t →
      ∃ e s', s.step e = some s' ∧ s.eventOf? k e = some e₁ ∧ s'.only k = t) ∧
    ∀ (c : Nat) (call : Call α) l, s.calls[c]? = some call →
      (call.phase.about? = some l ∨ AnsweredBy events c l) →
      ∃ lease leader, s.leases[l]? = some lease ∧ lease.key = call.key ∧
        s.calls[lease.leader]? = some leader ∧ leader.key = call.key := by
  have hs := separate_of_run hrun
  refine ⟨fun i q hq => ⟨onlyEvents_take k i hrun, (run_onlyEvents k hq).1,
      shows_only (separate_of_run hq) k⟩, (run_onlyEvents k hrun).2,
    fun e₁ t harrive h => exists_of_only_step hs h harrive, fun c call l hc hl => ?_⟩
  have hfor : s.IsFor l call.key := hl.elim (hs.calls c call l hc) fun h => h.isFor hrun hc
  obtain ⟨lease, hlease, hkey⟩ := hfor
  obtain ⟨leader, hleader, hleaderkey⟩ := hs.leaders l lease hlease
  exact ⟨lease, leader, hlease, hkey, hleader, hleaderkey.trans hkey⟩

/-- Calls for two keys in turn: for the one a follower takes over beside a slow leader, for the other
the leader panics and a later call leads again. -/
def twoKeys : List (CoopEvent Nat) :=
  [.arrive ⟨"a"⟩ ⟨5⟩ ⟨9⟩, .arrive ⟨"b"⟩ ⟨6⟩ ⟨9⟩, .arrive ⟨"a"⟩ ⟨5⟩ ⟨9⟩, .arrive ⟨"b"⟩ ⟨6⟩ ⟨9⟩, .tick 5,
    .exhaust 2, .takeOver 2, .publish 1 none, .release 1, .deliver 1, .deliver 3, .tick 1,
    .arrive ⟨"b"⟩ ⟨6⟩ ⟨9⟩, .publish 2 (some (.ok 7)), .deliver 2, .release 2, .tick 1,
    .publish 0 (some (.ok 8)), .release 0, .deliver 0]

/-- For the first key the run is the same without the second: calls and leases only get other
numbers. -/
theorem twoKeys_independent : ∃ s, ({} : Cooperation Nat).run twoKeys = some s ∧
    onlyEvents ⟨"a"⟩ {} twoKeys =
      [.arrive ⟨"a"⟩ ⟨5⟩ ⟨9⟩, .arrive ⟨"a"⟩ ⟨5⟩ ⟨9⟩, .tick 5, .exhaust 1, .takeOver 1, .tick 1,
        .publish 1 (some (.ok 7)), .deliver 1, .release 1, .tick 1, .publish 0 (some (.ok 8)),
        .release 0, .deliver 0] ∧
    ({} : Cooperation Nat).run (onlyEvents ⟨"a"⟩ {} twoKeys) = some (s.only ⟨"a"⟩) ∧
    Timed (onlyEvents ⟨"a"⟩ {} twoKeys) ∧ Shows ⟨"a"⟩ s (s.only ⟨"a"⟩) := by
  have hrun : ({} : Cooperation Nat).run twoKeys = some _ := rfl
  have htimed : Timed twoKeys := by decide
  obtain ⟨hinstants, htimed', -, -⟩ := keys_independent ⟨"a"⟩ hrun
  obtain ⟨-, honly, hshows⟩ := hinstants twoKeys.length _ rfl
  exact ⟨_, hrun, rfl, honly, htimed' htimed, hshows⟩

end Cooperation

end PullCache
