import Mathlib.Data.List.Find
import PullCache.Proofs.Cooperation.Step
/-!
# Proofs.Cooperation.Table

The table of leases over whole runs: for each key it holds the lease that was started last, for as
long as the work of that lease runs, and nothing else. So a leader that was replaced and finishes
late takes nothing from its replacement, and no key stays in the table without work.

Only three things about a lease matter for this: its number, its key, and whether its work has given
up the key. The *ledger* keeps just these. A step either leaves table and ledger alone, starts a
lease, or releases one (`step_ledger`).
-/

namespace PullCache.Cooperation

variable {α : Type} {s s' : Cooperation α}

/-! ## Leases by key -/

/-- The lease that was started last for a key. -/
def latest? (s : Cooperation α) (k : Key) : Option Nat :=
  (List.range s.leases.length).reverse.find? fun l => s.leases[l]?.any (·.key = k)

/-- Whether the work of a lease runs: from the start of the lease until the work, after its outcome
is published, gives up its key. -/
def isRunning (s : Cooperation α) (l : Nat) : Bool :=
  s.leases[l]?.any (!·.released)

/-- The key of each lease, and whether its work has given it up. -/
def ledger (s : Cooperation α) : List (Key × Bool) :=
  s.leases.map fun lease => (lease.key, lease.released)

theorem getElem?_ledger (l : Nat) :
    s.ledger[l]? = s.leases[l]?.map fun lease => (lease.key, lease.released) := by
  simp [ledger]

@[simp] theorem length_ledger : s.ledger.length = s.leases.length := by
  simp [ledger]

/-- Which lease of a key is the latest can be read off the ledger. -/
theorem latest?_eq (k : Key) :
    s.latest? k =
      (List.range s.ledger.length).reverse.find? fun l => s.ledger[l]?.any (·.1 = k) := by
  unfold latest?
  rw [length_ledger]
  congr 1
  funext l
  rw [getElem?_ledger, Option.any_map]

/-- Which leases run can be read off the ledger. -/
theorem isRunning_eq (l : Nat) : s.isRunning l = s.ledger[l]?.any (!·.2) := by
  unfold isRunning
  rw [getElem?_ledger, Option.any_map]

/-- After a new entry of the ledger, its lease is the last for its key, and other keys keep theirs. -/
theorem latest?_append {k k' : Key} {b : Bool} (h : s'.ledger = s.ledger ++ [(k', b)]) :
    s'.latest? k = if k' = k then some s.ledger.length else s.latest? k := by
  rw [latest?_eq, latest?_eq, h, List.length_append, List.length_singleton, List.range_succ,
    List.reverse_append, List.reverse_singleton, List.singleton_append, List.find?_cons]
  by_cases hk : k' = k
  · simp [hk]
  · have hlater : ∀ l ∈ (List.range s.ledger.length).reverse,
        (s.ledger ++ [(k', b)])[l]?.any (·.1 = k) = s.ledger[l]?.any (·.1 = k) := by
      intro l hl
      rw [List.getElem?_append_left (by simpa using hl)]
    simp only [List.getElem?_concat_length, Option.any_some, hk, decide_false, if_false]
    exact List.find?_congr hlater

/-- Giving up a key does not change which lease is the last for a key. -/
theorem latest?_congr {k : Key} (h : s'.ledger.map Prod.fst = s.ledger.map Prod.fst) :
    s'.latest? k = s.latest? k := by
  have hkeys : ∀ s : Cooperation α, s.latest? k =
      (List.range (s.ledger.map Prod.fst).length).reverse.find? fun l =>
        (s.ledger.map Prod.fst)[l]?.any (· = k) := by
    intro s
    simp only [latest?_eq, List.length_map, List.getElem?_map, Option.any_map]
  rw [hkeys, hkeys, h]

/-- The last lease for a key has that key. -/
theorem exists_of_latest? {k : Key} {l : Nat} (h : s.latest? k = some l) :
    ∃ b, s.ledger[l]? = some (k, b) := by
  rw [latest?_eq] at h
  have hl := List.find?_some h
  cases he : s.ledger[l]? with
  | none => simp [he] at hl
  | some entry =>
    obtain ⟨k', b⟩ := entry
    simp only [he, Option.any_some, decide_eq_true_eq] at hl
    exact ⟨b, by rw [hl]⟩

/-! ## What a step does to the ledger -/

/-- A step leaves table and ledger alone, starts a lease for a key, or releases a lease. -/
inductive LedgerStep (s s' : Cooperation α) : Prop where
  | same (table : s'.table = s.table) (ledger : s'.ledger = s.ledger)
  | start (k : Key)
      (table : s'.table = s.table.filter (fun entry => entry.1 ≠ k) ++ [(k, s.ledger.length)])
      (ledger : s'.ledger = s.ledger ++ [(k, false)])
  | release (k : Key) (l : Nat) (runs : s.ledger[l]? = some (k, false))
      (table : s'.table = s.table.filter fun entry => ¬ (entry.1 = k ∧ entry.2 = l))
      (ledger : s'.ledger = s.ledger.set l (k, true))

/-- A change of a lease that keeps its key and its hold on it keeps the ledger. -/
theorem ledger_modify {l : Nat} {f : Lease α → Lease α} (h : s'.leases = s.leases.modify l f)
    (hkey : ∀ x, (f x).key = x.key) (hreleased : ∀ x, (f x).released = x.released) :
    s'.ledger = s.ledger := by
  apply List.ext_getElem?
  intro i
  rw [getElem?_ledger, getElem?_ledger, h, List.getElem?_modify]
  cases s.leases[i]? with
  | none => rfl
  | some lease => by_cases hi : l = i <;> simp [hi, hkey, hreleased]

/-- Every step leaves table and ledger alone, starts a lease, or releases one. -/
theorem step_ledger {e : CoopEvent α} (h : s.step e = some s') : LedgerStep s s' := by
  cases step_leases h with
  | same leases table => exact .same table (by rw [ledger, ledger, leases])
  | count l change leases table =>
    exact .same table (ledger_modify leases (fun _ => rfl) (fun _ => rfl))
  | start k c recheck leases table =>
    exact .start k (by rw [table, length_ledger]) (by simp [ledger, leases])
  | publish l outcome lease found pending leases table =>
    exact .same table (ledger_modify leases (fun _ => rfl) (fun _ => rfl))
  | release l lease found ended held leases table =>
    have hlt : l < s.leases.length := (List.getElem?_eq_some_iff.mp found).1
    refine .release lease.key l (by simp [getElem?_ledger, found, held]) table ?_
    apply List.ext_getElem?
    intro i
    rw [getElem?_ledger, leases, List.getElem?_modify, List.getElem?_set, length_ledger]
    by_cases hi : l = i
    · subst hi
      rw [found]
      simp [hlt]
    · rw [if_neg hi, getElem?_ledger]
      simp [hi]

/-! ## The invariant -/

/-- The table has one entry for each key whose last lease runs, and no other entries. -/
structure TableInv (s : Cooperation α) : Prop where
  nodup : (s.table.map Prod.fst).Nodup
  mem_iff : ∀ k l, (k, l) ∈ s.table ↔ s.latest? k = some l ∧ s.isRunning l = true

/-- Table and ledger agree before anything happens. -/
theorem tableInv_empty : TableInv ({} : Cooperation α) where
  nodup := .nil
  mem_iff k l := by simp [latest?]

/-- They agree as long as neither changes. -/
theorem TableInv.of_same (h : TableInv s) (table : s'.table = s.table)
    (ledger : s'.ledger = s.ledger) : TableInv s' where
  nodup := by
    rw [table]
    exact h.nodup
  mem_iff k l := by
    rw [table, latest?_congr (congrArg _ ledger), isRunning_eq, ledger, ← isRunning_eq]
    exact h.mem_iff k l

/-- A new lease is the last for its key and runs; entries for other keys stay as they were. -/
theorem TableInv.of_start (h : TableInv s) (k : Key)
    (table : s'.table = s.table.filter (fun entry => entry.1 ≠ k) ++ [(k, s.ledger.length)])
    (ledger : s'.ledger = s.ledger ++ [(k, false)]) : TableInv s' where
  nodup := by
    rw [table, List.map_append, List.nodup_append]
    refine ⟨h.nodup.sublist (List.filter_sublist.map _), by simp, ?_⟩
    rintro k' hk' k'' hk'' rfl
    simp only [List.mem_map, List.mem_filter, decide_eq_true_eq] at hk'
    obtain ⟨entry, ⟨-, hne⟩, rfl⟩ := hk'
    exact hne (by simpa using hk'')
  mem_iff k' l := by
    have hrunning : s'.isRunning s.ledger.length = true := by
      rw [isRunning_eq, ledger]
      simp
    rw [table, latest?_append ledger]
    by_cases hk : k = k'
    · subst hk
      simp only [List.mem_append, List.mem_filter, List.mem_singleton, Prod.mk.injEq, ne_eq,
        not_true_eq_false, decide_false, Bool.false_eq_true, and_false, true_and, false_or,
        if_true, Option.some.injEq]
      exact ⟨fun hl => ⟨hl.symm, hl ▸ hrunning⟩, fun hl => hl.1.symm⟩
    · have hkept : s.latest? k' = some l → s'.isRunning l = s.isRunning l := by
        intro hlatest
        obtain ⟨b, hb⟩ := exists_of_latest? hlatest
        rw [isRunning_eq, isRunning_eq, ledger,
          List.getElem?_append_left (List.getElem?_eq_some_iff.mp hb).1]
      have hmem := h.mem_iff k' l
      simp only [List.mem_append, List.mem_filter, List.mem_singleton, Prod.mk.injEq, ne_eq,
        Ne.symm hk, not_false_eq_true, decide_true, and_true, false_and, or_false, if_neg hk, hmem]
      exact and_congr_right fun hlatest => by rw [hkept hlatest]

/-- A lease that is released was the last for its key if the table holds it, and takes nothing else
with it. -/
theorem TableInv.of_release (h : TableInv s) (k : Key) (l : Nat)
    (runs : s.ledger[l]? = some (k, false))
    (table : s'.table = s.table.filter fun entry => ¬ (entry.1 = k ∧ entry.2 = l))
    (ledger : s'.ledger = s.ledger.set l (k, true)) : TableInv s' where
  nodup := by
    rw [table]
    exact h.nodup.sublist (List.filter_sublist.map _)
  mem_iff k' l' := by
    have hlt : l < s.leases.length := length_ledger ▸ (List.getElem?_eq_some_iff.mp runs).1
    have hkeys : s'.ledger.map Prod.fst = s.ledger.map Prod.fst := by
      apply List.ext_getElem?
      intro i
      rw [ledger, List.getElem?_map, List.getElem?_map, List.getElem?_set]
      by_cases hi : l = i
      · subst hi
        rw [if_pos rfl, length_ledger, if_pos hlt, runs]
        rfl
      · rw [if_neg hi]
    have hrunning : s'.isRunning l' = true ↔ s.isRunning l' = true ∧ l' ≠ l := by
      rw [isRunning_eq, isRunning_eq, ledger, List.getElem?_set]
      by_cases hi : l = l'
      · subst hi
        simp [hlt]
      · simp [hi, Ne.symm hi]
    rw [table, List.mem_filter, latest?_congr hkeys, h.mem_iff, hrunning, decide_eq_true_eq,
      and_assoc]
    refine and_congr_right fun hlatest => and_congr_right fun _ => not_congr ⟨And.right, ?_⟩
    rintro rfl
    obtain ⟨b, hb⟩ := exists_of_latest? hlatest
    rw [runs, Option.some.injEq, Prod.mk.injEq] at hb
    exact ⟨hb.1.symm, rfl⟩

/-- They agree after every step. -/
theorem TableInv.step {e : CoopEvent α} (h : TableInv s) (he : s.step e = some s') :
    TableInv s' := by
  cases step_ledger he with
  | same table ledger => exact h.of_same table ledger
  | start k table ledger => exact h.of_start k table ledger
  | release k l runs table ledger => exact h.of_release k l runs table ledger

/-- The table is right in every state that a run can come to. -/
theorem tableInv_of_run {events : List (CoopEvent α)}
    (h : ({} : Cooperation α).run events = some s) : TableInv s :=
  run_invariant TableInv.step tableInv_empty h

/-! ## Reading the table -/

/-- In a table with one entry for each key, looking a key up finds its entry. -/
theorem lookup_eq_some_iff_mem {κ ν : Type} [DecidableEq κ] {table : List (κ × ν)} {k : κ} {v : ν}
    (hnodup : (table.map Prod.fst).Nodup) : table.lookup k = some v ↔ (k, v) ∈ table := by
  induction table with
  | nil => simp
  | cons entry rest ih =>
    obtain ⟨k', v'⟩ := entry
    rw [List.map_cons, List.nodup_cons] at hnodup
    rw [List.lookup_cons, List.mem_cons, Prod.mk.injEq]
    by_cases hk : k = k'
    · subst hk
      have hrest : (k, v) ∉ rest := fun hmem => hnodup.1 (List.mem_map.mpr ⟨_, hmem, rfl⟩)
      simp [hrest, eq_comm]
    · have hne : (k == k') = false := by simpa using hk
      simp [hne, hk, ih hnodup.2]

/-- A lease is registered exactly if the table lists it. -/
theorem TableInv.registered?_iff_mem (h : TableInv s) {k : Key} {l : Nat} :
    s.registered? k = some l ↔ (k, l) ∈ s.table :=
  lookup_eq_some_iff_mem h.nodup

/-- What is registered is the latest lease, as long as it runs. -/
theorem TableInv.registered?_iff (h : TableInv s) {k : Key} {l : Nat} :
    s.registered? k = some l ↔ s.latest? k = some l ∧ s.isRunning l = true :=
  h.registered?_iff_mem.trans (h.mem_iff k l)

/-- When no lease runs the table is empty. -/
theorem TableInv.inFlight_eq_zero (h : TableInv s) (hidle : ∀ l, s.isRunning l = false) :
    s.inFlight = 0 := by
  rw [inFlight, List.length_eq_zero_iff, List.eq_nil_iff_forall_not_mem]
  rintro ⟨k, l⟩ hmem
  have hrunning := ((h.mem_iff k l).mp hmem).2
  rw [hidle l] at hrunning
  contradiction

/-- Releasing one lease takes no other lease out of the table. -/
theorem TableInv.registered?_release (h : TableInv s) {l l' : Nat} (hr : s.release l = some s')
    (hne : l' ≠ l) (k : Key) : s'.registered? k = some l' ↔ s.registered? k = some l' := by
  have h' : TableInv s' := h.step (e := .release l) hr
  obtain ⟨lease, -, -, -, rfl⟩ := release_eq_some.mp hr
  rw [h.registered?_iff_mem, h'.registered?_iff_mem, List.mem_filter, decide_eq_true_eq]
  exact ⟨And.left, fun hmem => ⟨hmem, fun hl => hne hl.2⟩⟩

/-- Work that has its outcome can always give up its key. Then it does not run any more, and the table
does not hold its lease. -/
theorem TableInv.exists_release (h : TableInv s) {l : Nat} (hended : (s.outcome? l).isSome)
    (hrunning : s.isRunning l = true) : ∃ s', s.step (.release l) = some s' ∧
      s'.isRunning l = false ∧ ∀ k, s'.registered? k ≠ some l := by
  cases hl : s.leases[l]? with
  | none => simp [isRunning, hl] at hrunning
  | some lease =>
    have houtcome : lease.outcome.isSome := by simpa [outcome?, hl] using hended
    have hheld : lease.released = false := by simpa [isRunning, hl] using hrunning
    obtain ⟨s', hr⟩ : ∃ s', s.release l = some s' :=
      ⟨_, release_eq_some.mpr ⟨lease, hl, houtcome, hheld, rfl⟩⟩
    have h' : TableInv s' := h.step (e := .release l) hr
    have hover : s'.isRunning l = false := by
      obtain ⟨_, -, -, -, rfl⟩ := release_eq_some.mp hr
      simp [isRunning, hl]
    refine ⟨s', hr, hover, fun k hregistered => ?_⟩
    rw [(h'.registered?_iff.mp hregistered).2] at hover
    contradiction

/-! ## Work that ends -/

/-- A key is given up only after the outcome of the work is published. -/
def EndsInOrder (s : Cooperation α) : Prop :=
  ∀ (l : Nat) (lease : Lease α),
    s.leases[l]? = some lease → lease.released = true → lease.outcome.isSome

/-- No lease is released before its work has ended. -/
theorem EndsInOrder.step {e : CoopEvent α} (h : EndsInOrder s) (he : s.step e = some s') :
    EndsInOrder s' := by
  intro l lease' hl' hreleased
  obtain ⟨lease, hl⟩ | ⟨-, -, hheld⟩ := lease_before_step he hl'
  · obtain ⟨lease'', hl'', -, houtcome, hrelease⟩ := lease_of_step he hl
    obtain rfl : lease'' = lease' := Option.some.inj (hl''.symm.trans hl')
    have hended : lease.outcome.isSome := by
      obtain hsame | ⟨-, hended⟩ := hrelease
      · exact h l lease hl (hsame ▸ hreleased)
      · exact hended
    obtain hsame | ⟨outcome, -, hpending, -⟩ := houtcome
    · rw [hsame]
      exact hended
    · rw [hpending] at hended
      contradiction
  · rw [hheld] at hreleased
    contradiction

/-- In every state of a run, what was released has ended. -/
theorem endsInOrder_of_run {events : List (CoopEvent α)}
    (h : ({} : Cooperation α).run events = some s) : EndsInOrder s :=
  run_invariant EndsInOrder.step (fun l lease hl => by simp at hl) h

/-- Work whose outcome is not there yet is running. -/
theorem isRunning_of_outcome?_eq_none (h : EndsInOrder s) {k : Key} {l : Nat}
    (hl : s.latest? k = some l) (ho : s.outcome? l = none) : s.isRunning l = true := by
  obtain ⟨b, hb⟩ := exists_of_latest? hl
  rw [getElem?_ledger] at hb
  obtain ⟨lease, hlease, -⟩ := Option.map_eq_some_iff.mp hb
  simp only [outcome?, hlease, Option.bind_some] at ho
  cases hr : lease.released with
  | true =>
    have := h l lease hlease hr
    simp [ho] at this
  | false => simp [isRunning, hlease, hr]

/-! ## The table over whole runs -/

/-- **The table of leases.** In every state of a run, the table holds a lease for a key exactly if
it is the last for the key and its work runs. Hence a key whose last work has no outcome yet is in
the table, and outside the moment between the outcome of some work and the release of its key, no
others are; work that has its outcome can give up its key, and then it does not run any more and its
lease is not in the table; work that ends late takes only its own entry; and without work nothing is in
flight. -/
theorem registered_iff_latest_running {events : List (CoopEvent α)}
    (h : ({} : Cooperation α).run events = some s) :
    (∀ k l, s.registered? k = some l ↔ s.latest? k = some l ∧ s.isRunning l = true) ∧
    (∀ k l, s.latest? k = some l → s.outcome? l = none → s.registered? k = some l) ∧
    ((∀ l, (s.outcome? l).isSome → s.isRunning l = false) →
      ∀ k l, s.registered? k = some l ↔ s.latest? k = some l ∧ s.outcome? l = none) ∧
    (∀ l, (s.outcome? l).isSome → s.isRunning l = true → ∃ s', s.step (.release l) = some s' ∧
      s'.isRunning l = false ∧ ∀ k, s'.registered? k ≠ some l) ∧
    (∀ l s', s.release l = some s' →
      ∀ k l', l' ≠ l → (s'.registered? k = some l' ↔ s.registered? k = some l')) ∧
    ((∀ l, s.isRunning l = false) → s.inFlight = 0) := by
  have htable := tableInv_of_run h
  have hends := endsInOrder_of_run h
  refine ⟨fun k l => htable.registered?_iff, fun k l hl ho => ?_, fun hsettled k l => ?_,
    fun l hended hrunning => htable.exists_release hended hrunning,
    fun l s' hr k l' hne => htable.registered?_release hr hne k, htable.inFlight_eq_zero⟩
  · exact htable.registered?_iff.mpr ⟨hl, isRunning_of_outcome?_eq_none hends hl ho⟩
  · rw [htable.registered?_iff]
    refine and_congr_right fun hl => ⟨fun hrunning => ?_, isRunning_of_outcome?_eq_none hends hl⟩
    cases ho : s.outcome? l with
    | none => rfl
    | some outcome =>
      rw [hsettled l (by simp [ho])] at hrunning
      contradiction

/-- A leader that is replaced by a follower and ends after that. -/
def lateLeader : List (CoopEvent Nat) :=
  [.arrive ⟨"a"⟩ ⟨5⟩ ⟨9⟩, .arrive ⟨"a"⟩ ⟨5⟩ ⟨9⟩, .tick 5, .exhaust 1, .takeOver 1,
    .publish 0 (some (.ok 3)), .release 0]

/-- The replacement stays in the table when the leader before it ends. -/
theorem registered_after_lateLeader :
    ∃ s, ({} : Cooperation Nat).run lateLeader = some s ∧ s.isRunning 0 = false ∧
      s.registered? ⟨"a"⟩ = some 1 := by
  have hrun : ({} : Cooperation Nat).run lateLeader = some _ := rfl
  have htable := (registered_iff_latest_running hrun).1 ⟨"a"⟩ 1
  exact ⟨_, hrun, rfl, htable.mpr ⟨rfl, rfl⟩⟩

end PullCache.Cooperation
