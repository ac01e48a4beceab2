import PullCache.Config.Basic
import PullCache.Proofs.Freshness
import PullCache.Proofs.Lists
/-!
# Proofs.AutoBlock

When a remote is blocked, told from the history of its record alone. Failures, successes and looks at
the record come in any order and at any times. A failure starts a block exactly if it completes as many
failures as the policy says since the last success or the last failure that did so; and the remote is
blocked as long as the end of the last such block has not come and no success came after it
(`block_law`).

The end of a block is as many seconds after the failure as the policy says, or the last date there is,
whichever comes first. Seconds are counted on the clock of the failure (`onClockOf`): it goes through a
leap second exactly if the failure happened in one.
-/

namespace PullCache

/-! ## The end of a block -/

namespace Instant

variable {t x : Instant}

/-- A point in time that dates reach. -/
def WithinDates (t : Instant) : Prop :=
  t.before earliest = false ∧ latest.before t = false

instance : Decidable t.WithinDates :=
  inferInstanceAs (Decidable (_ ∧ _))

/-- The nanoseconds of a point in time on a clock that goes through the leap second which `t` lies in,
if it lies in one. Everything after that second comes a second later. -/
def onClockOf (t x : Instant) : Int :=
  x.toNanos + (if t.leap = true ∧ t.seconds < x.seconds then 1000000000 else 0)

/-- Without a leap second a reading is the nanoseconds of the clock. -/
theorem onClockOf_eq_toNanos (h : t.leap = false) : t.onClockOf x = x.toNanos := by
  simp [onClockOf, h]

theorem onClockOf_self : t.onClockOf t = t.toNanos := by
  simp [onClockOf]

/-- Behind the point itself the clock has gone through its leap second. -/
theorem onClockOf_later (hx : x.leap = false) (hlater : t.leap = true → t.seconds < x.seconds) :
    t.onClockOf x = x.seconds * 1000000000 + x.nanos + (if t.leap then 1000000000 else 0) := by
  cases hleap : t.leap with
  | false => simp [onClockOf, toNanos, hx, hleap]
  | true => simp [onClockOf, toNanos, hx, hleap, hlater hleap]

/-- Within dates the last second is no leap second. -/
theorem WithinDates.bounds (h : t.WithinDates) : earliest.seconds ≤ t.seconds ∧
    t.seconds ≤ latest.seconds ∧ (t.leap = true → t.seconds < latest.seconds) := by
  obtain ⟨hfirst, hlast⟩ := h
  rw [before_eq_false_iff] at hfirst hlast
  refine ⟨by omega, by omega, fun hleap => ?_⟩
  have hlate : latest.subsecond < t.subsecond := by
    simp only [subsecond, latest, hleap, if_true, Bool.false_eq_true, if_false]
    omega
  omega

end Instant

namespace AutoBlock

/-- The end of a block is exact: so many seconds later, but not after the last date. -/
theorem deadline_exact (b : AutoBlock) {t : Instant} (h : t.WithinDates) :
    t.onClockOf (b.deadline t) =
        min (t.onClockOf t + b.policy.seconds * 1000000000) (t.onClockOf Instant.latest) ∧
      ((b.deadline t).leap = true → b.deadline t = t) := by
  obtain ⟨hfirst, hlast, hleap⟩ := h.bounds
  have hnanos := t.nanos_lt
  have hstart : t.onClockOf t =
      t.seconds * 1000000000 + t.nanos + (if t.leap then 1000000000 else 0) :=
    Instant.onClockOf_self
  have hend : t.onClockOf Instant.latest =
      8210266876799 * 1000000000 + 999999999 + (if t.leap then 1000000000 else 0) :=
    Instant.onClockOf_later rfl hleap
  have hrange := @Instant.secondsInRange_eq_true (t.seconds + b.policy.seconds)
  simp only [Instant.earliest, Instant.latest] at hfirst hlast hleap hrange
  by_cases hzero : b.policy.seconds = 0
  · have hdeadline : b.deadline t = t := by simp [deadline, Instant.addSeconds?, hzero]
    rw [hdeadline, hstart, hend, hzero]
    refine ⟨?_, fun _ => rfl⟩
    cases hl : t.leap <;> simp only [hl] at hleap ⊢ <;> simp <;> omega
  · by_cases hin : Instant.secondsInRange (t.seconds + b.policy.seconds) = true
    · have hdeadline : b.deadline t = { t with
          seconds := t.seconds + b.policy.seconds
          leap := false } := by
        simp [deadline, Instant.addSeconds?, hzero, hin]
      rw [hdeadline, Instant.onClockOf_later rfl (by simp; omega), hstart, hend]
      refine ⟨?_, fun hl => by contradiction⟩
      rw [hrange] at hin
      dsimp only
      omega
    · have hdeadline : b.deadline t = Instant.latest := by
        simp [deadline, Instant.addSeconds?, hzero, hin]
      rw [hdeadline, hstart, hend]
      refine ⟨?_, fun hl => by contradiction⟩
      rw [hrange] at hin
      omega

/-- Away from leap seconds all of it is counted in nanoseconds. -/
theorem toNanos_deadline (b : AutoBlock) {t : Instant} (h : t.WithinDates) (hplain : t.leap = false) :
    (b.deadline t).toNanos =
      min (t.toNanos + b.policy.seconds * 1000000000) Instant.latest.toNanos := by
  obtain ⟨hend, -⟩ := b.deadline_exact h
  rwa [Instant.onClockOf_eq_toNanos hplain, Instant.onClockOf_eq_toNanos hplain,
    Instant.onClockOf_eq_toNanos hplain] at hend

end AutoBlock

/-! ## The failures that start a block -/

namespace BlockPolicy

/-- How many failures start a block. Every failure reaches a threshold of zero. -/
def needed (p : BlockPolicy) : Nat :=
  max 1 p.threshold

/-- A block needs one failure at least, whatever threshold is set. -/
theorem needed_pos (p : BlockPolicy) : 0 < p.needed :=
  Nat.lt_of_lt_of_le Nat.zero_lt_one (Nat.le_max_left 1 p.threshold)

end BlockPolicy

namespace AutoBlock

/-- A failure of an enabled policy starts a block exactly if it completes a run. Counting goes no
further than a threshold that fits in 32 bits. -/
theorem recordFailure_eq {b : AutoBlock} (henabled : b.policy.enabled = true)
    (hfits : b.policy.threshold < UInt32.size) (hrun : b.failures < b.policy.needed) (t : Instant) :
    b.recordFailure t =
      if b.failures + 1 = b.policy.needed then
        (some (b.deadline t), { b with failures := 0, till := some (b.deadline t) })
      else (none, { b with failures := b.failures + 1 }) := by
  rw [BlockPolicy.needed] at hrun ⊢
  have hsize : UInt32.size = 4294967296 := rfl
  have hcount : min (b.failures + 1) (UInt32.size - 1) = b.failures + 1 := by omega
  simp only [recordFailure, henabled, Bool.not_true, Bool.false_eq_true, if_false, hcount]
  by_cases hcomplete : b.failures + 1 = max 1 b.policy.threshold
  · rw [if_neg (by omega), if_pos hcomplete]
  · rw [if_pos (by omega), if_neg hcomplete]

/-! ## Histories -/

/-- What is done with the record of a remote. -/
inductive Use where
  /-- An exchange failed. -/
  | failure (t : Instant)
  /-- An exchange brought an answer. -/
  | success
  /-- Somebody looks whether the remote is blocked. -/
  | status (now : Instant)
  /-- A request is about to be made. -/
  | check (now : Instant)
  deriving DecidableEq, Repr

def Use.isFailure : Use → Bool
  | .failure _ => true
  | _ => false

/-- What is left of the record. -/
def use (b : AutoBlock) : Use → AutoBlock
  | .failure t => (b.recordFailure t).2
  | .success => b.recordSuccess
  | .status _ | .check _ => b

/-- The end of the block that a use starts, if it starts one. -/
def started (b : AutoBlock) : Use → Option Instant
  | .failure t => (b.recordFailure t).1
  | .success | .status _ | .check _ => none

/-- The record after a number of uses, one after the other. -/
def useAll (b : AutoBlock) (uses : List Use) : AutoBlock :=
  uses.foldl use b

/-- What happened: the uses, each with the end of the block that it started. -/
abbrev Past := List (Use × Option Instant)

def history (b : AutoBlock) : List Use → Past
  | [] => []
  | u :: rest => (u, b.started u) :: (b.use u).history rest

/-- Successes and failures that start a block end the run of failures before them. -/
def endsRun (e : Use × Option Instant) : Bool :=
  e.1 = .success || e.2.isSome

/-- The failures since the run before them was ended. -/
def run (past : Past) : Nat :=
  (past.reverse.takeWhile fun e => !endsRun e).countP fun e => e.1.isFailure

/-- The last block that started ends then, and no success came after it. -/
def LastBlock (past : Past) (till : Instant) : Prop :=
  ∃ t, Latest (fun e => endsRun e = true) past (.failure t, some till)

variable {b : AutoBlock} {past : Past} {e : Use × Option Instant} {till : Instant}

/-- Whatever ends a run of failures, the next one begins at zero. -/
theorem run_concat_of_ends (h : endsRun e = true) : run (past ++ [e]) = 0 := by
  simp [run, h]

/-- Other uses add to the run what they are: one if they fail, nothing if they do not. -/
theorem run_concat_of_not_ends (h : endsRun e = false) :
    run (past ++ [e]) = run past + if e.1.isFailure then 1 else 0 := by
  simp [run, h, List.countP_cons]

/-- A use that ends no run leaves the last block as it was. -/
theorem lastBlock_concat_of_not_ends (h : endsRun e = false) :
    LastBlock (past ++ [e]) till ↔ LastBlock past till := by
  refine exists_congr fun t => ⟨fun hlast => ?_, fun hlast => hlast.append_of_not (by simpa using h)⟩
  obtain ⟨before, after, hsplit, hends, hnone⟩ := hlast
  obtain ⟨rest, rfl, rfl⟩ | hnew := append_eq_append_cons hsplit
  · exact ⟨before, rest, rfl, hends, fun y hy => hnone y (List.mem_append_left _ hy)⟩
  · obtain rfl := List.mem_singleton.mp hnew
    rw [h] at hends
    contradiction

/-- A use that ends a run decides the last block. -/
theorem lastBlock_concat_of_ends (h : endsRun e = true) :
    LastBlock (past ++ [e]) till ↔ ∃ t, e = (.failure t, some till) := by
  refine exists_congr fun t => ⟨fun hlast => ?_, fun heq => heq ▸ .concat_self past (heq ▸ h)⟩
  obtain ⟨before, after, hsplit, -, hnone⟩ := hlast
  obtain ⟨rest, rfl, -⟩ | hnew := append_eq_append_cons hsplit
  · exact absurd h (hnone e (by simp))
  · exact (List.mem_singleton.mp hnew).symm

/-! ## What a history keeps -/

/-- The record tells the length of the present run, which has not been completed, and the end of the
last block. -/
structure Kept (remote : String) (policy : BlockPolicy) (past : Past) (b : AutoBlock) : Prop where
  remote_eq : b.remote = remote
  policy_eq : b.policy = policy
  failures_eq : b.failures = run past
  incomplete : run past < policy.needed
  till_iff : ∀ till, b.till = some till ↔ LastBlock past till

variable {remote : String} {policy : BlockPolicy}

/-- A new tracker has no history. -/
theorem kept_new : Kept remote policy [] (new remote policy) where
  remote_eq := rfl
  policy_eq := rfl
  failures_eq := rfl
  incomplete := policy.needed_pos
  till_iff till := by simp [new, LastBlock, Latest]

/-- Every use leaves the tracker with what the longer history says. -/
theorem Kept.use (henabled : policy.enabled = true) (hfits : policy.threshold < UInt32.size)
    (h : Kept remote policy past b) (u : Use) :
    Kept remote policy (past ++ [(u, b.started u)]) (b.use u) := by
  obtain ⟨hremote, rfl, hfailures, hrun, htill⟩ := h
  have hpositive := Nat.zero_lt_of_lt hrun
  cases u with
  | failure t =>
    rw [← hfailures] at hrun
    simp only [started, AutoBlock.use, recordFailure_eq henabled hfits hrun]
    by_cases hcomplete : b.failures + 1 = b.policy.needed
    · have hends : endsRun (.failure t, some (b.deadline t)) = true := rfl
      rw [if_pos hcomplete]
      refine ⟨hremote, rfl, ?_, ?_, fun till => ?_⟩
      · exact (run_concat_of_ends hends).symm
      · rwa [run_concat_of_ends hends]
      · rw [lastBlock_concat_of_ends hends]
        simp
    · have hgoes : endsRun (.failure t, none) = false := rfl
      have hnext : run (past ++ [(.failure t, none)]) = b.failures + 1 := by
        rw [run_concat_of_not_ends hgoes, hfailures]
        rfl
      rw [if_neg hcomplete]
      refine ⟨hremote, rfl, hnext.symm, ?_, fun till => ?_⟩
      · rw [hnext]
        omega
      · rw [lastBlock_concat_of_not_ends hgoes]
        exact htill till
  | success =>
    have hends : endsRun (.success, none) = true := rfl
    refine ⟨hremote, rfl, ?_, ?_, fun till => ?_⟩
    · exact (run_concat_of_ends hends).symm
    · rwa [started, run_concat_of_ends hends]
    · rw [started, lastBlock_concat_of_ends hends]
      simp [AutoBlock.use, recordSuccess]
  | status now | check now =>
    refine ⟨hremote, rfl, ?_, ?_, fun till => ?_⟩
    · rw [started, run_concat_of_not_ends rfl]
      exact hfailures
    · rw [started, run_concat_of_not_ends rfl]
      exact hrun
    · rw [started, lastBlock_concat_of_not_ends rfl]
      exact htill till

/-- So does any number of uses. -/
theorem Kept.useAll (henabled : policy.enabled = true) (hfits : policy.threshold < UInt32.size)
    (h : Kept remote policy past b) (uses : List Use) :
    Kept remote policy (past ++ b.history uses) (b.useAll uses) := by
  induction uses generalizing b past with
  | nil => rwa [history, List.append_nil]
  | cons u rest ih =>
    rw [history, List.append_cons]
    exact ih (h.use henabled hfits u)

/-- The next failure starts a block exactly if it completes the present run. -/
theorem Kept.recordFailure_fst (henabled : policy.enabled = true)
    (hfits : policy.threshold < UInt32.size) (h : Kept remote policy past b) (t : Instant) :
    (b.recordFailure t).1 =
      if run past + 1 = policy.needed then some (b.deadline t) else none := by
  obtain ⟨-, rfl, hfailures, hrun, -⟩ := h
  rw [← hfailures] at hrun ⊢
  rw [recordFailure_eq henabled hfits hrun]
  split <;> rfl

/-- Under a policy that is not enabled the record never changes. -/
theorem useAll_new_of_disabled (h : policy.enabled = false) (uses : List Use) :
    (new remote policy).useAll uses = new remote policy := by
  have hsame : ∀ u, (new remote policy).use u = new remote policy := by
    intro u
    cases u <;> simp [AutoBlock.use, new, recordFailure, recordSuccess, h]
  induction uses with
  | nil => rfl
  | cons u rest ih =>
    rw [AutoBlock.useAll, List.foldl_cons, hsame u]
    exact ih

/-! ## Looks at the record -/

/-- A remote is blocked until its deadline, and not at it. -/
theorem status_eq_blocked_iff {now : Instant} :
    b.status now = .blocked till ↔ b.till = some till ∧ now.before till = true := by
  cases h : b.till with
  | none => simp [status, h]
  | some finish =>
    by_cases hbefore : now.before finish = true
    · simp only [status, h, hbefore, if_true, BlockStatus.blocked.injEq, Option.some.injEq]
      exact ⟨fun heq => ⟨heq, heq ▸ hbefore⟩, fun heq => heq.1⟩
    · simp only [status, h, hbefore, Bool.false_eq_true, if_false, reduceCtorEq, Option.some.injEq,
        false_iff]
      exact fun heq => hbefore (heq.1 ▸ heq.2)

/-- A check fails only with the deadline of the block. -/
theorem check_eq_error_iff {now : Instant} {fault : OriginFault} :
    b.check now = .error fault ↔
      ∃ till, fault = .blocked b.remote till ∧ b.status now = .blocked till := by
  cases h : b.status now with
  | available => simp [check, h]
  | blocked till => simp [check, h, eq_comm]

/-- **The law of blocks.** The record of a remote has been used in any way, under any settings.

* If blocking is enabled after one failure or more: The next failure starts a block exactly if it
  completes as many as the settings say since the last success or the last failure that started one.
  That block ends so many seconds after the failure, but not after the last date; away from leap
  seconds both are counted in nanoseconds. The remote is shown as blocked until some time exactly if
  the last block that started ends then, no success came after it, and the time has not come; and just
  then, and for no other reason, a request is refused, until that time.
* If blocking is not enabled, none of this ever happens. -/
theorem block_law (a : AutoBlockSection) (remote : String) (uses : List Use) :
    let b := (new remote a.policy).useAll uses
    let past := (new remote a.policy).history uses
    (a.enabled = true → 1 ≤ a.failureThreshold.toNat →
      (∀ t, (b.recordFailure t).1.isSome = true ↔ run past + 1 = a.failureThreshold.toNat) ∧
      (∀ t till, t.WithinDates → (b.recordFailure t).1 = some till →
        t.onClockOf till =
            min (t.onClockOf t + a.blockSecs.toNat * 1000000000) (t.onClockOf Instant.latest) ∧
          (till.leap = true → till = t) ∧
          (t.leap = false →
            till.toNanos =
              min (t.toNanos + a.blockSecs.toNat * 1000000000) Instant.latest.toNanos)) ∧
      (∀ now till, b.status now = .blocked till ↔ LastBlock past till ∧ now.before till = true) ∧
      (∀ now fault, b.check now = .error fault ↔
        ∃ till, fault = .blocked remote till ∧ b.status now = .blocked till)) ∧
    (a.enabled = false →
      ∀ t, (b.recordFailure t).1 = none ∧ b.status t = .available ∧ b.check t = .ok ()) := by
  intro b past
  refine ⟨fun henabled hpositive => ?_, fun hdisabled t => ?_⟩
  · have hfits : a.policy.threshold < UInt32.size := a.failureThreshold.toNat_lt
    have hneeded : a.policy.needed = a.failureThreshold.toNat := Nat.max_eq_right hpositive
    have hkept : Kept remote a.policy past b := kept_new.useAll henabled hfits uses
    have hfailure := hkept.recordFailure_fst henabled hfits
    rw [hneeded] at hfailure
    refine ⟨fun t => ?_, fun t till hdates hstarts => ?_, fun now till => ?_, fun now fault => ?_⟩
    · rw [hfailure]
      split <;> simp [*]
    · obtain rfl : b.deadline t = till := by
        rw [hfailure] at hstarts
        split at hstarts
        · exact Option.some.inj hstarts
        · contradiction
      obtain ⟨hend, hleap⟩ := b.deadline_exact hdates
      have hnanos := b.toNanos_deadline hdates
      rw [hkept.policy_eq] at hend hnanos
      exact ⟨hend, hleap, hnanos⟩
    · rw [status_eq_blocked_iff, hkept.till_iff]
    · rw [check_eq_error_iff, hkept.remote_eq]
  · have hb : b = new remote a.policy := useAll_new_of_disabled hdisabled uses
    rw [hb]
    exact ⟨by simp [recordFailure, new, AutoBlockSection.policy, hdisabled], rfl, rfl⟩

/-- A success starts the count again. The second failure after it starts the longest block there is,
which ends with the last date; a request is refused until then. -/
theorem blocked_until_lastDate :
    let longest : AutoBlockSection := ⟨true, 2, 18446744073709551615⟩
    let midnight : Instant := ⟨1717200000, 0, false, by decide⟩
    let uses : List Use := [.failure midnight, .success, .failure midnight, .check midnight]
    let b := (new "https://origin.test/" longest.policy).useAll uses
    let blocked := (new "https://origin.test/" longest.policy).useAll (uses ++ [.failure midnight])
    1 ≤ longest.failureThreshold.toNat ∧ midnight.WithinDates ∧
      (b.recordFailure midnight).1.isSome = true ∧
      (∀ till, (b.recordFailure midnight).1 = some till → till.toNanos = Instant.latest.toNanos) ∧
      blocked.check midnight = .error (.blocked "https://origin.test/" Instant.latest) := by
  intro longest midnight uses b blocked
  obtain ⟨hstarts, hend, -⟩ := (block_law longest "https://origin.test/" uses).1 rfl (by decide)
  obtain ⟨-, -, hstatus, hcheck⟩ :=
    (block_law longest "https://origin.test/" (uses ++ [.failure midnight])).1 rfl (by decide)
  have hdates : midnight.WithinDates := by decide
  refine ⟨by decide, hdates, (hstarts midnight).mpr rfl, fun till htill => ?_, ?_⟩
  · exact ((hend midnight till hdates htill).2.2 rfl).trans (by decide)
  · have hlast : LastBlock ((new "https://origin.test/" longest.policy).history
        (uses ++ [.failure midnight])) Instant.latest :=
      ⟨midnight, (new "https://origin.test/" longest.policy).history uses, [], rfl, rfl, by simp⟩
    exact (hcheck midnight _).mpr ⟨_, rfl, (hstatus midnight _).mpr ⟨hlast, by decide⟩⟩

end AutoBlock

end PullCache
