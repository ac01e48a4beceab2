import PullCache.Proofs.AutoBlock
import PullCache.Proofs.Proxy.Session
/-!
# Proofs.Proxy.Blocking

Whose failures a block goes back to, in a service that gets resources one after the other and is given
other settings in between. The record of failures belongs to the client of the origin and does not know
which remote a request goes to. It counts the failed exchanges since the last one that brought an answer
in groups as large as the settings say, and the last full group blocks the requests that follow,
whatever remotes its failures and these requests belong to (`refused_iff`). Only while the remote stays
the same is a block always the remote's own.
-/

namespace PullCache

/-! ## Groups of failures -/

/-- Items in groups of `n`, from the first item on: the last group that is full. -/
def lastGroup {ν : Type} (n : Nat) (items : List ν) : List ν :=
  (items.take (items.length / n * n)).drop (items.length / n * n - n)

section LastGroup

variable {ν : Type} {n : Nat} {items : List ν} {a : ν}

theorem lastGroup_nil : lastGroup n ([] : List ν) = [] := by
  simp [lastGroup]

/-- The item that completes a group is the last one of the last full group. -/
theorem getLast?_lastGroup_concat (h : items.length % n + 1 = n) :
    (lastGroup n (items ++ [a])).getLast? = some a := by
  have hall : (items.length + 1) / n * n = items.length + 1 := by
    refine Nat.div_mul_cancel ⟨items.length / n + 1, ?_⟩
    have := Nat.div_add_mod items.length n
    rw [Nat.mul_add]
    omega
  have hshort : items.length + 1 - n ≤ items.length := by omega
  rw [lastGroup, List.length_append, List.length_singleton, hall,
    List.take_of_length_le (by simp), List.drop_append_of_le_length hshort]
  exact List.getLast?_concat

/-- An item that completes no group leaves the last full group as it is. -/
theorem lastGroup_concat (hn : 0 < n) (h : items.length % n + 1 ≠ n) :
    lastGroup n (items ++ [a]) = lastGroup n items := by
  have hle : items.length / n * n ≤ items.length := Nat.div_mul_le_self ..
  have hsame : (items.length + 1) / n = items.length / n := by
    refine Nat.div_eq_of_lt_le (Nat.le_succ_of_le hle) ?_
    have hmod := Nat.mod_lt items.length hn
    have hsplit := Nat.div_add_mod' items.length n
    rw [Nat.succ_mul]
    omega
  rw [lastGroup, lastGroup, List.length_append, List.length_singleton, hsame,
    List.take_append_of_le_length hle]

theorem mem_of_mem_lastGroup (h : a ∈ lastGroup n items) : a ∈ items :=
  List.mem_of_mem_take (List.mem_of_mem_drop h)

end LastGroup

/-! ## Exchanges with the origin -/

/-- An exchange that a get asked for: the remote at that time, the time, the request, and what came of
it. -/
structure Attempt where
  remote : Url
  now : Instant
  request : OriginRequest
  outcome : Except OriginFault Reply

namespace Attempt

def isAnswered (a : Attempt) : Bool :=
  match a.outcome with
  | .ok _ => true
  | .error _ => false

/-- The exchange was tried and brought no answer. -/
def isFailure (a : Attempt) : Bool :=
  match a.outcome with
  | .error (.transient ..) => true
  | _ => false

/-- The failures since an exchange was last answered. -/
def unanswered (past : List Attempt) : List Attempt :=
  (past.reverse.takeWhile fun a => !a.isAnswered).reverse.filter isFailure

variable {past : List Attempt} {a : Attempt}

/-- An answer of the origin ends the unanswered failures. -/
theorem unanswered_concat_of_answered (h : a.isAnswered = true) : unanswered (past ++ [a]) = [] := by
  simp [unanswered, h]

/-- Without an answer a failure is added to them. -/
theorem unanswered_concat (h : a.isAnswered = false) :
    unanswered (past ++ [a]) = unanswered past ++ [a].filter isFailure := by
  simp [unanswered, h]

/-- Unanswered failures are attempts. -/
theorem mem_of_mem_unanswered (h : a ∈ unanswered past) : a ∈ past := by
  have hmem := List.mem_reverse.mp (List.mem_filter.mp h).1
  exact List.mem_reverse.mp (List.takeWhile_subset _ hmem)

end Attempt

/-! ## The record after a number of exchanges -/

namespace AutoBlock

/-- The failures that started the last block, if no exchange was answered since. -/
def blockers (policy : BlockPolicy) (past : List Attempt) : List Attempt :=
  if policy.enabled then lastGroup policy.needed (Attempt.unanswered past) else []

variable {remote : String} {policy : BlockPolicy} {b : AutoBlock} {past : List Attempt} {a : Attempt}

/-- The failures that block are attempts. -/
theorem mem_of_mem_blockers (h : a ∈ blockers policy past) : a ∈ past := by
  unfold blockers at h
  split at h
  · exact Attempt.mem_of_mem_unanswered (mem_of_mem_lastGroup h)
  · contradiction

/-- The record of a remote tells how many failures are in the group that is not full, and the end of the
last block. -/
structure Counts (remote : String) (policy : BlockPolicy) (past : List Attempt) (b : AutoBlock) :
    Prop where
  remote_eq : b.remote = remote
  policy_eq : b.policy = policy
  failures_eq : policy.enabled = true →
    b.failures = (Attempt.unanswered past).length % policy.needed
  till_eq : b.till = (blockers policy past).getLast?.map fun a => (new remote policy).deadline a.now

/-- A new tracker has counted nothing. -/
theorem counts_new : Counts remote policy [] (new remote policy) where
  remote_eq := rfl
  policy_eq := rfl
  failures_eq _ := (Nat.zero_mod _).symm
  till_eq := by simp [new, blockers, Attempt.unanswered, lastGroup_nil]

/-- A success sets the count back. -/
theorem Counts.answered (h : Counts remote policy past b) (ha : a.isAnswered = true) :
    Counts remote policy (past ++ [a]) b.recordSuccess where
  remote_eq := h.remote_eq
  policy_eq := h.policy_eq
  failures_eq _ := by
    rw [Attempt.unanswered_concat_of_answered ha, List.length_nil, Nat.zero_mod]
    rfl
  till_eq := by
    rw [blockers, Attempt.unanswered_concat_of_answered ha, lastGroup_nil, ite_self]
    rfl

/-- An exchange that was refused is no failure. -/
theorem Counts.refused (h : Counts remote policy past b) (ha : a.isAnswered = false)
    (hrefused : a.isFailure = false) : Counts remote policy (past ++ [a]) b := by
  have hsame : Attempt.unanswered (past ++ [a]) = Attempt.unanswered past := by
    simp [Attempt.unanswered_concat ha, hrefused]
  refine ⟨h.remote_eq, h.policy_eq, ?_, ?_⟩
  · rw [hsame]
    exact h.failures_eq
  · rw [blockers, hsame]
    exact h.till_eq

/-- A failure fills up a group or goes into the next one; it counts only if blocking is enabled. -/
theorem Counts.failed (hfits : policy.threshold < UInt32.size) (h : Counts remote policy past b)
    (ha : a.isAnswered = false) (hfailed : a.isFailure = true) :
    Counts remote policy (past ++ [a]) (b.recordFailure a.now).2 := by
  obtain ⟨rfl, rfl, hfailures, htill⟩ := h
  have hmore : Attempt.unanswered (past ++ [a]) = Attempt.unanswered past ++ [a] := by
    simp [Attempt.unanswered_concat ha, hfailed]
  cases henabled : b.policy.enabled with
  | false =>
    have hsame : (b.recordFailure a.now).2 = b := by simp [recordFailure, henabled]
    rw [hsame]
    refine ⟨rfl, rfl, fun h => absurd h (by simp [henabled]), ?_⟩
    simpa [blockers, henabled] using htill
  | true =>
    have hfailures := hfailures henabled
    have hlt : b.failures < b.policy.needed := hfailures ▸ Nat.mod_lt _ b.policy.needed_pos
    simp only [blockers, henabled, if_true] at htill
    rw [recordFailure_eq henabled hfits hlt]
    by_cases hfull : b.failures + 1 = b.policy.needed
    · rw [if_pos hfull]
      rw [hfailures] at hfull
      refine ⟨rfl, rfl, fun _ => ?_, ?_⟩
      · rw [hmore, List.length_append, List.length_singleton, ← Nat.mod_add_mod, hfull, Nat.mod_self]
      · rw [blockers, if_pos henabled, hmore, getLast?_lastGroup_concat hfull]
        rfl
    · rw [if_neg hfull]
      rw [hfailures] at hfull
      refine ⟨rfl, rfl, fun _ => ?_, ?_⟩
      · rw [hmore, List.length_append, List.length_singleton, ← Nat.mod_add_mod,
          Nat.mod_eq_of_lt (by omega), hfailures]
      · rw [blockers, if_pos henabled, hmore, lastGroup_concat b.policy.needed_pos hfull]
        exact htill

end AutoBlock

namespace HttpOrigin

variable {o : HttpOrigin}

/-- An exchange is refused while the record says so; else it brings an answer or fails. -/
theorem fetch_cases (carry : Carrier) (now : Instant) (request : OriginRequest) (o : HttpOrigin) :
    (∃ till, o.block.status now = .blocked till ∧
        o.fetch carry now request = (.error (.blocked o.block.remote till), o)) ∨
      o.block.status now = .available ∧
        ((∃ reply, o.fetch carry now request =
            (.ok reply, { o with block := o.block.recordSuccess })) ∨
          ∃ url reason, o.fetch carry now request =
            (.error (.transient url reason), { o with block := (o.block.recordFailure now).2 })) := by
  cases hstatus : o.block.status now with
  | blocked till =>
    refine .inl ⟨till, rfl, ?_⟩
    simp only [fetch, AutoBlock.check, hstatus]
  | available =>
    refine .inr ⟨rfl, ?_⟩
    cases hsent : send carry o.userAgent request with
    | ok reply => exact .inl ⟨reply, by simp only [fetch, AutoBlock.check, hstatus, hsent]⟩
    | error reason =>
      exact .inr ⟨request.url.text, reason, by simp only [fetch, AutoBlock.check, hstatus, hsent]⟩

/-- A fetch fails as blocked exactly while its own tracker blocks. -/
theorem fetch_eq_blocked_iff {carry : Carrier} {now : Instant} {request : OriginRequest}
    {remote : String} {till : Instant} :
    (o.fetch carry now request).1 = .error (.blocked remote till) ↔
      o.block.remote = remote ∧ o.block.status now = .blocked till := by
  obtain ⟨finish, hstatus, hfetch⟩ | ⟨hstatus, ⟨reply, hfetch⟩ | ⟨url, reason, hfetch⟩⟩ :=
    fetch_cases carry now request o
  · rw [hfetch, hstatus]
    simp
  · rw [hfetch, hstatus]
    simp
  · rw [hfetch, hstatus]
    simp

/-- After an exchange the record counts it too, whatever remote it was for. -/
theorem counts_fetch {remote : String} {policy : BlockPolicy} {past : List Attempt}
    (hfits : policy.threshold < UInt32.size) (h : AutoBlock.Counts remote policy past o.block)
    (carry : Carrier) (url : Url) (now : Instant) (request : OriginRequest) :
    AutoBlock.Counts remote policy (past ++ [⟨url, now, request, (o.fetch carry now request).1⟩])
      (o.fetch carry now request).2.block := by
  obtain ⟨till, -, hfetch⟩ | ⟨-, ⟨reply, hfetch⟩ | ⟨text, reason, hfetch⟩⟩ :=
    fetch_cases carry now request o
  · rw [hfetch]
    exact h.refused rfl rfl
  · rw [hfetch]
    exact h.answered rfl
  · rw [hfetch]
    exact h.failed (a := ⟨url, now, request, _⟩) hfits rfl rfl

end HttpOrigin

/-! ## Where refusals come from -/

namespace Proxy

variable {remote : String} {till : Instant}

/-- A resource that cannot be resolved is no block. -/
theorem resolve_ne_blocked (base : Url) (r : Resource) :
    Remote.resolve base r ≠ .error (.blocked remote till) := by
  intro h
  unfold Remote.resolve at h
  split at h
  · cases h
  · split at h <;> cases h

/-- A fault that an exchange passes on is the fault that it met. -/
theorem eq_error_of_outcome {copy : Option Content} {fetched : Except Fault (Option Content)}
    {fault : Fault} (h : Exchange.outcome copy fetched = .error fault) : fetched = .error fault := by
  unfold Exchange.outcome at h
  split at h
  · contradiction
  · contradiction
  · unfold Exchange.degrade at h
    split at h
    · split at h
      · contradiction
      · exact h
    · exact h

/-- No answer is judged to be a block. -/
theorem judge_ne_blocked (request : OriginRequest) (response : OriginResponse)
    (copy : Option Content) (stamp : Stamp) :
    Exchange.judge request response copy stamp ≠ .fail (.blocked remote till) := by
  intro h
  unfold Exchange.judge at h
  split at h
  · split at h <;> cases h
  · split at h
    · split at h <;> cases h
    · split at h <;> cases h

/-- A get is refused for a block exactly if its exchange is, and there is no copy to be served
instead. -/
theorem settle_eq_blocked_iff (m : MemoryStore) (s : Streams) (r : Resource) (stamp : Stamp)
    (request : OriginRequest) (copy : Option Content) (reply : Except OriginFault Reply) :
    (settle m (received s reply).2 r stamp request copy (received s reply).1).1 =
        .error (.blocked remote till) ↔
      reply = .error (.blocked remote till) ∧ copy = none := by
  cases reply with
  | error fault =>
    cases fault <;> cases copy <;>
      simp [received, settle, Exchange.degrade, Fault.ofOrigin, Fault.isDegradable]
  | ok answer =>
    refine iff_of_false (fun h => ?_) (by simp)
    simp only [received, settle] at h
    split at h
    · have hkept := eq_error_of_outcome h
      unfold keptOf at hkept
      split at hkept <;> cases hkept
    · cases h
    · cases h
    · next fault hverdict =>
      have houtcome : Exchange.outcome copy (.error fault) = .error (.blocked remote till) := h
      cases eq_error_of_outcome houtcome
      exact judge_ne_blocked _ _ _ _ hverdict

end Proxy

/-! ## The service -/

namespace Service

/-- What is done with the service. A carrier stands ready for the request of a get. -/
inductive Move where
  | get (carry : Carrier) (now : Instant) (resource : Resource)
  | update (config : Config)

/-- Puts new settings in place, if their remote can be used. -/
def update (s : Service) (config : Config) : Service :=
  { s with proxy := (s.proxy.update config).2 }

def move (s : Service) : Move → Service
  | .get carry now r => (s.get carry now r).2
  | .update config => s.update config

/-- The service after a number of moves, one after the other. -/
def moveAll (s : Service) (moves : List Move) : Service :=
  moves.foldl move s

/-- The request that a get makes of the origin: it has no fresh copy, and the resource lies below the
remote. -/
def request? (s : Service) (now : Instant) (r : Resource) : Option OriginRequest :=
  let p := { s.proxy with origin := now }
  let copy := p.store.copy? r
  if p.isStale r copy then
    match Remote.resolve p.remote r with
    | .ok url => some (OriginRequest.revalidating { url } copy)
    | .error _ => none
  else none

/-- The exchanges that a move brings about: one for a get that makes a request. -/
def attempts (s : Service) : Move → List Attempt
  | .get carry now r => (s.request? now r).toList.map fun request =>
      ⟨s.proxy.remote, now, request, (s.origin.fetch carry now request).1⟩
  | .update _ => []

/-- All exchanges in the order in which they happened. -/
def history (s : Service) : List Move → List Attempt
  | [] => []
  | m :: rest => s.attempts m ++ (s.move m).history rest

variable {s : Service}

/-- The client as a get sees it: its answers take no time on the clock of the proxy. -/
def client (carry : Carrier) (now : Instant) (request : OriginRequest) (o : HttpOrigin) :
    Except OriginFault Reply × Nat × HttpOrigin :=
  ((o.fetch carry now request).1, 0, (o.fetch carry now request).2)

/-- A get is the get of the proxy, with the tracker as part of the world. -/
theorem get_eq (s : Service) (carry : Carrier) (now : Instant) (r : Resource) :
    s.get carry now r =
      let got := Proxy.get MemoryStore.ops (client carry now) { s.proxy with origin := now } s.origin r
      (got.1, ⟨got.2.1, got.2.2⟩) := by
  have hclient : client carry now = fun request o =>
      ((o.fetch carry now request).1, 0, (o.fetch carry now request).2) := rfl
  simp only [get, hclient]

/-- A get leaves nothing under way and the remote as it is. It makes its request, if it makes one, of
the client of the origin, and is refused for a block exactly if that is and there is no copy. -/
theorem get_cases (free : s.proxy.coop.table = []) (carry : Carrier) (now : Instant) (r : Resource) :
    ∃ result q, s.get carry now r = (result, q) ∧ q.proxy.coop.table = [] ∧
      q.proxy.remote = s.proxy.remote ∧
      match s.request? now r with
      | none => q.origin = s.origin ∧ ∀ remote till, result ≠ .error (.blocked remote till)
      | some request => q.origin = (s.origin.fetch carry now request).2 ∧
          ∀ remote till, result = .error (.blocked remote till) ↔
            (s.origin.fetch carry now request).1 = .error (.blocked remote till) ∧
              s.proxy.store.copy? r = none := by
  let p := { s.proxy with origin := now }
  obtain ⟨q, hget, -, hrests, -⟩ := Proxy.get_serves (p := p) (client carry now) free s.origin r
  have hservice : s.get carry now r = ((p.outward.serve (client carry now) s.origin r).1,
      ⟨q, (p.outward.serve (client carry now) s.origin r).2.2⟩) := by
    rw [get_eq, hget]
  refine ⟨_, _, hservice, hrests.table, hrests.remote, ?_⟩
  simp only [request?]
  cases hstale : p.isStale r (p.store.copy? r) with
  | false =>
    rw [Proxy.serve_fresh hstale, if_neg Bool.false_ne_true]
    exact ⟨rfl, fun remote till => by simp⟩
  | true =>
    rw [Proxy.serve_stale (client carry now) hstale, if_pos rfl]
    cases hurl : Remote.resolve p.remote r with
    | error fault =>
      refine ⟨rfl, fun remote till h => ?_⟩
      cases Except.error.inj h
      exact Proxy.resolve_ne_blocked _ _ hurl
    | ok url =>
      exact ⟨rfl, fun remote till => Proxy.settle_eq_blocked_iff ..⟩

/-- A move that is a get leaves the state of that get. -/
theorem move_get {carry : Carrier} {now : Instant} {r : Resource}
    {result : Except Fault (Option Content)} {q : Service} (h : s.get carry now r = (result, q)) :
    s.move (.get carry now r) = q := by
  rw [move, h]

/-- An exchange of a get is refused exactly if the client refuses the request that the get makes. -/
theorem exists_attempt_iff {carry : Carrier} {now : Instant} {r : Resource} {remote : String}
    {till : Instant} :
    (∃ a ∈ s.attempts (.get carry now r), a.outcome = .error (.blocked remote till)) ↔
      ∃ request, s.request? now r = some request ∧
        (s.origin.fetch carry now request).1 = .error (.blocked remote till) := by
  simp [attempts]

/-- A get fails for a block exactly if its exchange is refused and there is no copy. -/
theorem get_eq_blocked_iff (free : s.proxy.coop.table = []) {carry : Carrier} {now : Instant}
    {r : Resource} {remote : String} {till : Instant} :
    (s.get carry now r).1 = .error (.blocked remote till) ↔
      (∃ a ∈ s.attempts (.get carry now r), a.outcome = .error (.blocked remote till)) ∧
        s.proxy.store.copy? r = none := by
  obtain ⟨result, q, hget, -, -, hcases⟩ := get_cases free carry now r
  rw [exists_attempt_iff, hget]
  cases hrequest : s.request? now r with
  | none =>
    rw [hrequest] at hcases
    simpa using hcases.2 remote till
  | some request =>
    rw [hrequest] at hcases
    simpa using hcases.2 remote till

/-- An update that succeeds puts its remote in place; any other changes nothing. -/
theorem update_cases (s : Service) (config : Config) :
    s.update config = s ∨ ∃ q, s.update config = ⟨q, s.origin⟩ ∧ q.coop = s.proxy.coop ∧
      Remote.normalize config.proxy.remoteUrl = .ok q.remote := by
  unfold update
  cases h : s.proxy.update config with
  | mk result q =>
    cases result with
    | error fault =>
      obtain ⟨-, rfl⟩ := Proxy.update_eq_error_iff.mp h
      exact .inl rfl
    | ok _ =>
      obtain ⟨hremote, -, hcoop, -⟩ := Proxy.update_eq_ok h
      exact .inr ⟨q, rfl, hcoop, hremote⟩

/-- Nothing is under way, and the client of the origin has counted all exchanges so far. -/
structure Sound (remote : String) (policy : BlockPolicy) (past : List Attempt) (s : Service) :
    Prop where
  free : s.proxy.coop.table = []
  counts : AutoBlock.Counts remote policy past s.origin.block

variable {remote : String} {policy : BlockPolicy} {past : List Attempt}

/-- Every move leaves the service in step with its history. -/
theorem Sound.move (hfits : policy.threshold < UInt32.size) (h : Sound remote policy past s)
    (m : Move) : Sound remote policy (past ++ s.attempts m) (s.move m) := by
  cases m with
  | get carry now r =>
    obtain ⟨result, q, hget, hfree, -, horigin⟩ := get_cases h.free carry now r
    rw [move_get hget, attempts]
    refine ⟨hfree, ?_⟩
    cases hrequest : s.request? now r with
    | none =>
      rw [hrequest] at horigin
      rw [horigin.1]
      simpa using h.counts
    | some request =>
      rw [hrequest] at horigin
      rw [horigin.1]
      exact HttpOrigin.counts_fetch hfits h.counts carry s.proxy.remote now request
  | update config =>
    rw [attempts, List.append_nil, Service.move]
    obtain hsame | ⟨q, hupdate, hcoop, -⟩ := s.update_cases config
    · rwa [hsame]
    · rw [hupdate]
      exact ⟨(congrArg Cooperation.table hcoop).trans h.free, h.counts⟩

/-- So does any number of moves. -/
theorem Sound.moveAll (hfits : policy.threshold < UInt32.size) (h : Sound remote policy past s)
    (moves : List Move) : Sound remote policy (past ++ s.history moves) (s.moveAll moves) := by
  induction moves generalizing s past with
  | nil => rwa [history, List.append_nil]
  | cons m rest ih =>
    rw [history, ← List.append_assoc]
    exact ih (h.move hfits m)

/-- The exchange of a get is refused until the block ends that the last full group of failures began. -/
theorem Sound.refused_attempt_iff {first : String} (h : Sound first policy past s) {carry : Carrier}
    {now : Instant} {r : Resource} {remote : String} {till : Instant} :
    (∃ a ∈ s.attempts (.get carry now r), a.outcome = .error (.blocked remote till)) ↔
      (s.request? now r).isSome = true ∧ remote = first ∧
      (∃ last, (AutoBlock.blockers policy past).getLast? = some last ∧
        (AutoBlock.new remote policy).deadline last.now = till) ∧
      now.before till = true := by
  simp only [exists_attempt_iff, HttpOrigin.fetch_eq_blocked_iff, AutoBlock.status_eq_blocked_iff,
    h.counts.remote_eq, h.counts.till_eq, Option.map_eq_some_iff, Option.isSome_iff_exists]
  constructor
  · rintro ⟨request, hrequest, rfl, hlast, hbefore⟩
    exact ⟨⟨request, hrequest⟩, rfl, hlast, hbefore⟩
  · rintro ⟨⟨request, hrequest⟩, rfl, hlast, hbefore⟩
    exact ⟨request, hrequest, rfl, hlast, hbefore⟩

/-- All updates that can be put in place have this remote. -/
def KeepRemote (url : Url) (moves : List Move) : Prop :=
  ∀ config, .update config ∈ moves →
    ∀ u, Remote.normalize config.proxy.remoteUrl = .ok u → u = url

/-- As long as the remote stays the same, all requests go to it. -/
theorem remote_of_history (free : s.proxy.coop.table = []) {moves : List Move}
    (keeps : KeepRemote s.proxy.remote moves) :
    (s.moveAll moves).proxy.remote = s.proxy.remote ∧
      ∀ a ∈ s.history moves, a.remote = s.proxy.remote := by
  induction moves generalizing s with
  | nil => exact ⟨rfl, by simp [history]⟩
  | cons m rest ih =>
    have hmoved : (s.move m).proxy.coop.table = [] ∧ (s.move m).proxy.remote = s.proxy.remote ∧
        ∀ a ∈ s.attempts m, a.remote = s.proxy.remote := by
      cases m with
      | get carry now r =>
        obtain ⟨result, q, hget, hfree, hremote, -⟩ := get_cases free carry now r
        rw [move_get hget]
        exact ⟨hfree, hremote, by simp [attempts]⟩
      | update config =>
        rw [Service.move]
        obtain hsame | ⟨q, hupdate, hcoop, hnormal⟩ := s.update_cases config
        · rw [hsame]
          exact ⟨free, rfl, by simp [attempts]⟩
        · rw [hupdate]
          exact ⟨(congrArg Cooperation.table hcoop).trans free,
            keeps config List.mem_cons_self _ hnormal, by simp [attempts]⟩
    obtain ⟨hfree, hremote, hattempts⟩ := hmoved
    have hkeeps : KeepRemote (s.move m).proxy.remote rest := fun config hmem u hu =>
      (keeps config (List.mem_cons_of_mem _ hmem) u hu).trans hremote.symm
    obtain ⟨hlast, hrest⟩ := ih hfree hkeeps
    refine ⟨hlast.trans hremote, fun a ha => ?_⟩
    obtain hnow | hlater := List.mem_append.mp ha
    · exact hattempts a hnow
    · exact (hrest a hlater).trans hremote

/-- A new service has an empty table and a tracker for its own remote. -/
theorem new_eq_ok {config : Config} {start : Instant} (h : Service.new config start = .ok s) :
    s.proxy.coop.table = [] ∧
      s.origin.block = .new config.proxy.remoteUrl config.autoBlock.policy := by
  unfold Service.new at h
  simp only [bind, Except.bind, HttpOrigin.new] at h
  split at h
  · contradiction
  · next origin horigin =>
    split at horigin
    · cases horigin
      split at h
      · next proxy hproxy =>
        cases h
        exact ⟨congrArg Cooperation.table (Proxy.new_coop hproxy), rfl⟩
      · contradiction
    · contradiction

/-- **Blocks and remotes.** A service that was made with any settings has got any resources and been
given any other settings since, in any order. Take the failures that started the last block: as many as
the settings say, all tried, with no answer in between or after.

* The exchange of a get is refused exactly if the get makes a request and the time for which the last of
  these failures blocks has not passed. The refusal names the remote of the first settings.
* The get itself fails for that reason if there is no copy, and only then.
* If the remote was never changed, all these failures were failures of requests to it. -/
theorem refused_iff {config : Config} {start : Instant} {s₀ : Service}
    (hnew : Service.new config start = .ok s₀) (moves : List Move) (carry : Carrier) (now : Instant)
    (r : Resource) (remote : String) (till : Instant) :
    let s := s₀.moveAll moves
    let blockers := AutoBlock.blockers config.autoBlock.policy (s₀.history moves)
    ((∃ a ∈ s.attempts (.get carry now r), a.outcome = .error (.blocked remote till)) ↔
      (s.request? now r).isSome = true ∧ remote = config.proxy.remoteUrl ∧
      (∃ last, blockers.getLast? = some last ∧
        (AutoBlock.new remote config.autoBlock.policy).deadline last.now = till) ∧
      now.before till = true) ∧
    ((s.get carry now r).1 = .error (.blocked remote till) ↔
      (∃ a ∈ s.attempts (.get carry now r), a.outcome = .error (.blocked remote till)) ∧
        s.proxy.store.copy? r = none) ∧
    (KeepRemote s₀.proxy.remote moves → ∀ a ∈ blockers, a.remote = s.proxy.remote) := by
  intro s blockers
  obtain ⟨hfree, hblock⟩ := new_eq_ok hnew
  have hfits : config.autoBlock.policy.threshold < UInt32.size :=
    config.autoBlock.failureThreshold.toNat_lt
  have hstart : Sound config.proxy.remoteUrl config.autoBlock.policy [] s₀ :=
    ⟨hfree, hblock ▸ AutoBlock.counts_new⟩
  have hsound : Sound config.proxy.remoteUrl config.autoBlock.policy (s₀.history moves) s :=
    hstart.moveAll hfits moves
  refine ⟨hsound.refused_attempt_iff, get_eq_blocked_iff hsound.free, fun keeps a ha => ?_⟩
  obtain ⟨hremote, hall⟩ := remote_of_history hfree keeps
  exact (hall a (AutoBlock.mem_of_mem_blockers ha)).trans hremote.symm

/-! ## A block of the remote itself and one of another remote -/

/-- Settings under which one failure blocks for a minute, and the service with them. -/
def strictConfig : Config := { Proxy.oldConfig with autoBlock := ⟨true, 1, 60⟩ }

def strictStart : Service where
  proxy := { Proxy.oldStart with store := .empty 536870912 }
  origin := ⟨strictConfig.http.userAgent, .new "https://old.test/repo/" ⟨true, 1, 60⟩⟩

theorem new_strictConfig : Service.new strictConfig (.ofMillis 0) = .ok strictStart := by
  have hblock : AutoBlock.new strictConfig.proxy.remoteUrl strictConfig.autoBlock.policy =
      .new "https://old.test/repo/" ⟨true, 1, 60⟩ := rfl
  have horigin : HttpOrigin.new strictConfig.http (.new "https://old.test/repo/" ⟨true, 1, 60⟩) =
      .ok strictStart.origin := rfl
  have hcapacity : strictConfig.storage.maxBlobBytes.toNat = 536870912 := rfl
  have hproxy : Proxy.new strictConfig (.empty 536870912) (.ofMillis 0) = .ok strictStart.proxy := by
    unfold Proxy.new
    rw [show strictConfig.proxy.remoteUrl = "https://old.test/repo/" from rfl,
      Proxy.normalize_oldRemote]
    rfl
  simp only [Service.new, hblock, horigin, hcapacity, hproxy, bind, Except.bind]

/-- A carrier that brings no answer, and one that brings an empty jar. -/
def broken : Carrier := fun _ => none

def working : Carrier := fun _ => some ⟨200, [], [], some 0⟩

/-- After a failure the settings are put in place again. -/
def renewed : List Move := [.get broken (.ofMillis 0) Proxy.jar, .update strictConfig]

/-- The remote is blocked for the minute after its own failure. -/
theorem blocked_after_failure :
    Service.new strictConfig (.ofMillis 0) = .ok strictStart ∧
    KeepRemote strictStart.proxy.remote renewed ∧
    ((strictStart.moveAll renewed).get working (.ofMillis 59999) Proxy.jar).1 =
      .error (.blocked "https://old.test/repo/" (.ofMillis 60000)) ∧
    ∀ a ∈ AutoBlock.blockers strictConfig.autoBlock.policy (strictStart.history renewed),
      a.remote = (strictStart.moveAll renewed).proxy.remote := by
  obtain ⟨hexchange, hget, hown⟩ := refused_iff new_strictConfig renewed working (.ofMillis 59999)
    Proxy.jar "https://old.test/repo/" (.ofMillis 60000)
  have hkeeps : KeepRemote strictStart.proxy.remote renewed := by
    intro config hmem u hu
    obtain rfl : config = strictConfig := by simpa [renewed] using hmem
    rw [show strictConfig.proxy.remoteUrl = "https://old.test/repo/" from rfl,
      Proxy.normalize_oldRemote] at hu
    exact (Except.ok.inj hu).symm
  have hlast : (AutoBlock.blockers strictConfig.autoBlock.policy
      (strictStart.history renewed)).getLast?.map Attempt.now = some (.ofMillis 0) := by
    decide +kernel
  obtain ⟨last, hlast, hnow⟩ := Option.map_eq_some_iff.mp hlast
  have hdeadline : (AutoBlock.new "https://old.test/repo/" strictConfig.autoBlock.policy).deadline
      last.now = .ofMillis 60000 := by
    rw [hnow]
    decide
  have hrequest : ((strictStart.moveAll renewed).request? (.ofMillis 59999) Proxy.jar).isSome =
      true := by
    decide +kernel
  have hmissing : (strictStart.moveAll renewed).proxy.store.copy? Proxy.jar = none := by
    decide +kernel
  exact ⟨new_strictConfig, hkeeps,
    hget.mpr ⟨hexchange.mpr ⟨hrequest, rfl, ⟨last, hlast, hdeadline⟩, by decide⟩, hmissing⟩,
    hown hkeeps⟩

def movedConfig : Config :=
  { strictConfig with proxy := { remoteUrl := "https://new.test/repo/" } }

/-- After a failure another remote is put in place. -/
def moved : List Move := [.get broken (.ofMillis 0) Proxy.jar, .update movedConfig]

/-- The first request to the new remote is refused for the failure of the old one. -/
theorem blocked_after_move :
    Service.new strictConfig (.ofMillis 0) = .ok strictStart ∧
    (strictStart.moveAll moved).proxy.remote = Proxy.newRemote ∧
    ((strictStart.moveAll moved).get working (.ofMillis 0) Proxy.jar).1 =
      .error (.blocked "https://old.test/repo/" (.ofMillis 60000)) ∧
    (AutoBlock.blockers strictConfig.autoBlock.policy (strictStart.history moved)).map
      Attempt.remote = [Proxy.oldRemote] ∧
    Proxy.oldRemote ≠ Proxy.newRemote :=
  ⟨new_strictConfig, by decide +kernel, by decide +kernel, by decide +kernel, by decide⟩

end Service

end PullCache
