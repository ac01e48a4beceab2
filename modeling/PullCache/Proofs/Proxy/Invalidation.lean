import PullCache.Proofs.Proxy.Provenance
/-!
# Proofs.Proxy.Invalidation

What an invalidation reaches. It gives both controllers new tokens, so a copy that is judged fresh
after it has a stamp that was issued after it (`handled_of_fresh`). But the stamp is issued when the
answer of the origin is read, not when the request is sent: an exchange that is in flight while the
copies are made stale stamps what it brings with the new token. With an update the request of such an
exchange went to the remote before, and what it brought counts as fresh under the new one
(`fresh_after_invalidation`, `fresh_from_old_remote`).
-/

namespace PullCache

/-! ## Tokens -/

namespace Controllers

/-- All tokens in use have been given out. -/
def Issued (cs : Controllers) : Prop :=
  ∀ category, ∃ n, (cs.of category).token = .issued n ∧ n < cs.nextToken

/-- The token of a category was given out when `floor` was the next one, or later. -/
def IssuedSince (cs : Controllers) (floor : Nat) (category : Category) : Prop :=
  ∃ n, (cs.of category).token = .issued n ∧ floor ≤ n

/-- The tokens of new controllers are given out. -/
theorem issued_new (contentMaxAge metadataMaxAge : Int) :
    (Controllers.new contentMaxAge metadataMaxAge).Issued := by
  intro category
  cases category with
  | content => exact ⟨0, rfl, Nat.zero_lt_two⟩
  | metadata => exact ⟨1, rfl, Nat.one_lt_two⟩

variable {cs : Controllers} {floor : Nat} {category : Category}

/-- No change gives a token back. -/
theorem nextToken_le_applyChange (step : ChangeStep) :
    cs.nextToken ≤ (Proxy.applyChange cs step).nextToken := by
  cases step with
  | setMaxAge category seconds => cases category <;> exact Nat.le_refl _
  | rotate category => cases category <;> exact Nat.le_succ _

/-- A category keeps its token in a step of a change, or gets the next one. -/
theorem token_applyChange (cs : Controllers) (step : ChangeStep) (category : Category) :
    ((Proxy.applyChange cs step).of category).token = (cs.of category).token ∧
        step ≠ .rotate category ∨
      ((Proxy.applyChange cs step).of category).token = .issued cs.nextToken ∧
        (Proxy.applyChange cs step).nextToken = cs.nextToken + 1 := by
  cases step with
  | setMaxAge c seconds => cases c <;> cases category <;> exact .inl ⟨rfl, by simp⟩
  | rotate c =>
    cases c <;> cases category
    · exact .inr ⟨rfl, rfl⟩
    · exact .inl ⟨rfl, by simp⟩
    · exact .inl ⟨rfl, by simp⟩
    · exact .inr ⟨rfl, rfl⟩

/-- Every change leaves tokens in use that were given out. -/
theorem Issued.applyChange (h : cs.Issued) (step : ChangeStep) :
    (Proxy.applyChange cs step).Issued := by
  intro category
  obtain ⟨htoken, -⟩ | ⟨htoken, hnext⟩ := token_applyChange cs step category
  · obtain ⟨n, hn, hlt⟩ := h category
    exact ⟨n, htoken.trans hn, Nat.lt_of_lt_of_le hlt (nextToken_le_applyChange step)⟩
  · exact ⟨cs.nextToken, htoken, by omega⟩

/-- A token that is new enough stays so. -/
theorem IssuedSince.applyChange (h : cs.IssuedSince floor category) (hfloor : floor ≤ cs.nextToken)
    (step : ChangeStep) : (Proxy.applyChange cs step).IssuedSince floor category := by
  obtain ⟨htoken, -⟩ | ⟨htoken, -⟩ := token_applyChange cs step category
  · obtain ⟨n, hn, hle⟩ := h
    exact ⟨n, htoken.trans hn, hle⟩
  · exact ⟨cs.nextToken, htoken, hfloor⟩

/-- A rotated token is as new as can be. -/
theorem issuedSince_rotate (hfloor : floor ≤ cs.nextToken) :
    (Proxy.applyChange cs (.rotate category)).IssuedSince floor category := by
  obtain ⟨-, hne⟩ | ⟨htoken, -⟩ := token_applyChange cs (.rotate category) category
  · contradiction
  · exact ⟨cs.nextToken, htoken, hfloor⟩

end Controllers

namespace Controller

/-- A stamp with a token is fresh only under the controller that has the token now. -/
theorem token_of_fresh {c : Controller} {stamp : Stamp} {now : Instant} {token : Token}
    (htoken : stamp.token = some token) (h : c.isStale (some stamp) now = false) :
    token = c.token := by
  unfold isStale at h
  split at h
  · contradiction
  · next found hfound =>
    cases hfound
    split at h
    · contradiction
    · next hsame => simpa [htoken] using hsame

end Controller

namespace Proxy

variable {σ : Type} {ops : StoreOps σ} {p q : Proxy σ} {events : List ProxyEvent} {i : Nat}

/-! ## Settings along a run -/

/-- The controllers change only by the steps of changes of settings. -/
theorem controllers_of_step {e : ProxyEvent} (h : p.step ops e = some q) :
    q.controllers = p.controllers ∨ ∃ first, q.controllers = applyChange p.controllers first := by
  cases (step_effect h).settings with
  | same remote controllers changes => exact .inl controllers
  | update remote passive active contentMaxAge metadataMaxAge state => exact .inl (by rw [state]; rfl)
  | invalidate state => exact .inl (by rw [state])
  | change n first rest found state => exact .inr ⟨first, by rw [state]⟩

/-- What every step of a change keeps of the controllers, a run keeps. -/
theorem controllers_invariant {I : Controllers → Prop}
    (keeps : ∀ {cs : Controllers} (first : ChangeStep), I cs → I (applyChange cs first))
    (hp : I p.controllers) (h : p.run ops events = some q) : I q.controllers := by
  refine run_invariant (I := fun _ q => I q.controllers) hp (fun _ hq hstep => ?_) h
  obtain hsame | ⟨first, hchange⟩ := controllers_of_step hstep
  · exact hsame ▸ hq
  · exact hchange ▸ keeps first hq

/-- No run gives a token back. -/
theorem nextToken_le_of_run (h : p.run ops events = some q) :
    p.controllers.nextToken ≤ q.controllers.nextToken :=
  controllers_invariant (I := fun cs => p.controllers.nextToken ≤ cs.nextToken)
    (fun first hle => Nat.le_trans hle (Controllers.nextToken_le_applyChange first))
    (Nat.le_refl _) h

/-- In every state of a run the tokens in use are ones that were given out. -/
theorem issued_of_run (hissued : p.controllers.Issued) (h : p.run ops events = some q) :
    q.controllers.Issued :=
  controllers_invariant (fun first hissued => hissued.applyChange first) hissued h

/-- An update puts another remote in place. -/
def isUpdate : ProxyEvent → Bool
  | .update .. => true
  | _ => false

/-- Only an update changes the remote. -/
theorem remote_of_step {e : ProxyEvent} (he : isUpdate e = false) (h : p.step ops e = some q) :
    q.remote = p.remote := by
  cases (step_effect h).settings with
  | same remote controllers changes => exact remote
  | update remote passive active contentMaxAge metadataMaxAge state => contradiction
  | invalidate state => rw [state]
  | change n first rest found state => rw [state]

/-- Without an update the remote stays. -/
theorem remote_of_run (he : ∀ e ∈ events, isUpdate e = false) (h : p.run ops events = some q) :
    q.remote = p.remote := by
  induction events generalizing p with
  | nil =>
    cases h
    rfl
  | cons e rest ih =>
    rw [run_cons, Option.bind_eq_some_iff] at h
    obtain ⟨next, hstep, hrest⟩ := h
    rw [ih (fun e' he' => he e' (List.mem_cons_of_mem e he')) hrest]
    exact remote_of_step (he e List.mem_cons_self) hstep

/-! ## Places in a run -/

theorem take_eq_append {j k : Nat} (hjk : j ≤ k) (events : List ProxyEvent) :
    events.take k = events.take j ++ (events.take k).drop j := by
  have h := List.take_append_drop j (events.take k)
  rw [List.take_take, Nat.min_eq_left hjk] at h
  exact h.symm

/-- The part of a run between two of its places. -/
theorem run_between {start : Proxy σ} {j k : Nat} (hjk : j ≤ k)
    (hj : start.run ops (events.take j) = some p) (hk : start.run ops (events.take k) = some q) :
    p.run ops ((events.take k).drop j) = some q := by
  rw [take_eq_append hjk, run_append, hj] at hk
  exact hk

/-- A run passes through all its earlier states. -/
theorem run_prefix {start : Proxy σ} {j k : Nat} (hjk : j ≤ k)
    (hk : start.run ops (events.take k) = some q) :
    ∃ p, start.run ops (events.take j) = some p := by
  rw [take_eq_append hjk, run_append, Option.bind_eq_some_iff] at hk
  obtain ⟨p, hp, -⟩ := hk
  exact ⟨p, hp⟩

/-- Between a place and the next one lies one event. -/
theorem drop_take_succ {e : ProxyEvent} {k : Nat} (h : events[k]? = some e) :
    (events.take (k + 1)).drop k = [e] := by
  have hlt := (List.getElem?_eq_some_iff.mp h).1
  rw [List.take_add_one, h]
  simp [Nat.le_of_lt hlt]

/-- The event at a place leads from the state there to the next one. -/
theorem step_of_run {start : Proxy σ} {e : ProxyEvent} {k : Nat} (h : events[k]? = some e)
    (hp : start.run ops (events.take k) = some p)
    (hq : start.run ops (events.take (k + 1)) = some q) : p.step ops e = some q := by
  have hlast := run_between (Nat.le_succ k) hp hq
  rw [drop_take_succ h, run_cons, Option.bind_eq_some_iff] at hlast
  obtain ⟨next, hnext, hend⟩ := hlast
  cases hend
  exact hnext

/-! ## Invalidations -/

/-- The events that make all copies stale: an invalidation, and an update to another remote. -/
def Invalidates (p : Proxy σ) : ProxyEvent → Prop
  | .invalidate => True
  | .update remote .. => p.remote.text ≠ remote.text
  | _ => False

/-- A change of settings that makes all copies stale is under way: each category still waits for its
new token or has one. -/
structure Rotating (floor n : Nat) (q : Proxy σ) : Prop where
  floor_le : floor ≤ q.controllers.nextToken
  change : ∃ rest, q.changes[n]? = some rest ∧
    ∀ category, .rotate category ∈ rest ∨ q.controllers.IssuedSince floor category

/-- An event that invalidates leaves tokens still to be rotated, or new ones. -/
theorem rotating_of_invalidates {e : ProxyEvent} (he : Invalidates p e)
    (h : p.step ops e = some q) : Rotating p.controllers.nextToken p.changes.length q := by
  cases e with
  | invalidate =>
    cases h
    refine ⟨Nat.le_refl _, invalidationSteps, List.getElem?_concat_length, fun category => .inl ?_⟩
    cases category <;> decide
  | update remote passive active contentMaxAge metadataMaxAge =>
    cases h
    have hother : p.remote.text ≠ remote.text := he
    refine ⟨Nat.le_refl _, _, List.getElem?_concat_length, fun category => .inl ?_⟩
    rw [if_neg hother]
    cases category <;> simp [invalidationSteps]
  | _ => exact absurd he id

/-- Every step goes on with the rotation, or leaves it. -/
theorem Rotating.step {floor n : Nat} {q q' : Proxy σ} {e : ProxyEvent} (h : Rotating floor n q)
    (hstep : q.step ops e = some q') : Rotating floor n q' := by
  obtain ⟨hfloor, rest, hrest, hcategories⟩ := h
  cases (step_effect hstep).settings with
  | same remote controllers changes =>
    exact ⟨controllers ▸ hfloor, rest, changes ▸ hrest, controllers ▸ hcategories⟩
  | update remote passive active contentMaxAge metadataMaxAge state =>
    have hlt := (List.getElem?_eq_some_iff.mp hrest).1
    rw [state]
    exact ⟨hfloor, rest, (List.getElem?_append_left hlt).trans hrest, hcategories⟩
  | invalidate state =>
    have hlt := (List.getElem?_eq_some_iff.mp hrest).1
    rw [state]
    exact ⟨hfloor, rest, (List.getElem?_append_left hlt).trans hrest, hcategories⟩
  | change m first later found state =>
    rw [state]
    refine ⟨Nat.le_trans hfloor (Controllers.nextToken_le_applyChange first), ?_⟩
    by_cases hm : m = n
    · subst hm
      have hlt := (List.getElem?_eq_some_iff.mp hrest).1
      obtain rfl : first :: later = rest := Option.some.inj (found.symm.trans hrest)
      refine ⟨later, List.getElem?_set_self hlt, fun category => ?_⟩
      obtain hmem | hsince := hcategories category
      · obtain rfl | hmem := List.mem_cons.mp hmem
        · exact .inr (Controllers.issuedSince_rotate hfloor)
        · exact .inl hmem
      · exact .inr (hsince.applyChange hfloor first)
    · refine ⟨rest, (List.getElem?_set_ne hm).trans hrest, fun category => ?_⟩
      exact (hcategories category).imp_right fun hsince => hsince.applyChange hfloor first

/-- And so does any run. -/
theorem Rotating.run {floor n : Nat} (h : Rotating floor n p) (hrun : p.run ops events = some q) :
    Rotating floor n q :=
  run_invariant (I := fun _ q => Rotating floor n q) h (fun _ hq hstep => hq.step hstep) hrun

/-- Once the change is complete, every category has a new token, and keeps a new one. -/
theorem issuedSince_of_invalidates {start : Proxy σ} {e : ProxyEvent} {r : Proxy σ} {n m : Nat}
    (hevent : events[n]? = some e) (hp : start.run ops (events.take n) = some p)
    (he : Invalidates p e) (hnm : n < m) (hm : m ≤ events.length)
    (hq : start.run ops (events.take m) = some q) (hdone : q.changes[p.changes.length]? = some [])
    (hr : start.run ops events = some r) (category : Category) :
    r.controllers.IssuedSince p.controllers.nextToken category := by
  obtain ⟨b, hb⟩ := run_prefix hnm hq
  have hrotating := rotating_of_invalidates he (step_of_run hevent hp hb)
  obtain ⟨hfloor, rest, hchange, hcategories⟩ := hrotating.run (run_between hnm hb hq)
  obtain rfl : [] = rest := Option.some.inj (hdone.symm.trans hchange)
  have hsince := (hcategories category).resolve_left (by simp)
  rw [← List.take_length (l := events)] at hr
  have hinv := controllers_invariant
    (I := fun cs => p.controllers.nextToken ≤ cs.nextToken ∧
      cs.IssuedSince p.controllers.nextToken category)
    (fun first h => ⟨Nat.le_trans h.1 (Controllers.nextToken_le_applyChange first),
      h.2.applyChange h.1 first⟩) ⟨hfloor, hsince⟩ (run_between hm hq hr)
  exact hinv.2

/-! ## Exchanges in flight -/

/-- A fetch whose request is sent and whose answer is not read yet. -/
def InFlight (p : Proxy σ) (i : Nat) : Prop :=
  ∃ fetch, p.fetches[i]? = some fetch ∧ (fetch.phase.rank = 3 ∨ fetch.phase.rank = 4)

/-- After its request was sent, a fetch waits. -/
theorem rank_of_ask {fetch : Fetch} {url : Url} (h : p.step ops (.ask i) = some q)
    (hfetch : p.fetches[i]? = some fetch)
    (hresolve : Remote.resolve p.remote fetch.resource = .ok url) :
    ∃ next, q.fetches[i]? = some next ∧ next.phase.rank = 3 := by
  obtain ⟨found, copy, hfound, -, ⟨fault, hfault, -⟩ | ⟨url', -, rfl⟩⟩ := ask_cases h
  · obtain rfl : found = fetch :=
      Option.some.inj ((fetch?_eq_some.mp hfound).1.symm.trans hfetch)
    rw [hfault] at hresolve
    contradiction
  · refine ⟨{ found with phase := .waiting copy (OriginRequest.revalidating ⟨url', none, none⟩ copy) },
      ?_, rfl⟩
    rw [setFetch_fetches, List.getElem?_modify_eq, (fetch?_eq_some.mp hfound).1]
    rfl

/-- A fetch only moves forward. -/
theorem fetch_of_run {fetch : Fetch} (h : p.run ops events = some q)
    (hi : p.fetches[i]? = some fetch) :
    ∃ fetch', q.fetches[i]? = some fetch' ∧ fetch.phase.rank ≤ fetch'.phase.rank := by
  refine run_invariant (I := fun _ q => ∃ fetch', q.fetches[i]? = some fetch' ∧
    fetch.phase.rank ≤ fetch'.phase.rank) ⟨fetch, hi, Nat.le_refl _⟩ ?_ h
  rintro _ q q' e _ ⟨before, hbefore, hle⟩ hstep
  obtain ⟨next, hnext, -, -, -, hle'⟩ := fetch_of_step hstep hbefore
  exact ⟨next, hnext, Nat.le_trans hle hle'⟩

/-- An exchange is in flight at the places of a run between its request and its answer, and at no
others before the answer. -/
theorem Contact.Happened.inFlight_iff {start : Proxy σ} {x : Contact} {k : Nat}
    (hx : x.Happened ops start events) (hk : start.run ops (events.take k) = some q)
    (hle : k ≤ x.handled) : InFlight q x.fetch ↔ x.asked < k := by
  obtain ⟨a, fetch, ha, hfetch, hresource, hask, hresolve⟩ := hx.sent.before
  constructor
  · rintro ⟨flying, hflying, hrank⟩
    by_contra hlt
    obtain ⟨later, hlater, hle'⟩ := fetch_of_run (run_between (Nat.le_of_not_lt hlt) hk ha) hflying
    obtain rfl : later = fetch := Option.some.inj (hlater.symm.trans hfetch)
    rw [hask] at hle'
    change flying.phase.rank ≤ 2 at hle'
    omega
  · intro hlt
    obtain ⟨b, hb⟩ := run_prefix hlt hk
    obtain ⟨next, hnext, hwaiting⟩ :=
      rank_of_ask (step_of_run hx.sent.event ha hb) hfetch (hresource ▸ hresolve)
    obtain ⟨flying, hflying, hge⟩ := fetch_of_run (run_between hlt hb hk) hnext
    obtain ⟨c, last, hc, hlast, -, hanswered, -⟩ := hx.read
    obtain ⟨last', hlast', hle'⟩ := fetch_of_run (run_between hle hk hc) hflying
    obtain rfl : last' = last := Option.some.inj (hlast'.symm.trans hlast)
    rw [hanswered] at hle'
    change flying.phase.rank ≤ 4 at hle'
    exact ⟨flying, hflying, by omega⟩

/-! ## Fresh after an invalidation -/

variable {start p q r : Proxy MemoryStore} {events : List ProxyEvent} {e : ProxyEvent}
  {n : Nat} {resource : Resource} {c : Content}

/-- A stored copy is judged fresh and served without a request: by a get, or by the work of a call
that took over and looked into the store again. -/
inductive ServesFresh (r : Proxy σ) (resource : Resource) (c : Content) : Prop where
  | get (g : Nat) (r' : Proxy σ) (judged : r.judge g = some r')
      (served : r'.gets[g]? = some ⟨resource, .returned (.ok (some c))⟩)
  | fetch (i : Nat) (r' : Proxy σ) (place : WorkPlace) (sharing : Bool)
      (judged : r.rejudge i = some r')
      (served : r'.fetches[i]? = some ⟨place, resource, sharing, .ended (some (.ok (some c)))⟩)

/-- A copy is served as fresh if it was looked up before and is fresh at that moment. -/
theorem ServesFresh.cases {r : Proxy σ} (h : ServesFresh r resource c) :
    r.isStale resource (some c) = false ∧
      ((∃ g : Nat, r.gets[g]? = some ⟨resource, .judge (some c)⟩) ∨
        ∃ (i : Nat) (place : WorkPlace) (sharing : Bool),
          r.fetches[i]? = some ⟨place, resource, sharing, .rejudge (some c)⟩) := by
  cases h with
  | get g r' judged served =>
    obtain ⟨⟨resource', phase⟩, cached, hget, hphase, ⟨-, rfl⟩ | ⟨hfresh, rfl⟩⟩ := judge_cases judged
    · rw [setGet_gets, List.getElem?_modify_eq, hget] at served
      simp at served
    · rw [setGet_gets, List.getElem?_modify_eq, hget] at served
      obtain ⟨rfl, rfl⟩ : resource' = resource ∧ cached = some c := by simpa using served
      cases hphase
      exact ⟨hfresh, .inl ⟨g, hget⟩⟩
  | fetch i r' place sharing judged served =>
    obtain ⟨⟨place', resource', sharing', phase⟩, copy, hfetch, hphase, ⟨-, rfl⟩ | ⟨hfresh, rfl⟩⟩ :=
      rejudge_cases judged
    · rw [setFetch_fetches, List.getElem?_modify_eq, (fetch?_eq_some.mp hfetch).1] at served
      simp at served
    · rw [setFetch_fetches, List.getElem?_modify_eq, (fetch?_eq_some.mp hfetch).1] at served
      obtain ⟨-, rfl, -, rfl⟩ :
          place' = place ∧ resource' = resource ∧ sharing' = sharing ∧ copy = some c := by
        simpa using served
      cases hphase
      exact ⟨hfresh, .inr ⟨i, place', sharing', (fetch?_eq_some.mp hfetch).1⟩⟩

/-- The exchange was answered 304, and the content is the copy that it was about. -/
def Contact.Confirmed (x : Contact) (c : Content) : Prop :=
  x.response.isNotModified = true ∧ x.copy.map (·.withStamp x.stamp) = some c

/-- A copy that is served as fresh has the stamp of an exchange before that. -/
theorem ServesFresh.stamped (h : ServesFresh r resource c) (hrecorded : Recorded start events r) :
    Stamped MemoryStore.ops start events resource.key c := by
  obtain ⟨-, ⟨g, hget⟩ | ⟨i, place, sharing, hfetch⟩⟩ := h.cases
  · exact hrecorded.gets g _ c hget rfl
  · exact hrecorded.fetches i _ hfetch

/-- A stamp that is fresh once an invalidation is complete was issued after it had begun. -/
theorem handled_of_fresh {x : Contact} {category : Category} {now : Instant}
    (hissued : start.controllers.Issued)
    (hp : start.run MemoryStore.ops (events.take n) = some p) (hx : x.Happened MemoryStore.ops start events)
    (hsince : r.controllers.IssuedSince p.controllers.nextToken category)
    (hfresh : (r.controllers.of category).isStale (some x.stamp) now = false) : n ≤ x.handled := by
  by_contra hlt
  obtain ⟨h, fetch, hh, -, -, -, hstamp⟩ := hx.read
  obtain ⟨i, hi, hnext⟩ := issued_of_run hissued hh x.resource.category
  have htoken : x.stamp.token = some (.issued i) := by
    rw [hstamp, ← hi]
    rfl
  obtain ⟨j, hj, hle⟩ := hsince
  have hsame : Token.issued i = .issued j := (Controller.token_of_fresh htoken hfresh).trans hj
  obtain rfl : i = j := Token.issued.inj hsame
  have hbound := nextToken_le_of_run (run_between (Nat.le_of_not_le hlt) hh hp)
  omega

/-- A new proxy has its store, nothing under way, and tokens that were given out. -/
theorem new_eq_ok {store : σ} {config : Config} {now : Instant} {p : Proxy σ}
    (h : Proxy.new config store now = .ok p) :
    p.store = store ∧ p.gets = [] ∧ p.fetches = [] ∧ p.controllers.Issued := by
  unfold Proxy.new at h
  split at h
  · contradiction
  · cases h
    exact ⟨rfl, rfl, rfl, Controllers.issued_new _ _⟩

/-- A new proxy has no calls yet. -/
theorem new_coop {store : σ} {config : Config} {now : Instant} {p : Proxy σ}
    (h : Proxy.new config store now = .ok p) : p.coop = {} := by
  unfold Proxy.new at h
  split at h
  · contradiction
  · cases h
    rfl

/-- Without another update in between, a request goes to the remote that an update put in place. -/
theorem remote_of_asked {start p a : Proxy σ} {k : Nat} {remote : Url} {passive active : Duration}
    {contentMaxAge metadataMaxAge : Int}
    (hn : events[n]? = some (.update remote passive active contentMaxAge metadataMaxAge))
    (hp : start.run ops (events.take n) = some p) (hlt : n < k)
    (ha : start.run ops (events.take k) = some a)
    (hquiet : ∀ j e, n < j → j < k → events[j]? = some e → isUpdate e = false) :
    a.remote = remote := by
  obtain ⟨b, hb⟩ := run_prefix hlt ha
  cases step_of_run hn hp hb
  refine remote_of_run (fun e he => ?_) (run_between hlt hb ha)
  obtain ⟨j, hj⟩ := List.mem_iff_getElem?.mp he
  rw [List.getElem?_drop] at hj
  have hjk := (List.getElem?_eq_some_iff.mp hj).1
  rw [List.length_take] at hjk
  rw [List.getElem?_take_of_lt (by omega)] at hj
  exact hquiet (n + 1 + j) e (by omega) (by omega) hj

/-- **Fresh after an invalidation.** Let a run contain an invalidation or an update to another
remote, and let a stored copy be served as fresh at its end. The copy has the stamp of an exchange for
its key.

* If the invalidation is complete by then, the exchange ended after the invalidation had begun.
* The exchange fetched the copy or confirmed it, with a request that was sent after the invalidation
  had begun, exactly if it ended after that moment, was not in flight at that moment and, in case it
  was answered 304, the answer was about this copy.
* A request that was sent after an update, and before any further one, went to the new remote. -/
theorem fresh_after_invalidation {config : Config} {capacity : Nat} {now : Instant}
    (hnew : Proxy.new config (MemoryStore.empty capacity) now = .ok start)
    (hrun : start.run MemoryStore.ops events = some r)
    (hserved : ServesFresh r resource c) (hevent : events[n]? = some e)
    (hp : start.run MemoryStore.ops (events.take n) = some p) (he : Invalidates p e) :
    ∃ x : Contact, x.Happened MemoryStore.ops start events ∧ x.resource.key = resource.key ∧
      c.attributes.stamp = some x.stamp ∧
      (∀ m q, n < m → m ≤ events.length → start.run MemoryStore.ops (events.take m) = some q →
        q.changes[p.changes.length]? = some [] → n < x.handled) ∧
      ((x.Brought MemoryStore.ops start events c ∨ x.Confirmed c) ∧ n < x.asked ↔
        n < x.handled ∧ ¬p.InFlight x.fetch ∧
          (x.response.isNotModified = true → x.Confirmed c)) ∧
      (∀ remote passive active contentMaxAge metadataMaxAge,
        e = .update remote passive active contentMaxAge metadataMaxAge → n < x.asked →
        (∀ k e', n < k → k < x.asked → events[k]? = some e' → isUpdate e' = false) →
        Remote.resolve remote x.resource = .ok x.request.url) := by
  obtain ⟨hstore, hgets, hfetches, hissued⟩ := new_eq_ok hnew
  obtain ⟨x, hx, hkey, hstamp, hsource⟩ :=
    hserved.stamped (recorded_of_run hstore hgets hfetches hrun)
  have hfresh : (r.controllers.of resource.category).isStale (some x.stamp) r.wall = false := by
    rw [← hstamp]
    exact hserved.cases.1
  -- The invalidation is a step of its own: neither the question nor the judgement of the stamp.
  have hne_handled : n ≠ x.handled := by
    rintro rfl
    obtain rfl : e = .handle x.fetch := Option.some.inj (hevent.symm.trans hx.event)
    exact he
  have hne_asked : n ≠ x.asked := by
    rintro rfl
    obtain rfl : e = .ask x.fetch := Option.some.inj (hevent.symm.trans hx.sent.event)
    exact he
  refine ⟨x, hx, hkey, hstamp, ?_, ?_, ?_⟩
  · intro m q hnm hm hq hdone
    have hsince := issuedSince_of_invalidates hevent hp he hnm hm hq hdone hrun resource.category
    exact Nat.lt_of_le_of_ne (handled_of_fresh hissued hp hx hsince hfresh) hne_handled
  · have horder := hx.order
    constructor
    · rintro ⟨hvouched, hasked⟩
      refine ⟨Nat.lt_trans hasked horder, ?_, ?_⟩
      · rw [hx.inFlight_iff hp (by omega)]
        omega
      · intro hsame
        refine hvouched.resolve_left fun hbrought => ?_
        have hok := hbrought.isOk
        simp only [OriginResponse.isOk, OriginResponse.isNotModified, beq_iff_eq] at hok hsame
        omega
    · rintro ⟨hhandled, hflight, hconfirmed⟩
      rw [hx.inFlight_iff hp (Nat.le_of_lt hhandled)] at hflight
      exact ⟨hsource.imp_right fun hunchanged => hconfirmed hunchanged.1, by omega⟩
  · rintro remote passive active contentMaxAge metadataMaxAge rfl hlt hquiet
    obtain ⟨a, fetch, ha, -, -, -, hresolve⟩ := hx.sent.before
    rw [← hresolve, remote_of_asked hevent hp hlt ha hquiet]

/-- A remote, and another one that takes its place. -/
def oldRemote : Url where
  scheme := "https"
  host := some (.domain "old.test")
  path := .segments ["repo", ""]

def newRemote : Url := { oldRemote with host := some (.domain "new.test") }

theorem normalize_oldRemote : Remote.normalize "https://old.test/repo/" = .ok oldRemote := by
  have h : (Remote.normalize "https://old.test/repo/").toOption = some oldRemote := by
    decide +kernel
  cases hn : Remote.normalize "https://old.test/repo/" with
  | error e => simp [hn, Except.toOption] at h
  | ok u => simpa [hn, Except.toOption] using h

def oldConfig : Config := { proxy := { remoteUrl := "https://old.test/repo/" } }

/-- The start of a run with the old remote. -/
def oldStart : Proxy MemoryStore where
  store := .empty 1000
  controllers := .new 86400 86400
  remote := oldRemote
  passive := .ofSeconds 600
  active := .ofSeconds 10
  origin := .ofMillis 0

theorem new_oldConfig : Proxy.new oldConfig (.empty 1000) (.ofMillis 0) = .ok oldStart := by
  unfold Proxy.new
  rw [show oldConfig.proxy.remoteUrl = "https://old.test/repo/" from rfl, normalize_oldRemote]
  rfl

def jar : Resource := ⟨"a.jar", [], .content⟩

/-- A get from its start to the request for the origin. -/
def asked : List ProxyEvent := [.request jar, .lookUp 0, .judge 0, .enter 0, .ask 0]

/-- The same get from the answer of the origin to its outcome. -/
def answered (bytes : Bytes) : List ProxyEvent :=
  [.answer 0 (.ok { status := 200, body := some (.bytes bytes) }), .handle 0, .stored 0, .publish 0,
    .release 0, .deliver 0]

/-- A copy as it is served. -/
def served (bytes : Bytes) (token : Nat) : Content :=
  ⟨.buffered bytes, { stamp := some ⟨.ofMillis 0, 86400, some (.issued token)⟩ }⟩

/-- The start of a run after an invalidation. -/
def invalidated : Proxy MemoryStore :=
  { oldStart with controllers := ⟨⟨86400, .issued 2⟩, ⟨86400, .issued 3⟩, 4⟩, changes := [[]] }

/-- A proxy that has kept a copy of the jar for a get, when another get is about to judge it. -/
def kept (p : Proxy MemoryStore) (c : Content) : Proxy MemoryStore :=
  { p with
    store := ⟨[(jar.key, ⟨0, c.attributes⟩)], [(0, [1])], 1, 1000⟩
    coop := { p.coop with
      leases := [⟨jar.key, 0, false, 0, 0, some (.ok (some c)), true⟩]
      calls := [⟨jar.key, .ofSeconds 600, .ofSeconds 10, 0, .returned (.ok (some c))⟩] }
    gets := [⟨jar, .called 0⟩, ⟨jar, .judge (some c)⟩]
    fetches := [⟨.lease 0, jar, true, .closed⟩] }

/-- A copy that was fetched after an invalidation is fresh, with a stamp from after it. -/
theorem fresh_after_refetch :
    oldStart.run MemoryStore.ops ([.invalidate, .change 0, .change 0] ++ asked ++ answered [1] ++
      [.request jar, .lookUp 1]) = some (kept invalidated (served [1] 2)) ∧
    ServesFresh (kept invalidated (served [1] 2)) jar (served [1] 2) ∧
    ∃ x : Contact, (served [1] 2).attributes.stamp = some x.stamp ∧ 0 < x.handled := by
  have hrun : oldStart.run MemoryStore.ops ([.invalidate, .change 0, .change 0] ++ asked ++
      answered [1] ++ [.request jar, .lookUp 1]) = some (kept invalidated (served [1] 2)) := rfl
  have hserved : ServesFresh (kept invalidated (served [1] 2)) jar (served [1] 2) :=
    .get 1 _ rfl rfl
  have hinvalidates : Invalidates oldStart .invalidate := trivial
  have hdone : oldStart.run MemoryStore.ops [.invalidate, .change 0, .change 0] =
      some invalidated := rfl
  obtain ⟨x, -, -, hstamp, hhandled, -⟩ :=
    fresh_after_invalidation (n := 0) new_oldConfig hrun hserved rfl rfl hinvalidates
  exact ⟨hrun, hserved, x, hstamp, hhandled 3 invalidated (by decide) (by decide) hdone rfl⟩

/-- A proxy whose request for the jar has no answer yet. -/
def waiting : Proxy MemoryStore :=
  { oldStart with
    coop := {
      leases := [⟨jar.key, 0, false, 0, 0, none, false⟩],
      table := [(jar.key, 0)],
      calls := [⟨jar.key, .ofSeconds 600, .ofSeconds 10, 0, .leading 0⟩] },
    gets := [⟨jar, .called 0⟩],
    fetches := [⟨.lease 0, jar, true,
      .waiting none { url := { oldRemote with path := .segments ["repo", "a.jar"] } }⟩] }

/-- The settings after an update to the new remote. -/
def updated (p : Proxy MemoryStore) : Proxy MemoryStore :=
  { p with
    remote := newRemote
    controllers := ⟨⟨86400, .issued 2⟩, ⟨86400, .issued 3⟩, 4⟩
    changes := [[]] }

/-- A run in which the remote changes while a request is under way. -/
def overtaken : List ProxyEvent :=
  asked ++ [.update newRemote (.ofSeconds 600) (.ofSeconds 10) 86400 86400, .change 0, .change 0,
    .change 0, .change 0] ++ answered [1] ++ [.request jar, .lookUp 1]

/-- A copy whose only request went to the old remote is found fresh under the new one, because the
answer came after the update. -/
theorem fresh_from_old_remote :
    Proxy.new oldConfig (.empty 1000) (.ofMillis 0) = .ok oldStart ∧
    oldStart.run MemoryStore.ops overtaken = some (kept (updated oldStart) (served [1] 2)) ∧
    ServesFresh (kept (updated oldStart) (served [1] 2)) jar (served [1] 2) ∧
    oldStart.run MemoryStore.ops (overtaken.take 5) = some waiting ∧
    overtaken[5]? = some (.update newRemote (.ofSeconds 600) (.ofSeconds 10) 86400 86400) ∧
    Invalidates waiting (.update newRemote (.ofSeconds 600) (.ofSeconds 10) 86400 86400) ∧
    oldStart.run MemoryStore.ops (overtaken.take 10) = some (updated waiting) ∧
    (updated waiting).changes[waiting.changes.length]? = some [] ∧
    ∀ k i, overtaken[k]? = some (.ask i) → k < 5 := by
  have hother : waiting.remote.text ≠ newRemote.text := by decide
  have hasks : ∀ k i, overtaken[k]? = some (.ask i) → k < 5 := by
    intro k i h
    by_contra hk
    obtain ⟨j, rfl⟩ := Nat.exists_eq_add_of_le (Nat.le_of_not_lt hk)
    rw [← List.getElem?_drop] at h
    have hmem := List.mem_of_getElem? h
    simp [overtaken, asked, answered] at hmem
  exact ⟨new_oldConfig, rfl, .get 1 _ rfl rfl, rfl, rfl, hother, rfl, rfl, hasks⟩

end Proxy

end PullCache
