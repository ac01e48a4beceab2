import Mathlib.Tactic.IntervalCases
import PullCache.Proofs.Proxy.Invalidation
import PullCache.Proofs.Store.Copies
/-!
# Proofs.Proxy.Attribution

Which exchange vouches for a stored copy. The stamp of a copy is that of the exchange from which the
store has the last word about its key: a body, or the answer that a copy had not changed. But the
store notes such an answer under the key, whatever copy is there by then. While a slow fetch waits
for its answer, a fetch that took over can put other content in the place of the copy that the slow
one asks about, and that content gets the stamp (`Contact.OvertakenBy`). In every other case the
copy is what the exchange brought or confirmed (`stamp_attributed`).

The proof follows the copies of one key along the places of a run. A step leaves a copy as it is, or
is a write of an exchange (`Recorded.written_of_step`); so every copy goes back to a last write
(`written_since`), and apart from its stamp to a last body (`kept_since`).
-/

namespace PullCache

/-! ## Contents apart from their stamps -/

namespace Content

/-- The content without what is noted about its freshness. -/
def unstamped (c : Content) : Content :=
  { c with attributes := { c.attributes with stamp := none } }

/-- A new stamp takes the place of the old one. -/
theorem withStamp_congr {c c' : Content} (h : c.unstamped = c'.unstamped) (stamp : Stamp) :
    c.withStamp stamp = c'.withStamp stamp :=
  congrArg (·.withStamp stamp) h

end Content

/-! ## What gets and fetches take along -/

/-- The copy that a get takes along. -/
def GetPhase.carried? : GetPhase → Option Content
  | judge copy | enter copy => copy
  | _ => none

/-- The copy that a fetch takes along on its way to the origin. -/
def FetchPhase.carried? : FetchPhase → Option Content
  | rejudge copy | ask copy => copy
  | _ => none

/-- A request asks about the copy that it was made for, and about nothing else. -/
def FetchPhase.AsksAboutCopy : FetchPhase → Prop
  | waiting copy request | answered copy request _ =>
    request = OriginRequest.revalidating { url := request.url } copy
  | _ => True

namespace Proxy

/-! ## Along the places of a run -/

section Places

variable {σ : Type} {ops : StoreOps σ} {start p q : Proxy σ} {events : List ProxyEvent}

/-- What holds at one place of a run and is kept by each step after it holds at all later places. -/
theorem place_induction {I : Nat → Proxy σ → Prop} {a b : Nat}
    (ha : start.run ops (events.take a) = some p) (base : I a p)
    (keeps : ∀ {k : Nat} {q q' : Proxy σ} {e : ProxyEvent}, a ≤ k → events[k]? = some e →
      start.run ops (events.take k) = some q → q.step ops e = some q' → I k q → I (k + 1) q')
    (hab : a ≤ b) (hb : b ≤ events.length) (hq : start.run ops (events.take b) = some q) :
    I b q := by
  induction hab generalizing q with
  | refl =>
    obtain rfl : p = q := Option.some.inj (ha.symm.trans hq)
    exact base
  | @step k hak ih =>
    obtain ⟨before, hbefore⟩ := run_prefix (Nat.le_succ k) hq
    have hevent : events[k]? = some events[k] := List.getElem?_eq_getElem hb
    exact keeps hak hevent hbefore (step_of_run hevent hbefore hq)
      (ih (Nat.le_of_succ_le hb) hbefore)

variable {x : Contact}

theorem Contact.Happened.append (h : x.Happened ops start events) (more : List ProxyEvent) :
    x.Happened ops start (events ++ more) := by
  induction more using List.reverseRecOn with
  | nil => rwa [List.append_nil]
  | append_singleton more e ih =>
    rw [← List.append_assoc]
    exact ih.concat

/-- An exchange in a part of a run is one in the whole run. -/
theorem Contact.Happened.of_take {k : Nat} (h : x.Happened ops start (events.take k)) :
    x.Happened ops start events := by
  rw [← List.take_append_drop k events]
  exact h.append _

/-! ## Requests -/

theorem asksAboutCopy_of_run {i : Nat} {fetch : Fetch} (hfetches : start.fetches = [])
    (h : start.run ops events = some q) (hi : q.fetches[i]? = some fetch) :
    fetch.phase.AsksAboutCopy := by
  refine run_invariant (I := fun _ q => ∀ (i : Nat) fetch, q.fetches[i]? = some fetch →
    fetch.phase.AsksAboutCopy) (by simp [hfetches]) ?_ h i fetch hi
  intro _ q q' e _ hq hstep i fetch hi
  obtain hbefore | ⟨-, begun⟩ | ⟨before, phase, found, move, rfl⟩ :=
    (step_effect hstep).fetches.before hi
  · exact hq i fetch hbefore
  · cases begun <;> trivial
  · have hcarried := hq i before found
    cases move with
    | sent copy url hask resolve =>
      change _ = OriginRequest.revalidating { url := _ } copy
      rw [OriginRequest.url_revalidating]
    | unreached copy request fault hwaiting =>
      rw [hwaiting] at hcarried
      exact hcarried
    | reached copy request reply hwaiting =>
      rw [hwaiting] at hcarried
      exact hcarried
    | _ => trivial

/-- The request of an exchange asks with the validators of the copy that the exchange is about. -/
theorem Contact.Happened.request_eq (hfetches : start.fetches = [])
    (hx : x.Happened ops start events) :
    x.request = OriginRequest.revalidating { url := x.request.url } x.copy := by
  obtain ⟨q, fetch, hq, hfetch, -, hphase, -⟩ := hx.read
  have hasks := asksAboutCopy_of_run hfetches hq hfetch
  rw [hphase] at hasks
  exact hasks

end Places

/-! ## Lookups -/

variable {start p q q' : Proxy MemoryStore} {events : List ProxyEvent} {e : ProxyEvent}
  {r : Resource} {c : Content} {a b k : Nat} {x : Contact}

/-- The event at a place of a run, and the state before it. -/
structure Happens (start : Proxy MemoryStore) (events : List ProxyEvent) (k : Nat)
    (q : Proxy MemoryStore) (e : ProxyEvent) : Prop where
  event : events[k]? = some e
  before : start.run MemoryStore.ops (events.take k) = some q

/-- At a place of a run the store is asked for a copy, and has this one. -/
structure LookedUp (start : Proxy MemoryStore) (events : List ProxyEvent) (r : Resource)
    (c : Content) (a : Nat) : Prop where
  event : ∃ n, events[a]? = some (.lookUp n) ∨ events[a]? = some (.recheck n)
  found : ∃ q, start.run MemoryStore.ops (events.take a) = some q ∧ q.store.copy? r = some c

/-- All copies that are taken along were looked up before. -/
structure Carrying (start : Proxy MemoryStore) (events : List ProxyEvent) (k : Nat)
    (q : Proxy MemoryStore) : Prop where
  gets : ∀ (g : Nat) (get : Get) (c : Content), q.gets[g]? = some get →
    get.phase.carried? = some c → ∃ a < k, LookedUp start events get.resource c a
  fetches : ∀ (i : Nat) (fetch : Fetch) (c : Content), q.fetches[i]? = some fetch →
    fetch.phase.carried? = some c → ∃ a < k, LookedUp start events fetch.resource c a

theorem Carrying.step (h : Carrying start events k q) (hevent : events[k]? = some e)
    (hq : start.run MemoryStore.ops (events.take k) = some q)
    (hstep : q.step MemoryStore.ops e = some q') : Carrying start events (k + 1) q' := by
  have hlater : ∀ {r c}, (∃ a < k, LookedUp start events r c a) →
      ∃ a < k + 1, LookedUp start events r c a :=
    fun ⟨a, ha, hfound⟩ => ⟨a, Nat.lt_succ_of_lt ha, hfound⟩
  constructor
  · intro g get c hget hcarried
    obtain hbefore | ⟨-, hnew⟩ | ⟨before, phase, found, move, rfl⟩ :=
      (step_effect hstep).gets.before hget
    · exact hlater (h.gets g get c hbefore hcarried)
    · rw [hnew] at hcarried
      contradiction
    · cases move with
      | found copy hlookUp lookup =>
        obtain rfl : copy = some c := hcarried
        have hcopy := MemoryStore.copy?_eq_some.mpr (lookup_of_foundCopy lookup)
        exact ⟨k, Nat.lt_succ_self k, ⟨g, .inl hevent⟩, q, hq, hcopy⟩
      | stale cached hjudge verdict =>
        refine hlater (h.gets g before c found ?_)
        rw [hjudge]
        exact hcarried
      | _ => contradiction
  · intro i fetch c hfetch hcarried
    obtain hbefore | ⟨-, begun⟩ | ⟨before, phase, found, move, rfl⟩ :=
      (step_effect hstep).fetches.before hfetch
    · exact hlater (h.fetches i fetch c hbefore hcarried)
    · cases begun with
      | entered g get cached place sharing found hphase =>
        refine hlater (h.gets g get c found ?_)
        rw [hphase]
        exact hcarried
      | tookOver g place r sharing => contradiction
    · cases move with
      | found copy hrecheck lookup =>
        obtain rfl : copy = some c := hcarried
        have hcopy := MemoryStore.copy?_eq_some.mpr (lookup_of_foundCopy lookup)
        exact ⟨k, Nat.lt_succ_self k, ⟨i, .inr hevent⟩, q, hq, hcopy⟩
      | stale copy hrejudge verdict =>
        refine hlater (h.fetches i before c found ?_)
        rw [hrejudge]
        exact hcarried
      | _ => contradiction

/-- The copy that an exchange asks about was looked up before the request was sent. -/
theorem Contact.Happened.lookedUp (hgets : start.gets = []) (hfetches : start.fetches = [])
    (hx : x.Happened MemoryStore.ops start events) {known : Content}
    (hknown : x.copy = some known) : ∃ a < x.asked, LookedUp start events x.resource known a := by
  obtain ⟨q, fetch, hq, hfetch, hresource, hphase, -⟩ := hx.sent.before
  have hplace := (List.getElem?_eq_some_iff.mp hx.sent.event).1
  have hcarrying : Carrying start events x.asked q :=
    place_induction (a := 0) rfl ⟨by simp [hgets], by simp [hfetches]⟩
      (fun _ hevent hq hstep h => Carrying.step h hevent hq hstep) (Nat.zero_le _)
      (Nat.le_of_lt hplace) hq
  rw [← hresource]
  refine hcarrying.fetches x.fetch fetch known hfetch ?_
  rw [hphase]
  exact hknown

/-! ## Writes -/

/-- At a place of a run, with its answer read before, the store takes in what an exchange brought. -/
def Contact.KeptAt (start : Proxy MemoryStore) (events : List ProxyEvent) (x : Contact)
    (c : Content) (k : Nat) : Prop :=
  x.handled < k ∧ ∃ q e, Happens start events k q e ∧ x.Keeps q e c

/-- At a place of a run, with its answer read before, the store notes that an exchange was answered
304, on the copy that it has then. -/
def Contact.NotedAt (start : Proxy MemoryStore) (events : List ProxyEvent) (x : Contact)
    (copy : Content) (k : Nat) : Prop :=
  x.handled < k ∧ ∃ q e, Happens start events k q e ∧ x.Notes q e copy

/-- At a place of a run an exchange gives its key this copy. -/
structure Contact.WroteAt (start : Proxy MemoryStore) (events : List ProxyEvent) (x : Contact)
    (key : Key) (c : Content) (k : Nat) : Prop where
  happened : x.Happened MemoryStore.ops start events
  key : x.resource.key = key
  stamp : c.attributes.stamp = some x.stamp
  source : x.KeptAt start events c k ∨
    ∃ before, x.NotedAt start events before k ∧ c = before.withStamp x.stamp

theorem Contact.Writes.wroteAt {key : Key} (h : x.Writes q e key c)
    (hx : x.Happened MemoryStore.ops start (events.take k)) (hplace : Happens start events k q e) :
    x.WroteAt start events key c k where
  happened := hx.of_take
  key := h.key
  stamp := h.stamp
  source := by
    have hlt := (List.getElem?_eq_some_iff.mp hx.event).1
    rw [List.length_take] at hlt
    have hlate : x.handled < k := by omega
    obtain hkeeps | ⟨before, hnotes, hc⟩ := h.source
    · exact .inl ⟨hlate, q, e, hplace, hkeeps⟩
    · exact .inr ⟨before, ⟨hlate, q, e, hplace, hnotes⟩, hc⟩

/-- A run that nothing has happened before. -/
structure Blank (start : Proxy MemoryStore) : Prop where
  store : ∃ capacity, start.store = .empty capacity
  gets : start.gets = []
  fetches : start.fetches = []

/-- A copy that is there at a place of a run was there at an earlier one, or was written between
them. -/
theorem written_since (blank : Blank start) (hab : a ≤ b) (hb : b ≤ events.length)
    (ha : start.run MemoryStore.ops (events.take a) = some p)
    (hq : start.run MemoryStore.ops (events.take b) = some q) (hc : q.store.copy? r = some c) :
    p.store.copy? r = some c ∨
      ∃ k x, a ≤ k ∧ k < b ∧ Contact.WroteAt start events x r.key c k := by
  obtain ⟨capacity, hstore⟩ := blank.store
  refine place_induction (I := fun b q => ∀ c, q.store.copy? r = some c → p.store.copy? r = some c ∨
    ∃ k x, a ≤ k ∧ k < b ∧ Contact.WroteAt start events x r.key c k) ha (fun c hc => .inl hc) ?_ hab
    hb hq c hc
  intro k q q' e hak hevent hq hstep ih c hc
  have hrecorded := recorded_of_run hstore blank.gets blank.fetches hq
  obtain hbefore | ⟨x, hx, hwrites⟩ := hrecorded.written_of_step (step_effect hstep).store hc
  · obtain hfirst | ⟨j, x, haj, hjk, hx⟩ := ih c hbefore
    · exact .inl hfirst
    · exact .inr ⟨j, x, haj, Nat.lt_succ_of_lt hjk, hx⟩
  · exact .inr ⟨k, x, hak, Nat.lt_succ_self k, hwrites.wroteAt hx ⟨hevent, hq⟩⟩

/-- Two copies of one key at two places of a run are the same apart from their stamps, or the store
took in the later one between them. -/
theorem kept_since (blank : Blank start) {known : Content} (hab : a ≤ b) (hb : b ≤ events.length)
    (ha : start.run MemoryStore.ops (events.take a) = some p)
    (hknown : p.store.copy? r = some known)
    (hq : start.run MemoryStore.ops (events.take b) = some q) (hc : q.store.copy? r = some c) :
    known.unstamped = c.unstamped ∨
      ∃ k x stored, a ≤ k ∧ k < b ∧ Contact.Happened MemoryStore.ops start events x ∧
        x.resource.key = r.key ∧ x.KeptAt start events stored k ∧
        stored.unstamped = c.unstamped := by
  induction b using Nat.strongRecOn generalizing q c with
  | ind b ih =>
    obtain hsame | ⟨k, x, hak, hkb, hx⟩ := written_since blank hab hb ha hq hc
    · obtain rfl : known = c := Option.some.inj (hknown.symm.trans hsame)
      exact .inl rfl
    · obtain hkept | ⟨before, hnoted, rfl⟩ := hx.source
      · exact .inr ⟨k, x, c, hak, hkb, hx.happened, hx.key, hkept, rfl⟩
      · -- The stamp was put on a copy that was there before.
        obtain ⟨-, q', e, hplace, hnotes⟩ := hnoted
        have hbefore := hnotes.found
        rw [MemoryStore.copy?_congr hx.key] at hbefore
        obtain hsame | ⟨j, y, stored, haj, hjk, hy⟩ :=
          ih k hkb hak (Nat.le_of_lt (Nat.lt_of_lt_of_le hkb hb)) hplace.before hbefore
        · exact .inl hsame
        · exact .inr ⟨j, y, stored, haj, Nat.lt_trans hjk hkb, hy⟩

/-! ## Exchanges that were overtaken -/

/-- When the store has taken in what a fetch brought, the fetch goes on. -/
theorem rank_of_stored {i : Nat} (h : p.stored MemoryStore.ops i = some q) :
    ∃ fetch, q.fetches[i]? = some fetch ∧ 5 < fetch.phase.rank := by
  have hmoved : ∀ {fetch : Fetch} {s : Proxy MemoryStore} (phase : FetchPhase),
      p.fetch? i = some fetch → s.fetches = p.fetches → 5 < phase.rank →
      ∃ fetch, (s.setFetch i phase).fetches[i]? = some fetch ∧ 5 < fetch.phase.rank := by
    intro fetch s phase hfound hsame hrank
    refine ⟨{ fetch with phase }, ?_, hrank⟩
    rw [setFetch_fetches, hsame, List.getElem?_modify_eq, (fetch?_eq_some.mp hfound).1]
    rfl
  obtain ⟨fetch, copy, response, remote, hfound, -, kept, next, -, rfl,
    ⟨fault, -, rfl⟩ | ⟨content, -, ⟨-, rfl⟩ | ⟨-, rfl⟩⟩⟩ := stored_cases h
  · rw [conclude_eq]
    exact hmoved _ hfound rfl (Nat.lt_add_of_pos_right Nat.two_pos)
  · exact hmoved _ hfound rfl (Nat.lt_succ_self 5)
  · rw [conclude_eq]
    exact hmoved _ hfound rfl (Nat.lt_add_of_pos_right Nat.two_pos)

/-- A fetch either stores content or has a stamp noted. -/
theorem Contact.KeptAt.fetch_ne {y : Contact} {stored copy : Content} {v : Nat}
    (hkept : y.KeptAt start events stored k) (hkv : k < v)
    (hnoted : x.NotedAt start events copy v) : y.fetch ≠ x.fetch := by
  intro hsame
  obtain ⟨-, q, e, hstored, hkeeps⟩ := hkept
  obtain ⟨-, q', e', hverified, hnotes⟩ := hnoted
  obtain ⟨fetch, known, hfetch, hphase⟩ := hnotes.verifying
  obtain ⟨next, hnext⟩ := run_prefix hkv hverified.before
  have hstep := step_of_run hstored.event hstored.before hnext
  rw [hkeeps.event] at hstep
  obtain ⟨after, hafter, hrank⟩ := rank_of_stored hstep
  obtain ⟨later, hlater, hle⟩ := fetch_of_run (run_between hkv hnext hverified.before) hafter
  rw [hsame] at hlater
  obtain rfl : later = fetch := Option.some.inj (hlater.symm.trans hfetch)
  rw [hphase] at hle
  change after.phase.rank ≤ 5 at hle
  omega

/-- An exchange was overtaken by another: between the lookup of the copy that it asks about and the
moment at which the store noted that this had not changed, the store took in other content from
another fetch for the same key. The stamp was put on that. -/
structure Contact.OvertakenBy (start : Proxy MemoryStore) (events : List ProxyEvent) (x y : Contact)
    (c : Content) : Prop where
  happened : y.Happened MemoryStore.ops start events
  key : y.resource.key = x.resource.key
  fetch_ne : y.fetch ≠ x.fetch
  course : ∃ known stored before a k v, x.copy = some known ∧ a < x.asked ∧
    LookedUp start events x.resource known a ∧ a < k ∧ y.KeptAt start events stored k ∧ k < v ∧
    x.NotedAt start events before v ∧ stored.unstamped = before.unstamped ∧
    before.unstamped ≠ known.unstamped ∧ c = before.withStamp x.stamp

/-- The store has not taken in content at the place of a lookup. -/
theorem LookedUp.ne {y : Contact} {known stored : Content} (h : LookedUp start events r known a)
    (hkept : y.KeptAt start events stored k) : a ≠ k := by
  rintro rfl
  obtain ⟨-, q, e, hstored, hkeeps⟩ := hkept
  have hevent := hstored.event
  rw [hkeeps.event] at hevent
  obtain ⟨n, hlookup | hlookup⟩ := h.event
  · simpa using hlookup.symm.trans hevent
  · simpa using hlookup.symm.trans hevent

/-- A stamp that was noted confirms the copy, unless the exchange was overtaken. -/
theorem Contact.NotedAt.confirmed_or_overtaken (blank : Blank start)
    (hx : x.Happened MemoryStore.ops start events) {before : Content} {v : Nat}
    (hnoted : x.NotedAt start events before v) :
    x.Confirmed (before.withStamp x.stamp) ∨
      ∃ y, x.OvertakenBy start events y (before.withStamp x.stamp) := by
  have ⟨hlate, q, e, hverified, hnotes⟩ := hnoted
  obtain ⟨hunchanged, hsome⟩ := hnotes.unchanged
  obtain ⟨known, hknown⟩ := Option.isSome_iff_exists.mp hsome
  obtain ⟨a, ha, hlooked⟩ := hx.lookedUp blank.gets blank.fetches hknown
  obtain ⟨p, hp, hfirst⟩ := hlooked.found
  have hav : a ≤ v := Nat.le_of_lt (Nat.lt_trans ha (Nat.lt_trans hx.order hlate))
  have hv := (List.getElem?_eq_some_iff.mp hverified.event).1
  by_cases hsame : before.unstamped = known.unstamped
  · refine .inl ⟨hunchanged, ?_⟩
    rw [hknown, Option.map_some, Content.withStamp_congr hsame]
  · obtain h | ⟨k, y, stored, hak, hkv, hy, hkey, hkept, hstored⟩ :=
      kept_since blank hav (Nat.le_of_lt hv) hp hfirst hverified.before hnotes.found
    · exact absurd h.symm hsame
    · have hlt : a < k := Nat.lt_of_le_of_ne hak (hlooked.ne hkept)
      exact .inr ⟨y, hy, hkey, hkept.fetch_ne hkv hnoted, known, stored, before, a, k, v, hknown,
        ha, hlooked, hlt, hkept, hkv, hnoted, hstored, hsame, rfl⟩

/-- An exchange that was overtaken neither brought the copy that has its stamp nor confirmed it. -/
theorem Contact.OvertakenBy.not_vouched {y : Contact} (h : x.OvertakenBy start events y c) :
    ¬((∃ k, x.KeptAt start events c k) ∨ x.Confirmed c) := by
  obtain ⟨known, stored, before, a, k, v, hknown, -, -, -, -, -, hnoted, -, hother, rfl⟩ := h.course
  rintro (⟨place, hkept⟩ | ⟨-, hconfirmed⟩)
  · obtain ⟨-, q, e, -, hkeeps⟩ := hkept
    obtain ⟨-, q', e', -, hnotes⟩ := hnoted
    have hok := hkeeps.isOk
    have hunchanged := hnotes.unchanged.1
    simp only [OriginResponse.isOk, OriginResponse.isNotModified, beq_iff_eq] at hok hunchanged
    omega
  · rw [hknown, Option.map_some, Option.some.injEq] at hconfirmed
    exact hother (congrArg Content.unstamped hconfirmed).symm

/-- **Attribution of stamps.** In a run from an empty store, with any number of gets that are
interleaved in any way, every stored copy has the stamp of an exchange for its key. The time of the
stamp is that at which the answer was read; the request asked with the validators of the copy that
the exchange is about, and this copy was looked up before. The exchange brought the stored copy or
confirmed it, exactly if it was not overtaken. -/
theorem stamp_attributed {config : Config} {capacity : Nat} {now : Instant}
    (hnew : Proxy.new config (MemoryStore.empty capacity) now = .ok start)
    (hrun : start.run MemoryStore.ops events = some q) (hc : q.store.lookup r = .ok (some c)) :
    ∃ x : Contact, x.Happened MemoryStore.ops start events ∧ x.resource.key = r.key ∧
      c.attributes.stamp = some x.stamp ∧
      (∃ h, start.run MemoryStore.ops (events.take x.handled) = some h ∧
        x.stamp.verified = h.wall) ∧
      x.request = OriginRequest.revalidating { url := x.request.url } x.copy ∧
      (∀ known, x.copy = some known → ∃ a < x.asked, LookedUp start events x.resource known a) ∧
      ((∃ k, x.KeptAt start events c k) ∨ x.Confirmed c ↔
        ¬∃ y, x.OvertakenBy start events y c) := by
  obtain ⟨hstore, hgets, hfetches, -⟩ := new_eq_ok hnew
  have blank : Blank start := ⟨⟨capacity, hstore⟩, hgets, hfetches⟩
  rw [← List.take_length (l := events)] at hrun
  -- The store was empty at first, so some event has written the stamp that is there now.
  obtain hfirst | ⟨k, x, -, -, hx⟩ := written_since blank (Nat.zero_le _) (Nat.le_refl _) rfl hrun
    (MemoryStore.copy?_eq_some.mpr hc)
  · rw [hstore, MemoryStore.copy?_eq_some, MemoryStore.lookup_empty] at hfirst
    simp at hfirst
  · obtain ⟨h, fetch, hh, -, -, -, hstamp⟩ := hx.happened.read
    refine ⟨x, hx.happened, hx.key, hx.stamp, ⟨h, hh, by rw [hstamp]; rfl⟩,
      hx.happened.request_eq hfetches, fun known => hx.happened.lookedUp hgets hfetches,
      fun hvouched ⟨y, hovertaken⟩ => hovertaken.not_vouched hvouched, fun hnot => ?_⟩
    obtain hkept | ⟨before, hnoted, rfl⟩ := hx.source
    · exact .inl ⟨k, hkept⟩
    · exact .inr ((hnoted.confirmed_or_overtaken blank hx.happened).resolve_right hnot)

/-- The answer 200 with a revision of the jar. -/
def revision (etag : String) (bytes : Bytes) : Except OriginFault Reply :=
  .ok { status := 200, body := some (.bytes bytes), etag := some etag }

/-- The same revision as a copy with a stamp. -/
def revised (etag : String) (bytes : Bytes) (millis : Int) : Content where
  payload := .buffered bytes
  attributes.etag := some etag
  attributes.stamp := some ⟨.ofMillis millis, 86400, some (.issued 0)⟩

/-- A run in which a leader waits so long for its answer that another get takes over. The store has
taken in what the second fetch brought when the first one is told that its copy has not changed. -/
def slowLeader : List ProxyEvent :=
  asked ++ [.answer 0 (revision "v1" [1]), .handle 0, .stored 0, .publish 0, .release 0,
    .deliver 0, .tick 86401000000000] ++
  [.request jar, .lookUp 1, .judge 1, .enter 1, .ask 1] ++
  [.request jar, .lookUp 2, .judge 2, .enter 2, .tick 600000000000, .exhaust 2, .takeOver 2,
    .recheck 2, .rejudge 2, .ask 2, .answer 2 (revision "v2" [2]), .handle 2, .stored 2] ++
  [.tick 1000000000, .answer 1 (.ok { status := 304 }), .handle 1, .verified 1]

/-- The places at which answers are read. -/
theorem handled_slowLeader {k i : Nat} (h : slowLeader[k]? = some (.handle i)) :
    k = 6 ∨ k = 28 ∨ k = 32 ∧ i = 1 := by
  have hlt : k < 34 := (List.getElem?_eq_some_iff.mp h).1
  interval_cases k <;> simp_all [slowLeader, asked]

/-- The request that asks whether the first revision has changed. -/
def slowRequest : OriginRequest where
  url := { oldRemote with path := .segments ["repo", "a.jar"] }
  ifNoneMatch := some "v1"

/-- Only the slow fetch reads its answer at the end of the run, and that answer is about the first
revision. -/
theorem slow_of_stamp (hx : x.Happened MemoryStore.ops oldStart slowLeader)
    (htime : x.stamp.verified = .ofMillis 87002000) :
    x.copy = some (revised "v1" [1] 0) ∧ x.response = { status := 304 } := by
  obtain ⟨q, fetch, hq, hfetch, -, hphase, hstamp⟩ := hx.read
  have hwall : q.wall = .ofMillis 87002000 := by
    rw [← htime, hstamp]
    rfl
  have hlast : x.handled = 32 ∧ x.fetch = 1 := by
    obtain hk | hk | hk := handled_slowLeader hx.event
    · rw [hk] at hq
      obtain rfl := Option.some.inj hq
      exact absurd hwall (by decide)
    · rw [hk] at hq
      obtain rfl := Option.some.inj hq
      exact absurd hwall (by decide)
    · exact hk
  have hslow : (oldStart.run MemoryStore.ops (slowLeader.take 32)).bind (·.fetches[1]?) =
      some ⟨.lease 1, jar, true,
        .answered (some (revised "v1" [1] 0)) slowRequest (.ok { status := 304 })⟩ := rfl
  rw [← hlast.1, hq, Option.bind_some, ← hlast.2, hfetch, Option.some.injEq] at hslow
  rw [hslow, FetchPhase.answered.injEq, Except.ok.injEq] at hphase
  exact ⟨hphase.1.symm, hphase.2.2.symm⟩

/-- No exchange that was read at the time of the stamp brought or confirmed the copy that has it. -/
theorem slow_not_vouched (hx : x.Happened MemoryStore.ops oldStart slowLeader)
    (htime : x.stamp.verified = .ofMillis 87002000) :
    ¬((∃ k, x.KeptAt oldStart slowLeader (revised "v2" [2] 87002000) k) ∨
      x.Confirmed (revised "v2" [2] 87002000)) := by
  obtain ⟨hcopy, hresponse⟩ := slow_of_stamp hx htime
  rintro (⟨k, hkept⟩ | ⟨-, hconfirmed⟩)
  · obtain ⟨-, q, e, -, hkeeps⟩ := hkept
    have hok := hkeeps.isOk
    rw [hresponse] at hok
    contradiction
  · rw [hcopy, Option.map_some, Option.some.injEq] at hconfirmed
    have hpayload : Payload.buffered [1] = .buffered [2] := congrArg Content.payload hconfirmed
    contradiction

/-- The copy at the end of the run was overtaken: its stamp is about another revision. -/
theorem second_revision_overtook :
    (∃ q, oldStart.run MemoryStore.ops slowLeader = some q ∧
      q.store.lookup jar = .ok (some (revised "v2" [2] 87002000))) ∧
    ∃ x y : Contact, x.Happened MemoryStore.ops oldStart slowLeader ∧
      (revised "v2" [2] 87002000).attributes.stamp = some x.stamp ∧
      x.OvertakenBy oldStart slowLeader y (revised "v2" [2] 87002000) := by
  obtain ⟨q, hrun⟩ : ∃ q, oldStart.run MemoryStore.ops slowLeader = some q := ⟨_, rfl⟩
  have hlast : (oldStart.run MemoryStore.ops slowLeader).map (·.store.lookup jar) =
      some (.ok (some (revised "v2" [2] 87002000))) := rfl
  rw [hrun, Option.map_some, Option.some.injEq] at hlast
  refine ⟨⟨q, hrun, hlast⟩, ?_⟩
  obtain ⟨x, hx, -, hstamp, -, -, -, hvouched⟩ := stamp_attributed new_oldConfig hrun hlast
  have htime : x.stamp.verified = .ofMillis 87002000 :=
    congrArg Stamp.verified (Option.some.inj hstamp).symm
  obtain ⟨y, hy⟩ := not_not.mp (mt hvouched.mpr (slow_not_vouched hx htime))
  exact ⟨x, y, hx, hstamp, hy⟩

/-- A stored copy can say that it was verified at a time at which no exchange brought or confirmed
it. -/
theorem slow_answer_misattributed :
    Proxy.new oldConfig (.empty 1000) (.ofMillis 0) = .ok oldStart ∧ oldStart.passive.nanos ≠ 0 ∧
    (∃ q, oldStart.run MemoryStore.ops slowLeader = some q ∧
      q.store.lookup jar = .ok (some (revised "v2" [2] 87002000))) ∧
    (∀ resource, .request resource ∈ slowLeader → resource = jar) ∧
    ∀ x : Contact, x.Happened MemoryStore.ops oldStart slowLeader →
      x.stamp.verified = .ofMillis 87002000 →
      ¬((∃ k, x.KeptAt oldStart slowLeader (revised "v2" [2] 87002000) k) ∨
        x.Confirmed (revised "v2" [2] 87002000)) := by
  refine ⟨new_oldConfig, by decide, ⟨_, rfl, rfl⟩, fun resource h => ?_, fun x => slow_not_vouched⟩
  simpa [slowLeader, asked] using h

end Proxy

end PullCache
