import PullCache.Proofs.Proxy.Session
/-!
# Proofs.Proxy.Account

What the history of a session tells about the copies in the store. A copy has the body and the
attributes of the last answer 200 that was stored for its key, and the stamp of the last successful
exchange (`Told`); where there is no copy, whatever was stored is lost (`Forgotten`). Every operation
keeps this up (`Sound.turn`), so it holds along every session (`sound_of_run`).
-/

namespace PullCache.Proxy.Session

variable {s s' : Session} {k : Key} {r : Resource} {stamp : Stamp} {e : Entry}
  {after new : List Entry}

/-! ## What the history tells -/

/-- The stamp is from the last successful exchange for a key, after which the copy was not lost. It has
the present token exactly if nothing made copies stale since. -/
structure Stamped (s : Session) (k : Key) (stamp : Stamp) (e : Entry) (after : List Entry) : Prop where
  split : ∃ before, s.history = before ++ e :: after
  success : e.incident.Succeeds s.store.capacity k
  last : ∀ x ∈ after, ¬ x.incident.Succeeds s.store.capacity k
  held : ∀ x ∈ after, ¬ x.incident.Loses k
  verified : stamp.verified = s.proxy.origin.addNanos e.time
  token : ∃ r n m, e.incident.Asks r ∧ stamp.token = some (.issued n) ∧
    (s.proxy.controllers.of r.category).token = .issued m ∧ n ≤ m ∧
    (n = m ↔ ∀ x ∈ after, ¬ x.incident.Invalidates)

/-- A copy is what the last body that was stored for its key brought, with the stamp of the last
successful exchange. -/
def Told (s : Session) (k : Key) (c : Content) : Prop :=
  ∃ answer bytes stamp, c = answer.content bytes stamp ∧
    (∃ e, Latest (·.incident.Stores s.store.capacity k) s.history e ∧
      e.incident.Brings s.store.capacity k answer bytes) ∧
    ∃ e after, s.Stamped k stamp e after

/-- After every successful exchange for a key the copy was lost. -/
def Forgotten (s : Session) (k : Key) : Prop :=
  ∀ before e after, s.history = before ++ e :: after → e.incident.Succeeds s.store.capacity k →
    ∃ x ∈ after, x.incident.Loses k

/-- The history tells what there is for a resource. -/
structure Accounted (s : Session) (r : Resource) : Prop where
  told : ∀ c, s.store.copy? r = some c → s.Told r.key c
  forgotten : s.store.copy? r = none → s.Forgotten r.key

/-! ## What happens to others -/

/-- What happened since means nothing for a key, except that it may have made copies stale. -/
structure Later (s s' : Session) (k : Key) (new : List Entry) : Prop where
  history : s'.history = s.history ++ new
  capacity : s'.store.capacity = s.store.capacity
  origin : s'.proxy.origin = s.proxy.origin
  others : ∀ x ∈ new, ¬ x.incident.Succeeds s.store.capacity k ∧ ¬ x.incident.Loses k
  tokens : (∀ x ∈ new, ¬ x.incident.Invalidates) ∧ (∀ category,
      (s'.proxy.controllers.of category).token = (s.proxy.controllers.of category).token) ∨
    (∃ x ∈ new, x.incident.Invalidates) ∧ ∀ category,
      s'.proxy.controllers.IssuedSince s.proxy.controllers.nextToken category

/-- The account of a stamp goes on with what happens to others. -/
theorem Stamped.later (h : s.Stamped k stamp e after) (hissued : s.proxy.controllers.Issued)
    (hlater : Later s s' k new) : s'.Stamped k stamp e (after ++ new) := by
  obtain ⟨before, hsplit⟩ := h.split
  obtain ⟨r, n, m, hasks, hstamp, hm, hle, hcurrent⟩ := h.token
  refine ⟨⟨before, by rw [hlater.history, hsplit]; simp⟩, ?_, ?_, ?_, ?_, ?_⟩
  · rw [hlater.capacity]
    exact h.success
  · rw [hlater.capacity]
    intro x hx
    exact (List.mem_append.mp hx).elim (h.last x) fun hnew => (hlater.others x hnew).1
  · intro x hx
    exact (List.mem_append.mp hx).elim (h.held x) fun hnew => (hlater.others x hnew).2
  · rw [hlater.origin]
    exact h.verified
  · obtain ⟨hquiet, htokens⟩ | ⟨⟨x, hx, hinvalidates⟩, hsince⟩ := hlater.tokens
    · refine ⟨r, n, m, hasks, hstamp, (htokens _).trans hm, hle, hcurrent.trans ?_⟩
      exact ⟨fun h x hx => (List.mem_append.mp hx).elim (h x) (hquiet x),
        fun h x hx => h x (List.mem_append_left _ hx)⟩
    · -- The token of the stamp was given out before the new one.
      obtain ⟨i, hi, hlt⟩ := hissued r.category
      obtain rfl : m = i := Token.issued.inj (hm.symm.trans hi)
      obtain ⟨m', hm', hge⟩ := hsince r.category
      refine ⟨r, n, m', hasks, hstamp, hm', by omega, ?_⟩
      exact ⟨fun heq => absurd heq (by omega),
        fun h => absurd hinvalidates (h x (List.mem_append_right _ hx))⟩

/-- What was told about a copy goes on holding. -/
theorem Told.later {c : Content} (h : s.Told k c) (hissued : s.proxy.controllers.Issued)
    (hlater : Later s s' k new) : s'.Told k c := by
  obtain ⟨answer, bytes, stamp, hc, ⟨e, hlatest, hbrings⟩, last, after, hstamped⟩ := h
  refine ⟨answer, bytes, stamp, hc, ⟨e, ?_, ?_⟩, last, _, hstamped.later hissued hlater⟩
  · rw [hlater.history, hlater.capacity]
    exact hlatest.append_of_not fun x hx hstores => (hlater.others x hx).1 (.inl hstores)
  · rw [hlater.capacity]
    exact hbrings

/-- What was forgotten stays so as long as nothing happens to the key. -/
theorem Forgotten.later (h : s.Forgotten k) (hlater : Later s s' k new) : s'.Forgotten k := by
  intro before e after hsplit hsuccess
  rw [hlater.capacity] at hsuccess
  rw [hlater.history] at hsplit
  obtain ⟨rest, rfl, hbefore⟩ | hnew := append_eq_append_cons hsplit
  · obtain ⟨x, hx, hloses⟩ := h before e rest hbefore hsuccess
    exact ⟨x, List.mem_append_left _ hx, hloses⟩
  · exact absurd hsuccess (hlater.others e hnew).1

/-- The account of a resource holds as long as its copy stays. -/
theorem Accounted.later (h : s.Accounted r) (hissued : s.proxy.controllers.Issued)
    (hlater : Later s s' r.key new) (hcopy : s'.store.copy? r = s.store.copy? r) : s'.Accounted r where
  told c hc := (h.told c (hcopy ▸ hc)).later hissued hlater
  forgotten hnone := (h.forgotten (hcopy ▸ hnone)).later hlater

/-! ## What happens to the copy itself -/

/-- A stamp that was taken just now is that of the last entry. -/
theorem stamped_now {before : List Entry} {i : Incident}
    (hhistory : s.history = before ++ [⟨s.now, i⟩]) (hissued : s.proxy.controllers.Issued)
    (hasks : i.Asks r) (hsuccess : i.Succeeds s.store.capacity k) :
    s.Stamped k (s.proxy.stampNow r) ⟨s.now, i⟩ [] := by
  obtain ⟨n, hn, -⟩ := hissued r.category
  have htoken : (s.proxy.stampNow r).token = some (.issued n) := congrArg some hn
  exact ⟨⟨before, hhistory⟩, hsuccess, by simp, by simp, rfl,
    r, n, n, hasks, htoken, hn, Nat.le_refl n, by simp⟩

/-- An answer 200 that was stored brings a copy. -/
theorem accounted_stored {answer : Reply} {bytes : Bytes} {before : List Entry} {i : Incident}
    {r' : Resource} (hhistory : s.history = before ++ [⟨s.now, i⟩])
    (hissued : s.proxy.controllers.Issued) (hasks : i.Asks r)
    (hbrings : i.Brings s.store.capacity r'.key answer bytes)
    (hcopy : s.store.copy? r' = some (answer.content bytes (s.proxy.stampNow r))) :
    s.Accounted r' where
  told c hc := by
    obtain rfl : answer.content bytes (s.proxy.stampNow r) = c := Option.some.inj (hcopy.symm.trans hc)
    have hstores : i.Stores s.store.capacity r'.key := ⟨answer, bytes, hbrings⟩
    refine ⟨answer, bytes, _, rfl, ⟨⟨s.now, i⟩, ?_, hbrings⟩, _, _,
      stamped_now hhistory hissued hasks (.inl hstores)⟩
    rw [hhistory]
    exact Latest.concat_self before hstores
  forgotten hnone := by
    rw [hcopy] at hnone
    contradiction

/-- An answer 304 gives the copy a new stamp and leaves everything else of it as it was. -/
theorem accounted_confirmed {c : Content} {i : Incident} {r' : Resource} (h : s.Told r'.key c)
    (hcapacity : s'.store.capacity = s.store.capacity)
    (hhistory : s'.history = s.history ++ [⟨s'.now, i⟩])
    (hissued : s'.proxy.controllers.Issued) (hasks : i.Asks r) (hconfirms : i.Confirms r'.key)
    (hcopy : s'.store.copy? r' = some (c.withStamp (s'.proxy.stampNow r))) : s'.Accounted r' where
  told c' hc' := by
    obtain ⟨answer, bytes, stamp, rfl, ⟨e, hlatest, hbrings⟩, -⟩ := h
    obtain rfl := Option.some.inj (hcopy.symm.trans hc')
    refine ⟨answer, bytes, _, rfl, ⟨e, ?_, hcapacity ▸ hbrings⟩, _, _,
      stamped_now hhistory hissued hasks (.inr hconfirms)⟩
    rw [hhistory, hcapacity]
    exact hlatest.append_of_not (by simpa using hconfirms.not_stores s.store.capacity r'.key)
  forgotten hnone := by
    rw [hcopy] at hnone
    contradiction

/-- After a loss there is no copy, and what was stored is lost. -/
theorem accounted_lost {r' : Resource} (hhistory : s'.history = s.history ++ [⟨s'.now, .lost r'.key⟩])
    (hcopy : s'.store.copy? r' = none) : s'.Accounted r' where
  told c hc := by
    rw [hcopy] at hc
    contradiction
  forgotten _ := by
    intro before e after hsplit hsuccess
    rw [hhistory] at hsplit
    obtain ⟨rest, rfl, -⟩ | hnew := append_eq_append_cons hsplit
    · exact ⟨_, List.mem_append_right _ (List.mem_singleton_self _), rfl⟩
    · obtain rfl := List.mem_singleton.mp hnew
      exact absurd rfl (hsuccess.not_loses r'.key)

/-! ## Along a session -/

/-- What holds between operations: nothing is under way, the settings are in effect, the history is in
order, and it tells about every copy. -/
structure Sound (s : Session) : Prop where
  free : s.proxy.coop.table = []
  tidy : s.store.Tidy
  room : s.store.capacity ≠ 0
  base : s.proxy.remote.isBase = true
  issued : s.proxy.controllers.Issued
  ages : ∀ category, (s.proxy.controllers.of category).maxAge = s.settings.proxy.maxAge category
  past : ∀ e ∈ s.history, e.time ≤ s.now
  sorted : s.history.Pairwise fun a b => a.time ≤ b.time
  accounts : ∀ r, s.Accounted r

/-- The history lies in the past. -/
theorem past_goOn (past : ∀ e ∈ s.history, e.time ≤ s.now) {q : Proxy MemoryStore}
    (hlater : s.now ≤ q.coop.now) (incidents : List Incident) :
    ∀ e ∈ (s.goOn q incidents).history, e.time ≤ q.coop.now := by
  intro e he
  obtain hold | hnew := List.mem_append.mp he
  · exact Nat.le_trans (past e hold) hlater
  · obtain ⟨i, -, rfl⟩ := List.mem_map.mp hnew
    exact Nat.le_refl _

/-- The history is in order of time. -/
theorem sorted_goOn (past : ∀ e ∈ s.history, e.time ≤ s.now)
    (sorted : s.history.Pairwise fun a b => a.time ≤ b.time) {q : Proxy MemoryStore}
    (hlater : s.now ≤ q.coop.now) (incidents : List Incident) :
    (s.goOn q incidents).history.Pairwise fun a b => a.time ≤ b.time := by
  refine List.pairwise_append.mpr ⟨sorted, ?_, ?_⟩
  · rw [List.pairwise_map]
    exact List.pairwise_of_forall fun _ _ => Nat.le_refl _
  · intro e he x hx
    obtain ⟨i, -, rfl⟩ := List.mem_map.mp hx
    exact Nat.le_trans (past e he) hlater

/-- What an exchange for one key means for another: nothing. -/
theorem later_asked {q : Proxy MemoryStore} (hrests : Rests s.proxy q)
    (hcapacity : q.store.capacity = s.store.capacity) {r r' : Resource} {copy : Option Content}
    {request : OriginRequest} {reply : Except OriginFault Reply}
    (hother : r.key = r'.key → ¬ Stored s.store.capacity reply ∧ ¬ Confirmed copy reply) :
    Later s (s.goOn q [.asked r copy request reply]) r'.key
      [⟨q.coop.now, .asked r copy request reply⟩] where
  history := rfl
  capacity := hcapacity
  origin := hrests.origin
  others x hx := by
    obtain rfl := List.mem_singleton.mp hx
    refine ⟨?_, Incident.Asks.not_loses ⟨_, _, _, rfl⟩ _⟩
    rintro (⟨answer, bytes, _, _, _, ⟨⟩, hkey, hbrings⟩ | ⟨_, _, _, _, ⟨⟩, hkey, hconfirmed⟩)
    · exact (hother hkey).1 ⟨answer, bytes, rfl, hbrings⟩
    · exact (hother hkey).2 hconfirmed
  tokens := .inl ⟨by simp [Incident.Invalidates], fun category =>
    congrArg (fun cs : Controllers => (cs.of category).token) hrests.controllers⟩

/-- What an exchange leaves in the store is accounted for. -/
theorem accounted_asked (h : s.Sound) {r : Resource} {request : OriginRequest}
    {reply : Except OriginFault Reply} {result : Except Fault (Option Content)}
    {q : Proxy MemoryStore} (hrests : Rests s.proxy q)
    (hsettled : Settled s.store r (s.store.copy? r) (q.stampNow r) reply result q.store)
    (r' : Resource) : (s.goOn q [.asked r (s.store.copy? r) request reply]).Accounted r' := by
  have hissued : q.controllers.Issued := hrests.controllers ▸ h.issued
  have hasks : (Incident.asked r (s.store.copy? r) request reply).Asks r := ⟨_, _, _, rfl⟩
  have hother : (r.key = r'.key →
        ¬ Stored s.store.capacity reply ∧ ¬ Confirmed (s.store.copy? r) reply) →
      q.store.capacity = s.store.capacity → q.store.copy? r' = s.store.copy? r' →
      (s.goOn q [.asked r (s.store.copy? r) request reply]).Accounted r' :=
    fun hmeans hcapacity hcopy =>
      (h.accounts r').later h.issued (later_asked hrests hcapacity hmeans) hcopy
  generalize hstore : q.store = m at hsettled
  cases hsettled with
  | stored answer bytes replied brings =>
    subst replied
    have hcapacity : q.store.capacity = s.store.capacity := by
      rw [hstore, MemoryStore.keep_capacity]
    by_cases hkey : r'.key = r.key
    · have hbrings : (Incident.asked r (s.store.copy? r) request (.ok answer)).Brings
          q.store.capacity r'.key answer bytes := ⟨r, _, _, rfl, hkey.symm, hcapacity ▸ brings⟩
      have hcopy : q.store.copy? r' = some (answer.content bytes (q.stampNow r)) := by
        rw [hstore]
        exact MemoryStore.copy?_keep_self h.tidy h.room hkey bytes _
      exact accounted_stored rfl hissued hasks hbrings hcopy
    · refine hother (fun heq => absurd heq.symm hkey) hcapacity ?_
      rw [hstore]
      exact MemoryStore.copy?_keep_of_ne h.tidy hkey bytes _
  | confirmed answer c replied status known =>
    subst replied
    have hcapacity : q.store.capacity = s.store.capacity := by
      rw [hstore, MemoryStore.verify_capacity]
    by_cases hkey : r'.key = r.key
    · have htold : s.Told r'.key c :=
        (h.accounts r').told c ((MemoryStore.copy?_congr hkey).trans known)
      have hconfirms : (Incident.asked r (s.store.copy? r) request (.ok answer)).Confirms r'.key :=
        ⟨r, _, _, _, rfl, hkey.symm, answer, rfl, status, by simp [known]⟩
      have hcopy : q.store.copy? r' = some (c.withStamp (q.stampNow r)) := by
        rw [hstore, MemoryStore.copy?_verify_self hkey, known]
        rfl
      exact accounted_confirmed htold hcapacity rfl hissued hasks hconfirms hcopy
    · refine hother (fun heq => absurd heq.symm hkey) hcapacity ?_
      rw [hstore]
      exact MemoryStore.copy?_verify_of_ne hkey _
  | unchanged result failed unconfirmed kept =>
    exact hother (fun _ => ⟨failed, unconfirmed⟩) (congrArg MemoryStore.capacity hstore)
      (congrArg (MemoryStore.copy? · r') hstore)

/-- Where nothing is asked and nothing is lost, what there is stays accounted for. -/
theorem accounted_configured (h : s.Sound) {q : Proxy MemoryStore} (settings : Config)
    {incidents : List Incident} (hstore : q.store = s.store) (horigin : q.origin = s.proxy.origin)
    (hrenewed : Renewed s.proxy.controllers q.controllers incidents) (r : Resource) :
    ({ s with settings }.goOn q incidents).Accounted r := by
  have hcapacity : q.store.capacity = s.store.capacity := congrArg MemoryStore.capacity hstore
  have hcopy : q.store.copy? r = s.store.copy? r := congrArg (MemoryStore.copy? · r) hstore
  cases hrenewed with
  | kept tokens =>
    have hlater : Later s ({ s with settings }.goOn q []) r.key [] :=
      ⟨rfl, hcapacity, horigin, by simp, .inl ⟨by simp, tokens⟩⟩
    exact (h.accounts r).later h.issued hlater hcopy
  | renewed i invalidates tokens =>
    have hothers : ¬ i.Succeeds s.store.capacity r.key := fun hsuccess =>
      hsuccess.not_invalidates invalidates
    have hlater : Later s ({ s with settings }.goOn q [i]) r.key [⟨q.coop.now, i⟩] :=
      ⟨rfl, hcapacity, horigin, by simpa using ⟨hothers, invalidates.not_loses r.key⟩,
        .inr ⟨⟨_, List.mem_singleton_self _, invalidates⟩, tokens⟩⟩
    exact (h.accounts r).later h.issued hlater hcopy

/-- What is left after a loss is accounted for. -/
theorem accounted_dropped (h : s.Sound) {r : Resource} {m : MemoryStore}
    (hdropped : MemoryStore.Dropped s.store r m) (r' : Resource) :
    (s.goOn { s.proxy with store := m } [.lost r.key]).Accounted r' := by
  by_cases hkey : r'.key = r.key
  · refine accounted_lost (s := s) ?_ (hdropped.copy?_self hkey)
    rw [hkey]
    rfl
  · have hlater : Later s (s.goOn { s.proxy with store := m } [.lost r.key]) r'.key
        [⟨s.now, .lost r.key⟩] := by
      refine ⟨rfl, hdropped.capacity, rfl, ?_, .inl ⟨by simp [Incident.Invalidates], fun _ => rfl⟩⟩
      intro x hx
      obtain rfl := List.mem_singleton.mp hx
      exact ⟨fun hsuccess => hsuccess.not_loses r.key rfl,
        fun hloses => hkey (Incident.lost.inj hloses).symm⟩
    exact (h.accounts r').later h.issued hlater (hdropped.copy?_of_ne h.tidy hkey)

/-- Every turn keeps a session sound. -/
theorem Sound.turn (h : s.Sound) (hturn : Turn s s') : s'.Sound := by
  cases hturn with
  | quiet q rests store later =>
    have htidy : q.store.Tidy := store ▸ h.tidy
    have hroom : q.store.capacity ≠ 0 := store ▸ h.room
    have hrenewed : Renewed s.proxy.controllers q.controllers [] := .kept fun category =>
      congrArg (fun cs : Controllers => (cs.of category).token) rests.controllers
    exact ⟨rests.table, htidy, hroom, rests.remote ▸ h.base, rests.controllers ▸ h.issued,
      rests.controllers ▸ h.ages, past_goOn h.past later [], sorted_goOn h.past h.sorted later [],
      accounted_configured h s.settings store rests.origin hrenewed⟩
  | asked r request reply result q rests later settled =>
    have hroom : q.store.capacity ≠ 0 := settled.capacity_eq ▸ h.room
    exact ⟨rests.table, settled.tidy h.tidy, hroom, rests.remote ▸ h.base,
      rests.controllers ▸ h.issued, rests.controllers ▸ h.ages, past_goOn h.past later _,
      sorted_goOn h.past h.sorted later _, accounted_asked h rests settled⟩
  | lost r m dropped =>
    have hroom : m.capacity ≠ 0 := dropped.capacity ▸ h.room
    exact ⟨h.free, dropped.tidy h.tidy, hroom, h.base, h.issued, h.ages,
      past_goOn h.past (Nat.le_refl _) _, sorted_goOn h.past h.sorted (Nat.le_refl _) _,
      accounted_dropped h dropped⟩
  | configured q settings incidents store coop origin base issued ages renewed =>
    have htable : q.coop.table = [] := coop ▸ h.free
    have htidy : q.store.Tidy := store ▸ h.tidy
    have hroom : q.store.capacity ≠ 0 := store ▸ h.room
    have hnow : s.now ≤ q.coop.now := Nat.le_of_eq (congrArg Cooperation.now coop.symm)
    exact ⟨htable, htidy, hroom, base h.base, issued h.issued, ages h.ages, past_goOn h.past hnow _,
      sorted_goOn h.past h.sorted hnow _, accounted_configured h settings store origin renewed⟩

end PullCache.Proxy.Session
