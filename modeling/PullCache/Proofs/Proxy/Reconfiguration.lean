import PullCache.Proofs.Proxy.Session
/-!
# Proofs.Proxy.Reconfiguration

Updates one after the other. An update with a remote that cannot be used fails and changes nothing.
Any other one puts the remote, the timeouts and the maximum ages in place, and leaves the calls and
the leases alone; it gives both categories new tokens just if the remote is another one
(`outcome_of_update`). So a stamp from before is refused after a number of updates if one of them
changed the remote, even if a later one changed it back (`update_law`).
-/

namespace PullCache

/-! ## Stamps that are refused -/

namespace Controller

/-- The stamp has a token, and it is not the one that the controller has now. -/
def Refuses (c : Controller) (stamp : Stamp) : Prop :=
  ∃ token, stamp.token = some token ∧ token ≠ c.token

/-- Refusal can be decided. -/
theorem refuses_iff_any (c : Controller) (stamp : Stamp) :
    c.Refuses stamp ↔ stamp.token.any (· ≠ c.token) = true := by
  simp [Refuses, Option.any_eq_true]

/-- A stamp that is refused is stale at any time; the token of any other stamp makes no difference. -/
theorem isStale_iff_refuses (c : Controller) (stamp : Stamp) (now : Instant) :
    c.isStale (some stamp) now = true ↔
      c.Refuses stamp ∨ c.isStale (some { stamp with token := none }) now = true := by
  rw [refuses_iff_any]
  by_cases h : stamp.token.any (· ≠ c.token) = true
  · rw [isStale, if_pos h]
    exact iff_of_true rfl (.inl h)
  · rw [or_iff_right h, isStale, if_neg h]
    rfl

/-- A stamp that a controller gave is refused exactly if the token has changed. -/
theorem refuses_stampAt_iff (c issuer : Controller) (t : Instant) :
    c.Refuses (issuer.stampAt t) ↔ c.token ≠ issuer.token := by
  simp [Refuses, stampAt, eq_comm]

end Controller

namespace Proxy

variable {σ : Type} {ops : StoreOps σ} {p q : Proxy σ} {config : Config} {configs : List Config}

/-! ## One update -/

/-- The proxy after an update, whether it succeeded or not. -/
def afterUpdate (p : Proxy σ) (config : Config) : Proxy σ :=
  (p.update config).2

/-- What an update that succeeds does. -/
structure Reconfigured (p q : Proxy σ) (config : Config) : Prop where
  remote : Remote.normalize config.proxy.remoteUrl = .ok q.remote
  passive : q.passive = config.cooperation.passiveTimeout
  active : q.active = config.cooperation.activeTimeout
  maxAge : ∀ category, (q.controllers.of category).maxAge = config.proxy.maxAge category
  /-- The calls, the leases and the table of leases. -/
  coop : q.coop = p.coop
  content : q.store = p.store ∧ q.streams = p.streams
  ongoing : q.gets = p.gets ∧ q.fetches = p.fetches ∧ q.origin = p.origin
  /-- Nothing is left to do of this change, and the others go on. -/
  changes : q.changes = p.changes ++ [[]]
  token_eq_iff : ∀ category, (q.controllers.of category).token = (p.controllers.of category).token ↔
    q.remote.text = p.remote.text
  /-- The new tokens were never given out before. -/
  rotated : q.remote.text ≠ p.remote.text →
    ∀ category, q.controllers.IssuedSince p.controllers.nextToken category

/-- What can come of an update. -/
inductive UpdateOutcome (p : Proxy σ) (config : Config) : Proxy σ → Prop where
  | failed (fault : Fault) (answer : (p.update config).1 = .error fault)
      (unusable : Remote.normalize config.proxy.remoteUrl = .error fault) : UpdateOutcome p config p
  | succeeded (q : Proxy σ) (answer : (p.update config).1 = .ok ()) (done : Reconfigured p q config) :
      UpdateOutcome p config q

end Proxy

namespace Controllers

variable {cs : Controllers} {category : Category} {floor : Nat}

/-- A token that is given out from now on is not one that is in use. -/
theorem IssuedSince.token_ne (h : cs.IssuedSince floor category) {n : Nat} (hn : n < floor) :
    (cs.of category).token ≠ .issued n := by
  obtain ⟨m, hm, hle⟩ := h
  rw [hm, ne_eq, Token.issued.injEq]
  omega

/-- What was given out since then was given out since any earlier time. -/
theorem IssuedSince.mono {lower : Nat} (h : cs.IssuedSince floor category) (hle : lower ≤ floor) :
    cs.IssuedSince lower category := by
  obtain ⟨n, hn, hfloor⟩ := h
  exact ⟨n, hn, Nat.le_trans hle hfloor⟩

/-- Only the token counts. -/
theorem IssuedSince.of_token_eq {cs' : Controllers} (h : cs.IssuedSince floor category)
    (htoken : (cs'.of category).token = (cs.of category).token) :
    cs'.IssuedSince floor category := by
  obtain ⟨n, hn, hfloor⟩ := h
  exact ⟨n, htoken.trans hn, hfloor⟩

/-- The maximum ages of the settings are put in place. -/
theorem maxAge_setMaxAges (cs : Controllers) (settings : ProxySection) (category : Category) :
    ((cs.setMaxAges settings.contentMaxAge settings.metadataMaxAge).of category).maxAge =
      settings.maxAge category := by
  cases category <;> rfl

/-- New maximum ages come with the old tokens. -/
theorem token_setMaxAges (cs : Controllers) (contentMaxAge metadataMaxAge : Int)
    (category : Category) :
    ((cs.setMaxAges contentMaxAge metadataMaxAge).of category).token = (cs.of category).token := by
  cases category <;> rfl

/-- New tokens come with the old maximum ages. -/
theorem maxAge_rotateAll (cs : Controllers) (category : Category) :
    (cs.rotateAll.of category).maxAge = (cs.of category).maxAge := by
  cases category <;> rfl

/-- Rotated tokens were never given out before. -/
theorem issuedSince_rotateAll (h : floor ≤ cs.nextToken) (category : Category) :
    cs.rotateAll.IssuedSince floor category := by
  cases category with
  | content => exact ⟨cs.nextToken, rfl, h⟩
  | metadata => exact ⟨cs.nextToken + 1, rfl, by omega⟩

end Controllers

namespace Proxy

variable {σ : Type} {ops : StoreOps σ} {p q : Proxy σ} {config : Config} {configs : List Config}

/-- An update that succeeds does all that it should. -/
theorem reconfigured_of_update (hissued : p.controllers.Issued)
    (h : p.update config = (.ok (), q)) :
    Reconfigured p q config := by
  obtain ⟨hremote, hstore, hcoop, horigin, hcontrollers⟩ := update_eq_ok h
  have hmaxAges := Controllers.maxAge_setMaxAges p.controllers config.proxy
  have hrest : q.passive = config.cooperation.passiveTimeout ∧
      q.active = config.cooperation.activeTimeout ∧ q.streams = p.streams ∧ q.gets = p.gets ∧
      q.fetches = p.fetches ∧ q.changes = p.changes ++ [[]] := by
    unfold update at h
    split at h
    · cases h
    · cases h
      simp [completeChange, beginUpdate]
  obtain ⟨hpassive, hactive, hstreams, hgets, hfetches, hchanges⟩ := hrest
  by_cases hsame : q.remote.text = p.remote.text
  · rw [if_pos hsame.symm] at hcontrollers
    have htoken : ∀ category,
        (q.controllers.of category).token = (p.controllers.of category).token := by
      intro category
      rw [hcontrollers, Controllers.token_setMaxAges]
    exact {
      remote := hremote
      passive := hpassive
      active := hactive
      maxAge := fun category => by rw [hcontrollers, hmaxAges]
      coop := hcoop
      content := ⟨hstore, hstreams⟩
      ongoing := ⟨hgets, hfetches, horigin⟩
      changes := hchanges
      token_eq_iff := fun category => iff_of_true (htoken category) hsame
      rotated := fun hother => absurd hsame hother }
  · rw [if_neg (fun h => hsame h.symm)] at hcontrollers
    have hsince : ∀ category, q.controllers.IssuedSince p.controllers.nextToken category := by
      intro category
      rw [hcontrollers]
      exact Controllers.issuedSince_rotateAll (Nat.le_refl _) category
    have htoken : ∀ category,
        (q.controllers.of category).token ≠ (p.controllers.of category).token := by
      intro category
      obtain ⟨n, hn, hlt⟩ := hissued category
      rw [hn]
      exact (hsince category).token_ne hlt
    exact {
      remote := hremote
      passive := hpassive
      active := hactive
      maxAge := fun category => by rw [hcontrollers, Controllers.maxAge_rotateAll, hmaxAges]
      coop := hcoop
      content := ⟨hstore, hstreams⟩
      ongoing := ⟨hgets, hfetches, horigin⟩
      changes := hchanges
      token_eq_iff := fun category => iff_of_false (htoken category) hsame
      rotated := fun _ => hsince }

/-- An update fails with nothing changed, or succeeds. -/
theorem update_cases (p : Proxy σ) (config : Config) :
    (∃ fault, Remote.normalize config.proxy.remoteUrl = .error fault ∧
      p.update config = (.error fault, p)) ∨ p.update config = (.ok (), p.afterUpdate config) := by
  unfold afterUpdate
  cases hupdate : p.update config with
  | mk result q =>
    cases result with
    | error fault =>
      obtain ⟨hunusable, rfl⟩ := update_eq_error_iff.mp hupdate
      exact .inl ⟨fault, hunusable, rfl⟩
    | ok _ => exact .inr rfl

/-- **One update.** It fails and changes nothing, or puts all the new settings in place. -/
theorem outcome_of_update (hissued : p.controllers.Issued) (config : Config) :
    UpdateOutcome p config (p.afterUpdate config) := by
  obtain ⟨fault, hunusable, hupdate⟩ | hupdate := p.update_cases config
  · rw [afterUpdate, hupdate]
    exact .failed fault (congrArg Prod.fst hupdate) hunusable
  · exact .succeeded _ (congrArg Prod.fst hupdate) (reconfigured_of_update hissued hupdate)

/-! ## Updates as steps of a run -/

/-- The steps that are left of a change complete it. -/
theorem run_change {n : Nat} {steps : List ChangeStep} (h : p.changes[n]? = some steps) :
    p.run ops (List.replicate steps.length (.change n)) = some (p.completeChange n) := by
  induction steps generalizing p with
  | nil =>
    have hchanges : p.changes.set n [] = p.changes := by
      obtain ⟨hlt, hget⟩ := List.getElem?_eq_some_iff.mp h
      rw [← hget, List.set_getElem_self]
    simp [completeChange, h, hchanges, run]
  | cons first rest ih =>
    have hlt := (List.getElem?_eq_some_iff.mp h).1
    have hstep : p.step ops (.change n) = some { p with
        controllers := applyChange p.controllers first
        changes := p.changes.set n rest } := by
      simp [step, change, h]
    have hrest : (p.changes.set n rest)[n]? = some rest := List.getElem?_set_self hlt
    rw [List.length_cons, List.replicate_succ, run_cons, hstep, Option.bind_some, ih hrest]
    simp only [completeChange, h, hrest, Option.getD_some, List.foldl_cons, List.set_set]

/-- An event that begins an update or goes on with a change of settings. -/
def Configures (e : ProxyEvent) : Prop :=
  isUpdate e = true ∨ ∃ n, e = .change n

/-- An update that succeeds is a run of its steps. -/
theorem run_of_update (ops : StoreOps σ) (h : p.update config = (.ok (), q)) :
    ∃ events, (∀ e ∈ events, Configures e) ∧ p.run ops events = some q := by
  unfold update at h
  split at h
  · cases h
  · next remote hremote =>
    cases h
    let begun := p.beginUpdate remote config.cooperation.passiveTimeout
      config.cooperation.activeTimeout config.proxy.contentMaxAge config.proxy.metadataMaxAge
    have hsteps : begun.changes[p.changes.length]? = some _ := List.getElem?_concat_length
    refine ⟨.update remote config.cooperation.passiveTimeout config.cooperation.activeTimeout
      config.proxy.contentMaxAge config.proxy.metadataMaxAge ::
      List.replicate _ (.change p.changes.length), ?_, run_change hsteps⟩
    intro e he
    obtain rfl | hchange := List.mem_cons.mp he
    · exact .inl rfl
    · exact .inr ⟨_, (List.mem_replicate.mp hchange).2⟩

/-! ## One update after the other -/

/-- The proxy after a number of updates, whichever of them succeeded. -/
def afterUpdates (p : Proxy σ) (configs : List Config) : Proxy σ :=
  configs.foldl afterUpdate p

@[simp] theorem afterUpdates_nil (p : Proxy σ) : p.afterUpdates [] = p := by
  simp only [afterUpdates, List.foldl_nil]

@[simp] theorem afterUpdates_cons (p : Proxy σ) (config : Config) (configs : List Config) :
    p.afterUpdates (config :: configs) = (p.afterUpdate config).afterUpdates configs := by
  simp only [afterUpdates, List.foldl_cons]

theorem afterUpdates_concat (p : Proxy σ) (configs : List Config) (config : Config) :
    p.afterUpdates (configs ++ [config]) = (p.afterUpdates configs).afterUpdate config := by
  simp [afterUpdates]

/-- The updates lead where a run of the proxy leads. -/
theorem run_of_updates (ops : StoreOps σ) (p : Proxy σ) (configs : List Config) :
    ∃ events, (∀ e ∈ events, Configures e) ∧
      p.run ops events = some (p.afterUpdates configs) := by
  induction configs generalizing p with
  | nil => exact ⟨[], by simp, by rw [run, afterUpdates_nil]⟩
  | cons config rest ih =>
    rw [afterUpdates_cons]
    obtain ⟨fault, -, hupdate⟩ | hupdate := p.update_cases config
    · rw [afterUpdate, hupdate]
      exact ih p
    · obtain ⟨first, hfirst, hrun⟩ := run_of_update ops hupdate
      obtain ⟨later, hlater, hrest⟩ := ih (p.afterUpdate config)
      refine ⟨first ++ later, fun e he => ?_, ?_⟩
      · exact (List.mem_append.mp he).elim (hfirst e) (hlater e)
      · rw [run_append, hrun, Option.bind_some, hrest]

/-- One of the updates puts another remote in place than the one that was there just before it. -/
def Moves (p : Proxy σ) (configs : List Config) : Prop :=
  ∃ before config after q, configs = before ++ config :: after ∧
    (p.afterUpdates before).update config = (.ok (), q) ∧
    q.remote.text ≠ (p.afterUpdates before).remote.text

/-- The remote is changed by the first update or by a later one. -/
theorem moves_cons {rest : List Config} : p.Moves (config :: rest) ↔
    (∃ q, p.update config = (.ok (), q) ∧ q.remote.text ≠ p.remote.text) ∨
      (p.afterUpdate config).Moves rest := by
  constructor
  · rintro ⟨before, changing, after, q, hconfigs, hupdate, hother⟩
    cases before with
    | nil =>
      obtain ⟨rfl, -⟩ := List.cons.inj hconfigs
      rw [afterUpdates_nil] at hupdate hother
      exact .inl ⟨q, hupdate, hother⟩
    | cons first earlier =>
      obtain ⟨rfl, hrest⟩ := List.cons.inj hconfigs
      rw [afterUpdates_cons] at hupdate hother
      exact .inr ⟨earlier, changing, after, q, hrest, hupdate, hother⟩
  · rintro (⟨q, hupdate, hother⟩ | ⟨before, changing, after, q, rfl, hupdate, hother⟩)
    · rw [← afterUpdates_nil p] at hupdate hother
      exact ⟨[], config, rest, q, rfl, hupdate, hother⟩
    · rw [← afterUpdates_cons] at hupdate hother
      exact ⟨config :: before, changing, after, q, rfl, hupdate, hother⟩

/-- After the updates all tokens in use are ones that were given out. -/
theorem issued_afterUpdates (ops : StoreOps σ) (hissued : p.controllers.Issued)
    (configs : List Config) : (p.afterUpdates configs).controllers.Issued := by
  obtain ⟨events, -, hrun⟩ := run_of_updates ops p configs
  exact issued_of_run hissued hrun

/-- Updates take no token back. -/
theorem nextToken_le_afterUpdates (ops : StoreOps σ) (p : Proxy σ) (configs : List Config) :
    p.controllers.nextToken ≤ (p.afterUpdates configs).controllers.nextToken := by
  obtain ⟨events, -, hrun⟩ := run_of_updates ops p configs
  exact nextToken_le_of_run hrun

/-- The token of a category after a number of updates: the one from before, or one that was not given
out yet when the updates began. -/
theorem token_of_updates (ops : StoreOps σ) (hissued : p.controllers.Issued)
    (configs : List Config) (category : Category) :
    ¬p.Moves configs ∧ ((p.afterUpdates configs).controllers.of category).token =
        (p.controllers.of category).token ∨
      p.Moves configs ∧
        (p.afterUpdates configs).controllers.IssuedSince p.controllers.nextToken category := by
  induction configs generalizing p with
  | nil => exact .inl ⟨by simp [Moves], by rw [afterUpdates_nil]⟩
  | cons config rest ih =>
    have hnext := issued_afterUpdates ops hissued [config]
    have hle := nextToken_le_afterUpdates ops p [config]
    rw [afterUpdates_cons, afterUpdates_nil] at hnext hle
    rw [afterUpdates_cons, moves_cons]
    obtain ⟨hstays, hsame⟩ | ⟨hmoves, hsince⟩ := ih hnext
    · obtain ⟨fault, -, hupdate⟩ | hupdate := p.update_cases config
      · have hafter : p.afterUpdate config = p := congrArg Prod.snd hupdate
        rw [hafter] at hstays hsame ⊢
        exact .inl ⟨by simp [hupdate, hstays], hsame⟩
      · have hdone := reconfigured_of_update hissued hupdate
        by_cases hother : (p.afterUpdate config).remote.text = p.remote.text
        · have hkept := (hdone.token_eq_iff category).mpr hother
          exact .inl ⟨by simp [hupdate, hstays, hother], hsame.trans hkept⟩
        · have hrotated := hdone.rotated hother category
          exact .inr ⟨.inl ⟨_, hupdate, hother⟩, hrotated.of_token_eq hsame⟩
    · exact .inr ⟨.inr hmoves, hsince.mono hle⟩

/-- A stamp with a token that was given out before the updates is refused after them if it was
refused already, or if one of them changed the remote. -/
theorem refuses_afterUpdates_iff (ops : StoreOps σ) (hissued : p.controllers.Issued)
    (configs : List Config) (category : Category) {stamp : Stamp} {n : Nat}
    (hstamp : stamp.token = some (.issued n)) (hn : n < p.controllers.nextToken) :
    ((p.afterUpdates configs).controllers.of category).Refuses stamp ↔
      (p.controllers.of category).Refuses stamp ∨ p.Moves configs := by
  obtain ⟨hstays, hsame⟩ | ⟨hmoves, hsince⟩ := token_of_updates ops hissued configs category
  · simp [Controller.Refuses, hsame, hstays]
  · have hne := (hsince.token_ne hn).symm
    simp [Controller.Refuses, hstamp, hmoves, hne]

/-- **Updates one after the other.** Let a proxy be in any state that a run leads to, with calls and
fetches under way, and let a number of updates follow.

* Each of them fails and leaves everything as it was, or succeeds: then it puts the remote, the
  timeouts and the maximum ages in place, keeps the calls and the leases, and gives both categories
  new tokens just if the remote is another one.
* A stamp of the state before the updates is refused after them if and only if one of them changed
  the remote, whatever the later ones did; otherwise its token makes no difference to the verdict. A
  stamp of any earlier state of the run is refused also if it was refused already.
* What the updates do are steps of the proxy, so the state after them is one that a run leads to. -/
theorem update_law {start : Proxy σ} {initial : Config} {store : σ} {origin : Instant}
    {events : List ProxyEvent} (hnew : Proxy.new initial store origin = .ok start)
    (hrun : start.run ops events = some p) (configs : List Config) :
    (∀ before config after, configs = before ++ config :: after →
      UpdateOutcome (p.afterUpdates before) config (p.afterUpdates (before ++ [config]))) ∧
    (∀ category t, ((p.afterUpdates configs).controllers.of category).Refuses
      ((p.controllers.of category).stampAt t) ↔ p.Moves configs) ∧
    (∀ category t now, ((p.afterUpdates configs).controllers.of category).isStale
        (some ((p.controllers.of category).stampAt t)) now = true ↔
      p.Moves configs ∨ ((p.afterUpdates configs).controllers.of category).isStale
        (some { (p.controllers.of category).stampAt t with token := none }) now = true) ∧
    (∀ k earlier category t, start.run ops (events.take k) = some earlier →
      (((p.afterUpdates configs).controllers.of category).Refuses
          ((earlier.controllers.of category).stampAt t) ↔
        (p.controllers.of category).Refuses ((earlier.controllers.of category).stampAt t) ∨
          p.Moves configs)) ∧
    ∃ steps, (∀ e ∈ steps, Configures e) ∧ p.run ops steps = some (p.afterUpdates configs) := by
  obtain ⟨-, -, -, hstart⟩ := new_eq_ok hnew
  have hissued := issued_of_run hstart hrun
  -- A stamp of any state that came before is refused exactly if its token has been replaced.
  have hrefused : ∀ (r : Proxy σ) category t, r.controllers.Issued →
      r.controllers.nextToken ≤ p.controllers.nextToken →
      (((p.afterUpdates configs).controllers.of category).Refuses
          ((r.controllers.of category).stampAt t) ↔
        (p.controllers.of category).Refuses ((r.controllers.of category).stampAt t) ∨
          p.Moves configs) := by
    intro r category t hr hle
    obtain ⟨n, hn, hlt⟩ := hr category
    have hstamp : ((r.controllers.of category).stampAt t).token = some (.issued n) := by
      simp [Controller.stampAt, hn]
    exact refuses_afterUpdates_iff ops hissued configs category hstamp (by omega)
  have hown : ∀ category t, ((p.afterUpdates configs).controllers.of category).Refuses
      ((p.controllers.of category).stampAt t) ↔ p.Moves configs := by
    intro category t
    simpa [Controller.refuses_stampAt_iff] using hrefused p category t hissued (Nat.le_refl _)
  refine ⟨?_, hown, ?_, ?_, run_of_updates ops p configs⟩
  · intro before config after _
    rw [afterUpdates_concat]
    exact outcome_of_update (issued_afterUpdates ops hissued before) config
  · intro category t now
    rw [Controller.isStale_iff_refuses, hown]
  · intro k earlier category t hk
    have hlater : earlier.run ops (events.drop k) = some p := by
      rwa [← List.take_append_drop k events, run_append, hk] at hrun
    exact hrefused earlier category t (issued_of_run hstart hk) (nextToken_le_of_run hlater)

/-- Settings with another remote than the old one. -/
def newConfig : Config := { proxy := { remoteUrl := "https://new.test/repo/" } }

/-- Settings that name no remote. -/
def nowhereConfig : Config := { proxy := { remoteUrl := "nowhere" } }

theorem normalize_newRemote : Remote.normalize "https://new.test/repo/" = .ok newRemote := by
  decide +kernel

theorem normalize_nowhere : Remote.normalize "nowhere" =
    .error (Remote.invalidUrl "nowhere" .relative) := by
  decide +kernel

/-- A remote that can be used is put in place, and the calls go on. -/
theorem update_of_normalize (p : Proxy σ) (config : Config) {remote : Url}
    (h : Remote.normalize config.proxy.remoteUrl = .ok remote) :
    ∃ q, p.update config = (.ok (), q) ∧ q.remote = remote ∧ q.coop = p.coop := by
  unfold update
  rw [h]
  exact ⟨_, rfl, rfl, rfl⟩

/-- While a request is under way the remote is changed, then to one that cannot be used, and back
again. All copies are refused, though the remote is the one from before and the call goes on. -/
theorem refused_there_and_back :
    Proxy.new oldConfig (.empty 1000) (.ofMillis 0) = .ok oldStart ∧
    oldStart.run MemoryStore.ops asked = some waiting ∧
    (∃ fault, ((waiting.afterUpdates [newConfig]).update nowhereConfig).1 = .error fault) ∧
    (waiting.afterUpdates [newConfig, nowhereConfig, oldConfig]).remote = waiting.remote ∧
    (waiting.afterUpdates [newConfig, nowhereConfig, oldConfig]).coop = waiting.coop ∧
    ∀ category t, ((waiting.afterUpdates [newConfig, nowhereConfig, oldConfig]).controllers.of
      category).Refuses ((waiting.controllers.of category).stampAt t) := by
  have hrun : oldStart.run MemoryStore.ops asked = some waiting := rfl
  obtain ⟨q, hq, hremote, hcoop⟩ := update_of_normalize waiting newConfig normalize_newRemote
  have hnowhere : q.update nowhereConfig = (.error _, q) :=
    update_eq_error_iff.mpr ⟨normalize_nowhere, rfl⟩
  obtain ⟨r, hr, hback, hcoop'⟩ := update_of_normalize q oldConfig normalize_oldRemote
  have hfirst : waiting.afterUpdates [newConfig] = q := by
    simp only [afterUpdates_cons, afterUpdates_nil, afterUpdate, hq]
  have hafter : waiting.afterUpdates [newConfig, nowhereConfig, oldConfig] = r := by
    simp only [afterUpdates_cons, afterUpdates_nil, afterUpdate, hq, hnowhere, hr]
  have hmoves : waiting.Moves [newConfig, nowhereConfig, oldConfig] := by
    have hother : newRemote.text ≠ waiting.remote.text := by decide
    exact moves_cons.mpr (.inl ⟨q, hq, by rwa [hremote]⟩)
  obtain ⟨-, hrefuses, -⟩ := update_law new_oldConfig hrun [newConfig, nowhereConfig, oldConfig]
  refine ⟨new_oldConfig, hrun, ⟨_, by rw [hfirst, hnowhere]⟩, ?_, ?_, fun category t =>
    (hrefuses category t).mpr hmoves⟩
  · rw [hafter, hback]
    rfl
  · rw [hafter, hcoop', hcoop]

end Proxy

end PullCache
