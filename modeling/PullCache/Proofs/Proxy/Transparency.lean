import PullCache.Proofs.Proxy.Session
/-!
# Proofs.Proxy.Transparency

For clients that take turns, sharing work makes no difference. A get that nobody else disturbs is
answered alike by the proxy that starts its work for a lease, publishes the outcome and gives up the
key, and by the proxy that does the work inside the call: both serve what the store, the settings and
the origin have to say (`get_serves`). So two proxies that look alike from outside (`Alike`) go on
looking alike, whether one of them shares and the other one does not.

Each call is at its end, and its key given up, before the next one starts.
-/

namespace PullCache

/-- The settings with sharing turned off. -/
def Config.unshared (c : Config) : Config :=
  { c with cooperation := { c.cooperation with passiveTimeoutSecs := 0 } }

namespace Proxy

/-! ## Uses of a proxy -/

/-- What clients and operators do, one thing after the other. -/
inductive Use where
  | get (resource : Resource)
  | invalidate
  | update (config : Config)
  /-- Nothing for some time. -/
  | pass (nanos : Nat)

/-- The same with sharing turned off. -/
def Use.unshared : Use → Use
  | .update config => .update config.unshared
  | use => use

inductive Answer where
  /-- What a get has come to. -/
  | got (state : GetState)
  /-- Whether the settings could be used. -/
  | updated (result : Except Fault Unit)
  | done

/-- The answer is not one of a get that goes on, or came to an end without a result. -/
def Answer.IsResult : Answer → Prop
  | .got state => ∃ result, state = .returned result
  | _ => True

section Uses

variable {ω : Type} (origin : OriginRequest → ω → Except OriginFault Reply × Nat × ω)

def perform (p : Proxy MemoryStore) (w : ω) : Use → Answer × Proxy MemoryStore × ω
  | .get r =>
    let got := p.get MemoryStore.ops origin w r
    (.got (got.2.1.getState p.gets.length), got.2)
  | .invalidate => (.done, p.invalidate, w)
  | .update config =>
    let (result, q) := p.update config
    (.updated result, q, w)
  | .pass nanos => (.done, p.after MemoryStore.ops (.tick nanos), w)

def performAll (p : Proxy MemoryStore) (w : ω) : List Use → List Answer × Proxy MemoryStore × ω
  | [] => ([], p, w)
  | use :: rest =>
    let (answer, q, w) := p.perform origin w use
    let (answers, q, w) := q.performAll w rest
    (answer :: answers, q, w)

end Uses

/-! ## Proxies that look alike -/

/-- The proxies look alike from outside, and nothing is under way in either. -/
structure Alike (p q : Proxy MemoryStore) : Prop where
  outward : p.outward = q.outward
  free : p.coop.table = []
  free' : q.coop.table = []

variable {p q : Proxy MemoryStore} {ω : Type}
  (origin : OriginRequest → ω → Except OriginFault Reply × Nat × ω)

/-- A get is performed as a get that nothing runs beside. -/
theorem perform_get {w w' : ω} {r : Resource} {result : Except Fault (Option Content)}
    (h : p.get MemoryStore.ops origin w r = (result, q, w')) :
    p.perform origin w (.get r) = (.got (q.getState p.gets.length), q, w') := by
  unfold Proxy.perform
  dsimp only
  rw [h]

theorem perform_update (w : ω) (config : Config) : p.perform origin w (.update config) =
    (.updated (p.update config).1, (p.update config).2, w) := by
  rw [perform]

/-- What an update comes to does not depend on the timeouts. -/
def Outward.updated (o : Outward) (config : Config) : Except Fault Unit × Outward :=
  match Remote.normalize config.proxy.remoteUrl with
  | .error fault => (.error fault, o)
  | .ok remote =>
    let aged := o.controllers.setMaxAges config.proxy.contentMaxAge config.proxy.metadataMaxAge
    (.ok (), { o with
      remote
      controllers := if o.remote.text = remote.text then aged else aged.rotateAll })

/-- What an update does outwardly. -/
theorem outward_update (p : Proxy MemoryStore) (config : Config) :
    ((p.update config).1, (p.update config).2.outward) = p.outward.updated config := by
  unfold update Outward.updated
  cases Remote.normalize config.proxy.remoteUrl with
  | error fault => rfl
  | ok remote =>
    by_cases hsame : p.remote.text = remote.text
    · simp [completeChange, beginUpdate, outward, hsame, applyChange]
      rfl
    · simp [completeChange, beginUpdate, outward, hsame, invalidationSteps, applyChange]
      rfl

/-- No update touches the calls and the leases. -/
theorem coop_update (p : Proxy MemoryStore) (config : Config) : (p.update config).2.coop = p.coop := by
  unfold update
  split <;> rfl

/-- The same update is refused by both, or made by both. -/
theorem Alike.update (h : Alike p q) (config : Config) :
    (p.update config).1 = (q.update config.unshared).1 ∧
      Alike (p.update config).2 (q.update config.unshared).2 := by
  have hsame := outward_update p config
  rw [h.outward, show q.outward.updated config = q.outward.updated config.unshared from rfl,
    ← outward_update] at hsame
  obtain ⟨hresult, houtward⟩ := Prod.mk.inj hsame
  exact ⟨hresult, houtward, by rw [coop_update, h.free], by rw [coop_update, h.free']⟩

/-- A get is answered alike, with the same requests. -/
theorem Alike.get (h : Alike p q) (w : ω) (r : Resource) : ∃ result p' q' w',
    p.get MemoryStore.ops origin w r = (result, p', w') ∧
    q.get MemoryStore.ops origin w r = (result, q', w') ∧
    p'.getState p.gets.length = .returned result ∧
    q'.getState q.gets.length = .returned result ∧ Alike p' q' := by
  obtain ⟨p', hget, hreturned, hrests, houtward⟩ := get_serves origin h.free w r
  obtain ⟨q', hget', hreturned', hrests', houtward'⟩ := get_serves origin h.free' w r
  rw [← h.outward] at hget' hreturned' houtward'
  exact ⟨_, p', q', _, hget, hget', hreturned, hreturned', houtward.trans houtward'.symm, hrests.table,
    hrests'.table⟩

/-- Whatever is done to proxies that look alike, they answer alike and look alike afterwards. -/
theorem Alike.perform (h : Alike p q) (w : ω) (use : Use) : ∃ answer p' q' w',
    p.perform origin w use = (answer, p', w') ∧
    q.perform origin w use.unshared = (answer, q', w') ∧ answer.IsResult ∧ Alike p' q' := by
  cases use with
  | get r =>
    obtain ⟨result, p', q', w', hget, hget', hreturned, hreturned', halike⟩ := h.get origin w r
    have hp := perform_get origin hget
    have hq := perform_get origin hget'
    rw [hreturned] at hp
    rw [hreturned'] at hq
    have hresult : (Answer.got (.returned result)).IsResult := ⟨result, rfl⟩
    exact ⟨_, p', q', w', hp, hq, hresult, halike⟩
  | invalidate =>
    have hcontrollers : p.controllers = q.controllers := congrArg Outward.controllers h.outward
    have houtward : p.invalidate.outward = q.invalidate.outward := by
      have hsame : ∀ p : Proxy MemoryStore, p.invalidate.outward =
          { p.outward with controllers := p.controllers.rotateAll } := by
        intro p
        rw [← controllers_invalidate]
        rfl
      rw [hsame, hsame, h.outward, hcontrollers]
    exact ⟨.done, p.invalidate, q.invalidate, w, rfl, rfl, trivial, houtward, h.free, h.free'⟩
  | update config =>
    obtain ⟨hresult, halike⟩ := h.update config
    have hq := perform_update (p := q) origin w config.unshared
    rw [← hresult] at hq
    exact ⟨_, _, _, w, perform_update origin w config, hq, trivial, halike⟩
  | pass nanos =>
    have houtward : (p.after MemoryStore.ops (.tick nanos)).outward =
        (q.after MemoryStore.ops (.tick nanos)).outward :=
      congrArg (fun v : Outward => { v with now := v.now + nanos }) h.outward
    exact ⟨.done, _, _, w, rfl, rfl, trivial, houtward, h.free, h.free'⟩

/-- And so on over any number of uses. -/
theorem Alike.performAll (h : Alike p q) (w : ω) (uses : List Use) : ∃ answers p' q' w',
    p.performAll origin w uses = (answers, p', w') ∧
    q.performAll origin w (uses.map Use.unshared) = (answers, q', w') ∧
    (∀ answer ∈ answers, answer.IsResult) ∧ Alike p' q' := by
  induction uses generalizing p q w with
  | nil => exact ⟨[], p, q, w, rfl, rfl, by simp, h⟩
  | cons use rest ih =>
    obtain ⟨answer, p₁, q₁, w₁, hp, hq, hresult, halike⟩ := h.perform origin w use
    obtain ⟨answers, p', q', w', hps, hqs, hresults, halike'⟩ := ih halike w₁
    refine ⟨answer :: answers, p', q', w', ?_, ?_, ?_, halike'⟩
    · simp only [Proxy.performAll, hp, hps]
    · simp only [List.map_cons, Proxy.performAll, hq, hqs]
    · simpa using ⟨hresult, hresults⟩

end Proxy

end PullCache
