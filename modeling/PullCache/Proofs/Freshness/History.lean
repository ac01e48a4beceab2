import PullCache.Proofs.Freshness
import PullCache.Proofs.Proxy.Session
/-!
# Proofs.Freshness.History

Freshness over a whole history of the controllers. They are made from settings, and from then on
invalidated, one or both, and given other settings, in any order. Their maximum ages are always those
of the last settings, and each of them has the token of its last invalidation. So the verdict on a
stamp can be told from the history alone (`isStale_iff`).

Maximum ages are minutes in a signed 64-bit number, which are multiplied up to the largest such number
at most, and the time at which a stamp expires may be beyond all dates. None of this shows in the
verdict: dates span fewer than 2^45 seconds.
-/

namespace PullCache

/-! ## Settings in minutes -/

namespace ProxySection

/-- The maximum age for a category in minutes. -/
def minutes (p : ProxySection) : Category → Int64
  | .content => p.contentMaxAgeMinutes
  | .metadata => p.metadataMaxAgeMinutes

/-- A maximum age is set in minutes and kept in seconds. -/
theorem maxAge_eq (p : ProxySection) (category : Category) :
    p.maxAge category = secondsOfMinutes (p.minutes category) := by
  cases category <;> rfl

end ProxySection

/-- Minutes in seconds are cut off only beyond what a signed 64-bit number holds. -/
theorem secondsOfMinutes_eq (m : Int64) :
    secondsOfMinutes m = max (-9223372036854775808) (min 9223372036854775807 (m.toInt * 60)) :=
  rfl

/-- Only a setting that is not positive gives an age that is not. -/
theorem secondsOfMinutes_nonpos_iff {m : Int64} : secondsOfMinutes m ≤ 0 ↔ m.toInt ≤ 0 := by
  rw [secondsOfMinutes_eq]
  omega

/-! ## Points in time that are some seconds apart -/

namespace Instant

variable {t now : Instant} {s : Int}

/-- So many seconds have passed between the two points, or more: the second is past the place of the
first one in the second so much later. From inside a leap second the time counts from the same place
in the second before. -/
def Passed (t now : Instant) (s : Int) : Prop :=
  t.seconds + s < now.seconds ∨ t.seconds + s = now.seconds ∧ t.nanos ≤ now.subsecond

/-- Away from leap seconds, seconds that have passed are counted in nanoseconds. -/
theorem passed_iff (ht : t.leap = false) (hnow : now.leap = false) :
    t.Passed now s ↔ s * 1000000000 ≤ now.toNanos - t.toNanos := by
  have hlt := t.nanos_lt
  have hlt' := now.nanos_lt
  simp only [Passed, subsecond, toNanos, ht, hnow, Bool.false_eq_true, if_false]
  omega

/-- Between two dates lie no more seconds than between the first and the last date. -/
theorem not_passed (ht : secondsInRange t.seconds = true) (hnow : secondsInRange now.seconds = true)
    (hs : latest.seconds - earliest.seconds < s) : ¬ t.Passed now s := by
  rw [secondsInRange_eq_true] at ht hnow
  simp only [Passed]
  omega

/-- Whether a point has come that lies a number of seconds later can be told from the dates there are. -/
theorem addSeconds?_passed (ht : secondsInRange t.seconds = true)
    (hnow : secondsInRange now.seconds = true) (hs : 0 < s) :
    (match t.addSeconds? s.toNat with
      | some expiry => !now.before expiry
      | none => false) = true ↔ t.Passed now s := by
  have hseconds : (s.toNat : Int) = s := Int.toNat_of_nonneg (Int.le_of_lt hs)
  have hne : s.toNat ≠ 0 := by omega
  simp only [addSeconds?, if_neg hne, hseconds]
  by_cases hrange : secondsInRange (t.seconds + s) = true
  · simp [if_pos hrange, Passed, before_eq_false_iff, subsecond]
  · rw [if_neg hrange]
    rw [secondsInRange_eq_true] at ht hnow hrange
    simp only [Passed, Bool.false_eq_true, false_iff]
    omega

/-- Minutes pass alike, whether their seconds are cut off at what fits in a number or not. -/
theorem passed_secondsOfMinutes {m : Int64} (ht : secondsInRange t.seconds = true)
    (hnow : secondsInRange now.seconds = true) (hm : 0 < m.toInt) :
    t.Passed now (secondsOfMinutes m) ↔ t.Passed now (60 * m.toInt) := by
  have hspan : latest.seconds - earliest.seconds < 9223372036854775807 := by decide
  by_cases hfits : m.toInt * 60 ≤ 9223372036854775807
  · have hexact : secondsOfMinutes m = 60 * m.toInt := by
      rw [secondsOfMinutes_eq]
      omega
    rw [hexact]
  · have hlong : latest.seconds - earliest.seconds < secondsOfMinutes m := by
      rw [secondsOfMinutes_eq]
      omega
    exact iff_of_false (not_passed ht hnow hlong) (not_passed ht hnow (by omega))

end Instant

/-! ## Histories -/

namespace Controllers

/-- What is done to the controllers. -/
inductive Change where
  /-- One of them gets a new token. -/
  | invalidate (category : Category)
  /-- Both get new tokens. -/
  | invalidateAll
  /-- Both get the maximum ages of these settings. -/
  | reconfigure (settings : ProxySection)

/-- Whether stamps of the category are made stale. -/
def Change.invalidates (category : Category) : Change → Bool
  | .invalidate c => c = category
  | .invalidateAll => true
  | .reconfigure _ => false

/-- The settings in effect afterwards. -/
def Change.settings (p : ProxySection) : Change → ProxySection
  | .reconfigure settings => settings
  | _ => p

/-- The controllers under these settings at the start. -/
def ofSettings (p : ProxySection) : Controllers :=
  new p.contentMaxAge p.metadataMaxAge

def change (cs : Controllers) : Change → Controllers
  | .invalidate category => cs.rotate category
  | .invalidateAll => cs.rotateAll
  | .reconfigure p => cs.setMaxAges p.contentMaxAge p.metadataMaxAge

/-- The controllers after a number of changes, one after the other. -/
def changeAll (cs : Controllers) (changes : List Change) : Controllers :=
  changes.foldl change cs

/-- The settings in effect after a number of changes: those that were given last. -/
def settingsAfter (p : ProxySection) (changes : List Change) : ProxySection :=
  changes.foldl Change.settings p

variable {cs : Controllers} {p : ProxySection} {category other : Category} {changes : List Change}

@[simp] theorem changeAll_cons (c : Change) :
    cs.changeAll (c :: changes) = (cs.change c).changeAll changes := rfl

@[simp] theorem changeAll_append (before after : List Change) :
    cs.changeAll (before ++ after) = (cs.changeAll before).changeAll after :=
  List.foldl_append

/-! ## What a history keeps -/

/-- The controllers have the maximum ages of the settings, and different tokens that were given out. -/
structure Kept (p : ProxySection) (cs : Controllers) : Prop where
  maxAge : ∀ category, (cs.of category).maxAge = p.maxAge category
  issued : cs.Issued
  distinct : cs.content.token ≠ cs.metadata.token

/-- New controllers have the settings that they are made with. -/
theorem kept_ofSettings : Kept p (ofSettings p) where
  maxAge category := by cases category <;> rfl
  issued := issued_new p.contentMaxAge p.metadataMaxAge
  distinct := by simp [ofSettings, new]

/-- Rotating a token changes no maximum age. -/
theorem maxAge_rotate (category other : Category) :
    ((cs.rotate category).of other).maxAge = (cs.of other).maxAge := by
  cases category <;> cases other <;> rfl

/-- Rotating a token keeps the settings. -/
theorem Kept.rotate (h : Kept p cs) (category : Category) : Kept p (cs.rotate category) := by
  have hmaxAge : ∀ other, ((cs.rotate category).of other).maxAge = p.maxAge other :=
    fun other => (maxAge_rotate category other).trans (h.maxAge other)
  have hissued : (cs.rotate category).Issued := h.issued.applyChange (.rotate category)
  obtain ⟨n, hn, hlt⟩ := h.issued .content
  obtain ⟨m, hm, hlt'⟩ := h.issued .metadata
  simp only [of] at hn hm
  cases category with
  | content =>
    refine ⟨hmaxAge, hissued, ?_⟩
    simp only [Controllers.rotate, hm, ne_eq, Token.issued.injEq]
    omega
  | metadata =>
    refine ⟨hmaxAge, hissued, ?_⟩
    simp only [Controllers.rotate, hn, ne_eq, Token.issued.injEq]
    omega

/-- Every change leaves the settings as the history says. -/
theorem Kept.change (h : Kept p cs) (c : Change) : Kept (c.settings p) (cs.change c) := by
  cases c with
  | invalidate category => exact h.rotate category
  | invalidateAll => exact (h.rotate .content).rotate .metadata
  | reconfigure settings =>
    refine ⟨fun category => by cases category <;> rfl, ?_, h.distinct⟩
    exact (h.issued.applyChange (.setMaxAge .content _)).applyChange (.setMaxAge .metadata _)

/-- And so does any number of changes. -/
theorem Kept.changeAll (h : Kept p cs) (changes : List Change) :
    Kept (settingsAfter p changes) (cs.changeAll changes) := by
  induction changes generalizing cs p with
  | nil => exact h
  | cons c rest ih => exact ih (h.change c)

/-! ## Tokens over a history -/

/-- No change gives a token back. -/
theorem nextToken_le_change (c : Change) : cs.nextToken ≤ (cs.change c).nextToken := by
  cases c with
  | invalidate category => cases category <;> simp [Controllers.change, Controllers.rotate]
  | invalidateAll => simp [Controllers.change, rotateAll, Controllers.rotate]; omega
  | reconfigure p => simp [Controllers.change, setMaxAges, setMaxAge]

/-- A change that makes the stamps of a category stale gives it a token that was never given out. -/
theorem issuedSince_change {c : Change} (h : c.invalidates category = true) :
    (cs.change c).IssuedSince cs.nextToken category := by
  cases c with
  | invalidate c =>
    obtain rfl : c = category := by simpa [Change.invalidates] using h
    exact issuedSince_rotate (Nat.le_refl _)
  | invalidateAll =>
    cases category with
    | content => exact ⟨cs.nextToken, rfl, Nat.le_refl _⟩
    | metadata => exact ⟨cs.nextToken + 1, rfl, Nat.le_succ _⟩
  | reconfigure p => contradiction

/-- Any other change leaves its token. -/
theorem token_change {c : Change} (h : c.invalidates category = false) :
    ((cs.change c).of category).token = (cs.of category).token := by
  cases c with
  | invalidate c =>
    have hne : c ≠ category := by simpa [Change.invalidates] using h
    cases c <;> cases category <;> first | rfl | contradiction
  | invalidateAll => contradiction
  | reconfigure p => cases category <;> rfl

/-- Over a history a category keeps its token if nothing makes its stamps stale, and has one that is
given out in it otherwise. -/
theorem token_changeAll (category : Category) {floor : Nat} (hfloor : floor ≤ cs.nextToken)
    (changes : List Change) :
    (∀ c ∈ changes, c.invalidates category = false) ∧
        ((cs.changeAll changes).of category).token = (cs.of category).token ∨
      (∃ c ∈ changes, c.invalidates category = true) ∧
        (cs.changeAll changes).IssuedSince floor category := by
  induction changes generalizing cs with
  | nil => exact .inl ⟨by simp, rfl⟩
  | cons c rest ih =>
    rw [changeAll_cons]
    obtain ⟨hnone, htoken⟩ | ⟨⟨c', hmem, hc'⟩, hsince⟩ :=
      ih (Nat.le_trans hfloor (nextToken_le_change c))
    · cases hc : c.invalidates category with
      | true =>
        obtain ⟨n, hn, hle⟩ : (cs.change c).IssuedSince cs.nextToken category := issuedSince_change hc
        exact .inr ⟨⟨c, List.mem_cons_self, hc⟩, n, htoken.trans hn, Nat.le_trans hfloor hle⟩
      | false => exact .inl ⟨by simpa using ⟨hc, hnone⟩, htoken.trans (token_change hc)⟩
    · exact .inr ⟨⟨c', List.mem_cons_of_mem c hmem, hc'⟩, hsince⟩

/-- A category has the token of another time of a history if it is the same category and nothing in
between made its stamps stale. -/
theorem Kept.token_eq_iff (h : Kept p cs) (changes : List Change) :
    (cs.of other).token = ((cs.changeAll changes).of category).token ↔
      other = category ∧ ∀ c ∈ changes, c.invalidates category = false := by
  obtain ⟨n, hn, hlt⟩ := h.issued other
  obtain ⟨hnone, htoken⟩ | ⟨⟨c, hmem, hc⟩, m, hm, hle⟩ :=
    token_changeAll category (Nat.le_refl cs.nextToken) changes
  · have hdistinct := h.distinct
    rw [htoken, and_iff_left hnone]
    cases other <;> cases category <;> simp [of, hdistinct, hdistinct.symm]
  · have hne : Token.issued n ≠ .issued m := by
      rw [ne_eq, Token.issued.injEq]
      omega
    rw [hn, hm]
    refine iff_of_false hne fun hkept => ?_
    rw [hkept.2 c hmem] at hc
    contradiction

end Controllers

/-! ## Verdicts -/

/-- A stamp with a token is stale under another token, under a maximum age that is not positive, and
when the maximum age has passed since it was taken. -/
theorem Controller.isStale_stamp_iff {c : Controller} {stamp : Stamp} {token : Token} {now : Instant}
    (htoken : stamp.token = some token) (ht : Instant.secondsInRange stamp.verified.seconds = true)
    (hnow : Instant.secondsInRange now.seconds = true) :
    c.isStale (some stamp) now = true ↔
      token ≠ c.token ∨ c.maxAge ≤ 0 ∨ stamp.verified.Passed now c.maxAge := by
  simp only [isStale, htoken, Option.any_some, decide_eq_true_eq]
  by_cases hsame : token ≠ c.token
  · simp [hsame]
  · by_cases hage : c.maxAge ≤ 0
    · simp [hage]
    · simp only [hsame, hage, if_false, false_or]
      exact Instant.addSeconds?_passed ht hnow (Int.not_le.mp hage)

namespace Controllers

variable {category issuer : Category} {t now : Instant}

/-- What the controller of a category says at the end of a history about a stamp which the controller
of `issuer` gave at `t`, after the first part of the history. -/
def verdict (p : ProxySection) (before after : List Change) (issuer category : Category)
    (t now : Instant) : Bool :=
  (((ofSettings p).changeAll (before ++ after)).of category).isStale
    (some ((((ofSettings p).changeAll before).of issuer).stampAt t)) now

/-- What a controller says of a stamp, in terms of the history. -/
theorem verdict_iff (p : ProxySection) (before after : List Change)
    (ht : Instant.secondsInRange t.seconds = true) (hnow : Instant.secondsInRange now.seconds = true) :
    verdict p before after issuer category t now = true ↔
      ¬ (issuer = category ∧ ∀ c ∈ after, c.invalidates category = false) ∨
      ((settingsAfter p (before ++ after)).minutes category).toInt ≤ 0 ∨
      t.Passed now (60 * ((settingsAfter p (before ++ after)).minutes category).toInt) := by
  have hissued : Kept _ ((ofSettings p).changeAll before) := kept_ofSettings.changeAll before
  have hfinal : Kept _ ((ofSettings p).changeAll (before ++ after)) :=
    kept_ofSettings.changeAll (before ++ after)
  rw [verdict, Controller.isStale_stamp_iff rfl ht hnow, hfinal.maxAge, ProxySection.maxAge_eq,
    secondsOfMinutes_nonpos_iff, changeAll_append, ne_eq, hissued.token_eq_iff after]
  by_cases hm : ((settingsAfter p (before ++ after)).minutes category).toInt ≤ 0
  · simp [hm]
  · rw [Controller.stampAt, Instant.passed_secondsOfMinutes ht hnow (Int.not_le.mp hm)]

/-- **Freshness over a history.** The controllers are made from any settings and changed in any way.
One of them gives a stamp at some time in between, and is asked about it at the end. As long as dates
reach both times:

* The stamp is stale just if the controller was invalidated since, if the minutes that are now
  configured for its category are not positive, or if that many minutes have passed since the stamp
  was taken. Away from leap seconds these are counted in nanoseconds, without any bound.
* For the other category the stamp is always stale. -/
theorem stale_iff_of_history (p : ProxySection) (before after : List Change) (category : Category)
    (t now : Instant) (ht : Instant.secondsInRange t.seconds = true)
    (hnow : Instant.secondsInRange now.seconds = true) :
    (verdict p before after category category t now = true ↔
      (∃ c ∈ after, c.invalidates category = true) ∨
      ((settingsAfter p (before ++ after)).minutes category).toInt ≤ 0 ∨
      t.Passed now (60 * ((settingsAfter p (before ++ after)).minutes category).toInt)) ∧
    (t.leap = false → now.leap = false →
      (verdict p before after category category t now = true ↔
        (∃ c ∈ after, c.invalidates category = true) ∨
        ((settingsAfter p (before ++ after)).minutes category).toInt ≤ 0 ∨
        60 * ((settingsAfter p (before ++ after)).minutes category).toInt * 1000000000 ≤
          now.toNanos - t.toNanos)) ∧
    ∀ issuer, issuer ≠ category → verdict p before after issuer category t now = true := by
  have hverdict : verdict p before after category category t now = true ↔
      (∃ c ∈ after, c.invalidates category = true) ∨
      ((settingsAfter p (before ++ after)).minutes category).toInt ≤ 0 ∨
      t.Passed now (60 * ((settingsAfter p (before ++ after)).minutes category).toInt) := by
    rw [verdict_iff p before after ht hnow]
    simp
  refine ⟨hverdict, fun hleap hleap' => ?_, fun issuer hne => ?_⟩
  · rw [hverdict, Instant.passed_iff hleap hleap']
  · rw [verdict_iff p before after ht hnow]
    simp [hne]

/-- A stamp taken before 1970 under a maximum age of one minute is stale just one minute later, and the
longest maximum age lasts from the first date to the last. -/
theorem stale_after_minute :
    let history : List Change := [.reconfigure { metadataMaxAgeMinutes := 1 }]
    let stale (now : Instant) : Bool :=
      verdict {} history [.invalidate .content] .metadata .metadata ⟨-30, 0, false, by decide⟩ now
    stale ⟨30, 0, false, by decide⟩ = true ∧ stale ⟨29, 999999999, false, by decide⟩ = false ∧
      verdict { contentMaxAgeMinutes := Int64.maxValue } [] [] .content .content Instant.earliest
        Instant.latest = false := by
  refine ⟨?_, ?_, ?_⟩
  · have h := stale_iff_of_history {} [.reconfigure { metadataMaxAgeMinutes := 1 }]
      [.invalidate .content] .metadata ⟨-30, 0, false, by decide⟩ ⟨30, 0, false, by decide⟩
      (by decide) (by decide)
    exact (h.2.1 rfl rfl).mpr (by decide)
  · have h := stale_iff_of_history {} [.reconfigure { metadataMaxAgeMinutes := 1 }]
      [.invalidate .content] .metadata ⟨-30, 0, false, by decide⟩ ⟨29, 999999999, false, by decide⟩
      (by decide) (by decide)
    exact Bool.eq_false_iff.mpr (mt (h.2.1 rfl rfl).mp (by decide))
  · have h := stale_iff_of_history { contentMaxAgeMinutes := Int64.maxValue } [] [] .content
      Instant.earliest Instant.latest (by decide) (by decide)
    exact Bool.eq_false_iff.mpr (mt (h.2.1 rfl rfl).mp (by decide))

end Controllers

end PullCache
