import PullCache.Config.Fields
/-!
# Proofs.Config.Record

Settings that are written as a record and read again. The entries of a record are read one after the
other, in whatever order they come, and each one only sets the field of its name. So what is read is
told by the names that occur: fields whose entries are there have the values that were written, and
the others have their usual ones (`Restores.readAll_excerpt`). A section is a field of the whole whose
value is a record again, so the same holds for sections, and for fields inside of them
(`json_loses_nothing`).
-/

namespace PullCache

namespace Field

variable {S : Type} {fields : List (Field S)} {usual : S} {names : List String}
  {kept : String → Bool} {written entries : List (String × Json)} {given : (String → Bool) → S}

/-! ## Some entries of a record -/

/-- The entries whose names are kept, in any order, among any others with names that are not known. -/
def Excerpt (names : List String) (kept : String → Bool) (written entries : List (String × Json)) :
    Prop :=
  (entries.filter (names.contains ·.1)).Perm (written.filter (kept ·.1))

/-- The entries that are written for the fields. -/
def entriesOf (fields : List (Field S)) (s : S) : List (String × Json) :=
  fields.filterMap fun f => (f.write s).map (f.name, ·)

theorem writeAll_eq (fields : List (Field S)) (s : S) :
    writeAll fields s = .record (entriesOf fields s) := rfl

/-- Of the entries with known names, an excerpt has just those that were kept. -/
theorem Excerpt.mem_iff (h : Excerpt names kept written entries) {e : String × Json} :
    e ∈ entries ∧ e.1 ∈ names ↔ e ∈ written ∧ kept e.1 = true := by
  have hmem := List.Perm.mem_iff h (a := e)
  simpa using hmem

/-- Nothing is left out. -/
theorem excerpt_entriesOf (fields : List (Field S)) (s : S) :
    Excerpt (fields.map Field.name) (fun _ => true) (entriesOf fields s) (entriesOf fields s) := by
  have hknown : ∀ e ∈ entriesOf fields s, (fields.map Field.name).contains e.1 = true := by
    intro e he
    obtain ⟨f, hf, hwritten⟩ := List.mem_filterMap.mp he
    obtain ⟨v, -, rfl⟩ := Option.map_eq_some_iff.mp hwritten
    simpa using ⟨f, hf, rfl⟩
  simp only [Excerpt, List.filter_eq_self.mpr hknown, List.filter_eq_self.mpr (fun _ _ => rfl)]
  exact List.Perm.refl _

/-! ## Reading entries -/

/-- How written entries are read. The settings `given k` have what was written for the fields `k`, and
usual values otherwise; an entry that is read adds its field to these. -/
structure Restores (fields : List (Field S)) (usual : S) (written : List (String × Json))
    (given : (String → Bool) → S) : Prop where
  start : given (fun _ => false) = usual
  read : ∀ k, ∀ e ∈ written, readEntry fields (given k) e = .ok (given fun n => k n || e.1 == n)
  same : ∀ k k', (∀ e ∈ written, k e.1 = k' e.1) → given k = given k'

/-- Entries with unknown names are passed over. -/
theorem readEntry_unknown {e : String × Json} (h : e.1 ∉ fields.map Field.name) (s : S) :
    readEntry fields s e = .ok s := by
  have hnone : fields.find? (fun f => f.name == e.1) = none := by
    simpa [List.find?_eq_none] using h
  rw [readEntry, hnone]

/-- Entries that are read one after the other give the fields of their names. -/
theorem Restores.foldlM (h : Restores fields usual written given)
    (hknown : ∀ e ∈ entries, e.1 ∈ fields.map Field.name → e ∈ written) (k : String → Bool) :
    entries.foldlM (readEntry fields) (given k) =
      .ok (given fun n => k n ||
        (entries.filter ((fields.map Field.name).contains ·.1)).any (·.1 == n)) := by
  induction entries generalizing k with
  | nil => simp [pure, Except.pure]
  | cons e rest ih =>
    have hrest := fun e' he' => hknown e' (List.mem_cons_of_mem e he')
    rw [List.foldlM_cons]
    by_cases hname : e.1 ∈ fields.map Field.name
    · rw [h.read k e (hknown e List.mem_cons_self hname)]
      change rest.foldlM (readEntry fields) (given fun n => k n || e.1 == n) = _
      rw [ih hrest, List.filter_cons_of_pos (by simpa using hname)]
      simp only [List.any_cons, Bool.or_assoc]
    · rw [readEntry_unknown hname]
      change rest.foldlM (readEntry fields) (given k) = _
      rw [ih hrest, List.filter_cons_of_neg (by simpa using hname)]

/-- **Reading an excerpt.** Whatever the order of the entries and whatever is among them, the fields
that are kept are read, and no others. -/
theorem Restores.readAll_excerpt (h : Restores fields usual written given)
    (hexcerpt : Excerpt (fields.map Field.name) kept written entries) :
    readAll fields (.record entries) usual = .ok (given kept) := by
  have hknown : ∀ e ∈ entries, e.1 ∈ fields.map Field.name → e ∈ written :=
    fun e he hname => (hexcerpt.mem_iff.mp ⟨he, hname⟩).1
  rw [readAll, ← h.start, h.foldlM hknown, Except.ok.injEq]
  refine h.same _ _ fun e he => ?_
  rw [Bool.false_or, Bool.eq_iff_iff, List.any_eq_true]
  constructor
  · rintro ⟨e', he', hname⟩
    have hkept := (hexcerpt.mem_iff.mp (by simpa using he')).2
    rwa [beq_iff_eq.mp hname] at hkept
  · intro hkept
    exact ⟨e, by simpa using hexcerpt.mem_iff.mpr ⟨he, hkept⟩, by simp⟩

/-! ## Kinds of fields -/

section Kinds

variable (name : String) (s : S)

@[simp] theorem name_text (get : S → String) (set : String → S → S) :
    (text name get set).name = name := rfl

@[simp] theorem write_text (get : S → String) (set : String → S → S) :
    (text name get set).write s = some (.text (get s)) := rfl

/-- A text is read as it was written. -/
@[simp] theorem read_text (get : S → String) (set : String → S → S) (t : String) :
    (text name get set).read (.text t) s = .ok (set t s) := rfl

@[simp] theorem name_optionalText (get : S → Option String) (set : Option String → S → S) :
    (optionalText name get set).name = name := rfl

/-- A text that is not there is left out. -/
@[simp] theorem write_optionalText (get : S → Option String) (set : Option String → S → S) :
    (optionalText name get set).write s = (get s).map .text := rfl

@[simp] theorem read_optionalText (get : S → Option String) (set : Option String → S → S)
    (t : String) : (optionalText name get set).read (.text t) s = .ok (set (some t) s) := rfl

@[simp] theorem name_flag (get : S → Bool) (set : Bool → S → S) :
    (flag name get set).name = name := rfl

@[simp] theorem write_flag (get : S → Bool) (set : Bool → S → S) :
    (flag name get set).write s = some (.bool (get s)) := rfl

@[simp] theorem read_flag (get : S → Bool) (set : Bool → S → S) (b : Bool) :
    (flag name get set).read (.bool b) s = .ok (set b s) := rfl

@[simp] theorem name_word64 (get : S → UInt64) (set : UInt64 → S → S) :
    (word64 name get set).name = name := rfl

@[simp] theorem write_word64 (get : S → UInt64) (set : UInt64 → S → S) :
    (word64 name get set).write s = some (.int (get s).toNat) := rfl

/-- Every number of 64 bits is within the bounds. -/
@[simp] theorem read_word64 (get : S → UInt64) (set : UInt64 → S → S) (n : UInt64) :
    (word64 name get set).read (.int n.toNat) s = .ok (set n s) := by
  have hlt := n.toNat_lt
  have hbounds : (0 : Int) ≤ n.toNat ∧ (n.toNat : Int) ≤ UInt64.size - 1 := by
    simp only [UInt64.size]
    omega
  simp only [word64, number, if_pos hbounds, Int.toNat_natCast, UInt64.ofNat_toNat]

@[simp] theorem name_word32 (get : S → UInt32) (set : UInt32 → S → S) :
    (word32 name get set).name = name := rfl

@[simp] theorem write_word32 (get : S → UInt32) (set : UInt32 → S → S) :
    (word32 name get set).write s = some (.int (get s).toNat) := rfl

/-- A number of 32 bits is read as it was written. -/
@[simp] theorem read_word32 (get : S → UInt32) (set : UInt32 → S → S) (n : UInt32) :
    (word32 name get set).read (.int n.toNat) s = .ok (set n s) := by
  have hlt := n.toNat_lt
  have hbounds : (0 : Int) ≤ n.toNat ∧ (n.toNat : Int) ≤ UInt32.size - 1 := by
    simp only [UInt32.size]
    omega
  simp only [word32, number, if_pos hbounds, Int.toNat_natCast, UInt32.ofNat_toNat]

@[simp] theorem name_signed64 (get : S → Int64) (set : Int64 → S → S) :
    (signed64 name get set).name = name := rfl

@[simp] theorem write_signed64 (get : S → Int64) (set : Int64 → S → S) :
    (signed64 name get set).write s = some (.int (get s).toInt) := rfl

/-- A signed number is read as it was written. -/
@[simp] theorem read_signed64 (get : S → Int64) (set : Int64 → S → S) (n : Int64) :
    (signed64 name get set).read (.int n.toInt) s = .ok (set n s) := by
  have hbounds : Int64.minValue.toInt ≤ n.toInt ∧ n.toInt ≤ Int64.maxValue.toInt :=
    ⟨n.minValue_le_toInt, n.toInt_le⟩
  simp only [signed64, number, if_pos hbounds, Int64.ofInt_toInt]

variable {T : Type} {inner : List (Field T)} {usual t : T} {value : Json}

@[simp] theorem name_part (get : S → T) (set : T → S → S) :
    (part name inner usual get set).name = name := rfl

/-- A part is written as a record inside the record. -/
@[simp] theorem write_part (get : S → T) (set : T → S → S) :
    (part name inner usual get set).write s = some (.record (entriesOf inner (get s))) := rfl

@[simp] theorem inside_part (get : S → T) (set : T → S → S) :
    (part name inner usual get set).inside = inner.map Field.name := rfl

/-- A section is read as its own record is. -/
theorem read_part (get : S → T) (set : T → S → S) (h : readAll inner value usual = .ok t) :
    (part name inner usual get set).read value s = .ok (set t s) := by
  simp [part, h, bind, Except.bind, pure, Except.pure]

end Kinds

end Field

/-! ## Sections of which some fields are kept -/

namespace ProxySection

/-- The section with the fields that are kept, and the usual values of the others. -/
def keeping (s : ProxySection) (kept : String → Bool) : ProxySection :=
  let usual : ProxySection := {}
  { remoteUrl := if kept "remote_url" then s.remoteUrl else usual.remoteUrl
    contentMaxAgeMinutes :=
      if kept "content_max_age_minutes" then s.contentMaxAgeMinutes
      else usual.contentMaxAgeMinutes
    metadataMaxAgeMinutes :=
      if kept "metadata_max_age_minutes" then s.metadataMaxAgeMinutes
      else usual.metadataMaxAgeMinutes }

/-- The section about the origin is read as it was written. -/
theorem restores (s : ProxySection) :
    Field.Restores fields {} (Field.entriesOf fields s) s.keeping where
  start := rfl
  read k e he := by
    simp [Field.entriesOf, fields] at he
    obtain rfl | rfl | rfl := he <;> simp [Field.readEntry, Field.within, fields, keeping]
  same k k' h := by
    simp [Field.entriesOf, fields] at h
    simp [keeping, h]

end ProxySection

namespace CooperationSection

def keeping (s : CooperationSection) (kept : String → Bool) : CooperationSection :=
  let usual : CooperationSection := {}
  { passiveTimeoutSecs :=
      if kept "passive_timeout_secs" then s.passiveTimeoutSecs
      else usual.passiveTimeoutSecs
    activeTimeoutSecs :=
      if kept "active_timeout_secs" then s.activeTimeoutSecs
      else usual.activeTimeoutSecs }

/-- The section about cooperation is read as it was written. -/
theorem restores (s : CooperationSection) :
    Field.Restores fields {} (Field.entriesOf fields s) s.keeping where
  start := rfl
  read k e he := by
    simp [Field.entriesOf, fields] at he
    obtain rfl | rfl := he <;> simp [Field.readEntry, Field.within, fields, keeping]
  same k k' h := by
    simp [Field.entriesOf, fields] at h
    simp [keeping, h]

end CooperationSection

namespace HttpSection

def keeping (s : HttpSection) (kept : String → Bool) : HttpSection :=
  let usual : HttpSection := {}
  { timeoutSecs := if kept "timeout_secs" then s.timeoutSecs else usual.timeoutSecs
    connectTimeoutSecs :=
      if kept "connect_timeout_secs" then s.connectTimeoutSecs
      else usual.connectTimeoutSecs
    userAgent := if kept "user_agent" then s.userAgent else usual.userAgent
    poolMaxIdlePerHost :=
      if kept "pool_max_idle_per_host" then s.poolMaxIdlePerHost
      else usual.poolMaxIdlePerHost }

/-- The section about the client is read as it was written. -/
theorem restores (s : HttpSection) :
    Field.Restores fields {} (Field.entriesOf fields s) s.keeping where
  start := rfl
  read k e he := by
    simp [Field.entriesOf, fields] at he
    obtain rfl | rfl | rfl | rfl := he <;> simp [Field.readEntry, Field.within, fields, keeping]
  same k k' h := by
    simp [Field.entriesOf, fields] at h
    simp [keeping, h]

end HttpSection

namespace AutoBlockSection

def keeping (s : AutoBlockSection) (kept : String → Bool) : AutoBlockSection :=
  let usual : AutoBlockSection := {}
  { enabled := if kept "enabled" then s.enabled else usual.enabled
    failureThreshold :=
      if kept "failure_threshold" then s.failureThreshold
      else usual.failureThreshold
    blockSecs := if kept "block_secs" then s.blockSecs else usual.blockSecs }

/-- The section about blocking is read as it was written. -/
theorem restores (s : AutoBlockSection) :
    Field.Restores fields {} (Field.entriesOf fields s) s.keeping where
  start := rfl
  read k e he := by
    simp [Field.entriesOf, fields] at he
    obtain rfl | rfl | rfl := he <;> simp [Field.readEntry, Field.within, fields, keeping]
  same k k' h := by
    simp [Field.entriesOf, fields] at h
    simp [keeping, h]

end AutoBlockSection

namespace StorageSection

def keeping (s : StorageSection) (kept : String → Bool) : StorageSection :=
  let usual : StorageSection := {}
  { maxBlobBytes := if kept "max_blob_bytes" then s.maxBlobBytes else usual.maxBlobBytes }

/-- The section about the store is read as it was written. -/
theorem restores (s : StorageSection) :
    Field.Restores fields {} (Field.entriesOf fields s) s.keeping where
  start := rfl
  read k e he := by
    obtain rfl : e = _ := by simpa [Field.entriesOf, fields] using he
    simp [Field.readEntry, Field.within, fields, keeping]
  same k k' h := by
    simp [Field.entriesOf, fields] at h
    simp [keeping, h]

end StorageSection

namespace ServerSection

def keeping (s : ServerSection) (kept : String → Bool) : ServerSection :=
  let usual : ServerSection := {}
  { bind := if kept "bind" then s.bind else usual.bind }

/-- The section about the server is read as it was written. -/
theorem restores (s : ServerSection) :
    Field.Restores fields {} (Field.entriesOf fields s) s.keeping where
  start := rfl
  read k e he := by
    obtain rfl : e = _ := by simpa [Field.entriesOf, fields] using he
    simp [Field.readEntry, Field.within, fields, keeping]
  same k k' h := by
    simp [Field.entriesOf, fields] at h
    simp [keeping, h]

end ServerSection

namespace LoggingSection

def keeping (s : LoggingSection) (kept : String → Bool) : LoggingSection :=
  let usual : LoggingSection := {}
  { level := if kept "level" then s.level else usual.level
    format := if kept "format" then s.format else usual.format
    logDir := if kept "log_dir" then s.logDir else usual.logDir
    rotation := if kept "rotation" then s.rotation else usual.rotation }

/-- The section about logging is read as it was written. -/
theorem restores (s : LoggingSection) :
    Field.Restores fields {} (Field.entriesOf fields s) s.keeping where
  start := rfl
  read k e he := by
    cases hdir : s.logDir <;> simp [Field.entriesOf, fields, hdir] at he
    · obtain rfl | rfl | rfl := he <;> simp [Field.readEntry, Field.within, fields, keeping]
    · obtain rfl | rfl | rfl | rfl := he <;>
        simp [Field.readEntry, Field.within, fields, keeping, hdir]
  same k k' h := by
    cases hdir : s.logDir <;> simp [Field.entriesOf, fields, hdir] at h <;> simp [keeping, h, hdir]

end LoggingSection

/-! ## All the settings -/

namespace Config

/-- The settings with the sections that are kept, and of these the fields that are kept. All else has
its usual value. -/
def keeping (c : Config) (keptIn : String → String → Bool) (kept : String → Bool) : Config :=
  let usual : Config := {}
  { proxy := if kept "proxy" then c.proxy.keeping (keptIn "proxy") else usual.proxy
    cooperation :=
      if kept "cooperation" then c.cooperation.keeping (keptIn "cooperation") else usual.cooperation
    http := if kept "http" then c.http.keeping (keptIn "http") else usual.http
    autoBlock :=
      if kept "auto_block" then c.autoBlock.keeping (keptIn "auto_block") else usual.autoBlock
    storage := if kept "storage" then c.storage.keeping (keptIn "storage") else usual.storage
    server := if kept "server" then c.server.keeping (keptIn "server") else usual.server
    logging := if kept "logging" then c.logging.keeping (keptIn "logging") else usual.logging }

/-- A configuration of which everything is kept is the same again. -/
theorem keeping_all (c : Config) : c.keeping (fun _ _ => true) (fun _ => true) = c := by
  rfl

/-- The entries stand for the sections that are kept, in any order, among others with names that no
section has; and in the same way the entries inside each section stand for the fields that are kept. -/
structure ExcerptOf (c : Config) (keptIn : String → String → Bool) (kept : String → Bool)
    (inside : String → List (String × Json)) (entries : List (String × Json)) : Prop where
  sections : Field.Excerpt (fields.map Field.name) kept
    (fields.map fun f => (f.name, .record (inside f.name))) entries
  fields : ∀ f ∈ fields, ∃ written, f.write c = some (.record written) ∧
    Field.Excerpt f.inside (keptIn f.name) written (inside f.name)

variable {c : Config} {keptIn : String → String → Bool} {kept : String → Bool}
  {inside : String → List (String × Json)} {entries : List (String × Json)}

/-- Each section is read from its own excerpt, and sections do not disturb each other. -/
theorem ExcerptOf.restores (h : ExcerptOf c keptIn kept inside entries) :
    Field.Restores Config.fields {}
      (Config.fields.map fun f => (f.name, .record (inside f.name))) (c.keeping keptIn) where
  start := rfl
  read k e he := by
    have hfields := h.fields
    simp [Config.fields] at he hfields
    obtain ⟨hproxy, hcooperation, hhttp, hblock, hstorage, hserver, hlogging⟩ := hfields
    obtain rfl | rfl | rfl | rfl | rfl | rfl | rfl := he
    · simp [Field.readEntry, Field.within, Config.fields, keeping,
        Field.read_part _ _ _ _ (c.proxy.restores.readAll_excerpt hproxy)]
    · simp [Field.readEntry, Field.within, Config.fields, keeping,
        Field.read_part _ _ _ _ (c.cooperation.restores.readAll_excerpt hcooperation)]
    · simp [Field.readEntry, Field.within, Config.fields, keeping,
        Field.read_part _ _ _ _ (c.http.restores.readAll_excerpt hhttp)]
    · simp [Field.readEntry, Field.within, Config.fields, keeping,
        Field.read_part _ _ _ _ (c.autoBlock.restores.readAll_excerpt hblock)]
    · simp [Field.readEntry, Field.within, Config.fields, keeping,
        Field.read_part _ _ _ _ (c.storage.restores.readAll_excerpt hstorage)]
    · simp [Field.readEntry, Field.within, Config.fields, keeping,
        Field.read_part _ _ _ _ (c.server.restores.readAll_excerpt hserver)]
    · simp [Field.readEntry, Field.within, Config.fields, keeping,
        Field.read_part _ _ _ _ (c.logging.restores.readAll_excerpt hlogging)]
  same k k' h := by
    simp [Config.fields] at h
    simp [keeping, h]

/-- The entries that are written inside a section. -/
def insideOf (c : Config) (name : String) : List (String × Json) :=
  match (toJson c).get? name with
  | some (.record entries) => entries
  | _ => []

/-- What is written is an excerpt of itself. -/
theorem excerptOf_toJson (c : Config) :
    ExcerptOf c (fun _ _ => true) (fun _ => true) c.insideOf (Field.entriesOf fields c) where
  sections := by
    have hwhole : (fields.map fun f => (f.name, .record (c.insideOf f.name))) =
        Field.entriesOf fields c := by
      simp [fields, Field.entriesOf, insideOf, toJson, Field.writeAll_eq, Json.get?]
    rw [hwhole]
    exact Field.excerpt_entriesOf fields c
  fields := by
    have hinside : ∀ f ∈ fields, f.write c = some (.record (c.insideOf f.name)) := by
      simp [fields, insideOf, toJson, Field.writeAll_eq, Field.entriesOf, Json.get?]
    have hsection : ∀ f ∈ fields, ∃ written, f.write c = some (.record written) ∧
        Field.Excerpt f.inside (fun _ => true) written written := by
      simp [fields, Field.excerpt_entriesOf]
    intro f hf
    obtain ⟨written, hwritten, hexcerpt⟩ := hsection f hf
    obtain rfl : written = c.insideOf f.name := by simpa [hwritten] using hinside f hf
    exact ⟨_, hwritten, hexcerpt⟩

/-- **Settings as a record.** Settings that are written are read again as they were. If any sections
and any fields inside of sections are left out of the record, and entries that no field knows are put
in, in whatever order, what is read are the settings in which exactly what was left out has its usual
value. -/
theorem json_loses_nothing (c : Config) :
    ofJson (toJson c) = .ok c ∧
    ∀ keptIn kept inside entries, ExcerptOf c keptIn kept inside entries →
      ofJson (.record entries) = .ok (c.keeping keptIn kept) := by
  have hread : ∀ keptIn kept inside entries, ExcerptOf c keptIn kept inside entries →
      ofJson (.record entries) = .ok (c.keeping keptIn kept) :=
    fun keptIn kept inside entries h => h.restores.readAll_excerpt h.sections
  have hwhole := hread _ _ _ _ c.excerptOf_toJson
  rw [keeping_all] at hwhole
  exact ⟨hwhole, hread⟩

/-- Settings that are unusual in two sections, one of them with the least number that a field holds. -/
def tuned : Config where
  proxy := { remoteUrl := "https://a.test/", contentMaxAgeMinutes := Int64.minValue }
  logging := { level := "warn", logDir := some "/var/log" }

/-- A record with one field of each section that is unusual, and with what no field knows. -/
def tunedPart : String → List (String × Json)
  | "proxy" => [("note", .text "frozen"),
      ("content_max_age_minutes", .int Int64.minValue.toInt), ("note", .null)]
  | "logging" => [("log_dir", .text "/var/log")]
  | _ => []

/-- The fields that are left out have their usual values, in the sections that are there and in the
others. -/
theorem json_loses_what_is_left_out :
    ExcerptOf tuned (fun _ f => f == "content_max_age_minutes" || f == "log_dir")
      (fun s => s == "proxy" || s == "logging") tunedPart
      [("logging", .record (tunedPart "logging")), ("colour", .list []),
        ("proxy", .record (tunedPart "proxy"))] ∧
    ofJson (.record [("logging", .record (tunedPart "logging")), ("colour", .list []),
        ("proxy", .record (tunedPart "proxy"))]) =
      .ok { proxy := { contentMaxAgeMinutes := Int64.minValue }
            logging := { logDir := some "/var/log" } } := by
  have hexcerpt : ExcerptOf tuned (fun _ f => f == "content_max_age_minutes" || f == "log_dir")
      (fun s => s == "proxy" || s == "logging") tunedPart
      [("logging", .record (tunedPart "logging")), ("colour", .list []),
        ("proxy", .record (tunedPart "proxy"))] := by
    constructor
    · simp [Field.Excerpt, fields, tunedPart]
      exact List.Perm.swap _ _ _
    · simp [Field.Excerpt, fields, tuned, tunedPart, Field.entriesOf, ProxySection.fields,
        CooperationSection.fields, HttpSection.fields, AutoBlockSection.fields,
        StorageSection.fields, ServerSection.fields, LoggingSection.fields,
        -List.filter_eq_nil_iff]
  have hread := (json_loses_nothing tuned).2 _ _ _ _ hexcerpt
  exact ⟨hexcerpt, hread⟩

end Config

end PullCache
