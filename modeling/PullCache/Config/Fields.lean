import PullCache.Config.Basic
import PullCache.Data.Json
/-!
# Config.Fields

The settings as records: each section lists its fields by name, with how a field is written and how
it is read. What a record leaves out keeps the value it had, and entries that no field knows are
ignored.

A section may also be given as a list of values, in the order of its fields.
-/

namespace PullCache

/-- What is wrong with a value. -/
inductive Mismatch where
  /-- It is of another type. -/
  | wrongType
  /-- It is a number that the field cannot hold. -/
  | outOfRange
  /-- It is a list of more values than there are fields. -/
  | tooLong
  deriving DecidableEq, Repr

/-- A mismatch and the keys that lead to the value. -/
structure Misfit where
  mismatch : Mismatch
  path : List String
  deriving DecidableEq, Repr

/-- A named part of a record that is held in `S`. -/
structure Field (S : Type) where
  name : String
  /-- How the field is written; a field without a value is left out. -/
  write : S → Option Json
  /-- Puts a value that was read into the field. -/
  read : Json → S → Except Misfit S
  /-- The names of the fields inside a section. -/
  inside : List String := []

namespace Field

def fail (m : Mismatch) : Except Misfit α :=
  .error ⟨m, []⟩

/-- A field that holds a text. -/
def text (name : String) (get : S → String) (set : String → S → S) : Field S where
  name
  write s := some (.text (get s))
  read
    | .text t, s => .ok (set t s)
    | _, _ => fail .wrongType

/-- A field that may hold a text; null stands for none. -/
def optionalText (name : String) (get : S → Option String) (set : Option String → S → S) :
    Field S where
  name
  write s := (get s).map .text
  read
    | .text t, s => .ok (set (some t) s)
    | .null, s => .ok (set none s)
    | _, _ => fail .wrongType

/-- A field that is true or false. -/
def flag (name : String) (get : S → Bool) (set : Bool → S → S) : Field S where
  name
  write s := some (.bool (get s))
  read
    | .bool b, s => .ok (set b s)
    | _, _ => fail .wrongType

/-- A field that holds a whole number between two bounds. -/
def number (name : String) (least most : Int) (get : S → Int) (set : Int → S → S) : Field S where
  name
  write s := some (.int (get s))
  read
    | .int n, s => if least ≤ n ∧ n ≤ most then .ok (set n s) else fail .outOfRange
    | _, _ => fail .wrongType

/-- A field that holds an unsigned 64-bit number. -/
def word64 (name : String) (get : S → UInt64) (set : UInt64 → S → S) : Field S :=
  number name 0 (UInt64.size - 1) (fun s => (get s).toNat) (fun n s => set (UInt64.ofNat n.toNat) s)

/-- A field that holds an unsigned 32-bit number. -/
def word32 (name : String) (get : S → UInt32) (set : UInt32 → S → S) : Field S :=
  number name 0 (UInt32.size - 1) (fun s => (get s).toNat) (fun n s => set (UInt32.ofNat n.toNat) s)

/-- A field that holds a signed 64-bit number. -/
def signed64 (name : String) (get : S → Int64) (set : Int64 → S → S) : Field S :=
  number name Int64.minValue.toInt Int64.maxValue.toInt (fun s => (get s).toInt)
    (fun n s => set (Int64.ofInt n) s)

/-! ## Records -/

/-- The record of all the fields that have a value. -/
def writeAll (fields : List (Field S)) (s : S) : Json :=
  .record (fields.filterMap fun f => (f.write s).map (f.name, ·))

/-- Adds a key in front of the path of a misfit. -/
def within (key : String) : Except Misfit α → Except Misfit α
  | .ok a => .ok a
  | .error misfit => .error { misfit with path := key :: misfit.path }

/-- Reads the entry of a record into the field of its name. -/
def readEntry (fields : List (Field S)) (s : S) (entry : String × Json) : Except Misfit S :=
  match fields.find? (fun f => f.name == entry.1) with
  | some f => within f.name (f.read entry.2 s)
  | none => .ok s

/-- Reads values into fields by position. -/
def readItems (index : Nat) : List (Field S) → List Json → S → Except Misfit S
  | f :: fields, item :: items, s => do
    let s ← within (toString index) (f.read item s)
    readItems (index + 1) fields items s
  | _, [], s => .ok s
  | [], _ :: _, _ => fail .tooLong

/-- Reads a record, entry by entry, or a list of values. -/
def readAll (fields : List (Field S)) (value : Json) (s : S) : Except Misfit S :=
  match value with
  | .record entries => entries.foldlM (readEntry fields) s
  | .list items => readItems 0 fields items s
  | _ => fail .wrongType

/-- A field that holds a section with fields of its own. What the section leaves out has its usual
value. -/
def part (name : String) (fields : List (Field T)) (usual : T) (get : S → T) (set : T → S → S) :
    Field S where
  name
  write s := some (writeAll fields (get s))
  read value s := do
    let t ← readAll fields value usual
    return set t s
  inside := fields.map (·.name)

end Field

/-! ## The sections -/

namespace ProxySection

def fields : List (Field ProxySection) :=
  [.text "remote_url" (·.remoteUrl) (fun v s => { s with remoteUrl := v }),
    .signed64 "content_max_age_minutes" (·.contentMaxAgeMinutes)
      (fun v s => { s with contentMaxAgeMinutes := v }),
    .signed64 "metadata_max_age_minutes" (·.metadataMaxAgeMinutes)
      (fun v s => { s with metadataMaxAgeMinutes := v })]

end ProxySection

namespace CooperationSection

def fields : List (Field CooperationSection) :=
  [.word64 "passive_timeout_secs" (·.passiveTimeoutSecs)
      (fun v s => { s with passiveTimeoutSecs := v }),
    .word64 "active_timeout_secs" (·.activeTimeoutSecs)
      (fun v s => { s with activeTimeoutSecs := v })]

end CooperationSection

namespace HttpSection

def fields : List (Field HttpSection) :=
  [.word64 "timeout_secs" (·.timeoutSecs) (fun v s => { s with timeoutSecs := v }),
    .word64 "connect_timeout_secs" (·.connectTimeoutSecs)
      (fun v s => { s with connectTimeoutSecs := v }),
    .text "user_agent" (·.userAgent) (fun v s => { s with userAgent := v }),
    .word64 "pool_max_idle_per_host" (·.poolMaxIdlePerHost)
      (fun v s => { s with poolMaxIdlePerHost := v })]

end HttpSection

namespace AutoBlockSection

def fields : List (Field AutoBlockSection) :=
  [.flag "enabled" (·.enabled) (fun v s => { s with enabled := v }),
    .word32 "failure_threshold" (·.failureThreshold)
      (fun v s => { s with failureThreshold := v }),
    .word64 "block_secs" (·.blockSecs) (fun v s => { s with blockSecs := v })]

end AutoBlockSection

namespace StorageSection

def fields : List (Field StorageSection) :=
  [.word64 "max_blob_bytes" (·.maxBlobBytes) (fun v s => { s with maxBlobBytes := v })]

end StorageSection

namespace ServerSection

def fields : List (Field ServerSection) :=
  [.text "bind" (·.bind) (fun v s => { s with bind := v })]

end ServerSection

namespace LoggingSection

def fields : List (Field LoggingSection) :=
  [.text "level" (·.level) (fun v s => { s with level := v }),
    .text "format" (·.format) (fun v s => { s with format := v }),
    .optionalText "log_dir" (·.logDir) (fun v s => { s with logDir := v }),
    .text "rotation" (·.rotation) (fun v s => { s with rotation := v })]

end LoggingSection

namespace Config

def fields : List (Field Config) :=
  [.part "proxy" ProxySection.fields {} (·.proxy) (fun v c => { c with proxy := v }),
    .part "cooperation" CooperationSection.fields {} (·.cooperation)
      (fun v c => { c with cooperation := v }),
    .part "http" HttpSection.fields {} (·.http) (fun v c => { c with http := v }),
    .part "auto_block" AutoBlockSection.fields {} (·.autoBlock)
      (fun v c => { c with autoBlock := v }),
    .part "storage" StorageSection.fields {} (·.storage) (fun v c => { c with storage := v }),
    .part "server" ServerSection.fields {} (·.server) (fun v c => { c with server := v }),
    .part "logging" LoggingSection.fields {} (·.logging) (fun v c => { c with logging := v })]

/-- The settings as a record of sections. -/
def toJson (c : Config) : Json :=
  Field.writeAll fields c

/-- Reads settings; whatever is left out has its usual value. -/
def ofJson (value : Json) : Except Misfit Config :=
  Field.readAll fields value {}

end Config

end PullCache
