import PullCache.Config.Fields
import PullCache.Resource
import PullCache.Text.Size
import PullCache.Time.HttpDate
import PullCache.Yaml.Writer
/-!
# Command.Report

What a command tells in the end: lines to be read by people, or JSON.
-/

namespace PullCache.Command

/-- What came of fetching a resource. -/
structure FetchReport where
  /-- The resource as it is shown. -/
  resource : String
  category : Category
  found : Bool
  size : Option Nat := none
  etag : Option String := none
  lastModified : Option Instant := none
  verified : Option Instant := none
  writtenTo : Option String := none
  deriving DecidableEq, Repr

namespace FetchReport

/-- A line for something that may be unknown. -/
def line (label : String) (value : Option String) : List String :=
  match value with
  | some s => ["  " ++ label ++ s]
  | none => []

/-- The lines about what was found. A date outside of the years that mails know has no text. -/
def lines? (r : FetchReport) : Option (List String) := do
  let lastModified ← match r.lastModified with
    | none => some none
    | some t => (HttpDate.mailText? t).map some
  some ([r.resource ++ " (" ++ r.category.name ++ ")"]
    ++ line "size:          " (r.size.map Size.text)
    ++ line "etag:          " r.etag
    ++ line "last modified: " lastModified
    ++ line "verified:      " (r.verified.map Timestamp.offsetText)
    ++ line "written to:    " r.writtenTo)

/-- The report for people. -/
def text? (r : FetchReport) : Option String :=
  if r.found then r.lines?.map ("\n".intercalate ·) else some (r.resource ++ ": not found")

def toJson (r : FetchReport) : Json :=
  .record [("resource", .text r.resource), ("category", .text r.category.name),
    ("found", .bool r.found), ("size", .orNull Json.ofNat r.size),
    ("etag", .orNull .text r.etag),
    ("last_modified", .orNull (fun t => .text (Timestamp.text t)) r.lastModified),
    ("last_verified", .orNull (fun t => .text (Timestamp.text t)) r.verified),
    ("written_to", .orNull .text r.writtenTo)]

end FetchReport

/-- The settings in effect, and the file they were written to. -/
structure ConfigReport where
  config : Config
  writtenTo : Option String := none
  deriving DecidableEq, Repr

namespace ConfigReport

/-- The settings as a settings file. -/
def yaml (r : ConfigReport) : String :=
  Yaml.write r.config.toJson

/-- The report for people. -/
def text (r : ConfigReport) : String :=
  r.yaml ++ match r.writtenTo with
    | some path => "\nWritten to " ++ path
    | none => ""

def toJson (r : ConfigReport) : Json :=
  .record [("config", r.config.toJson), ("written_to", .orNull .text r.writtenTo)]

end ConfigReport

/-- What went wrong, the outermost message first. -/
structure Failure where
  message : String
  causes : List String := []
  deriving DecidableEq, Repr

namespace Failure

/-- A failure by its messages, the outermost first. -/
def ofChain (chain : List String) : Failure :=
  ⟨chain.head?.getD "", chain.tail⟩

def text (f : Failure) : String :=
  "Error: " ++ ": ".intercalate (f.message :: f.causes)

def toJson (f : Failure) : Json :=
  .record [("success", .bool false), ("error", .text f.message),
    ("causes", .list (f.causes.map .text))]

end Failure

end PullCache.Command
