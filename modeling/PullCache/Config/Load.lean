import PullCache.Config.Check
import PullCache.Config.Layers
import PullCache.Files
/-!
# Config.Load

Where settings come from: a file that is named, or the usual files of the working directory, and the
environment over them. What is put together has to pass the check.
-/

namespace PullCache

/-- Why there are no settings. -/
inductive LoadFault where
  /-- The file that was named is not there. -/
  | notFound (path : String)
  /-- A file cannot be read as settings. If a file was named, it is the one that was named. -/
  | unreadable (named : Option String)
  /-- A value does not fit its place. -/
  | misfit (named : Option String) (misfit : Misfit)
  /-- The settings do not pass the check. -/
  | unusable (fault : ConfigFault)
  deriving DecidableEq, Repr

namespace LoadFault

/-- What failed, by the file that was named. -/
def whatFailed : Option String → String
  | some path => "Failed to load config from " ++ path
  | none => "Failed to load mirror-proxy configuration"

def message : LoadFault → String
  | notFound path => "Config file not found: " ++ path
  | unreadable path => whatFailed path
  | misfit path _ => whatFailed path
  | unusable fault => fault.message

/-- What is wrong with a value. -/
def detail (m : Misfit) : String :=
  (match m.mismatch with
    | .outOfRange => "invalid value"
    | .wrongType => "invalid type"
    | .tooLong => "invalid length")
    ++ " for key \"" ++ ".".intercalate m.path ++ "\""

/-- The messages from the outermost to the innermost. -/
def chain (f : LoadFault) : List String :=
  f.message :: match f with
    | unreadable _ => ["invalid YAML"]
    | misfit _ m => [detail m]
    | _ => []

end LoadFault

namespace Config

/-- The files that are looked for, the second over the first. -/
def usualFiles : List String := ["mirror-proxy.yaml", "local.yaml"]

/-- The layer of a file, which may lie above the working directory. A file that is not there has
nothing to say. -/
def layerOf? (files : Files) (name : String) : Option Json :=
  match files.find? name with
  | none => some (.record [])
  | some bytes => (utf8? bytes) >>= Yaml.read?

/-- Reads layers of files and the environment, and checks the outcome. -/
def loadFrom (files : Files) (env : List (String × String)) (named : Option String)
    (names : List String) : Except LoadFault Config := do
  match names.mapM (layerOf? files) with
  | none => .error (.unreadable named)
  | some layers =>
    match Layers.read (layers ++ [Layers.ofEnv env]) with
    | .error m => .error (.misfit named m)
    | .ok config =>
      match config.check with
      | .error fault => .error (.unusable fault)
      | .ok _ => .ok config

/-- The settings from a file that is named or from the usual ones. -/
def load (files : Files) (env : List (String × String)) (path : Option String) :
    Except LoadFault Config :=
  match path with
  | none => loadFrom files env none usualFiles
  | some path =>
    if files.exists? path then loadFrom files env (some path) [path]
    else .error (.notFound path)

end Config

end PullCache
