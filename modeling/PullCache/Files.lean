import PullCache.Text.Blank
import PullCache.Text.Utf8
/-!
# Files

Files and directories as a value, seen from a working directory.
-/

namespace PullCache

/-- Why a file cannot be opened. -/
inductive FileFault where
  | notFound
  | notADirectory
  | isADirectory
  deriving DecidableEq, Repr

namespace FileFault

def message : FileFault → String
  | notFound => "No such file or directory (os error 2)"
  | notADirectory => "Not a directory (os error 20)"
  | isADirectory => "Is a directory (os error 21)"

end FileFault

/-- Files and directories by their path from the root. Every directory on the way to a file is in
`directories`. -/
structure Files where
  files : List (List String × Bytes) := []
  directories : List (List String) := [[]]
  /-- The working directory, at which relative paths start. -/
  here : List String := []
  deriving DecidableEq, Repr

/-- A path in its parts from the root. `wantsDirectory` tells that it can only name a directory. -/
structure FilePath where
  parts : List String
  wantsDirectory : Bool
  deriving DecidableEq, Repr

namespace FilePath

/-- The directories on the way to a path. -/
def ancestors (p : FilePath) : List (List String) :=
  (List.range p.parts.length).map fun n => p.parts.take n

end FilePath

namespace Files

def isFile (f : Files) (parts : List String) : Bool :=
  (f.files.lookup parts).isSome

def isDirectory (f : Files) (parts : List String) : Bool :=
  f.directories.contains parts

/-- Goes down one part, or up from a directory; the root is above itself. -/
def enter (f : Files) (parts : List String) (part : String) : Option (List String) :=
  if part == "" || part == "." then some parts
  else if part == ".." then (if f.isDirectory parts then some parts.dropLast else none)
  else some (parts ++ [part])

/-- Reads a path. A relative one starts at the working directory; the empty one leads nowhere. -/
def path? (f : Files) (s : String) : Option FilePath :=
  if s.isEmpty then none
  else
    let pieces := (Text.splitOn (· == '/') s.toList).map String.ofList
    let start := if s.startsWith "/" then [] else f.here
    let last := pieces.getLast?.getD ""
    (pieces.foldlM f.enter start).map fun parts => ⟨parts, ["", ".", ".."].contains last⟩

/-- Whether a path names something. -/
def exists? (f : Files) (path : String) : Bool :=
  (f.path? path).any fun p => f.isDirectory p.parts || (f.isFile p.parts && !p.wantsDirectory)

/-- The bytes of a file; a path that names no file has none. -/
def read? (f : Files) (path : String) : Option Bytes := do
  let p ← f.path? path
  if p.wantsDirectory then none else f.files.lookup p.parts

/-- The bytes of the file that is meant by a path: a relative path is tried at the working directory
and then at each directory above it. -/
def find? (f : Files) (path : String) : Option Bytes :=
  if path.startsWith "/" then f.read? path
  else ((List.range (f.here.length + 1)).findSome? fun up =>
    { f with here := f.here.take (f.here.length - up) }.read? path)

/-- Adds directories that are not there yet. -/
def addDirectories (f : Files) (directories : List (List String)) : Files :=
  { f with directories := f.directories ++ directories.filter fun d => !f.isDirectory d }

/-- Puts a file in place, with the directories above it. -/
def put (f : Files) (p : FilePath) (bytes : Bytes) : Files :=
  { f.addDirectories p.ancestors with
    files := f.files.filter (·.1 ≠ p.parts) ++ [(p.parts, bytes)] }

/-- Files by their paths, as they are found at the start. -/
def ofList (here : List String) (named : List (String × Bytes)) : Files :=
  let empty : Files := { here }
  named.foldl (fun f (name, bytes) =>
    match f.path? name with
    | some p => f.put p bytes
    | none => f) (empty.addDirectories ((FilePath.mk here true).ancestors ++ [here]))

/-- Writes a file. The directories above it have to be there. -/
def write (f : Files) (path : String) (bytes : Bytes) : Except FileFault Files :=
  match f.path? path with
  | none => .error .notFound
  | some p =>
    if p.ancestors.any f.isFile then .error .notADirectory
    else if !p.ancestors.all f.isDirectory then .error .notFound
    else if f.isDirectory p.parts then .error .isADirectory
    else if p.wantsDirectory then
      .error (if f.isFile p.parts then .notADirectory else .isADirectory)
    else .ok (f.put p bytes)

/-- The names inside a directory, without those further down. -/
def names (f : Files) (directory : List String) : List String :=
  let below := (f.files.map (·.1) ++ f.directories).filterMap fun parts =>
    if directory.isPrefixOf parts then parts[directory.length]? else none
  below.eraseDups

end Files

end PullCache
