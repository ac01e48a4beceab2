import PullCache.Command.Run
import Std.Time.DateTime.Timestamp
/-!
# Main

The command line. What a command may look at is read from the machine, the command is carried out,
and what it leaves behind is written back. It runs without a network: no origin can be reached, and
there is no address to listen at.
-/

namespace PullCache.Command

/-- The time of the machine. -/
def machineTime : IO Instant := do
  let now ← Std.Time.Timestamp.now
  return Instant.ofMillis now.toMillisecondsSinceUnixEpoch.val

/-- The variables that settings are read from. -/
def machineEnv : IO (List (String × String)) := do
  let names := Config.fields.flatMap fun section' =>
    [section'.name] :: section'.inside.map fun field => [section'.name, field]
  names.filterMapM fun keys => do
    let name := EnvValue.nameOf keys
    return (← IO.getEnv name).map (name, ·)

/-- Adds what is found at a path, if anything is. -/
def lookAt (f : Files) (parts : List String) : IO Files := do
  try
    let place ← IO.FS.realPath ("/" ++ "/".intercalate parts)
    if ← place.isDir then return f.addDirectories [parts]
    let bytes ← IO.FS.readBinFile place
    return f.put ⟨parts, false⟩ bytes.toList
  catch _ => return f

/-- Adds what is found at paths and on the way to them. -/
def lookAround (f : Files) (paths : List String) : IO Files :=
  paths.foldlM (fun f path =>
    match f.path? path with
    | some p => (p.ancestors ++ [p.parts]).foldlM lookAt f
    | none => return f) f

/-- The files that settings are read from, also above the working directory. -/
def settingsFiles (named : Option String) : IO Files := do
  let parts := ((← IO.currentDir).toString.splitOn "/").filter (· ≠ "")
  let names := named.toList ++ Config.usualFiles
  let above := (List.range parts.length).flatMap fun n =>
    names.map fun name => "/" ++ "/".intercalate (parts.take n ++ [name])
  lookAround (.ofList parts []) (names ++ above)

/-- The files that a command may read or write. -/
def machineFiles (env : List (String × String)) (i : Invocation) : IO Files := do
  let files ← settingsFiles i.config
  let logDirectory := match Config.load files env i.config with
    | .ok config => config.logging.logDir
    | .error _ => none
  let written := match i.task with
    | .serve .. => logDirectory
    | .config write => write
    | .fetch _ output _ _ => output
  lookAround files written.toList

/-- Writes the files that have changed. -/
def writeBack (before after : Files) : IO Unit := do
  for parts in after.directories do
    if !before.isDirectory parts then
      IO.FS.createDirAll ("/" ++ "/".intercalate parts)
  for (parts, bytes) in after.files do
    if before.files.lookup parts ≠ some bytes then
      IO.FS.writeBinFile ("/" ++ "/".intercalate parts) ⟨bytes.toArray⟩

end PullCache.Command

open PullCache Command in
def main (args : List String) : IO UInt32 := do
  let env ← machineEnv
  let files ← match Invocation.ofArgs args with
    | .ok i => machineFiles env i
    | .error _ => pure {}
  let surroundings : Surroundings := {
    files, env
    now := ← machineTime
    carry := fun _ => none
    refusal := fun _ => some "Cannot assign requested address (os error 99)" }
  let outcome := surroundings.run args
  writeBack files outcome.files
  IO.print outcome.output
  IO.eprint outcome.complaint
  return UInt32.ofNat outcome.code
