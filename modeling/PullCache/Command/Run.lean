import PullCache.Command.Args
import PullCache.Command.Report
import PullCache.Config.Load
import PullCache.Logging
import PullCache.Proxy.Single
/-!
# Command.Run

Carrying out a command line, as a function of everything that a command finds around it: the files
of the working directory, the environment, the time, and the network.
-/

namespace PullCache.Command

/-- What a command finds around it. -/
structure Surroundings where
  files : Files
  env : List (String × String)
  now : Instant
  carry : Carrier
  /-- Why it is impossible to listen at an address. Without a reason the server runs until it is
  stopped. -/
  refusal : String → Option String

/-- What a command leaves behind. -/
structure Outcome where
  code : Nat
  output : String := ""
  complaint : String := ""
  files : Files

/-- What a command comes to: a report and the files after it, or a failure. -/
abbrev Result := Except (Failure × Files) (String × Files)

namespace Surroundings

variable (s : Surroundings)

def fail (files : Files) (chain : List String) : Result :=
  .error (Failure.ofChain chain, files)

/-- Writes a file, if one was asked for. -/
def writeTo (files : Files) (path : Option String) (bytes : Bytes) :
    Except (Failure × Files) Files :=
  match path with
  | none => .ok files
  | some path =>
    match files.write path bytes with
    | .ok files => .ok files
    | .error fault =>
      .error (⟨"Failed to write " ++ path, [fault.message]⟩, files)

/-- The files once logging has begun: there is a log file if a directory is set. -/
def withLog (settings : LogSettings) : Files :=
  match settings.directory with
  | none => s.files
  | some directory =>
    let inside := ((s.files.path? directory).map (·.parts)).getD s.files.here
    let file : FilePath := ⟨inside ++ [settings.fileName s.now], false⟩
    if s.files.isFile file.parts then s.files else s.files.put file []

/-! ## Commands -/

/-- Reports the settings in effect, and writes them to a file if one is named. -/
def showConfig (config : Config) (json : Bool) (write : Option String) : Result := do
  let report : ConfigReport := { config, writtenTo := write }
  let files ← writeTo s.files write (utf8 report.yaml)
  return (if json then report.toJson.pretty 0 else report.text, files)

/-- The resource that is asked for. -/
def resourceOf (path : String) (params : List (String × String)) (metadata : Bool) : Resource :=
  (if metadata then Resource.ofPath .metadata path else Resource.classified path).withParams params

/-- Fetches a resource, writes it to a file if one is named, and reports what was found. -/
def fetch (config : Config) (json : Bool) (r : Resource) (output : Option String) : Result :=
  match Service.new config s.now with
  | .error chain => fail s.files chain
  | .ok service =>
    let (result, service) := service.get s.carry s.now r
    let shown (report : FetchReport) : String :=
      if json then report.toJson.pretty 0 else report.text?.getD ""
    match result with
    | .error fault => fail s.files ["Failed to fetch " ++ r.display, fault.message]
    | .ok none =>
      .ok (shown { resource := r.display, category := r.category, found := false }, s.files)
    | .ok (some content) =>
      match content.payload.readAll service.proxy.streams with
      | (.error fault, _) => fail s.files ["Failed to read body of " ++ r.display, fault.message]
      | (.ok bytes, _) => do
        let files ← writeTo s.files output bytes
        let a := content.attributes
        return (shown {
          resource := r.display, category := r.category, found := true, size := bytes.length,
          etag := a.etag, lastModified := a.lastModified,
          verified := a.stamp.map (·.verified), writtenTo := output }, files)

/-- The refusal of an address at which it is impossible to listen. -/
def bindFailure (address : String) : String :=
  "Failed to bind " ++ address

/-- Listens at the address of the settings and serves. -/
def serve (config : Config) : Result :=
  match config.check with
  | .error fault => fail s.files [fault.message]
  | .ok _ =>
    let files := s.withLog (.ofSection config.logging)
    match Service.new config s.now with
    | .error chain => fail files chain
    | .ok _ =>
      match s.refusal config.server.bind with
      | some reason =>
        fail files ["Proxy server exited with an error", bindFailure config.server.bind, reason]
      | none => .ok ("", files)

/-- The settings with an address and a remote in place of their own. -/
def override (config : Config) (bind remoteUrl : Option String) : Config :=
  { config with
    server := { config.server with bind := bind.getD config.server.bind }
    proxy := { config.proxy with remoteUrl := remoteUrl.getD config.proxy.remoteUrl } }

/-- Carries out what was asked for. -/
def perform (i : Invocation) : Result :=
  match Config.load s.files s.env i.config with
  | .error fault => fail s.files fault.chain
  | .ok config =>
    match i.task with
    | .serve bind remoteUrl => s.serve (override config bind remoteUrl)
    | .config write => s.showConfig config i.json write
    | .fetch path output params metadata =>
      s.fetch config i.json (resourceOf path params metadata) output

/-- Carries out a command line. -/
def run (args : List String) : Outcome :=
  match Invocation.ofArgs args with
  | .error e => { code := e.exitCode, files := s.files }
  | .ok i =>
    match s.perform i with
    | .ok (report, files) =>
      { code := 0, output := if report.isEmpty then "" else report ++ "\n", files }
    | .error (failure, files) =>
      if i.json then { code := 1, output := failure.toJson.pretty 0 ++ "\n", files }
      else { code := 1, complaint := failure.text ++ "\n", files }

end Surroundings

end PullCache.Command
