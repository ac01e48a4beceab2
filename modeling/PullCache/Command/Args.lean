import PullCache.Text.Blank
/-!
# Command.Args

The command line: what is to be done, and with which settings. Options have a long name and some a
letter; a value follows as the next argument or, behind an equals sign, in the same one. Letters can
be put together behind one dash. Behind two dashes nothing is an option any more.

An option may be given once, except the parameters of a request. The options for the settings file
and for the form of the output may be given before the command as well as behind it; the later
counts.
-/

namespace PullCache.Command

/-- What is to be done. -/
inductive Task where
  | serve (bind remoteUrl : Option String)
  | fetch (path : String) (output : Option String) (params : List (String × String))
      (metadata : Bool)
  | config (write : Option String)
  deriving DecidableEq, Repr

structure Invocation where
  task : Task
  /-- The settings file. -/
  config : Option String
  /-- Whether output is to be JSON. -/
  json : Bool
  deriving DecidableEq, Repr

/-- Why a command line cannot be carried out. Asking for help or for the version ends it too. -/
inductive UsageError where
  | help
  | version
  /-- Nothing was asked for, so there is help. -/
  | nothingAsked
  | missingCommand
  | unknownCommand
  | unknownArgument
  /-- An option was given twice. -/
  | repeated
  /-- An option lacks its value, or the value must not be empty. -/
  | missingValue
  /-- A value for an option that has none. -/
  | unneededValue
  /-- A parameter without an equals sign. -/
  | invalidParameter
  | missingArgument
  deriving DecidableEq, Repr

/-- The status to end with. -/
def UsageError.exitCode : UsageError → Nat
  | help | version => 0
  | _ => 2

/-- The options of all commands. -/
inductive Opt where
  | config
  | json
  | help
  | version
  | bind
  | remoteUrl
  | output
  | param
  | metadata
  | write
  deriving DecidableEq, Repr

namespace Opt

def long : Opt → String
  | config => "config"
  | json => "json"
  | help => "help"
  | version => "version"
  | bind => "bind"
  | remoteUrl => "remote-url"
  | output => "output"
  | param => "param"
  | metadata => "metadata"
  | write => "write"

def letter? : Opt → Option Char
  | config => some 'c'
  | json => some 'j'
  | help => some 'h'
  | version => some 'V'
  | output => some 'o'
  | param => some 'p'
  | _ => none

/-- Whether a value follows. -/
def takesValue : Opt → Bool
  | json | help | version | metadata => false
  | _ => true

/-- Whether the value names a file, so it must not be empty. -/
def isPath : Opt → Bool
  | config | output | write => true
  | _ => false

end Opt

/-- The level of the command line: before the command, or behind it. -/
inductive Level where
  | top
  | serve
  | fetch
  | config
  deriving DecidableEq, Repr

namespace Level

/-- The options of a level. -/
def options : Level → List Opt
  | top => [.config, .json, .help, .version]
  | serve => [.bind, .remoteUrl, .config, .json, .help]
  | fetch => [.output, .param, .metadata, .config, .json, .help]
  | config => [.write, .config, .json, .help]

/-- The level behind the name of a command. -/
def ofName? (name : String) : Option Level :=
  match name with
  | "serve" => some serve
  | "fetch" => some fetch
  | "config" => some config
  | _ => none

end Level

/-- What has been read at a level. -/
structure Reading where
  level : Level
  values : List (Opt × String) := []
  /-- The last option with a value of its own, until it is taken in; it may still lack the value. -/
  pending : Option (Opt × Option String) := none
  argument : Option String := none
  /-- Whether two dashes have been read. -/
  plainOnly : Bool := false

namespace Reading

def has (r : Reading) (o : Opt) : Bool :=
  r.values.any (·.1 == o)

def value? (r : Reading) (o : Opt) : Option String :=
  r.values.lookup o

/-- Whether the next argument is the value of an option. -/
def awaits (r : Reading) : Bool :=
  match r.pending with
  | some (_, none) => true
  | _ => false

/-- A parameter in its two parts. -/
def param? (s : String) : Option (String × String) :=
  let name := s.toList.takeWhile (· != '=')
  match s.toList.dropWhile (· != '=') with
  | _ :: value => some (String.ofList name, String.ofList value)
  | [] => none

/-- Takes an option in. -/
def accept (r : Reading) (o : Opt) (value : String) : Except UsageError Reading :=
  if o ≠ .param ∧ r.has o then .error .repeated
  else if o.isPath ∧ value.isEmpty then .error .missingValue
  else if o = .param ∧ (param? value).isNone then .error .invalidParameter
  else .ok { r with values := r.values ++ [(o, value)] }

/-- Takes the pending option in. -/
def resolve (r : Reading) : Except UsageError Reading :=
  match r.pending with
  | none => .ok r
  | some (_, none) => .error .missingValue
  | some (o, some value) => { r with pending := none }.accept o value

/-- Takes an option without a value in. -/
def flag (r : Reading) (o : Opt) : Except UsageError Reading := do
  let r ← r.resolve
  match o with
  | .help => .error .help
  | .version => .error .version
  | o => r.accept o ""

/-- Reads an option by its long name. -/
def longOption (r : Reading) (cs : List Char) : Except UsageError Reading :=
  let name := String.ofList (cs.takeWhile (· != '='))
  let attached := (cs.dropWhile (· != '=')).tail?.map String.ofList
  match r.level.options.find? fun o => o.long == name with
  | none => .error .unknownArgument
  | some o =>
    if o.takesValue then do
      let r ← r.resolve
      match attached with
      | some value => r.accept o value
      | none => .ok { r with pending := some (o, none) }
    else if attached.isSome then .error .unneededValue
    else r.flag o

/-- Reads options by their letters; the first with a value takes all that follows. -/
def letters (r : Reading) : List Char → Except UsageError Reading
  | [] => .ok r
  | c :: rest =>
    match r.level.options.find? fun o => o.letter? == some c with
    | none => .error .unknownArgument
    | some o =>
      if o.takesValue then do
        let r ← r.resolve
        match rest with
        | [] => .ok { r with pending := some (o, none) }
        | '=' :: value => r.accept o (String.ofList value)
        | value => r.accept o (String.ofList value)
      else do
        let r ← r.flag o
        letters r rest

/-- An argument that is no option. -/
def plain (r : Reading) (arg : String) : Except UsageError Reading := do
  if r.level = .fetch ∧ r.argument.isNone then
    let r ← r.resolve
    return { r with argument := some arg }
  else if r.level = .top ∧ ¬ (r.plainOnly ∧ (Level.ofName? arg).isSome) then
    throw .unknownCommand
  else throw .unknownArgument

/-- Reads an argument that is not the name of a command. -/
def next (r : Reading) (arg : String) : Except UsageError Reading :=
  if r.plainOnly then r.plain arg
  else match arg.toList with
    | ['-', '-'] => .ok { r with plainOnly := true }
    | '-' :: '-' :: name => r.longOption name
    | '-' :: c :: rest => r.letters (c :: rest)
    | _ =>
      match r.pending with
      | some (o, none) => .ok { r with pending := some (o, some arg) }
      | _ => r.plain arg

/-- The task of a level behind a command. -/
def task (r : Reading) : Except UsageError Task :=
  match r.level with
  | .top => .error .missingCommand
  | .serve => .ok (.serve (r.value? .bind) (r.value? .remoteUrl))
  | .config => .ok (.config (r.value? .write))
  | .fetch =>
    match r.argument with
    | none => .error .missingArgument
    | some path =>
      let params := (r.values.filter (·.1 == .param)).filterMap fun v => param? v.2
      .ok (.fetch path (r.value? .output) params (r.has .metadata))

end Reading

/-- Help is given on a command by its name. -/
def helpOn : List String → UsageError
  | [] | ["serve"] | ["fetch"] | ["config"] | ["help"] => .help
  | _ => .unknownCommand

/-- Reads the arguments behind a command. -/
def readBehind (level : Level) (args : List String) : Except UsageError (Reading × Task) := do
  let r ← args.foldlM Reading.next { level }
  let r ← r.resolve
  return (r, ← r.task)

/-- Reads the arguments from here on, with those before the command already read. -/
def readFrom (top : Reading) : List String → Except UsageError Invocation
  | [] => do
    let top ← top.resolve
    if top.values.isEmpty then throw .nothingAsked else throw .missingCommand
  | arg :: rest =>
    if !top.plainOnly && !top.awaits && arg == "help" then .error (helpOn rest)
    else match if top.plainOnly || top.awaits then none else Level.ofName? arg with
      | some level => do
        let (r, task) ← readBehind level rest
        let top ← top.resolve
        return ⟨task, (r.value? .config).or (top.value? .config), r.has .json || top.has .json⟩
      | none => do
        let top ← top.next arg
        readFrom top rest

/-- Reads a command line without the name of the program. -/
def Invocation.ofArgs (args : List String) : Except UsageError Invocation :=
  readFrom { level := .top } args

end PullCache.Command
