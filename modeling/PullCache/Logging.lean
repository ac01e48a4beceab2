import PullCache.Config.Basic
import PullCache.Data.Json
import PullCache.Text.Blank
/-!
# Logging

What the settings ask of the log: the form of the lines, the file they go to, and how often a new
file is started. Names that are not known stand for the usual choice; settings with such names do
not get past the check, so only the level is looked at again before logging starts.
-/

namespace PullCache

inductive LogFormat where
  | json
  | pretty
  deriving DecidableEq, Repr

inductive Rotation where
  | daily
  | hourly
  | never
  deriving DecidableEq, Repr

structure LogSettings where
  level : String
  format : LogFormat
  directory : Option String
  rotation : Rotation
  deriving DecidableEq, Repr

namespace LogSettings

def ofSection (s : LoggingSection) : LogSettings where
  level := s.level
  format := if s.format == "pretty" then .pretty else .json
  directory := s.logDir
  rotation :=
    if s.rotation == "hourly" then .hourly
    else if s.rotation == "never" then .never
    else .daily

/-- The levels by name; letter case does not matter. -/
def knowsLevel (s : LogSettings) : Bool :=
  ["trace", "debug", "info", "warn", "error"].contains
    (String.ofList (s.level.toList.map Text.lowerAscii))

/-- Why logging does not start. -/
def refusal? (s : LogSettings) : Option String :=
  if s.knowsLevel then none else some ("Invalid log level: " ++ s.level)

def toJson (s : LogSettings) : Json :=
  .record [("level", .text s.level),
    ("format", .text (match s.format with
      | .json => "json"
      | .pretty => "pretty")),
    ("log_dir", .orNull .text s.directory),
    ("rotation", .text (match s.rotation with
      | .daily => "daily"
      | .hourly => "hourly"
      | .never => "never"))]

/-- The name of a log file started at a time: a new file for every day or hour, or always the
same. -/
def fileName (s : LogSettings) (now : Instant) : String :=
  let day := Instant.yearText now.date.year ++ "-" ++ Text.padded 2 now.date.month ++ "-"
    ++ Text.padded 2 now.date.day
  match s.rotation with
  | .never => "mirror-proxy.log"
  | .daily => "mirror-proxy.log." ++ day
  | .hourly => "mirror-proxy.log." ++ day ++ "-" ++ Text.padded 2 now.hour

end LogSettings

end PullCache
