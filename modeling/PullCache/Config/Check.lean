import PullCache.Config.Basic
import PullCache.Url.Parse
/-!
# Config.Check

Which settings the proxy can run with. The first thing that is wrong is reported.
-/

namespace PullCache

/-- Why settings are refused. -/
inductive ConfigFault where
  | invalidRemoteUrl (url : String)
  | negativeMaxAge (field : String) (minutes : Int)
  | zeroActiveTimeout
  | zeroHttpTimeout
  | zeroFailureThreshold
  | invalidBindAddress (address : String)
  | invalidLogLevel (level : String)
  | invalidLogFormat (format : String)
  | invalidLogRotation (rotation : String)
  deriving DecidableEq, Repr

namespace ConfigFault

def message : ConfigFault → String
  | invalidRemoteUrl url => "Invalid remote_url: " ++ url ++ ". Must be an absolute http(s) URL"
  | negativeMaxAge field minutes =>
    "Invalid " ++ field ++ ": " ++ toString minutes ++ ". Cannot be negative"
  | zeroActiveTimeout =>
    "Invalid active_timeout_secs: 0. Must be positive while cooperation is enabled"
  | zeroHttpTimeout => "Invalid http timeout_secs: 0. Must be positive"
  | zeroFailureThreshold => "Invalid auto_block failure_threshold: 0. Must be at least 1"
  | invalidBindAddress address => "Invalid bind address: " ++ address
  | invalidLogLevel level =>
    "Invalid log level: " ++ level ++ ". Must be one of: trace, debug, info, warn, error"
  | invalidLogFormat format =>
    "Invalid log format: " ++ format ++ ". Must be one of: json, pretty"
  | invalidLogRotation rotation =>
    "Invalid log rotation: " ++ rotation ++ ". Must be one of: daily, hourly, never"

end ConfigFault

namespace Config

/-- Whether a text is the URL of a web server. -/
def isWebUrl (s : String) : Bool :=
  match Url.parse s with
  | .ok url => (url.scheme == "http" || url.scheme == "https") && url.hasHost
  | .error _ => false

/-- Refuses settings that the proxy cannot run with. -/
def check (c : Config) : Except ConfigFault Unit :=
  if !isWebUrl c.proxy.remoteUrl then .error (.invalidRemoteUrl c.proxy.remoteUrl)
  else if c.proxy.contentMaxAgeMinutes < 0 then
    .error (.negativeMaxAge "content_max_age_minutes" c.proxy.contentMaxAgeMinutes.toInt)
  else if c.proxy.metadataMaxAgeMinutes < 0 then
    .error (.negativeMaxAge "metadata_max_age_minutes" c.proxy.metadataMaxAgeMinutes.toInt)
  else if c.cooperation.isEnabled && c.cooperation.activeTimeoutSecs == 0 then
    .error .zeroActiveTimeout
  else if c.http.timeoutSecs == 0 then .error .zeroHttpTimeout
  else if c.autoBlock.enabled && c.autoBlock.failureThreshold == 0 then
    .error .zeroFailureThreshold
  else if !Address.isSocketAddress c.server.bind then .error (.invalidBindAddress c.server.bind)
  else if !(["trace", "debug", "info", "warn", "error"].contains c.logging.level) then
    .error (.invalidLogLevel c.logging.level)
  else if !(["json", "pretty"].contains c.logging.format) then
    .error (.invalidLogFormat c.logging.format)
  else if !(["daily", "hourly", "never"].contains c.logging.rotation) then
    .error (.invalidLogRotation c.logging.rotation)
  else .ok ()

end Config

end PullCache
