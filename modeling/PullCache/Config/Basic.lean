import PullCache.AutoBlock
/-!
# Config.Basic

The settings of the proxy in their sections, with the values they have when nothing is said.
-/

namespace PullCache

/-- What is fetched from where, and for how many minutes it stays fresh. -/
structure ProxySection where
  remoteUrl : String := "https://repo.maven.apache.org/maven2/"
  contentMaxAgeMinutes : Int64 := 1440
  metadataMaxAgeMinutes : Int64 := 1440
  deriving DecidableEq, Repr

/-- How long requests wait for each other; no passive wait at all turns sharing off. -/
structure CooperationSection where
  passiveTimeoutSecs : UInt64 := 600
  activeTimeoutSecs : UInt64 := 10
  deriving DecidableEq, Repr

/-- How the origin is asked. -/
structure HttpSection where
  timeoutSecs : UInt64 := 60
  connectTimeoutSecs : UInt64 := 20
  userAgent : String := "mirror-proxy/0.1.0"
  poolMaxIdlePerHost : UInt64 := 10
  deriving DecidableEq, Repr

/-- When an unreachable origin is left alone. -/
structure AutoBlockSection where
  enabled : Bool := true
  failureThreshold : UInt32 := 5
  blockSecs : UInt64 := 60
  deriving DecidableEq, Repr

/-- How much is kept in memory. -/
structure StorageSection where
  maxBlobBytes : UInt64 := 536870912
  deriving DecidableEq, Repr

/-- Where the proxy listens. -/
structure ServerSection where
  bind : String := "127.0.0.1:8081"
  deriving DecidableEq, Repr

/-- What is logged, how, and where; without a directory there are no log files. -/
structure LoggingSection where
  level : String := "info"
  format : String := "json"
  logDir : Option String := none
  rotation : String := "daily"
  deriving DecidableEq, Repr

/-- All the settings. -/
structure Config where
  proxy : ProxySection := {}
  cooperation : CooperationSection := {}
  http : HttpSection := {}
  autoBlock : AutoBlockSection := {}
  storage : StorageSection := {}
  server : ServerSection := {}
  logging : LoggingSection := {}
  deriving DecidableEq, Repr

/-- Minutes in seconds, as far as a signed 64-bit number goes. -/
def secondsOfMinutes (minutes : Int64) : Int :=
  max Int64.minValue.toInt (min Int64.maxValue.toInt (minutes.toInt * 60))

namespace ProxySection

def contentMaxAge (p : ProxySection) : Int := secondsOfMinutes p.contentMaxAgeMinutes

def metadataMaxAge (p : ProxySection) : Int := secondsOfMinutes p.metadataMaxAgeMinutes

end ProxySection

namespace CooperationSection

def isEnabled (c : CooperationSection) : Bool := 0 < c.passiveTimeoutSecs.toNat

def passiveTimeout (c : CooperationSection) : Duration := .ofSeconds c.passiveTimeoutSecs.toNat

def activeTimeout (c : CooperationSection) : Duration := .ofSeconds c.activeTimeoutSecs.toNat

end CooperationSection

namespace AutoBlockSection

def policy (a : AutoBlockSection) : BlockPolicy :=
  ⟨a.enabled, a.failureThreshold.toNat, a.blockSecs.toNat⟩

end AutoBlockSection

end PullCache
