import PullCache.Text.Quoted
import PullCache.Url.Address
/-!
# Url.Basic

URLs in their parts, each in its encoded form, and their text.

The path of a URL is a list of segments, or one text if the scheme does not divide it. A URL without
`//` has no host at all, one with `//` may have an empty one.
-/

namespace PullCache

/-- What stands for the host. -/
inductive Host where
  /-- A name in lower case. -/
  | domain (name : String)
  | ipv4 (number : Nat)
  | ipv6 (groups : List Nat)
  /-- A text that only its scheme can make sense of; it may be empty. -/
  | plain (text : String)
  deriving DecidableEq, Repr

namespace Host

def text : Host → String
  | domain name => name
  | ipv4 number => Address.ipv4Text number
  | ipv6 groups => "[" ++ Address.ipv6Text groups ++ "]"
  | plain text => text

end Host

/-- The path of a URL. -/
inductive UrlPath where
  | segments (list : List String)
  /-- A path that is not divided. -/
  | whole (text : String)
  deriving DecidableEq, Repr

namespace UrlPath

def text : UrlPath → String
  | segments [] => ""
  | segments list => "/" ++ "/".intercalate list
  | whole text => text

end UrlPath

structure Url where
  scheme : String
  username : String := ""
  password : String := ""
  host : Option Host := none
  tcpPort : Option Nat := none
  path : UrlPath
  query : Option String := none
  fragment : Option String := none
  deriving DecidableEq, Repr

namespace Url

/-- The common schemes of the web and its older relatives. -/
def isSpecial (scheme : String) : Bool :=
  ["http", "https", "ws", "wss", "ftp", "file"].contains scheme

/-- The number that a scheme implies and that is therefore never written. -/
def defaultPort? (scheme : String) : Option Nat :=
  match scheme with
  | "http" | "ws" => some 80
  | "https" | "wss" => some 443
  | "ftp" => some 21
  | _ => none

/-- Whether the URL names a host. -/
def hasHost (u : Url) : Bool :=
  match u.host with
  | none => false
  | some (.plain text) => !text.isEmpty
  | some _ => true

/-- User name and password, as they stand before the host. -/
def credentials (u : Url) : String :=
  if u.username.isEmpty ∧ u.password.isEmpty then ""
  else u.username ++ (if u.password.isEmpty then "" else ":" ++ u.password) ++ "@"

/-- Everything between the scheme and the path. Without a host, a path that starts with an empty
segment is kept from looking like one. -/
def authority (u : Url) : String :=
  match u.host with
  | some host =>
    "//" ++ u.credentials ++ host.text
      ++ (match u.tcpPort with
        | some n => ":" ++ toString n
        | none => "")
  | none =>
    match u.path with
    | .segments ("" :: _ :: _) => "/."
    | _ => ""

/-- The text of a URL. -/
def text (u : Url) : String :=
  u.scheme ++ ":" ++ u.authority ++ u.path.text
    ++ (match u.query with
      | some query => "?" ++ query
      | none => "")
    ++ (match u.fragment with
      | some fragment => "#" ++ fragment
      | none => "")

end Url

/-- Why a text is not a URL. -/
inductive UrlError where
  | emptyHost
  | invalidDomain
  | invalidPort
  | invalidIpv4
  | invalidIpv6
  | invalidHostCharacter
  /-- The text starts with no scheme, so it would need a URL to start from. -/
  | relative
  deriving DecidableEq, Repr

namespace UrlError

def message : UrlError → String
  | emptyHost => "empty host"
  | invalidDomain => "invalid international domain name"
  | invalidPort => "invalid port number"
  | invalidIpv4 => "invalid IPv4 address"
  | invalidIpv6 => "invalid IPv6 address"
  | invalidHostCharacter => "invalid domain character"
  | relative => "relative URL without a base"

end UrlError

end PullCache
