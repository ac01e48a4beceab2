import PullCache.Content.Basic
import PullCache.Data.Json
import PullCache.Time.Timestamp
/-!
# Content.Record

Attributes of content as records, the way they are kept in files: times as timestamps, and what is
unknown as null. A record may leave out what may be unknown; a list has to give everything, in
order.
-/

namespace PullCache

/-- A value that may be missing or null. -/
def optionalOf (read : Json → Option α) : Option Json → Option (Option α)
  | none | some .null => some none
  | some value => (read value).map some

namespace Json

def asText : Json → Option String
  | text s => some s
  | _ => none

def asInstant : Json → Option Instant
  | text s => Timestamp.parse? s.toList
  | _ => none

/-- A whole number that 64 bits with a sign can hold. -/
def asInt64 : Json → Option Int
  | int n => if Int64.minValue.toInt ≤ n ∧ n ≤ Int64.maxValue.toInt then some n else none
  | _ => none

def ofInstant (t : Instant) : Json := text (Timestamp.text t)

/-- The values under the given keys: entries of a record by name, or all the items of a list by
position. -/
def parts (keys : List String) (value : Json) : Option (List (Option Json)) :=
  match value with
  | record entries => some (keys.map fun key => (record entries).get? key)
  | list items => if items.length = keys.length then some (items.map some) else none
  | _ => none

end Json

namespace Stamp

/-- The text of a token; issued tokens are numbered. -/
def tokenText : Token → String
  | .issued n => "issued-" ++ toString n
  | .named text => text

def toJson (s : Stamp) : Json :=
  .record [("last_verified", .ofInstant s.verified), ("max_age_secs", .int s.maxAge),
    ("cache_token", .orNull (fun t => .text (tokenText t)) s.token)]

def ofJson (value : Json) : Option Stamp := do
  match ← value.parts ["last_verified", "max_age_secs", "cache_token"] with
  | [verified, maxAge, token] =>
    let verified ← (← verified).asInstant
    let maxAge ← (← maxAge).asInt64
    let token ← optionalOf Json.asText token
    some ⟨verified, maxAge, token.map .named⟩
  | _ => none

end Stamp

namespace Attributes

def toJson (a : Attributes) : Json :=
  .record [("last_modified", .orNull .ofInstant a.lastModified),
    ("etag", .orNull .text a.etag),
    ("content_type", .orNull .text a.contentType),
    ("cache_info", .orNull Stamp.toJson a.stamp)]

def ofJson (value : Json) : Option Attributes := do
  match ← value.parts ["last_modified", "etag", "content_type", "cache_info"] with
  | [lastModified, etag, contentType, stamp] =>
    let lastModified ← optionalOf Json.asInstant lastModified
    let etag ← optionalOf Json.asText etag
    let contentType ← optionalOf Json.asText contentType
    let stamp ← optionalOf Stamp.ofJson stamp
    some ⟨lastModified, etag, contentType, stamp⟩
  | _ => none

end Attributes

end PullCache
