import PullCache.Content.Basic
import PullCache.Resource
/-!
# Freshness

For how long content stays fresh. A controller owns the maximum age for one category and a token;
content is stamped with both when it is fetched or confirmed, and the stamp is held against the
controller at every use. A new token makes every earlier stamp stale at once.
-/

namespace PullCache

/-- The policy for one category: the maximum age in seconds and the present token. -/
structure Controller where
  maxAge : Int
  token : Token
  deriving DecidableEq, Repr

namespace Controller

/-- The stamp of content fetched or confirmed at a time. -/
def stampAt (c : Controller) (now : Instant) : Stamp :=
  ⟨now, c.maxAge, some c.token⟩

/-- Content is stale without a stamp, with a stamp from another token, and under a maximum age that
is not positive; otherwise once its age reaches the maximum. If dates do not reach the time at which
it would expire, it stays fresh. -/
def isStale (c : Controller) (stamp : Option Stamp) (now : Instant) : Bool :=
  match stamp with
  | none => true
  | some stamp =>
    if stamp.token.any (· ≠ c.token) then true
    else if c.maxAge ≤ 0 then true
    else match stamp.verified.addSeconds? c.maxAge.toNat with
      | some expiry => !now.before expiry
      | none => false

/-- Staleness of a cached copy, if there is one. -/
def isContentStale (c : Controller) (content : Option Content) (now : Instant) : Bool :=
  match content with
  | none => true
  | some content => c.isStale content.attributes.stamp now

end Controller

/-- The controllers of both categories, and the number of the next token to be issued. -/
structure Controllers where
  content : Controller
  metadata : Controller
  nextToken : Nat
  deriving DecidableEq, Repr

namespace Controllers

/-- Controllers with new tokens. -/
def new (contentMaxAge metadataMaxAge : Int) : Controllers :=
  ⟨⟨contentMaxAge, .issued 0⟩, ⟨metadataMaxAge, .issued 1⟩, 2⟩

def of (cs : Controllers) : Category → Controller
  | .content => cs.content
  | .metadata => cs.metadata

/-- Issues a new token to one controller, which makes every stamp of its category stale. -/
def rotate (cs : Controllers) : Category → Controllers
  | .content => { cs with
      content := { cs.content with token := .issued cs.nextToken }
      nextToken := cs.nextToken + 1 }
  | .metadata => { cs with
      metadata := { cs.metadata with token := .issued cs.nextToken }
      nextToken := cs.nextToken + 1 }

/-- Issues new tokens to both controllers. -/
def rotateAll (cs : Controllers) : Controllers :=
  (cs.rotate .content).rotate .metadata

/-- Sets the maximum age of one category for the checks to come. -/
def setMaxAge (cs : Controllers) (category : Category) (seconds : Int) : Controllers :=
  match category with
  | .content => { cs with content := { cs.content with maxAge := seconds } }
  | .metadata => { cs with metadata := { cs.metadata with maxAge := seconds } }

/-- Sets both maximum ages. -/
def setMaxAges (cs : Controllers) (contentMaxAge metadataMaxAge : Int) : Controllers :=
  (cs.setMaxAge .content contentMaxAge).setMaxAge .metadata metadataMaxAge

end Controllers

end PullCache
