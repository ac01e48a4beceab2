import PullCache.Fault
import PullCache.Resource
import PullCache.Url.Extend
/-!
# Remote

The remote repository by its URL: the URL that settings name is brought into a form that ends in a
slash, and resources are found below it.
-/

namespace PullCache.Remote

/-- The refusal of a text that is no URL. -/
def invalidUrl (s : String) (e : UrlError) : Fault :=
  .configuration ("invalid remote url " ++ s ++ ": " ++ e.message)

/-- The refusal of a URL below which nothing can lie. -/
def notABase (s : String) : Fault :=
  .configuration ("remote url " ++ s ++ " cannot be used as a base")

/-- The URL of a remote, from a text that is given a slash at the end if it has none. -/
def normalize (s : String) : Except Fault Url :=
  match Url.parse (if s.toList.getLast? = some '/' then s else s ++ "/") with
  | .error e => .error (invalidUrl s e)
  | .ok url => if url.isBase then .ok url else .error (notABase s)

/-- The pieces of a path between slashes. -/
def segmentsOf (path : String) : List (List Char) :=
  Text.splitOn (· == '/') path.toList

/-- Whether a piece of the path would lead to the directory itself or above. -/
def hasDotSegment (path : String) : Bool :=
  (segmentsOf path).any fun s => s == ['.'] || s == ['.', '.']

/-- The URL of a resource below a base. Paths with dot segments are refused; everything else in the
path and in the parameters is encoded. -/
def resolve (base : Url) (r : Resource) : Except Fault Url :=
  if hasDotSegment r.path then
    .error (.badRequest (r.display ++ " resolves outside of " ++ base.text))
  else if !base.isBase then .error (notABase base.text)
  else .ok ((base.withSegments (segmentsOf r.path)).withPairs r.params)

end PullCache.Remote
