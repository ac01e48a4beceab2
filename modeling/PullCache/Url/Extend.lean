import PullCache.Text.FormQuery
import PullCache.Url.Parse
/-!
# Url.Extend

URLs below a base: segments are added to the path of the base and pairs to its query. A segment is
encoded, so that it stays one segment whatever characters it holds.
-/

namespace PullCache.Url

open Text

/-- Drops an empty last segment, which a slash at the end leaves. -/
def dropEmptyEnd (segments : List String) : List String :=
  if 1 < segments.length ∧ segments.getLast? = some "" then segments.dropLast else segments

/-- Adds one segment. Dot segments add nothing; tabs and line breaks are dropped, and a dot segment
that this leaves is resolved. The first segment takes the place of the empty path. -/
def pushSegment (special : Bool) (segments : List String) (segment : List Char) : List String :=
  if segment == ['.'] || segment == ['.', '.'] then segments
  else
    let front := if segments == [""] then [] else segments
    let kept := segment.filter fun c => !isIgnored c
    if kept == ['.', '.'] then segments.dropLast ++ [""]
    else if kept == ['.'] then front ++ [""]
    else front ++ [String.ofList (Percent.encode (Percent.segment special) kept)]

/-- Whether the path is divided into segments, so that others can be added to it. -/
def isBase (u : Url) : Bool :=
  match u.path with
  | .segments _ => true
  | .whole _ => false

/-- The URL with segments added to its path. -/
def withSegments (u : Url) (segments : List (List Char)) : Url :=
  match u.path with
  | .whole _ => u
  | .segments list =>
    let push (list : List String) (segment : List Char) : List String :=
      let list := pushSegment (isSpecial u.scheme) list segment
      if u.scheme == "file" then dropEmptyFront list else list
    { u with path := .segments (segments.foldl push (dropEmptyEnd list)) }

/-- The URL with pairs added to its query. -/
def withPairs (u : Url) (pairs : List (String × String)) : Url :=
  match pairs with
  | [] => u
  | pairs =>
    let query := (u.query.getD "").toList
    { u with query := some (String.ofList (FormQuery.append query pairs)) }

end PullCache.Url
