/-!
# Origin.Etag

Entity tags in headers. A strong tag stands between quotes, which are taken off when it is kept and
put back when it is sent; anything else, such as a weak tag, is kept as it is.
-/

namespace PullCache.Etag

/-- A tag between quotes, as headers show it. -/
def quote (tag : List Char) : List Char :=
  '"' :: (tag ++ ['"'])

/-- A header value without the quotes around it, if there are quotes at both ends. -/
def unquote (raw : List Char) : List Char :=
  match raw with
  | '"' :: rest => if rest.getLast? = some '"' then rest.dropLast else raw
  | _ => raw

end PullCache.Etag
