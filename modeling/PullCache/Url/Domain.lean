import PullCache.Text.Percent
import PullCache.Url.Domain.Direction
import PullCache.Url.Domain.Label
/-!
# Url.Domain

Names of hosts as they are looked up. Percent escapes are undone, letters become small and composed,
and labels with other letters than ASCII get their ASCII form. Characters that have a meaning
elsewhere in a URL are refused, and so is a name that would come to another one if it were read
again.
-/

namespace PullCache.Domain

open Text

/-- Characters that no name may contain. -/
def isForbidden (c : Char) : Bool :=
  c.toNat ≤ 0x20 || c.toNat == 0x7F
    || ['%', '#', '/', ':', '<', '>', '?', '@', '[', '\\', ']', '^', '|'].contains c

/-- The labels of a name, each as it is looked up. -/
def forms? (cs : List Char) : Option (List (List Char)) := do
  let plain ← plain? cs
  let labels ← (splitOn (· == '.') (canonical plain)).mapM label?
  if Direction.agree labels then labels.mapM form? else none

/-- A name as it is looked up. -/
def convert? (cs : List Char) : Option (List Char) := do
  let forms ← forms? (← Utf8.decode? (Percent.decode (Utf8.encode cs)))
  let name := ['.'].intercalate forms
  if name.any isForbidden then none else some name

/-- A name as it is looked up, which stands for itself. -/
def toAscii? (cs : List Char) : Option (List Char) :=
  (convert? cs).filter fun name => convert? name == some name

end PullCache.Domain
