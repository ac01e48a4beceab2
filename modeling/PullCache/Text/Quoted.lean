import PullCache.Text.Blank
import PullCache.Text.Escaped
/-!
# Text.Quoted

Quoted texts, as they stand in keys and diagnostics: between double quotes, with a backslash before
a quote or a backslash, short forms for the usual control characters, and the number of every other
character that prints nothing of its own.

Quoting is injective, which is why keys are built from quoted names and values.
-/

namespace PullCache.Text

/-- One character of a quoted text. -/
def quoteChar (c : Char) : List Char :=
  match c with
  | '\x00' => ['\\', '0']
  | '\t' => ['\\', 't']
  | '\r' => ['\\', 'r']
  | '\n' => ['\\', 'n']
  | '\\' => ['\\', '\\']
  | '"' => ['\\', '"']
  | c =>
    if isEscaped c then ['\\', 'u', '\x7b'] ++ Nat.toDigits 16 c.toNat ++ ['\x7d']
    else [c]

/-- A text between double quotes. -/
def quoted (cs : List Char) : List Char :=
  '"' :: (cs.flatMap quoteChar ++ ['"'])

/-- A list of texts in brackets, separated by comma and space. -/
def bracketed (items : List (List Char)) : List Char :=
  '[' :: ([',', ' '].intercalate items ++ [']'])

end PullCache.Text
