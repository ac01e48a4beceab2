import PullCache.Data.Json
import PullCache.Text.Scan
import PullCache.Yaml.Scalar
/-!
# Config.EnvValue

Settings in the environment. A value is a truth value, a number, a text with or without quotes, a
list between brackets or a record between braces; whatever cannot be read as one of these is a text
as it stands. The name of a variable leads to a setting: two underscores go down into a section.
-/

namespace PullCache.EnvValue

open Text

/-! ## Pieces -/

def isSpace (c : Char) : Bool :=
  c == ' ' || c == '\t' || c == '\n' || c == '\r' || c == '\x0c'

/-- The signs that divide and enclose values. -/
def isSeparator (c : Char) : Bool :=
  ",\x7b\x7d[]".toList.contains c

def isKeyChar (c : Char) : Bool :=
  isAsciiAlnum c || c == '_' || c == '-'

/-- A character by its number in hexadecimal digits. -/
def hexChar? (digits : List Char) : Option Char := do
  let n ← natOfDigits? 16 digits
  if n < 0x110000 ∧ ¬ (0xD800 ≤ n ∧ n < 0xE000) then some (Char.ofNat n) else none

/-- The character after a backslash, and what follows it. -/
def escaped? (cs : List Char) : Option (Char × List Char) :=
  match cs with
  | 'b' :: rest => some ('\x08', rest)
  | 't' :: rest => some ('\t', rest)
  | 'n' :: rest => some ('\n', rest)
  | 'f' :: rest => some ('\x0c', rest)
  | 'r' :: rest => some ('\r', rest)
  | '"' :: rest => some ('"', rest)
  | '\\' :: rest => some ('\\', rest)
  | 'u' :: rest =>
    if rest.length < 4 then none else (hexChar? (rest.take 4)).map (·, rest.drop 4)
  | 'U' :: rest =>
    if rest.length < 8 then none else (hexChar? (rest.take 8)).map (·, rest.drop 8)
  | _ => none

/-- A text up to its closing quote, which must be there. -/
def quoted? : Nat → List Char → Option (List Char × List Char)
  | 0, _ => none
  | fuel + 1, cs =>
    match cs with
    | [] => none
    | '"' :: rest => some ([], rest)
    | '\\' :: rest => do
      let (c, rest) ← escaped? rest
      let (text, rest) ← quoted? fuel rest
      some (c :: text, rest)
    | c :: rest => do
      let (text, rest) ← quoted? fuel rest
      some (c :: text, rest)

/-- A key, with or without quotes. -/
def key? (cs : List Char) : Option (String × List Char) :=
  match cs with
  | '"' :: rest => (quoted? (rest.length + 1) rest).map fun (k, rest) => (String.ofList k, rest)
  | cs =>
    let key := cs.takeWhile isKeyChar
    if key.isEmpty then none else some (String.ofList key, cs.drop key.length)

/-! ## Words -/

/-- A whole number: digits with or without a sign, as far as 64 bits go. -/
def whole? (cs : List Char) : Option Int := do
  let (negative, digits) := Yaml.sign cs
  let n ← natOfDigits? 10 digits
  if negative then (if n ≤ Nat.pow 2 63 then some (-(n : Int)) else none)
  else if n < UInt64.size then some n else none

/-- Whether a word with a point in it is a number. -/
def isFloat (cs : List Char) : Bool :=
  (Yaml.scientific? (Yaml.sign cs).2).isSome

/-- The value of a word that is no truth value. -/
def word (cs : List Char) : Json :=
  if cs.contains '.' && isFloat cs then .decimal 0 0
  else match whole? cs with
    | some n => .int n
    | none => .text (String.ofList cs)

/-- A truth value, which ends where its word ends, whatever follows. -/
def truth? (cs : List Char) : Option (Json × List Char) :=
  if "true".toList.isPrefixOf cs then some (.bool true, cs.drop 4)
  else if "false".toList.isPrefixOf cs then some (.bool false, cs.drop 5)
  else none

/-! ## Values -/

mutual

/-- A value with white space around it, and what follows. -/
def value? : Nat → List Char → Option (Json × List Char)
  | 0, _ => none
  | fuel + 1, cs => do
    let (v, rest) ← match cs.dropWhile isSpace with
      | [] => none
      | '"' :: rest =>
        (quoted? (rest.length + 1) rest).map fun (t, rest) => (Json.text (String.ofList t), rest)
      | '\'' :: c :: '\'' :: rest => some (.text (String.singleton c), rest)
      | '\'' :: _ => none
      | '[' :: rest => items? fuel [] rest
      | '\x7b' :: rest => entries? fuel [] rest
      | cs => (truth? cs).or (
        let w := cs.takeWhile (fun c => !isSeparator c)
        some (word (trim w), cs.drop w.length))
    some (v, rest.dropWhile isSpace)

/-- The items of a list up to its bracket; a comma may stand after the last. -/
def items? : Nat → List Json → List Char → Option (Json × List Char)
  | 0, _, _ => none
  | fuel + 1, items, cs =>
    match cs.dropWhile isSpace with
    | ']' :: rest => some (.list items, rest)
    | cs => do
      let (v, rest) ← value? fuel cs
      match rest with
      | ',' :: rest => items? fuel (items ++ [v]) rest
      | ']' :: rest => some (.list (items ++ [v]), rest)
      | _ => none

/-- The entries of a record up to its brace; a comma may stand after the last. -/
def entries? : Nat → List (String × Json) → List Char → Option (Json × List Char)
  | 0, _, _ => none
  | fuel + 1, entries, cs =>
    match cs.dropWhile isSpace with
    | '\x7d' :: rest => some (.record entries, rest)
    | cs => do
      let (k, rest) ← key? cs
      match rest.dropWhile isSpace with
      | '=' :: rest =>
        let (v, rest) ← value? fuel rest
        let entries := entries.filter (·.1 != k) ++ [(k, v)]
        match rest with
        | ',' :: rest => entries? fuel entries rest
        | '\x7d' :: rest => some (.record entries, rest)
        | _ => none
      | _ => none

end

/-- The value of a variable. -/
def read (s : String) : Json :=
  match value? (2 * s.length + 2) s.toList with
  | some (v, []) => v
  | _ => .text s

/-! ## Names -/

/-- What variables with settings are called, letter case aside. -/
def front : String := "MIRROR_PROXY_"

/-- Two underscores are a point. -/
def withPoints : List Char → List Char
  | '_' :: '_' :: rest => '.' :: withPoints rest
  | c :: rest => c :: withPoints rest
  | [] => []

/-- The keys that the name of a variable stands for; names with an empty key stand for nothing. -/
def path? (name : String) : Option (List String) :=
  let cs := (trim name.toList).map lowerAscii
  if !(front.toList.map lowerAscii).isPrefixOf cs then none
  else
    let keys := splitOn (· == '.') (withPoints (trim (cs.drop front.length)))
    if keys.any List.isEmpty then none else some (keys.map String.ofList)

/-- The name of the variable for a key or for a key inside a section. -/
def nameOf (keys : List String) : String :=
  front ++ ("__".intercalate keys).toUpper

/-- A value inside records with the given keys. -/
def nest (value : Json) : List String → Json
  | [] => value
  | k :: rest => .record [(k, nest value rest)]

end PullCache.EnvValue
