import PullCache.Text.Blank
/-!
# Data.Json

Values made of texts, numbers, lists and records, in which configuration is read and reports are
written, and their text as JSON: on one line, or spread over lines with the keys in order.
-/

namespace PullCache

/-- A value. Records keep the order of their entries; a number with a decimal point is kept apart
from a whole one. -/
inductive Json where
  | null
  | bool (b : Bool)
  | int (n : Int)
  /-- The digits of `digits`, of which `places` stand after the point. -/
  | decimal (digits : Int) (places : Nat)
  | text (s : String)
  | list (items : List Json)
  | record (entries : List (String × Json))
  deriving Repr, Inhabited

namespace Json

/-! ## Making values -/

def ofNat (n : Nat) : Json := int n

/-- A value, or null if there is none. -/
def orNull (f : α → Json) : Option α → Json
  | some a => f a
  | none => null

/-- The entry of a record, if the value is a record and has one. -/
def get? (key : String) : Json → Option Json
  | record entries => (entries.find? (fun entry => entry.1 == key)).map (·.2)
  | _ => none

/-! ## Writing -/

/-- One character of a text between quotes. -/
def escapeChar (c : Char) : List Char :=
  match c with
  | '"' => ['\\', '"']
  | '\\' => ['\\', '\\']
  | '\n' => ['\\', 'n']
  | '\r' => ['\\', 'r']
  | '\t' => ['\\', 't']
  | '\x08' => ['\\', 'b']
  | '\x0c' => ['\\', 'f']
  | c =>
    if c.toNat < 0x20 then
      ['\\', 'u', '0', '0'] ++ List.replicate (if c.toNat < 0x10 then 1 else 0) '0'
        ++ Nat.toDigits 16 c.toNat
    else [c]

def quotedText (s : String) : String :=
  "\"" ++ String.ofList (s.toList.flatMap escapeChar) ++ "\""

/-- A decimal number. -/
def decimalText (digits : Int) (places : Nat) : String :=
  let scale := Nat.pow 10 places
  (if digits < 0 then "-" else "") ++ toString (digits.natAbs / scale) ++ "."
    ++ Text.padded places (digits.natAbs % scale)

mutual

/-- The value on one line. -/
def compact : Json → String
  | null => "null"
  | bool b => if b then "true" else "false"
  | int n => toString n
  | decimal digits places => decimalText digits places
  | text s => quotedText s
  | list items => "[" ++ ",".intercalate (compactItems items) ++ "]"
  | record entries => "\x7b" ++ ",".intercalate (compactEntries entries) ++ "\x7d"

def compactItems : List Json → List String
  | [] => []
  | item :: rest => compact item :: compactItems rest

def compactEntries : List (String × Json) → List String
  | [] => []
  | (key, value) :: rest => (quotedText key ++ ":" ++ compact value) :: compactEntries rest

end

/-- Blanks at the start of a line. -/
def indentation (depth : Nat) : String :=
  String.ofList (List.replicate (2 * depth) ' ')

/-- Lines between brackets; nothing at all stands between the brackets of an empty value. -/
def block (opening closing : String) (depth : Nat) (lines : List String) : String :=
  if lines.isEmpty then opening ++ closing
  else opening ++ "\n" ++ ",\n".intercalate (lines.map (indentation (depth + 1) ++ ·))
    ++ "\n" ++ indentation depth ++ closing

/-- Puts an entry in its place among entries ordered by key. -/
def insertByKey (entry : String × String) : List (String × String) → List (String × String)
  | [] => [entry]
  | other :: rest =>
    if entry.1 ≤ other.1 then entry :: other :: rest else other :: insertByKey entry rest

mutual

/-- The value over several lines. -/
def pretty (depth : Nat) : Json → String
  | list items => block "[" "]" depth (prettyItems (depth + 1) items)
  | record entries =>
    block "\x7b" "\x7d" depth
      (((prettyEntries (depth + 1) entries).foldr insertByKey []).map (·.2))
  | null => "null"
  | bool b => if b then "true" else "false"
  | int n => toString n
  | decimal digits places => decimalText digits places
  | text s => quotedText s

def prettyItems (depth : Nat) : List Json → List String
  | [] => []
  | item :: rest => pretty depth item :: prettyItems depth rest

/-- The lines of the entries, each with its key. -/
def prettyEntries (depth : Nat) : List (String × Json) → List (String × String)
  | [] => []
  | (key, value) :: rest =>
    (key, quotedText key ++ ": " ++ pretty depth value) :: prettyEntries depth rest

end

end Json

end PullCache
