import PullCache.Yaml.Scalar
/-!
# Yaml.Writer

Values as YAML: records as blocks, one entry to a line, and texts without quotes wherever they read
back as they are. A text of several lines is written line by line below its key; a text that would
be taken for something else stands between single quotes, and one with characters that cannot be
shown between double quotes.
-/

namespace PullCache.Yaml

/-! ## Characters -/

/-- The characters that end a line. -/
def isBreak (c : Char) : Bool :=
  c == '\n' || c == '\r' || c.toNat == 0x85 || c.toNat == 0x2028 || c.toNat == 0x2029

/-- Space and tab. -/
def isBlank (c : Char) : Bool :=
  c == ' ' || c == '\t'

/-- The characters that are shown as they are. -/
def isShown (c : Char) : Bool :=
  let n := c.toNat
  n == 0x0A || (0x20 ≤ n && n ≤ 0x7E) || (0xA0 ≤ n && n ≤ 0xD7FF)
    || (0xE000 ≤ n && n ≤ 0xFFFD && n != 0xFEFF) || 0x10000 ≤ n

/-- Whether the next character does not belong to a word. -/
def endsWord : List Char → Bool
  | [] => true
  | c :: _ => isBlank c || isBreak c || c == '\x00'

/-! ## Styles -/

inductive Style where
  | plain
  | single
  | double
  | literal
  deriving DecidableEq, Repr

/-- Whether a character or what stands around it would be taken for a sign of structure. -/
def isIndicator (first afterBlank : Bool) : List Char → Bool
  | [] => false
  | c :: rest =>
    if first then
      "#,[]{}&*!|>'\"%@\x60".toList.contains c
        || ((c == '?' || c == ':' || c == '-') && endsWord rest)
    else (c == ':' && endsWord rest) || (c == '#' && afterBlank)

/-- Whether any character from here on would be taken for a sign of structure. -/
def hasIndicator (first afterBlank : Bool) : List Char → Bool
  | [] => false
  | c :: rest =>
    isIndicator first afterBlank (c :: rest)
      || hasIndicator false (isBlank c || isBreak c || c == '\x00') rest

/-- Whether two characters of the given kinds stand next to each other somewhere. -/
def hasPair (p q : Char → Bool) : List Char → Bool
  | c :: d :: rest => (p c && q d) || hasPair p q (d :: rest)
  | _ => false

/-- A text that could be taken for the start or the end of a document. -/
def isDocumentMark (cs : List Char) : Bool :=
  "---".toList.isPrefixOf cs || "...".toList.isPrefixOf cs

/-- A space or a line break at one of the ends. -/
def hasOuterSpace (cs : List Char) : Bool :=
  let spaced (c : Option Char) : Bool := c.any fun c => c == ' ' || isBreak c
  spaced cs.head? || spaced cs.getLast?

/-- Whether a text cannot be shown outside double quotes. -/
def needsEscapes (cs : List Char) : Bool :=
  !cs.all isShown || hasPair (· == ' ') isBreak cs

/-- Whether a text reads back as it is without quotes. -/
def allowsPlain (cs : List Char) : Bool :=
  !needsEscapes cs && !cs.any isBreak && !hasOuterSpace cs && !isDocumentMark cs
    && !hasIndicator true true cs

/-- Whether a text reads back as it is between single quotes. -/
def allowsSingle (cs : List Char) : Bool :=
  !needsEscapes cs && !hasPair isBreak (· == ' ') cs

/-- The style of a text. -/
def styleOf (s : String) : Style :=
  let cs := s.toList
  if cs.contains '\n' then
    if needsEscapes cs || cs.getLast? == some ' ' then .double else .literal
  else if allowsPlain cs && !isAmbiguous s then .plain
  else if allowsSingle cs then .single
  else .double

/-! ## Texts -/

/-- A line break between single quotes stands for itself if the next line is indented. -/
def singleBody (indent : List Char) (broken : Bool) : List Char → List Char
  | [] => if broken then indent else []
  | c :: rest =>
    if isBreak c then c :: singleBody indent true rest
    else (if broken then indent else []) ++ (if c == '\'' then ['\'', '\''] else [c])
      ++ singleBody indent false rest

/-- The characters with a short escape of their own. -/
def shortEscape? (n : Nat) : Option Char :=
  match n with
  | 0x00 => some '0'
  | 0x07 => some 'a'
  | 0x08 => some 'b'
  | 0x09 => some 't'
  | 0x0A => some 'n'
  | 0x0B => some 'v'
  | 0x0C => some 'f'
  | 0x0D => some 'r'
  | 0x1B => some 'e'
  | 0x22 => some '"'
  | 0x5C => some '\\'
  | 0x85 => some 'N'
  | 0xA0 => some '_'
  | 0x2028 => some 'L'
  | 0x2029 => some 'P'
  | _ => none

/-- A character by a short escape or by its number. -/
def escape (c : Char) : List Char :=
  let n := c.toNat
  match shortEscape? n with
  | some e => ['\\', e]
  | none =>
    if n ≤ 0xFF then '\\' :: 'x' :: (Text.hexUpper 2 n).toList
    else if n ≤ 0xFFFF then '\\' :: 'u' :: (Text.hexUpper 4 n).toList
    else '\\' :: 'U' :: (Text.hexUpper 8 n).toList

def doubleBody (cs : List Char) : List Char :=
  cs.flatMap fun c =>
    if !isShown c || isBreak c || c == '"' || c == '\\' then escape c else [c]

/-- What stands behind the bar of a text by lines: a sign for the indentation if it cannot be seen
from the text, and one for the line breaks at the end unless there is exactly one. -/
def literalHints (cs : List Char) : List Char :=
  let indented := cs.head?.any fun c => c == ' ' || isBreak c
  let ending : List Char := match cs.reverse with
    | [] => ['-']
    | c :: before =>
      if !isBreak c then ['-']
      else match before with
        | [] => ['+']
        | d :: _ => if isBreak d then ['+'] else []
  (if indented then ['2'] else []) ++ ending

/-- The lines of a text, each indented unless it is empty. -/
def literalBody (indent : List Char) (broken : Bool) : List Char → List Char
  | [] => []
  | c :: rest =>
    if isBreak c then c :: literalBody indent true rest
    else (if broken then indent else []) ++ c :: literalBody indent false rest

/-- A text by lines, ended by a line break. -/
def literal (indent cs : List Char) : List Char :=
  let body := literalBody indent true cs
  '|' :: literalHints cs ++ '\n' :: body
    ++ (if body.getLast?.any isBreak then [] else ['\n'])

/-- A text behind its key, with the end of the line; `indent` stands in front of further lines. -/
def textLine (indent : List Char) (s : String) : List Char :=
  let cs := s.toList
  match styleOf s with
  | .plain => cs ++ ['\n']
  | .single => '\'' :: singleBody indent false cs ++ ['\'', '\n']
  | .double => '"' :: doubleBody cs ++ ['"', '\n']
  | .literal => literal indent cs

/-! ## Values -/

/-- The columns of a level. -/
def indentation (level : Nat) : List Char :=
  List.replicate (2 * level) ' '

mutual

/-- A value behind its key, with the end of the line. Lists stand on one line. -/
def valueText (level : Nat) : Json → List Char
  | .text s => ' ' :: textLine (indentation level) s
  | .record [] => " \x7b\x7d\n".toList
  | .record entries => '\n' :: entriesText level entries
  | other => ' ' :: other.compact.toList ++ ['\n']

/-- The entries of a record, one after the other. -/
def entriesText (level : Nat) : List (String × Json) → List Char
  | [] => []
  | (key, value) :: rest =>
    indentation level ++ key.toList ++ ':' :: valueText (level + 1) value
      ++ entriesText level rest

end

/-- A record as a document. -/
def write (value : Json) : String :=
  match value with
  | .record entries => String.ofList (entriesText 0 entries)
  | other => String.ofList ((valueText 0 other).drop 1)

end PullCache.Yaml
