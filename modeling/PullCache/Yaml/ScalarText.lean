import PullCache.Yaml.Cursor
/-!
# Yaml.ScalarText

Reading the text of a scalar in each of its forms: plain, between quotes, and by lines. All but the
last may go over several lines, which are joined into one.
-/

namespace PullCache.Yaml

namespace Cursor

/-! ## Plain scalars -/

/-- Whether a plain scalar ends here: at a colon that is followed by white space, and inside
brackets at the signs that divide or close. -/
def endsPlain (inBrackets : Bool) : List Char → Bool
  | [] => true
  | c :: rest =>
    endsWord [c] || (c == ':' && endsWord rest) || (inBrackets && ",[]\x7b\x7d".toList.contains c)

/-- A word of a plain scalar. Inside brackets no colon may stand right before a sign. -/
def plainWord? (inBrackets : Bool) : List Char → Option (List Char)
  | [] => some []
  | c :: rest =>
    if endsPlain inBrackets (c :: rest) then some []
    else if inBrackets && c == ':' && rest.head?.any ",?[]\x7b\x7d".toList.contains then none
    else (plainWord? inBrackets rest).map (c :: ·)

/-- Reads words and the gaps between them. `least` is the column that further lines must reach. The
answer tells whether the last gap goes over the end of a line. -/
def plainWords (inBrackets : Bool) (least : Nat) :
    Nat → Gap → List Char → Cursor → Option (List Char × Bool × Cursor)
  | 0, _, _, _ => none
  | fuel + 1, gap, text, c =>
    if c.atDocumentMark || c.nextIs '#' then some (text, gap.broken, c)
    else do
      let word ← plainWord? inBrackets c.ahead
      if word.isEmpty then some (text, gap.broken, c)
      else
        let text := text ++ gap.text ++ word
        let c := c.skip word.length
        if !(c.atBlank || c.atBreak) then some (text, false, c)
        else
          let (gap, c) ← Gap.read (some least) (c.ahead.length + 1) {} c
          if !inBrackets && c.column < least then some (text, gap.broken, c)
          else plainWords inBrackets least fuel gap text c

/-- Reads a plain scalar. -/
def plain? (c : Cursor) (inBrackets : Bool) (least : Nat) :
    Option (String × Bool × Cursor) := do
  let (text, broken, c) ← plainWords inBrackets least (c.ahead.length + 1) {} [] c
  some (String.ofList text, broken, c)

/-! ## Scalars between quotes -/

/-- A character by its number in hexadecimal digits. -/
def hexChar? (digits : List Char) (width : Nat) : Option Char := do
  if digits.length < width then none
  else
    let n ← Text.natOfDigits? 16 digits
    if n < 0x110000 ∧ ¬ (0xD800 ≤ n ∧ n < 0xE000) then some (Char.ofNat n) else none

/-- The character that a short escape stands for. -/
def unescape? (c : Char) : Option Char :=
  match c with
  | '0' => some '\x00'
  | 'a' => some '\x07'
  | 'b' => some '\x08'
  | 't' | '\t' => some '\t'
  | 'n' => some '\n'
  | 'v' => some '\x0b'
  | 'f' => some '\x0c'
  | 'r' => some '\r'
  | 'e' => some '\x1b'
  | ' ' | '"' | '/' | '\\' => some c
  | 'N' => some (Char.ofNat 0x85)
  | '_' => some (Char.ofNat 0xA0)
  | 'L' => some (Char.ofNat 0x2028)
  | 'P' => some (Char.ofNat 0x2029)
  | _ => none

/-- How many hexadecimal digits follow an escape. -/
def hexWidth? : Char → Option Nat
  | 'x' => some 2
  | 'u' => some 4
  | 'U' => some 8
  | _ => none

/-- The character after a backslash, and how many characters stand for it. -/
def escaped? (cs : List Char) : Option (Char × Nat) :=
  match cs with
  | [] => none
  | e :: rest =>
    match hexWidth? e with
    | some width => (hexChar? (rest.take width) width).map (·, width + 1)
    | none => (unescape? e).map (·, 1)

/-- Reads a word between quotes, up to a quote, white space or an escaped end of the line. -/
def quotedWord (quote : Char) : Nat → Cursor → Option (List Char × Cursor)
  | 0, c => some ([], c)
  | fuel + 1, c =>
    let put (ch : Char) (n : Nat) : Option (List Char × Cursor) :=
      (quotedWord quote fuel (c.skip n)).map fun (word, c) => (ch :: word, c)
    match c.ahead with
    | [] => some ([], c)
    | ch :: rest =>
      if endsWord [ch] then some ([], c)
      else if ch == quote then
        if quote == '\'' && rest.head? == some '\'' then put '\'' 2 else some ([], c)
      else if quote == '"' && ch == '\\' then
        if rest.head?.any isBreak then some ([], c)
        else match escaped? rest with
          | some (e, n) => put e (n + 1)
          | none => none
      else put ch 1

/-- Reads words and gaps up to the closing quote. A backslash at the end of a line joins the next
line without a space. -/
def quotedWords (quote : Char) : Nat → List Char → Cursor → Option (List Char × Cursor)
  | 0, _, _ => none
  | fuel + 1, text, c =>
    if c.atDocumentMark then none
    else do
      let (word, c) ← quotedWord quote (c.ahead.length + 1) c
      let text := text ++ word
      if c.nextIs quote then some (text, c.skip 1)
      else if c.ahead.isEmpty then none
      else
        let (gap, c) ←
          if c.nextIs '\\' then
            Gap.read none (c.ahead.length + 1) { broken := true } (c.skip 1).nextLine.2
          else Gap.read none (c.ahead.length + 1) {} c
        quotedWords quote fuel (text ++ gap.text) c

/-- Reads a scalar between quotes. -/
def quoted? (c : Cursor) (quote : Char) : Option (String × Cursor) := do
  let (text, c) ← quotedWords quote (c.ahead.length + 1) [] (c.skip 1)
  some (String.ofList text, c)

/-! ## Scalars by lines -/

/-- What becomes of the line breaks at the end of a scalar. -/
inductive Chomping where
  | strip
  | clip
  | keep
  deriving DecidableEq, Repr

def chomping? : Char → Option Chomping
  | '-' => some .strip
  | '+' => some .keep
  | _ => none

/-- Reads the signs behind the bar, in either order: chomping, and the depth of the indentation. -/
def blockSigns? (c : Cursor) : Option (Chomping × Nat × Cursor) :=
  let depth? (c : Cursor) : Option (Nat × Cursor) :=
    match c.ahead with
    | d :: _ =>
      if d == '0' then none
      else if Text.isAsciiDigit d then some ((Text.digitValue? d).getD 0, c.skip 1)
      else some (0, c)
    | [] => some (0, c)
  match c.ahead.head? >>= chomping? with
  | some chomping => (depth? (c.skip 1)).map fun (depth, c) => (chomping, depth, c)
  | none => do
    let (depth, c) ← depth? c
    if depth = 0 then some (.clip, 0, c)
    else match c.ahead.head? >>= chomping? with
      | some chomping => some (chomping, depth, c.skip 1)
      | none => some (.clip, depth, c)

/-- Reads empty lines up to a line with text. `indent` is the depth of the scalar, zero as long as
it is not known. The answer is the breaks and the greatest column that was reached. -/
def emptyLines (indent : Nat) : Nat → Nat → List Char → Cursor →
    Option (List Char × Nat × Cursor)
  | 0, _, _, _ => none
  | fuel + 1, deepest, breaks, c =>
    let spaces := c.ahead.takeWhile (· == ' ')
    let n := if indent = 0 then spaces.length else min spaces.length (indent - c.column)
    let c := c.skip n
    let deepest := max deepest c.column
    if (indent = 0 || c.column < indent) && c.nextIs '\t' then none
    else if c.atBreak then
      let (text, c) := c.nextLine
      emptyLines indent fuel deepest (breaks ++ text) c
    else some (breaks, deepest, c)

/-- What a scalar by lines has come to: its text, the break that ended the last line, and the empty
lines after it. -/
structure BlockLines where
  text : List Char := []
  last : List Char := []
  breaks : List Char
  afterBlank : Bool := false

/-- Reads the lines of a scalar that stand at its depth. If it is folded, a break between two lines
that do not begin with white space becomes a space. -/
def blockLines (folded : Bool) (indent : Nat) : Nat → BlockLines → Cursor →
    Option (BlockLines × Cursor)
  | 0, _, _ => none
  | fuel + 1, b, c =>
    if c.column ≠ indent || c.ahead.isEmpty then some (b, c)
    else do
      let blank := c.atBlank
      let joint :=
        if folded && b.last == ['\n'] && !b.afterBlank && !blank then
          (if b.breaks.isEmpty then [' '] else [])
        else b.last
      let (line, c) := c.span (fun ch => !(isBreak ch))
      let (last, c) := c.nextLine
      let (breaks, _, c) ← emptyLines indent (c.ahead.length + 1) 0 [] c
      blockLines folded indent fuel
        ⟨b.text ++ joint ++ b.breaks ++ line, last, breaks, blank⟩ c

/-- Reads a scalar by lines. `parent` is the column of the collection that it belongs to, or one
less than the first column. -/
def block? (c : Cursor) (folded : Bool) (parent : Int) : Option (String × Cursor) := do
  let (chomping, depth, c) ← (c.skip 1).blockSigns?
  let (_, c) := c.span isBlank
  let c := if c.nextIs '#' then (c.span fun ch => !isBreak ch).2 else c
  if !(c.ahead.isEmpty || c.atBreak) then none
  else
    let (_, c) := c.nextLine
    let known := if depth = 0 then 0 else (max parent 0).toNat + depth
    let (breaks, deepest, c) ← emptyLines known (c.ahead.length + 1) 0 [] c
    let indent := if known = 0 then max deepest (max (parent + 1).toNat 1) else known
    let (b, c) ← blockLines folded indent (c.ahead.length + 1) { breaks } c
    some (String.ofList (b.text
      ++ (if chomping = .strip then [] else b.last)
      ++ (if chomping = .keep then b.breaks else [])), c)

end Cursor

end PullCache.Yaml
