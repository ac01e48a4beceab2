import PullCache.Yaml.Writer
/-!
# Yaml.Cursor

A place in a text: what lies ahead, and on which line and in which column it begins. Indentation is
told by columns, so reading has to keep track of them.
-/

namespace PullCache.Yaml

structure Cursor where
  ahead : List Char
  line : Nat := 0
  column : Nat := 0
  /-- How many characters lie behind. -/
  index : Nat := 0
  deriving Repr

namespace Cursor

def nextIs (c : Cursor) (ch : Char) : Bool :=
  c.ahead.head? == some ch

/-- Whether the character after the next `n` ends a word. -/
def wordEndsAt (c : Cursor) (n : Nat) : Bool :=
  endsWord (c.ahead.drop n)

/-- The place behind the next `n` characters of this line. -/
def skip (c : Cursor) (n : Nat) : Cursor :=
  { c with ahead := c.ahead.drop n, column := c.column + n, index := c.index + n }

/-- The place behind the characters that satisfy `p`, and those characters. -/
def span (c : Cursor) (p : Char → Bool) : List Char × Cursor :=
  let taken := c.ahead.takeWhile p
  (taken, c.skip taken.length)

/-- The start of the next line, and the break before it. All breaks but those between lines and
paragraphs are the same. -/
def nextLine (c : Cursor) : List Char × Cursor :=
  let start (rest : List Char) (n : Nat) : Cursor := ⟨rest, c.line + 1, 0, c.index + n⟩
  match c.ahead with
  | [] => ([], c)
  | '\r' :: '\n' :: rest => (['\n'], start rest 2)
  | ch :: rest =>
    (if ch.toNat == 0x2028 || ch.toNat == 0x2029 then [ch] else ['\n'], start rest 1)

def atBreak (c : Cursor) : Bool :=
  c.ahead.head?.any isBreak

def atBlank (c : Cursor) : Bool :=
  c.ahead.head?.any isBlank

/-- Whether a mark of a document, alone on its line or followed by white space, comes next. -/
def atDocumentMark (c : Cursor) : Bool :=
  c.column == 0 && isDocumentMark c.ahead && c.wordEndsAt 3

end Cursor

/-! ## White space inside scalars -/

/-- White space between two words of a scalar: blanks on one line, or breaks between lines. -/
structure Gap where
  blanks : List Char := []
  /-- Whether the gap goes over the end of a line. -/
  broken : Bool := false
  first : List Char := []
  more : List Char := []

namespace Gap

/-- What a gap stands for: a single break between lines is a space, and of several breaks the first
is dropped. -/
def text (g : Gap) : List Char :=
  if !g.broken then g.blanks
  else if g.first == ['\n'] then (if g.more.isEmpty then [' '] else g.more)
  else g.first ++ g.more

/-- Reads a gap. If there is a least column, no tab may stand to the left of it on a further
line. -/
def read (least : Option Nat) : Nat → Gap → Cursor → Option (Gap × Cursor)
  | 0, g, c => some (g, c)
  | fuel + 1, g, c =>
    match c.ahead with
    | [] => some (g, c)
    | ch :: _ =>
      if isBlank ch then
        if g.broken then
          if ch == '\t' && least.any (c.column < ·) then none
          else read least fuel g (c.skip 1)
        else read least fuel { g with blanks := g.blanks ++ [ch] } (c.skip 1)
      else if isBreak ch then
        let (text, c) := c.nextLine
        if g.broken then read least fuel { g with more := g.more ++ text } c
        else read least fuel { g with broken := true, first := text } c
      else some (g, c)

end Gap

end PullCache.Yaml
