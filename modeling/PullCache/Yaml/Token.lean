import PullCache.Text.Utf8
import PullCache.Yaml.ScalarText
/-!
# Yaml.Token

A text as tokens. Indentation becomes tokens that open and close collections, and a key is only
known as one when the colon behind it is met: its token is then put in front of what was read in
the meantime.

A key without a question mark must stand on one line and must not be longer than 1024 characters.
-/

namespace PullCache.Yaml

inductive Token where
  | version (major minor : Nat)
  /-- A short form for the beginnings of tags. -/
  | tagHandle (handle beginning : String)
  | documentStart
  | documentEnd
  | blockSequence
  | blockMapping
  /-- The end of a collection that is told by indentation. -/
  | blockEnd
  | openSequence
  | closeSequence
  | openMapping
  | closeMapping
  /-- The dash before an item. -/
  | dash
  | comma
  | key
  | value
  | alias (name : String)
  | anchor (name : String)
  | tag (handle suffix : String)
  | scalar (isPlain : Bool) (text : String)
  deriving DecidableEq, Repr

/-- The place where a key may have begun. -/
structure KeyPlace where
  /-- Whether nothing but a key can stand there. -/
  required : Bool
  /-- The number of the token that would be the key. -/
  token : Nat
  place : Cursor

/-- The state of reading tokens. -/
structure Lexer where
  place : Cursor
  tokens : List Token := []
  /-- The columns of the open collections, the innermost first; without one the column is -1. -/
  columns : List Int := []
  /-- Where a key may have begun, for each level of brackets, the innermost first. -/
  keys : List (Option KeyPlace) := [none]
  /-- Whether a key may begin here. -/
  keyAllowed : Bool := true

namespace Lexer

/-! ## Levels -/

def inBrackets (s : Lexer) : Bool :=
  1 < s.keys.length

/-- The column of the innermost collection. -/
def column (s : Lexer) : Int :=
  s.columns.head?.getD (-1)

def put (s : Lexer) (t : Token) : Lexer :=
  { s with tokens := s.tokens ++ [t] }

/-- Goes on behind `n` characters. -/
def skip (s : Lexer) (n : Nat) : Lexer :=
  { s with place := s.place.skip n }

def allowKey (s : Lexer) (allowed : Bool) : Lexer :=
  { s with keyAllowed := allowed }

/-- Opens a collection if this column lies deeper than the innermost one; its token becomes the one
with the given number. -/
def open? (s : Lexer) (column : Nat) (number : Nat) (t : Token) : Lexer :=
  if s.inBrackets || (column : Int) ≤ s.column then s
  else { s with columns := column :: s.columns, tokens := s.tokens.insertIdx number t }

/-- Closes all collections that lie deeper than a column. -/
def closeTo (s : Lexer) (column : Int) : Lexer :=
  if s.inBrackets then s
  else
    let closed := s.columns.takeWhile (column < ·)
    { s with
      columns := s.columns.drop closed.length
      tokens := s.tokens ++ closed.map fun _ => Token.blockEnd }

/-! ## Keys -/

/-- Whether a key that began at a place can still end here. -/
def reaches (k : KeyPlace) (c : Cursor) : Bool :=
  k.place.line == c.line && c.index ≤ k.place.index + 1024

/-- Gives up the keys that went on for too long; a required one cannot be given up. -/
def dropLateKeys? (s : Lexer) : Option Lexer := do
  let keys ← s.keys.mapM fun k =>
    match k with
    | none => some none
    | some k =>
      if reaches k s.place then some (some k) else if k.required then none else some none
  some { s with keys }

/-- Gives up the key at this level. -/
def dropKey? (s : Lexer) : Option Lexer :=
  match s.keys with
  | some k :: rest => if k.required then none else some { s with keys := none :: rest }
  | _ => some s

/-- Notes that a key may begin here. -/
def noteKey? (s : Lexer) : Option Lexer := do
  if s.keyAllowed then
    let required := !s.inBrackets && s.column == s.place.column
    let s ← s.dropKey?
    some { s with keys := some ⟨required, s.tokens.length, s.place⟩ :: s.keys.tail }
  else some s

/-! ## Between tokens -/

/-- Goes on to the next token, over white space, comments and line ends. A byte order mark may begin
a line; it takes up a column. -/
def toNext (fuel : Nat) (s : Lexer) : Lexer :=
  match fuel with
  | 0 => s
  | fuel + 1 =>
    let blank (c : Char) : Bool := c == ' ' || ((s.inBrackets || !s.keyAllowed) && c == '\t')
    let start := s.place
    let start := if start.column == 0 && start.nextIs '\ufeff' then start.skip 1 else start
    let (_, c) := start.span blank
    let c := if c.nextIs '#' then (c.span fun ch => !isBreak ch).2 else c
    if c.atBreak then
      toNext fuel { s with place := c.nextLine.2, keyAllowed := s.keyAllowed || !s.inBrackets }
    else { s with place := c }

/-! ## Names and tags -/

def isNameChar (c : Char) : Bool :=
  Text.isAsciiAlnum c || c == '_' || c == '-'

def isUriChar (c : Char) : Bool :=
  isNameChar c || ";/?:@&=+$.!~*'()%".toList.contains c

/-- Characters of a tag where nothing else can be meant by brackets and commas. -/
def isLongUriChar (c : Char) : Bool :=
  isUriChar c || ",[]".toList.contains c

/-- The bytes of a tag; escapes stand for one byte each. -/
def uriBytes? : List Char → Option Bytes
  | [] => some []
  | '%' :: high :: low :: rest => do
    let high ← Text.digitValue? high
    let low ← Text.digitValue? low
    some (UInt8.ofNat (high * 16 + low) :: (← uriBytes? rest))
  | c :: rest => if c == '%' then none else (uriBytes? rest).map (Utf8.encodeChar c ++ ·)

/-- The text of a tag. -/
def uri? (cs : List Char) : Option String := do
  if cs.isEmpty then none
  (← uriBytes? cs) |> Utf8.decode? |>.map String.ofList

/-- Reads the name of an anchor or an alias. -/
def name? (c : Cursor) : Option (String × Cursor) :=
  let (name, c) := (c.skip 1).span isNameChar
  if name.isEmpty || !(c.wordEndsAt 0 || c.ahead.head?.any "?:,]\x7d%@\x60".toList.contains) then
    none
  else some (String.ofList name, c)

/-- Reads the handle of a tag: an exclamation mark, or a name between two of them. -/
def handle (c : Cursor) : List Char × Cursor :=
  let (name, after) := (c.skip 1).span isNameChar
  if after.nextIs '!' then ('!' :: name ++ ['!'], after.skip 1) else ('!' :: name, after)

/-- Reads a tag as a handle and what follows it. -/
def tag? (s : Lexer) : Option (Token × Cursor) := do
  let c := s.place
  let (t, c) ←
    if (c.skip 1).nextIs '<' then
      let (long, c) := (c.skip 2).span isLongUriChar
      if !c.nextIs '>' then none
      else some (Token.tag "" (← uri? long), c.skip 1)
    else
      let (front, after) := handle c
      let (short, c) := after.span isUriChar
      if 2 ≤ front.length && front.getLast? == some '!' then
        some (Token.tag (String.ofList front) (← uri? short), c)
      else
        let suffix := front.drop 1 ++ short
        if suffix.isEmpty then some (Token.tag "" "!", c)
        else some (Token.tag "!" (← uri? suffix), c)
  if c.wordEndsAt 0 || (s.inBrackets && c.nextIs ',') then some (t, c) else none

/-! ## Directives -/

/-- Reads the rest of a line that may hold nothing more than a comment. -/
def restOfLine? (c : Cursor) : Option Cursor :=
  let (_, c) := c.span isBlank
  let c := if c.nextIs '#' then (c.span fun ch => !isBreak ch).2 else c
  if c.ahead.isEmpty then some c else if c.atBreak then some c.nextLine.2 else none

/-- Reads a directive: the version of the language, or a handle for tags. -/
def directive? (c : Cursor) : Option (Token × Cursor) := do
  let (name, c) := (c.skip 1).span isNameChar
  if !c.wordEndsAt 0 then none
  let (_, c) := c.span isBlank
  let (t, c) ←
    if name == "YAML".toList then
      let (major, c) := c.span Text.isAsciiDigit
      let (minor, after) := (c.skip 1).span Text.isAsciiDigit
      if major.isEmpty || minor.isEmpty || !c.nextIs '.' then none
      else some (Token.version (Text.decimalValue major) (Text.decimalValue minor), after)
    else if name == "TAG".toList then
      let (front, after) := handle c
      let (long, last) := (after.span isBlank).2.span isLongUriChar
      if !c.nextIs '!' || front.getLast? != some '!' || !after.atBlank || !last.wordEndsAt 0 then
        none
      else some (Token.tagHandle (String.ofList front) (← uri? long), last)
    else none
  let c ← restOfLine? c
  some (t, c)

/-! ## Tokens -/

/-- Closes everything before a line that belongs to no collection. -/
def leaveBlocks? (s : Lexer) : Option Lexer := do
  let s ← (s.closeTo (-1)).dropKey?
  some (s.allowKey false)

/-- Takes a token of a single character, after which a key may begin or not. -/
def sign (s : Lexer) (t : Token) (allowed : Bool) : Lexer :=
  ((s.put t).skip 1).allowKey allowed

/-- A dash or a question mark opens a collection if there is none in its column. -/
def openHere? (s : Lexer) (t : Token) : Option Lexer :=
  if s.inBrackets then some s
  else if s.keyAllowed then some (s.open? s.place.column s.tokens.length t)
  else none

/-- A colon makes what was read since the start of a key a key. -/
def colon? (s : Lexer) : Option Lexer :=
  match s.keys with
  | some k :: rest =>
    let s := { s with tokens := s.tokens.insertIdx k.token .key }
    let s := s.open? k.place.column k.token .blockMapping
    some ({ s with keys := none :: rest }.sign .value false)
  | _ => do
    let s ← s.openHere? .blockMapping
    some (s.sign .value (!s.inBrackets))

/-- Takes a token that may be a key. -/
def word? (s : Lexer) (read : Lexer → Option (Token × Cursor)) : Option Lexer := do
  let s ← s.noteKey?
  let (t, place) ← read s
  some ({ s with place }.put t |>.allowKey false)

/-- Whether a plain scalar begins here. -/
def startsPlain (s : Lexer) : Bool :=
  match s.place.ahead with
  | [] => false
  | c :: rest =>
    !(endsWord [c] || "-?:,[]\x7b\x7d#&*!|>'\"%@\x60".toList.contains c)
      || (c == '-' && !(rest.head?.any isBlank))
      || (!s.inBrackets && (c == '?' || c == ':') && !endsWord rest)

/-- Takes a plain scalar. A key may follow if it ended at the end of a line. -/
def plainScalar? (s : Lexer) : Option Lexer := do
  let s ← s.noteKey?
  let (text, broken, place) ← s.place.plain? s.inBrackets (s.column + 1).toNat
  some ({ s with place }.put (.scalar true text) |>.allowKey broken)

/-- Takes a scalar by lines. -/
def blockScalar? (s : Lexer) (folded : Bool) : Option Lexer := do
  let s ← s.dropKey?
  let (text, place) ← s.place.block? folded s.column
  some ({ s with place }.put (.scalar false text) |>.allowKey true)

/-- Takes the next token, whose first character is given. -/
def take? (s : Lexer) (c : Char) : Option Lexer :=
  let place := s.place
  let wordEnds := place.wordEndsAt 1
  if place.column = 0 ∧ c = '%' then do
    let s ← s.leaveBlocks?
    let (t, place) ← directive? s.place
    some ({ s with place }.put t)
  else if place.atDocumentMark then do
    let s ← s.leaveBlocks?
    some ((s.put (if c = '-' then .documentStart else .documentEnd)).skip 3)
  else match c with
    | '[' => do
      let s ← s.noteKey?
      some ({ s with keys := none :: s.keys }.sign .openSequence true)
    | '\x7b' => do
      let s ← s.noteKey?
      some ({ s with keys := none :: s.keys }.sign .openMapping true)
    | ']' => do
      let s ← s.dropKey?
      some ({ s with keys := if s.inBrackets then s.keys.tail else s.keys }.sign
        .closeSequence false)
    | '\x7d' => do
      let s ← s.dropKey?
      some ({ s with keys := if s.inBrackets then s.keys.tail else s.keys }.sign
        .closeMapping false)
    | ',' => do
      let s ← s.dropKey?
      some (s.sign .comma true)
    | c =>
      if c = '-' ∧ wordEnds then do
        let s ← s.openHere? .blockSequence
        let s ← s.dropKey?
        some (s.sign .dash true)
      else if c = '?' ∧ (s.inBrackets ∨ wordEnds) then do
        let s ← s.openHere? .blockMapping
        let s ← s.dropKey?
        some (s.sign .key (!s.inBrackets))
      else if c = ':' ∧ (s.inBrackets ∨ wordEnds) then s.colon?
      else if c = '*' then
        s.word? fun s => (name? s.place).map fun (n, c) => (.alias n, c)
      else if c = '&' then
        s.word? fun s => (name? s.place).map fun (n, c) => (.anchor n, c)
      else if c = '!' then s.word? tag?
      else if c = '|' ∧ ¬ s.inBrackets then s.blockScalar? false
      else if c = '>' ∧ ¬ s.inBrackets then s.blockScalar? true
      else if c = '\'' ∨ c = '"' then
        s.word? fun s => (s.place.quoted? c).map fun (text, c) => (.scalar false text, c)
      else if s.startsPlain then s.plainScalar?
      else none

/-- Takes tokens up to the end of the text, and then closes what is open. -/
def takeAll? : Nat → Lexer → Option (List Token)
  | 0, _ => none
  | fuel + 1, s => do
    let s ← (s.toNext (s.place.ahead.length + 1)).dropLateKeys?
    let s := s.closeTo s.place.column
    match s.place.ahead with
    | [] =>
      let s ← s.leaveBlocks?
      some s.tokens
    | c :: _ =>
      let s ← s.take? c
      takeAll? fuel s

end Lexer

/-- Whether a character may stand in a document. -/
def isDocumentChar (c : Char) : Bool :=
  isShown c || c == '\t' || c == '\r' || c == '\u0085' || c == '\ufeff'

/-- The tokens of a text, if it can be read at all. -/
def Token.ofText? (s : String) : Option (List Token) :=
  let cs := s.toList
  if cs.all isDocumentChar then Lexer.takeAll? (cs.length + 2) { place := { ahead := cs } }
  else none

end PullCache.Yaml
