import PullCache.Url.Basic
import PullCache.Url.Domain
/-!
# Url.Parse

Reading URLs as browsers do. White space and control characters around the text are dropped, and so
are tabs and line breaks inside it. In the common schemes a backslash counts as a slash, the number
of slashes before the host does not matter, and dot segments are resolved whether their dots are
escaped or not.
-/

namespace PullCache.Url

open Text

/-! ## Preparation -/

/-- Control characters and the space, which are dropped at both ends. -/
def isEdge (c : Char) : Bool :=
  c.toNat ≤ 0x20

/-- Characters that are dropped wherever they stand. -/
def isIgnored (c : Char) : Bool :=
  c == '\t' || c == '\n' || c == '\r'

/-- The text without what is dropped. -/
def cleaned (cs : List Char) : List Char :=
  (((cs.dropWhile isEdge).reverse.dropWhile isEdge).reverse).filter (fun c => !isIgnored c)

/-- Characters of a scheme after its first letter. -/
def isSchemeChar (c : Char) : Bool :=
  isAsciiAlnum c || c == '+' || c == '-' || c == '.'

/-- The scheme in lower case, and what follows its colon. -/
def scheme? (cs : List Char) : Option (String × List Char) :=
  if cs.head?.any isAsciiAlpha then
    match cs.dropWhile isSchemeChar with
    | ':' :: rest => some (String.ofList ((cs.takeWhile isSchemeChar).map lowerAscii), rest)
    | _ => none
  else none

/-- Slashes, which in the common schemes include backslashes. -/
def isSlash (special : Bool) (c : Char) : Bool :=
  c == '/' || (special && c == '\\')

/-- The characters that start a query or a fragment. -/
def startsQuery (c : Char) : Bool :=
  c == '?' || c == '#'

/-! ## Host -/

/-- The host of a scheme that is not common: an address in brackets or a text without delimiters. -/
def plainHost (cs : List Char) : Except UrlError Host :=
  match cs with
  | '[' :: rest =>
    if rest.getLast? = some ']' then
      match Address.ipv6? rest.dropLast with
      | some groups => .ok (.ipv6 groups)
      | none => .error .invalidIpv6
    else .error .invalidIpv6
  | cs =>
    if cs.any (fun c => ['\x00', '\t', '\n', '\r', ' ', '#', '/', ':', '<', '>', '?', '@', '[',
        '\\', ']', '^', '|'].contains c)
    then .error .invalidHostCharacter
    else .ok (.plain (String.ofList (Percent.encode Percent.control cs)))

/-- The host of a common scheme: an address in brackets, a name, or a name that ends in a number and
so has to be an address. -/
def specialHost (cs : List Char) : Except UrlError Host :=
  match cs with
  | '[' :: _ => plainHost cs
  | cs =>
    match Domain.toAscii? cs with
    | none => .error .invalidDomain
    | some [] => .error .emptyHost
    | some name =>
      if Address.endsInNumber name then
        match Address.ipv4? name with
        | some n => .ok (.ipv4 n)
        | none => .error .invalidIpv4
      else .ok (.domain (String.ofList name))

/-- The host of a scheme; only an uncommon scheme may have an empty one. -/
def parseHost (special : Bool) (cs : List Char) : Except UrlError Host :=
  if special then (if cs.isEmpty then .error .emptyHost else specialHost cs) else plainHost cs

/-- Cuts before the colon that ends a host; colons inside brackets belong to it. -/
def spanHost : Bool → List Char → List Char × List Char
  | _, [] => ([], [])
  | inBrackets, c :: rest =>
    if c == ':' && !inBrackets then ([], c :: rest)
    else
      let (host, rest) := spanHost (if c == '[' then true else if c == ']' then false
        else inBrackets) rest
      (c :: host, rest)

/-- The number after the colon and what follows it; the number that the scheme implies is left
out. -/
def parsePort (scheme : String) (cs : List Char) : Except UrlError (Option Nat × List Char) :=
  let digits := cs.takeWhile isAsciiDigit
  let rest := cs.dropWhile isAsciiDigit
  let n := decimalValue digits
  if n > 65535 then .error .invalidPort
  else if !rest.isEmpty && rest.head? != some '\\' then .error .invalidPort
  else if digits.isEmpty || defaultPort? scheme == some n then .ok (none, rest)
  else .ok (some n, rest)

/-- User name and password of a text before the last `@`. -/
def parseUserinfo (cs : List Char) : String × String :=
  let enc (cs : List Char) : String := String.ofList (Percent.encode Percent.userinfo cs)
  (enc (cs.takeWhile (· != ':')), enc ((cs.dropWhile (· != ':')).drop 1))

/-- Cuts at the last `@`, if there is one. -/
def splitUserinfo (cs : List Char) : Option (List Char) × List Char :=
  if cs.contains '@' then
    let host := (cs.reverse.takeWhile (· != '@')).reverse
    (some (cs.take (cs.length - host.length - 1)), host)
  else (none, cs)

/-! ## Path -/

/-- A segment with its escaped dots undone. -/
def plainDots : List Char → List Char
  | '%' :: '2' :: 'e' :: rest | '%' :: '2' :: 'E' :: rest => '.' :: plainDots rest
  | c :: rest => c :: plainDots rest
  | [] => []

/-- Whether the segment stands for the directory itself. -/
def isSingleDot (cs : List Char) : Bool :=
  plainDots cs == ['.']

/-- Whether the segment stands for the directory above. -/
def isDoubleDot (cs : List Char) : Bool :=
  plainDots cs == ['.', '.']

/-- Adds segments to those before them. A dot segment at the end leaves an empty segment. -/
def addSegments (before : List String) : List (List Char) → List String
  | [] => before
  | [last] =>
    if isDoubleDot last then before.dropLast ++ [""]
    else if isSingleDot last then before ++ [""]
    else before ++ [String.ofList (Percent.encode Percent.path last)]
  | segment :: rest =>
    if isDoubleDot segment then addSegments before.dropLast rest
    else if isSingleDot segment then addSegments before rest
    else addSegments (before ++ [String.ofList (Percent.encode Percent.path segment)]) rest

/-- The segments of a path without its first slash. -/
def parseSegments (special : Bool) (cs : List Char) : List String :=
  addSegments [] (splitOn (isSlash special) cs)

/-- Drops empty segments at the front, but not the last one. -/
def dropEmptyFront : List String → List String
  | "" :: segment :: rest => dropEmptyFront (segment :: rest)
  | list => list

/-- The path after a host. In the common schemes there always is one; elsewhere it may be empty. -/
def parsePath (special : Bool) (cs : List Char) : UrlPath :=
  match cs with
  | [] => .segments (if special then [""] else [])
  | c :: rest =>
    if isSlash special c then .segments (parseSegments special rest)
    else .segments (parseSegments special (c :: rest))

/-! ## Query and fragment -/

/-- The fragment, from its `#` on. -/
def parseFragment (cs : List Char) : Option String :=
  match cs with
  | '#' :: rest => some (String.ofList (Percent.encode Percent.fragment rest))
  | _ => none

/-- The query, from its `?` on up to the fragment. -/
def parseQuery (special : Bool) (cs : List Char) : Option String :=
  match cs with
  | '?' :: rest =>
    some (String.ofList (Percent.encode (Percent.query special) (rest.takeWhile (· != '#'))))
  | _ => none

/-- Puts query and fragment of the rest of a text into a URL. -/
def withQueryAndFragment (special : Bool) (u : Url) (cs : List Char) : Url :=
  { u with
    query := parseQuery special cs
    fragment := parseFragment (cs.dropWhile (· != '#')) }

/-! ## Kinds of URLs -/

/-- What follows `//`: a host, perhaps with user and number, then path, query and fragment. -/
def parseAuthority (scheme : String) (cs : List Char) : Except UrlError Url := do
  let special := isSpecial scheme
  let ends (c : Char) : Bool := isSlash special c || startsQuery c
  let after := cs.dropWhile (fun c => !ends c)
  let (userinfo, located) := splitUserinfo (cs.takeWhile fun c => !ends c)
  if userinfo == some [] && located.isEmpty && !after.isEmpty then throw .emptyHost
  let (username, password) := parseUserinfo (userinfo.getD [])
  let (hostText, portText) := spanHost false located
  let host ← parseHost special hostText
  if host == .plain "" && !portText.isEmpty then throw .emptyHost
  let (tcpPort, left) ← parsePort scheme (portText.drop 1)
  if host == .plain "" && !(username.isEmpty && password.isEmpty) then throw .emptyHost
  let rest := left ++ after
  let path := parsePath special (rest.takeWhile fun c => !startsQuery c)
  return withQueryAndFragment special
    { scheme, username, password, host := some host, tcpPort, path }
    (rest.dropWhile fun c => !startsQuery c)

/-- A letter and a colon or a bar, which name a drive. -/
def isDriveLetter (cs : List Char) : Bool :=
  match cs with
  | [c, d] => isAsciiAlpha c && (d == ':' || d == '|')
  | _ => false

/-- What follows `file:`. The host is left out if it is this machine or a drive. -/
def parseFile (cs : List Char) : Except UrlError Url := do
  let beforeQuery := cs.takeWhile fun c => !startsQuery c
  let slashes := beforeQuery.takeWhile (isSlash true)
  let (host, path) ←
    if 2 ≤ slashes.length then
      let located := beforeQuery.drop 2
      let hostText := located.takeWhile fun c => !isSlash true c
      if hostText.isEmpty || isDriveLetter hostText then pure (Host.plain "", located)
      else do
        let host ← specialHost hostText
        pure (if host == .domain "localhost" then Host.plain "" else host,
          located.drop hostText.length)
    else pure (Host.plain "", beforeQuery)
  let segments := dropEmptyFront (parseSegments true path)
  return withQueryAndFragment true
    { scheme := "file", host := some host, path := .segments segments }
    (cs.dropWhile fun c => !startsQuery c)

/-- What follows an uncommon scheme: a host after `//`, a path after `/`, or a text. -/
def parseOther (scheme : String) (cs : List Char) : Except UrlError Url :=
  match cs with
  | '/' :: '/' :: rest => parseAuthority scheme rest
  | cs =>
    let beforeQuery := cs.takeWhile fun c => !startsQuery c
    let path : UrlPath := match beforeQuery with
      | '/' :: rest => .segments (parseSegments false rest)
      | cs => .whole (String.ofList (Percent.encode Percent.control cs))
    .ok (withQueryAndFragment false { scheme, path } (cs.dropWhile fun c => !startsQuery c))

/-- Reads a URL. -/
def parse (s : String) : Except UrlError Url :=
  match scheme? (cleaned s.toList) with
  | none => .error .relative
  | some (scheme, rest) =>
    if scheme == "file" then parseFile rest
    else if isSpecial scheme then parseAuthority scheme (rest.dropWhile (isSlash true))
    else parseOther scheme rest

end PullCache.Url
