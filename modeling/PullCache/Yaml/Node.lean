import PullCache.Yaml.Token
/-!
# Yaml.Node

Tokens as values. A document is one node: a scalar, a sequence or a mapping; whatever is left out
where a node is due is an empty scalar. Names given to nodes stand for their values later on.

Keys are texts, whatever they look like, and of several entries for one key the last counts. The
entries of a mapping are put in the order of their keys.
-/

namespace PullCache.Yaml

/-- The value of a node, and the text of a scalar. -/
structure Node where
  value : Json
  scalar? : Option String := none

namespace Node

/-- What stands where nothing is written. -/
def empty : Node := ⟨.null, some ""⟩

/-- The beginning of the tags that the language defines. -/
def coreTag : String := "tag:yaml.org,2002:"

/-- The value of a scalar without quotes that is marked as a number, or as one with a point. -/
def taggedNumber? (wantsWhole : Bool) (text : String) : Option Json :=
  if wantsWhole then (whole? text.toList).map fun _ => plainValue text
  else if isSpecialFloat text then some (.decimal 0 0)
  else float? text.toList

/-- The value of a scalar. A tag of the language says what it must be; other tags say nothing,
except local ones, which no value has. -/
def ofScalar? (tag : Option String) (isPlain : Bool) (text : String) : Option Node := do
  let value ← match tag with
    | none => some (if isPlain then plainValue text else .text text)
    | some tag =>
      if "!".isPrefixOf tag then none
      else if tag == coreTag ++ "null" then
        if isNullWord text then some .null else none
      else if tag == coreTag ++ "bool" then (truth? text).map .bool
      else if tag == coreTag ++ "int" then taggedNumber? true text
      else if tag == coreTag ++ "float" then taggedNumber? false text
      else some (.text text)
  some ⟨value, some text⟩

/-- Adds an entry to entries that are in the order of their keys, in place of one with its key. -/
def insertEntry (key : String) (value : Json) : List (String × Json) → List (String × Json)
  | [] => [(key, value)]
  | entry :: rest =>
    if entry.1 == key then (key, value) :: rest
    else if key < entry.1 then (key, value) :: entry :: rest
    else entry :: insertEntry key value rest

/-! ## Reading -/

/-- What is known while a document is read: the handles of tags, and the nodes with names. -/
structure Names where
  handles : List (String × String) := []
  nodes : List (String × Node) := []

/-- A tag as a whole. -/
def fullTag? (names : Names) (handle suffix : String) : Option String :=
  if handle == "" then some suffix
  else match names.handles.lookup handle with
    | some beginning => some (beginning ++ suffix)
    | none =>
      if handle == "!" then some ("!" ++ suffix)
      else if handle == "!!" then some (coreTag ++ suffix)
      else none

/-- The properties in front of a node: a name and a tag, in either order. -/
def properties? (names : Names) (ts : List Token) :
    Option (Option String × Option String × List Token) :=
  match ts with
  | .anchor a :: .tag h s :: rest => (fullTag? names h s).map fun t => (some a, some t, rest)
  | .tag h s :: .anchor a :: rest => (fullTag? names h s).map fun t => (some a, some t, rest)
  | .anchor a :: rest => some (some a, none, rest)
  | .tag h s :: rest => (fullTag? names h s).map fun t => (none, some t, rest)
  | rest => some (none, none, rest)

/-- Whether no value comes next in a collection between brackets. -/
def endsEntry (closing : Token) (ts : List Token) : Bool :=
  ts.head? == some .comma || ts.head? == some closing

/-- Whether no key comes next in a collection between brackets. -/
def endsKey (closing : Token) (ts : List Token) : Bool :=
  ts.head? == some .value || endsEntry closing ts

/-- Whether no key or value comes next in a mapping that is told by indentation. -/
def endsBlockEntry : List Token → Bool
  | .key :: _ | .value :: _ | .blockEnd :: _ => true
  | _ => false

mutual

/-- Reads a node. `inBlock` tells whether collections may be told by indentation, and `dashes`
whether items may begin right here, in the column of the key before them. -/
def read? (inBlock dashes : Bool) : Nat → Names → List Token → Option (Node × Names × List Token)
  | 0, _, _ => none
  | fuel + 1, names, ts =>
    match ts with
    | .alias name :: rest => (names.nodes.lookup name).map (·, names, rest)
    | ts => do
      let (name, tag, ts) ← properties? names ts
      let (node, names, ts) ← match ts with
        | .scalar isPlain text :: rest => do
          some (← ofScalar? tag isPlain text, names, rest)
        | .dash :: _ =>
          if inBlock && dashes then items? true fuel names [] ts
          else if name.isSome || tag.isSome then do some (← ofScalar? tag true "", names, ts)
          else none
        | .openSequence :: rest => flowItems? true fuel names [] rest
        | .openMapping :: rest => flowEntries? true fuel names [] rest
        | .blockSequence :: rest => if inBlock then items? false fuel names [] rest else none
        | .blockMapping :: rest => if inBlock then entries? fuel names [] rest else none
        | ts =>
          if name.isSome || tag.isSome then do some (← ofScalar? tag true "", names, ts)
          else none
      if tag.any ("!".isPrefixOf ·) then none
      else match name with
        | some name => some (node, { names with nodes := (name, node) :: names.nodes }, ts)
        | none => some (node, names, ts)

/-- Reads a node, or an empty one if the entry ends. -/
def optional? (ended inBlock dashes : Bool) :
    Nat → Names → List Token → Option (Node × Names × List Token)
  | 0, _, _ => none
  | fuel + 1, names, ts =>
    if ended then some (.empty, names, ts) else read? inBlock dashes fuel names ts

/-- Reads the items of a sequence that is told by dashes. Without indentation of its own it ends
where no dash follows. -/
def items? (flat : Bool) :
    Nat → Names → List Json → List Token → Option (Node × Names × List Token)
  | 0, _, _, _ => none
  | fuel + 1, names, items, ts =>
    match ts with
    | .dash :: rest => do
      let ended := match rest with
        | .dash :: _ | .blockEnd :: _ => true
        | .key :: _ | .value :: _ => flat
        | _ => false
      let (item, names, rest) ← optional? ended true false fuel names rest
      items? flat fuel names (items ++ [item.value]) rest
    | .blockEnd :: rest =>
      if flat then some (⟨.list items, none⟩, names, ts)
      else some (⟨.list items, none⟩, names, rest)
    | ts => if flat then some (⟨.list items, none⟩, names, ts) else none

/-- Reads the entries of a mapping that is told by indentation. -/
def entries? :
    Nat → Names → List (String × Json) → List Token → Option (Node × Names × List Token)
  | 0, _, _, _ => none
  | fuel + 1, names, entries, ts =>
    match ts with
    | .blockEnd :: rest => some (⟨.record entries, none⟩, names, rest)
    | .key :: rest => do
      let (key, names, rest) ← optional? (endsBlockEntry rest) true true fuel names rest
      let (value, names, rest) ← match rest with
        | .value :: rest => optional? (endsBlockEntry rest) true true fuel names rest
        | rest => some (.empty, names, rest)
      entries? fuel names (insertEntry (← key.scalar?) value.value entries) rest
    | _ => none

/-- Reads the items of a sequence between brackets. An item with a colon is a mapping of its own; a
question mark without a key swallows the sign after it. -/
def flowItems? (first : Bool) :
    Nat → Names → List Json → List Token → Option (Node × Names × List Token)
  | 0, _, _, _ => none
  | fuel + 1, names, items, ts => do
    match ts with
    | .closeSequence :: rest => some (⟨.list items, none⟩, names, rest)
    | ts =>
      let ts ← if first then some ts else match ts with
        | .comma :: rest => some rest
        | _ => none
      match ts with
      | .closeSequence :: rest => some (⟨.list items, none⟩, names, rest)
      | .key :: rest => do
        let ended := endsKey .closeSequence rest
        let (key, names, rest) ← optional? ended false false fuel names rest
        let (value, names, rest) ← match if ended then rest.tail else rest with
          | .value :: rest => optional? (endsEntry .closeSequence rest) false false fuel names rest
          | rest => some (.empty, names, rest)
        let item := Json.record [(← key.scalar?, value.value)]
        flowItems? false fuel names (items ++ [item]) rest
      | ts => do
        let (item, names, rest) ← read? false false fuel names ts
        flowItems? false fuel names (items ++ [item.value]) rest

/-- Reads the entries of a mapping between brackets. -/
def flowEntries? (first : Bool) :
    Nat → Names → List (String × Json) → List Token → Option (Node × Names × List Token)
  | 0, _, _, _ => none
  | fuel + 1, names, entries, ts => do
    match ts with
    | .closeMapping :: rest => some (⟨.record entries, none⟩, names, rest)
    | ts =>
      let ts ← if first then some ts else match ts with
        | .comma :: rest => some rest
        | _ => none
      match ts with
      | .closeMapping :: rest => some (⟨.record entries, none⟩, names, rest)
      | .key :: rest => do
        let ended := endsKey .closeMapping rest
        let (key, names, rest) ← optional? ended false false fuel names rest
        let (value, names, rest) ← match rest with
          | .value :: rest => optional? (endsEntry .closeMapping rest) false false fuel names rest
          | rest => some (.empty, names, rest)
        flowEntries? false fuel names (insertEntry (← key.scalar?) value.value entries) rest
      | ts => do
        let (key, names, rest) ← read? false false fuel names ts
        flowEntries? false fuel names (insertEntry (← key.scalar?) .null entries) rest

end

/-! ## Documents -/

/-- Reads the directives in front of a document. -/
def directives? (names : Names) (hasVersion : Bool) : List Token → Option (Names × List Token)
  | .version major minor :: rest =>
    if hasVersion || major ≠ 1 || (minor ≠ 1 && minor ≠ 2) then none
    else directives? names true rest
  | .tagHandle handle beginning :: rest =>
    if (names.handles.lookup handle).isSome then none
    else directives? { names with handles := (handle, beginning) :: names.handles } hasVersion rest
  | rest => some (names, rest)

/-- The node of a text with a single document; a text without any has no node. -/
def ofTokens? (ts : List Token) : Option (Option Node) := do
  let (names, rest) ← directives? {} false ts
  let (explicit, rest) := match rest with
    | .documentStart :: rest => (true, rest)
    | rest => (false, rest)
  let directed := rest.length + (if explicit then 1 else 0) < ts.length
  if !explicit && directed then none
  else if !explicit && rest.isEmpty then some none
  else
    let ended := explicit && match rest with
      | [] | .documentStart :: _ | .documentEnd :: _ | .version .. :: _ | .tagHandle .. :: _ => true
      | _ => false
    let (node, _, rest) ← optional? ended true false (4 * ts.length + 8) names rest
    if rest.all (· == .documentEnd) then some (some node) else none

end Node

/-- Reads settings: a mapping, or nothing at all. -/
def read? (s : String) : Option Json := do
  match ← Node.ofTokens? (← Token.ofText? s) with
  | none => some (.record [])
  | some node =>
    match node.value with
    | .record entries => some (.record entries)
    | .null => if node.scalar? == some "" then some (.record []) else none
    | _ => none

end PullCache.Yaml
