import PullCache.Text.Quoted
/-!
# Resource

What clients ask for: a path below the root of the repository, query parameters whose order does
not matter, and the category that decides for how long a copy stays fresh. Requests for the same
path with the same parameters share a key.
-/

namespace PullCache

/-! ## Categories -/

/-- Which maximum age a resource is governed by. -/
inductive Category where
  /-- Artifacts, which hardly ever change. -/
  | content
  /-- Indexes and listings, which change often. -/
  | metadata
  deriving DecidableEq, Repr

namespace Category

/-- Names of files that are always indexes. -/
def indexNames : List String :=
  ["maven-metadata.xml", "index.json", "index.yaml", "Packages", "Packages.gz", "Release",
    "InRelease", "repomd.xml"]

/-- Endings of the checksum and signature files that lie beside an index. -/
def sideSuffixes : List String :=
  [".sha1", ".sha256", ".sha512", ".md5", ".asc"]

/-- The part of a path after its last slash. -/
def fileName (path : List Char) : List Char :=
  (path.reverse.takeWhile (· != '/')).reverse

/-- Whether the characters of `part` occur next to each other in the text. -/
def hasPart (part : List Char) : List Char → Bool
  | [] => part.isEmpty
  | c :: rest => part.isPrefixOf (c :: rest) || hasPart part rest

/-- The category of a path goes by its file name: the names of indexes, and checksums and signatures
of files with `metadata` in their name. -/
def classify (path : String) : Category :=
  let name := fileName path.toList
  if indexNames.any (fun known => known.toList == name)
      || (sideSuffixes.any (fun suffix => suffix.toList.isSuffixOf name)
        && hasPart "metadata".toList name)
  then .metadata else .content

/-- The name of a category. -/
def name : Category → String
  | content => "content"
  | metadata => "metadata"

end Category

/-! ## Resources -/

/-- The identity of a request for the origin: requests with one key share their work. -/
structure Key where
  text : String
  deriving DecidableEq, Repr

/-- A name and a value from the query of a request. -/
abbrev Param := String × String

/-- What a client asks for. The path does not start with a slash and the parameters are sorted. -/
structure Resource where
  path : String
  params : List Param
  category : Category
  deriving DecidableEq, Repr

/-- Parameters are ordered by name and then by value. -/
def Param.le (a b : Param) : Bool :=
  a.1 < b.1 || (a.1 == b.1 && a.2 ≤ b.2)

/-- Puts a parameter in its place among sorted ones. -/
def Param.insert (p : Param) : List Param → List Param
  | [] => [p]
  | q :: rest => if Param.le p q then p :: q :: rest else q :: Param.insert p rest

namespace Resource

/-- A resource without parameters; slashes at the front of the path are dropped. -/
def ofPath (category : Category) (path : String) : Resource :=
  ⟨String.ofList (path.toList.dropWhile (· == '/')), [], category⟩

/-- A resource whose category goes by its path. -/
def classified (path : String) : Resource :=
  ofPath (Category.classify path) path

/-- The resource with one more parameter. -/
def withParam (r : Resource) (name value : String) : Resource :=
  { r with params := Param.insert (name, value) r.params }

/-- The resource with more parameters, added one after the other. -/
def withParams (r : Resource) (params : List Param) : Resource :=
  params.foldl (fun r p => r.withParam p.1 p.2) r

/-- A parameter as the key shows it: both texts quoted, so that no text can be taken for a part of
the structure around it. -/
def quotedParam (p : Param) : List Char :=
  '(' :: (Text.quoted p.1.toList ++ [',', ' '] ++ Text.quoted p.2.toList ++ [')'])

/-- The path, a question mark and the quoted parameters in order. -/
def key (r : Resource) : Key :=
  ⟨r.path ++ "?" ++ String.ofList (Text.bracketed (r.params.map quotedParam))⟩

/-- The path and the parameters as messages show them, without any escaping. -/
def display (r : Resource) : String :=
  match r.params with
  | [] => r.path
  | p :: rest =>
    r.path ++ "?" ++ p.1 ++ "=" ++ p.2
      ++ String.join (rest.map fun q => "&" ++ q.1 ++ "=" ++ q.2)

end Resource

end PullCache
