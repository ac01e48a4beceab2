import PullCache.Config.EnvValue
import PullCache.Config.Fields
import PullCache.Yaml.Node
/-!
# Config.Layers

Settings from several sources, each laid over the ones before: records are joined entry by entry,
and everything else is replaced. What comes out is read in the order of the keys, so the first
misfit by that order is the one that is reported.
-/

namespace PullCache

namespace Json

mutual

/-- A value laid over another. -/
def onto (upper : Json) (lower : Json) : Json :=
  match upper, lower with
  | record entries, record others => record (entriesOnto entries others)
  | upper, _ => upper

/-- Entries laid over others, one after the other. -/
def entriesOnto : List (String × Json) → List (String × Json) → List (String × Json)
  | [], lower => lower
  | (key, value) :: rest, lower =>
    let value := match lower.lookup key with
      | some other => onto value other
      | none => value
    entriesOnto rest (Yaml.Node.insertEntry key value lower)

end

mutual

/-- The value with all entries in the order of their keys. -/
def inOrder : Json → Json
  | record entries => record (entriesInOrder entries)
  | list items => list (itemsInOrder items)
  | other => other

def entriesInOrder : List (String × Json) → List (String × Json)
  | [] => []
  | (key, value) :: rest => Yaml.Node.insertEntry key (inOrder value) (entriesInOrder rest)

def itemsInOrder : List Json → List Json
  | [] => []
  | item :: rest => inOrder item :: itemsInOrder rest

end

end Json

namespace Layers

/-- A section given as a list keeps the values for which it has fields. -/
def fitSection (entry : String × Json) : String × Json :=
  match entry with
  | (key, .list items) =>
    (key, .list (items.take ((Config.fields.find? (·.name == key)).elim 0 (·.inside.length))))
  | entry => entry

/-- Reads settings from layers, the lowest first. -/
def read (layers : List Json) : Except Misfit Config :=
  let usual := (Config.toJson {}).inOrder
  let merged := layers.foldl (fun lower upper => upper.inOrder.onto lower) usual
  match merged with
  | .record entries => Config.ofJson (.record (entries.map fitSection))
  | other => Config.ofJson other

/-- The layer of the environment. -/
def ofEnv (env : List (String × String)) : Json :=
  env.foldl (fun lower (name, value) =>
    match EnvValue.path? name with
    | some keys => (EnvValue.nest (EnvValue.read value) keys).inOrder.onto lower
    | none => lower) (.record [])

end Layers

end PullCache
