/-!
# YAML documents

A document is a tree of scalars, sequences and mappings. A node can be given a name and stand in
other places under it.
-/

namespace SqlToMongo

inductive Yaml where
  /-- A scalar; a plain one, without quotes, may stand for something else than its text, and a tag
  may tell for what. -/
  | scalar (text : String) (plain : Bool) (tag : Option String)
  | sequence (items : List Yaml)
  | mapping (entries : List (Yaml × Yaml))
  /-- A node in a place where only its name is written. -/
  | link (name : String) (node : Yaml)
  /-- The name of a node inside that node. -/
  | knot (name : String)
  deriving Inhabited, Repr

namespace Yaml

/-- What stands where nothing is written. -/
def nothing : Yaml := .scalar "" true none

/-- What tells two keys of a mapping apart: their kind and what is written. -/
def keyText : Yaml → Nat × String
  | .scalar text _ _ => (0, text)
  | .sequence _ => (1, "")
  | .mapping _ => (2, "")
  | .link name _ | .knot name => (3, name)

/-- Whether no key comes twice. -/
def distinctKeys : List (Yaml × Yaml) → Bool
  | [] => true
  | (key, _) :: rest => rest.all (·.1.keyText != key.keyText) && distinctKeys rest

/-- The key whose value brings the entries of other mappings. -/
def isMergeKey : Yaml → Bool
  | .scalar "<<" plain none => plain
  | .scalar "<<" _ (some tag) => tag == "!!merge"
  | _ => false

mutual

/-- The entries of a mapping, with those of the mappings that it merges behind its own; of two entries
with one key the first counts. `none` for another node and where a key comes twice. -/
def entries? : Yaml → Option (List (Yaml × Yaml))
  | .mapping entries =>
    if distinctKeys entries then
      (mergedEntries? entries).map (entries.filter (!·.1.isMergeKey) ++ ·)
    else none
  | .link _ node => entries? node
  | _ => none

/-- The entries that a merge key brings: of a mapping, or of several. -/
def mergedEntries? : List (Yaml × Yaml) → Option (List (Yaml × Yaml))
  | [] => some []
  | (key, value) :: rest =>
    if key.isMergeKey then
      match value with
      | .sequence items => entriesOfAll? items
      | node => entries? node
    else mergedEntries? rest

def entriesOfAll? : List Yaml → Option (List (Yaml × Yaml))
  | [] => some []
  | node :: rest =>
    match entries? node, entriesOfAll? rest with
    | some first, some more => some (first ++ more)
    | _, _ => none

end

mutual

/-- How deep nodes are nested. -/
def depth : Yaml → Nat
  | .scalar .. | .knot _ => 0
  | .sequence items => depthOfItems items + 1
  | .mapping entries => depthOfEntries entries + 1
  | .link _ node => depth node + 1

def depthOfItems : List Yaml → Nat
  | [] => 0
  | item :: rest => max (depth item) (depthOfItems rest)

def depthOfEntries : List (Yaml × Yaml) → Nat
  | [] => 0
  | (key, value) :: rest => max (max (depth key) (depth value)) (depthOfEntries rest)

end

end Yaml

end SqlToMongo
