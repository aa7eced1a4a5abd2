import OntologyTyping.Yaml.Tag

/-!
The nodes of a YAML document: scalars, sequences and mappings, each with or without a tag, and aliases of other nodes.
-/

namespace OntologyTyping.Yaml

/-- How a scalar is written. -/
inductive Style where
  | plain
  | singleQuoted
  | doubleQuoted
  | literal
  | folded
deriving DecidableEq, Inhabited

/-- A scalar with its text. -/
structure Scalar where
  tag : Option Tag := none
  style : Style := .plain
  text : String
deriving DecidableEq, Inhabited

inductive Node where
  | scalar (s : Scalar)
  | sequence (tag : Option Tag) (items : List Node)
  | mapping (tag : Option Tag) (entries : List (Node × Node))
  /-- Stands for the node with the given anchor. -/
  | alias (anchor : Nat)
deriving Inhabited

namespace Node

/-- What stands where nothing is written. -/
def empty : Node :=
  .scalar { text := "" }

def tag? : Node → Option Tag
  | .scalar s => s.tag
  | .sequence tag _ => tag
  | .mapping tag _ => tag
  | .alias _ => none

/-- The name in a local tag. -/
def localTag? (n : Node) : Option String :=
  n.tag?.bind Tag.name?

/-- Whether the node is a plain scalar without text. -/
def isBlank : Node → Bool
  | .scalar s => s.style == .plain && s.text == ""
  | _ => false

mutual

/-- The number of scalars, aliases, and ends of collections in a node. -/
def size : Node → Nat
  | .scalar _ => 1
  | .alias _ => 1
  | .sequence _ items => sizeOfItems items + 2
  | .mapping _ entries => sizeOfEntries entries + 2

def sizeOfItems : List Node → Nat
  | [] => 0
  | n :: rest => n.size + sizeOfItems rest

def sizeOfEntries : List (Node × Node) → Nat
  | [] => 0
  | (k, v) :: rest => k.size + v.size + sizeOfEntries rest

end

end Node

end OntologyTyping.Yaml
