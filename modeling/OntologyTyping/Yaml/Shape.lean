import OntologyTyping.Yaml.Reader
import OntologyTyping.Yaml.Scalar

/-!
Reading typed values out of YAML documents. What a scalar stands for depends on what is asked for: a text takes
every scalar as it is written.

An alias is followed where its node is asked for, so the fields that nobody asks for can hold anything. Two bounds
keep reading finite: how deep the collections are nested that are asked for, and how often aliases are followed.
-/

namespace OntologyTyping.Yaml

/-- How deep collections can be nested. -/
def deepest : Nat := 128

/-- How often aliases can be followed, for each part of the document. -/
def followsPerPart : Nat := 100

/-- What reading knows of the document. -/
structure Source where
  anchors : List (Nat × Node)
  /-- How often aliases can be followed. -/
  mostFollows : Nat

/-- Reads from a document, and counts how often aliases are followed. -/
abbrev Decoder := ReaderT Source (StateT Nat Option)

/-- Reads a value of a type from a node. The number says how many more collections can be entered. -/
abbrev Decode (α : Type) := (depth : Nat) → Node → Decoder α

/-- The node that an alias stands for; every other node stands for itself. -/
def Node.resolve : Node → Decoder Node
  | .alias anchor => do
    let source ← read
    let follows := (← get) + 1
    set follows
    if source.mostFollows < follows then failure
    else match source.anchors.lookup anchor with
      | some n => return n
      | none => failure
  | n => return n

/-- What is read of a document; none where the document is empty. -/
def Document.decode? {α : Type} (doc : Document) (decode : Decode α) : Option (Option α) :=
  match doc.root with
  | none => some none
  | some root => do
    let (a, _) ← (decode deepest root).run ⟨doc.anchors, followsPerPart * root.size⟩ |>.run 0
    return some a

namespace Decode

variable {α : Type}

/-- Lifts what is read from the node itself. -/
def ofNode (f : Node → Option α) : Decode α := fun _ n => do
  match f (← n.resolve) with
  | some a => return a
  | none => failure

def text : Decode String :=
  ofNode fun
    | .scalar s => some s.text
    | _ => none

/-- A truth value, which must be plain or carry the tag for one. -/
def flag : Decode Bool :=
  ofNode fun
    | .scalar s =>
      if s.style = .plain || (s.style = .literal && s.tag = some (.standard "bool")) then bool? s.text else none
    | _ => none

/-- Whether a node says that there is no value: none where it does so wrongly. -/
def isAbsent? : Node → Option Bool
  | .scalar s =>
    if s.style ≠ .plain then some false
    else match s.tag with
      | none => some (s.text == "" || isNullWord s.text)
      | some tag =>
        if tag ≠ .standard "null" then some false
        else if isNullWord s.text then some true
        else none
  | _ => some false

/-- Nothing, or what `decode` makes of the node. -/
def optional (decode : Decode α) : Decode (Option α) := fun depth n => do
  let n ← n.resolve
  match isAbsent? n with
  | some true => return none
  | some false => return some (← decode depth n)
  | none => failure

/-- Enters a collection. -/
def enter : (depth : Nat) → (Nat → Decoder α) → Decoder α
  | 0, _ => failure
  | depth + 1, inside => inside depth

/-- What `inside` makes of the items of a sequence; a blank node has none. -/
def items (inside : List Node → Decoder (List α)) (n : Node) : Decoder (List α) := do
  match ← n.resolve with
  | .sequence _ items => inside items
  | n => if n.isBlank then return [] else failure

/-- A list, item by item. -/
def list (decode : Decode α) : Decode (List α) := fun depth =>
  items fun ns => enter depth fun depth => ns.mapM (decode depth)

end Decode

/-! ### Records -/

/-- The entries of a mapping under their names, and how many collections can be entered below. -/
structure Fields where
  entries : List (String × Node)
  depth : Nat

namespace Fields

variable {α : Type}

/-- What `decode` makes of the field, or the default where it is missing. -/
def getD (f : Fields) (name : String) (decode : Decode α) (default : α) : Decoder α :=
  match f.entries.lookup name with
  | none => return default
  | some n => decode f.depth n

/-- What `decode` makes of the field, which must be there. -/
def get (f : Fields) (name : String) (decode : Decode α) : Decoder α :=
  match f.entries.lookup name with
  | none => failure
  | some n => decode f.depth n

end Fields

/-- What `make` makes of the fields of a mapping; a blank node has none. None of the given names may be there twice. -/
def Decode.record {α : Type} (names : List String) (make : Fields → Decoder α) : Decode α := fun depth n => do
  match ← n.resolve with
  | .mapping _ entries =>
    enter depth fun depth => do
      let entries ← entries.mapM fun (k, v) => return (← text depth k, v)
      if names.all fun name => (entries.filter (·.1 == name)).length ≤ 1 then make ⟨entries, depth⟩ else failure
  | n => if n.isBlank then make ⟨[], depth⟩ else failure

end OntologyTyping.Yaml
