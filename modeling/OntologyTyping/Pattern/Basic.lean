import OntologyTyping.Decimal.Double
import OntologyTyping.Text.Classes

/-!
Match patterns over a graph.

A pattern is a tree of conjunctions and disjunctions over atoms. An atom is one variable with the properties that are
stated of it at one place. Properties are of two levels: `isa`, relation and `has` speak of instances; `label`, `sub`,
`plays` and `relates` speak of the concepts of an ontology.
-/

namespace OntologyTyping

/-- The name of a variable, without the dollar sign that marks variables in text. -/
structure VarName where
  text : String
deriving DecidableEq, Inhabited

/-- The label of a concept of an ontology. -/
structure Label where
  text : String
deriving DecidableEq, Inhabited

instance : Ord VarName := ⟨fun a b => compare a.text b.text⟩

instance : Ord Label := ⟨fun a b => compare a.text b.text⟩

/-- Reads a variable name; one leading dollar sign is dropped. -/
def VarName.ofText (s : String) : VarName :=
  match s.toList with
  | '$' :: rest => ⟨.ofList rest⟩
  | _ => ⟨s⟩

/-- A concept as a property names it: by its label, or by a variable still to be solved. -/
inductive TypeRef where
  | label (l : Label)
  | var (v : VarName)
deriving DecidableEq, Inhabited

namespace TypeRef

def label? : TypeRef → Option Label
  | .label l => some l
  | .var _ => none

def var? : TypeRef → Option VarName
  | .var v => some v
  | .label _ => none

/-- Reads a type reference; none when nothing or only a dollar sign is left between the blanks at the ends. -/
def parse? (s : String) : Option TypeRef :=
  match Text.trimChars s.toList with
  | [] => none
  | ['$'] => none
  | '$' :: rest => some (.var (.ofText (.ofList rest)))
  | cs => some (.label ⟨.ofList cs⟩)

/-- The message for a text that is no type reference. -/
def invalidMessage (s : String) : String :=
  "Invalid type reference `" ++ s ++ "`: expected a label or a `$variable`"

/-- Reads a text as it stands: a variable when something follows a leading dollar sign, else a label. -/
def ofText (s : String) : TypeRef :=
  match s.toList with
  | '$' :: c :: rest => .var (.ofText (.ofList (c :: rest)))
  | _ => .label ⟨s⟩

end TypeRef

/-- The value of an attribute. -/
inductive Literal where
  | bool (b : Bool)
  | int (i : Int64)
  | float (d : Decimal.Double)
  | str (s : String)
deriving DecidableEq, Inhabited

/-- Equality of values; literals of different kinds never agree, and floating-point numbers agree as numbers do. -/
def Literal.sameValue : Literal → Literal → Bool
  | .bool a, .bool b => a == b
  | .int a, .int b => a == b
  | .float a, .float b => a.sameValue b
  | .str a, .str b => a == b
  | _, _ => false

/-- One slot of a relation: who fills it, and in which role if that is said. -/
structure RolePlayer where
  role : Option TypeRef
  player : VarName
deriving DecidableEq, Inhabited

/-- What an atom says of its variable. -/
inductive Property where
  /-- An instance of the type or of one of its subtypes. -/
  | isa (target : TypeRef)
  /-- The concept or one of its subtypes. -/
  | sub (target : TypeRef)
  /-- The very concept with this label. -/
  | label (l : Label)
  | plays (role : TypeRef)
  | relates (role : TypeRef)
  /-- A relation whose slots are filled as listed. -/
  | relation (players : List RolePlayer)
  | has (attr : Label) (value : Literal)
deriving DecidableEq, Inhabited

namespace Property

/-- Equality of properties up to equality of the values they hold. -/
def same : Property → Property → Bool
  | .has a v, .has b w => a == b && v.sameValue w
  | p, q => p == q

/-- The variables that a property mentions, in order. -/
def vars : Property → List VarName
  | .isa t | .sub t | .plays t | .relates t => t.var?.toList
  | .relation players => players.flatMap fun p => (p.role.bind TypeRef.var?).toList ++ [p.player]
  | .label _ | .has _ _ => []

end Property

/-- A variable together with properties stated of it. -/
structure Atom where
  name : VarName
  properties : List Property
deriving DecidableEq, Inhabited

namespace Atom

/-- Every variable that an atom mentions, its own first. -/
def vars (a : Atom) : List VarName :=
  a.name :: a.properties.flatMap Property.vars

end Atom

/-- The variables of a list of atoms, each at its first appearance. -/
def varsOf (atoms : List Atom) : List VarName :=
  (atoms.flatMap Atom.vars).eraseDups

/-- A boolean combination of atoms. -/
inductive Pattern where
  | atom (a : Atom)
  | all (parts : List Pattern)
  | any (parts : List Pattern)
deriving Inhabited

namespace Pattern

mutual

/-- The atoms of a pattern from left to right. -/
def atoms : Pattern → List Atom
  | .atom a => [a]
  | .all parts => atomsOf parts
  | .any parts => atomsOf parts

def atomsOf : List Pattern → List Atom
  | [] => []
  | p :: rest => p.atoms ++ atomsOf rest

end

/-- The variables of a pattern, each at its first appearance. -/
def vars (p : Pattern) : List VarName :=
  varsOf p.atoms

end Pattern

end OntologyTyping
