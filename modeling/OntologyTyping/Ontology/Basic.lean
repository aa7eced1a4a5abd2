import OntologyTyping.Pattern.Basic

/-!
Ontologies: concepts of four kinds, each with at most one supertype, and what their instances may play and relate.

What a concept plays or relates it passes on to its subtypes. The walk up from a concept takes at most as many steps
as there are concepts, which is no limit in an ontology without cycles.
-/

namespace OntologyTyping

/-- The kinds of concepts. -/
inductive Kind where
  | entity
  | relation
  | attr
  | role
deriving DecidableEq, Inhabited

namespace Kind

def name : Kind → String
  | .entity => "entity"
  | .relation => "relation"
  | .attr => "attribute"
  | .role => "role"

/-- The place of a kind in the order of kinds. -/
def rank : Kind → Nat
  | .entity => 0
  | .relation => 1
  | .attr => 2
  | .role => 3

def all : List Kind := [.entity, .relation, .attr, .role]

end Kind

instance : Ord Kind := ⟨fun a b => compare a.rank b.rank⟩

/-- A concept with what is declared of it directly. -/
structure Concept where
  label : Label
  kind : Kind
  parent : Option Label
  plays : List Label
  relates : List Label
deriving DecidableEq, Inhabited

/-- A set of concepts under their labels, in increasing order of labels. -/
structure Ontology where
  name : Option String
  concepts : List Concept
deriving DecidableEq, Inhabited

namespace Ontology

/-- The concept with this label. -/
def concept? (o : Ontology) (l : Label) : Option Concept :=
  o.concepts.find? (·.label == l)

/-- The concepts met on the way up from a label, in at most `steps` steps. -/
def lineage (o : Ontology) : (steps : Nat) → Label → List Concept
  | 0, _ => []
  | steps + 1, l =>
    match o.concept? l with
    | none => []
    | some c => c :: (match c.parent with
      | none => []
      | some p => o.lineage steps p)

/-- The concept with this label and all its supertypes; nothing for a label that is not declared. -/
def ancestors (o : Ontology) (l : Label) : List Concept :=
  o.lineage o.concepts.length l

/-- The label and those of all its supertypes. -/
def supertypes (o : Ontology) (l : Label) : List Label :=
  (o.ancestors l).map Concept.label

/-- Whether the second concept is the first or one of its supertypes. -/
def isSubtype (o : Ontology) (lower upper : Label) : Bool :=
  (o.supertypes lower).contains upper

/-- Whether instances of a type may play a role, by its own declaration or a supertype's. Roles play nothing. -/
def plays (o : Ontology) (type role : Label) : Bool :=
  match o.concept? type with
  | some c => c.kind != .role && (o.ancestors type).any (·.plays.contains role)
  | none => false

/-- Whether a relation type has a role, by its own declaration or a supertype's. -/
def relates (o : Ontology) (relation role : Label) : Bool :=
  match o.concept? relation with
  | some c => c.kind == .relation && (o.ancestors relation).any (·.relates.contains role)
  | none => false

end Ontology

end OntologyTyping
