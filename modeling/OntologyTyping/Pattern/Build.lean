import OntologyTyping.Pattern.Basic

/-!
Building patterns: atoms property by property, with what they state first, and patterns from atoms and from branches.
-/

namespace OntologyTyping

namespace Atom

/-- An atom that says nothing yet. -/
def ofName (v : VarName) : Atom :=
  ⟨v, []⟩

/-- Adds a property at the end. -/
def add (a : Atom) (p : Property) : Atom :=
  { a with properties := a.properties ++ [p] }

/-- Adds a slot to the first relation of a list of properties, or a new relation at the end when there is none. -/
def addSlot (slot : RolePlayer) : List Property → List Property
  | [] => [.relation [slot]]
  | .relation players :: rest => .relation (players ++ [slot]) :: rest
  | p :: rest => p :: addSlot slot rest

/-- Adds a role player to the relation that the atom states. -/
def addPlayer (a : Atom) (slot : RolePlayer) : Atom :=
  { a with properties := addSlot slot a.properties }

/-- The first type that the atom names literally. -/
def isaLabel? (a : Atom) : Option Label :=
  a.properties.findSome? fun
    | .isa (.label l) => some l
    | _ => none

/-- The slots of the first relation that the atom states. -/
def rolePlayers? (a : Atom) : Option (List RolePlayer) :=
  a.properties.findSome? fun
    | .relation players => some players
    | _ => none

end Atom

namespace Pattern

/-- The conjunction of a list of atoms. -/
def ofAtoms (atoms : List Atom) : Pattern :=
  .all (atoms.map .atom)

/-- Joins branches to a pattern: a single one stands for itself. -/
def ofBranches : List Pattern → Pattern
  | [p] => p
  | ps => .any ps

end Pattern

end OntologyTyping
