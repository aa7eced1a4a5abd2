import OntologyTyping.Inference.Clue
import OntologyTyping.Ontology.Solve

/-!
Evidence about the types of a branch, and the query that it puts to an ontology.

Every variable of a branch stands, in the query, for its own type. A literal type makes the variable's type a
subtype of it. A slot makes the player's type play the slot's role and the relation's type relate it, where a role
label stands for itself and all roles below it.
-/

namespace OntologyTyping

/-- What is known of the variables of a branch, and the atoms of its query. -/
structure Evidence where
  /-- Variables whose type is given, and placeholders for role labels, in increasing order. -/
  known : List VarName
  /-- Variables that stand for roles, in increasing order. -/
  roles : List VarName
  /-- Placeholders for slots that name no role, in increasing order. -/
  synthesized : List VarName
  atoms : List Atom
deriving DecidableEq, Inhabited

namespace Evidence

def empty : Evidence :=
  ⟨[], [], [], []⟩

/-- The evidence of both. -/
def merge (a b : Evidence) : Evidence :=
  ⟨Ordered.union a.known b.known, Ordered.union a.roles b.roles, Ordered.union a.synthesized b.synthesized,
    a.atoms ++ b.atoms⟩

/-- All the evidence together. -/
def mergeAll (parts : List Evidence) : Evidence :=
  parts.foldl merge empty

/-- Whether something is to be found out about a variable. -/
def isOpen (e : Evidence) (v : VarName) : Bool :=
  !e.known.contains v && !e.synthesized.contains v

/-- The two atoms that tie the player and the relation of a slot to its role. -/
def slotAtoms (relation player role : VarName) : List Atom :=
  [⟨player, [.plays (.var role)]⟩, ⟨relation, [.relates (.var role)]⟩]

/-- The evidence of one clue. -/
def ofClue : Clue → Evidence
  | .isa v l => ⟨[v], [], [], [⟨v, [.sub (.label l)]⟩]⟩
  | .slot r p a (.label l) => ⟨[a], [], [], ⟨a, [.sub (.label l)]⟩ :: slotAtoms r p a⟩
  | .slot r p a .var => ⟨[], [a], [], slotAtoms r p a⟩
  | .slot r p a .missing => ⟨[], [a], [a], slotAtoms r p a⟩

def ofClues (clues : List Clue) : Evidence :=
  mergeAll (clues.map ofClue)

/-! ### The query -/

/-- Adds a property unless it is there. -/
def addProperty (properties : List Property) (p : Property) : List Property :=
  if properties.any p.same then properties else properties ++ [p]

/-- Adds the properties of an atom to the atom of the same variable, or at the end where there is none. -/
def addAtom (a : Atom) : List Atom → List Atom
  | [] => [⟨a.name, a.properties.foldl addProperty []⟩]
  | b :: rest =>
    if b.name = a.name then ⟨b.name, a.properties.foldl addProperty b.properties⟩ :: rest
    else b :: addAtom a rest

/-- One atom for each variable, in order of first appearance. -/
def grouped (atoms : List Atom) : List Atom :=
  atoms.foldl (fun acc a => addAtom a acc) []

/-- Whether a property ties its variable to a label of the ontology. -/
def anchors : Property → Bool
  | .label _ | .sub (.label _) => true
  | _ => false

/-- Whether an atom ties its variable to a label of the ontology. -/
def isAnchored (a : Atom) : Bool :=
  a.properties.any anchors

/-- The query: one atom for each variable, those tied to a label first. -/
def query (e : Evidence) : Query :=
  let atoms := grouped e.atoms
  atoms.filter isAnchored ++ atoms.filter fun a => !isAnchored a

end Evidence

end OntologyTyping
