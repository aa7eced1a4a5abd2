import OntologyTyping.Inference.Resolution
import OntologyTyping.Pattern.Build

/-!
The atoms that state the resolved types of a branch, and how they are joined to it.

The type of an instance variable is stated by `isa`. The type of a role variable is stated by a placeholder that has
the very label and lies below the variable. What the branch states already is not stated again.
-/

namespace OntologyTyping

/-! ### Revisions -/

/-- The result of a step: a new value, or the one that was there. -/
inductive Revision (α : Type) where
  | changed (value : α)
  | kept (value : α)
deriving DecidableEq

namespace Revision

variable {α β : Type}

def isChanged : Revision α → Bool
  | .changed _ => true
  | .kept _ => false

def value : Revision α → α
  | .changed a => a
  | .kept a => a

def map (f : α → β) : Revision α → Revision β
  | .changed a => .changed (f a)
  | .kept a => .kept (f a)

end Revision

/-! ### Extensions -/

namespace Branch

/-- Whether the branch gives the variable this literal type. -/
def statesIsa (b : Branch) (v : VarName) (l : Label) : Bool :=
  b.any fun a => a.name == v && a.properties.contains (.isa (.label l))

/-- Whether an atom of the branch says of its variable that it has this label and lies below the role variable, and no
more. -/
def statesRole (b : Branch) (role : VarName) (l : Label) : Bool :=
  b.any fun a => a.properties == [.label l, .sub (.var role)]

/-- The atom that states a resolved type, if the branch lacks it. -/
def extensionAtom (b : Branch) (e : Evidence) (supply : Supply) (v : VarName) (l : Label) : Option Atom × Supply :=
  if e.roles.contains v then
    if b.statesRole v l then (none, supply)
    else (some ⟨supply.fresh.1, [.label l, .sub (.var v)]⟩, supply.fresh.2)
  else if b.statesIsa v l then (none, supply)
  else (some ⟨v, [.isa (.label l)]⟩, supply)

/-- The atoms that state the resolved types, in the order of the variables. -/
def extension (b : Branch) (e : Evidence) : Supply → List (VarName × ConceptName) → List Atom × Supply
  | supply, [] => ([], supply)
  | supply, (v, c) :: rest =>
    let (atom, supply) := b.extensionAtom e supply v c.label
    let (atoms, supply) := b.extension e supply rest
    (atom.toList ++ atoms, supply)

/-- The branch with an extension: one conjunction, or two groups in one. -/
def extend (b : Branch) (ext : List Atom) (keepGroups : Bool) : Pattern :=
  if keepGroups then .all [.ofAtoms b, .ofAtoms ext] else .ofAtoms (b ++ ext)

/-- The branch with an extension; without one it stays as it is. -/
def revise (b : Branch) (ext : List Atom) (keepGroups : Bool) : Revision Pattern :=
  if ext.isEmpty then .kept (.ofAtoms b) else .changed (b.extend ext keepGroups)

end Branch

end OntologyTyping
