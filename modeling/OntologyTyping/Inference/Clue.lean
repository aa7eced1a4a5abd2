import OntologyTyping.Pattern.Branch
import OntologyTyping.Settings
import OntologyTyping.Search
import OntologyTyping.Supply

/-!
What a branch tells about types: literal types of variables, and the slots of its relations.

In a clue every slot has a role variable. A slot that names its role by a variable keeps it; a slot with a role
label, or with no role at all, gets a placeholder of its own.
-/

namespace OntologyTyping

/-- What a branch says about types, as it stands there. -/
inductive Hint where
  /-- The variable has a literal type. -/
  | isa (subject : VarName) (type : Label)
  /-- The relation has this slot. -/
  | slot (relation : VarName) (filling : RolePlayer)
deriving DecidableEq

/-- What a property of a variable says about types. -/
def Hint.ofStatement : Statement → List Hint
  | (v, .isa (.label l)) => [.isa v l]
  | (v, .relation players) => players.map (.slot v)
  | _ => []

/-- The hints of a branch: by atom, by property, and by slot. -/
def Branch.hints (b : Branch) : List Hint :=
  (statements b).flatMap Hint.ofStatement

/-- How a slot names its role. -/
inductive RoleSource where
  | label (l : Label)
  | var
  | missing
deriving DecidableEq

/-- What a branch says about types, with a variable for every role. -/
inductive Clue where
  | isa (subject : VarName) (type : Label)
  | slot (relation player role : VarName) (source : RoleSource)
deriving DecidableEq

/-- A slot without a role where roles must be named. -/
structure MissingRole where
  relation : VarName
  player : VarName
deriving DecidableEq

/-- A hint with a variable for its role, from the supply where the slot has none. -/
def Hint.clue (policy : MissingRoles) (supply : Supply) : Hint → Except MissingRole (Clue × Supply)
  | .isa v l => .ok (.isa v l, supply)
  | .slot r ⟨some (.var a), p⟩ => .ok (.slot r p a .var, supply)
  | .slot r ⟨some (.label l), p⟩ => .ok (.slot r p supply.fresh.1 (.label l), supply.fresh.2)
  | .slot r ⟨none, p⟩ =>
    match policy with
    | .reject => .error ⟨r, p⟩
    | .synthesize => .ok (.slot r p supply.fresh.1 .missing, supply.fresh.2)

/-- The clues of a list of hints, with what is left of the supply. -/
def Hint.clues (policy : MissingRoles) : Supply → List Hint → Except MissingRole (List Clue × Supply)
  | supply, [] => .ok ([], supply)
  | supply, h :: rest => do
    let (c, supply) ← h.clue policy supply
    let (cs, supply) ← Hint.clues policy supply rest
    return (c :: cs, supply)

/-- The clues of a branch; under a policy that rejects, the first slot without a role is an error. -/
def Branch.clues (policy : MissingRoles) (b : Branch) (supply : Supply) : Except MissingRole (List Clue × Supply) :=
  Hint.clues policy supply b.hints

end OntologyTyping
