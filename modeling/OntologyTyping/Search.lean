import OntologyTyping.Ordered
import OntologyTyping.Pattern.Basic

/-!
Backtracking search for the assignments of values to variables that satisfy a list of constraints.

The variables are bound one after the other. A constraint is tested at the variable that completes it: the first at
which all the variables it mentions are bound. So a branch of the search is cut as soon as a constraint fails.
-/

namespace OntologyTyping

/-- Values of variables, in increasing order of names. -/
abbrev Assignment (α : Type) := List (VarName × α)

namespace Search

variable {α γ : Type}

/-- One step of a search: a variable, the values to try, and the constraints that it completes. -/
structure Stage (α γ : Type) where
  var : VarName
  domain : List α
  tests : List γ

/-- The constraints that mention `v` and no variable that is neither `v` nor bound. -/
def completedBy (mentions : γ → List VarName) (bound : List VarName) (v : VarName) (constraints : List γ) : List γ :=
  constraints.filter fun c => (mentions c).contains v && (mentions c).all fun w => w == v || bound.contains w

/-- The steps of a search over the variables in the given order. -/
def plan (mentions : γ → List VarName) (domain : VarName → List α) (constraints : List γ) :
    (bound : List VarName) → List VarName → List (Stage α γ)
  | _, [] => []
  | bound, v :: rest =>
    ⟨v, domain v, completedBy mentions bound v constraints⟩ ::
      plan mentions domain constraints (v :: bound) rest

/-- The extensions of an assignment along the remaining steps. -/
def run (holds : Assignment α → γ → Bool) : List (Stage α γ) → Assignment α → List (Assignment α)
  | [], bound => [bound]
  | stage :: rest, bound =>
    stage.domain.flatMap fun value =>
      let extended := Ordered.put stage.var value bound
      if stage.tests.all (holds extended) then run holds rest extended else []

/-- The assignments of all the variables, each from its domain, that satisfy all the constraints. -/
def solve (vars : List VarName) (domain : VarName → List α) (mentions : γ → List VarName) (constraints : List γ)
    (holds : Assignment α → γ → Bool) : List (Assignment α) :=
  run holds (plan mentions domain constraints [] vars) []

end Search

/-- A property together with the variable it is stated of. -/
abbrev Statement := VarName × Property

/-- The statements of a list of atoms, in order. -/
def statements (atoms : List Atom) : List Statement :=
  atoms.flatMap fun a => a.properties.map (a.name, ·)

/-- The variables that a statement mentions. -/
def statementVars (s : Statement) : List VarName :=
  s.1 :: s.2.vars

end OntologyTyping
