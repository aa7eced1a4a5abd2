import OntologyTyping.Pattern.Basic

/-!
The disjunctive normal form of a pattern: its branches, each a conjunction of atoms.

A disjunction has the branches of its parts one after the other; a conjunction joins one branch of each part, the
choices of earlier parts varying slowest.
-/

namespace OntologyTyping

/-- A conjunction of atoms. -/
abbrev Branch := List Atom

namespace Pattern

mutual

/-- The branches of a pattern. -/
def branches : Pattern → List Branch
  | .atom a => [[a]]
  | .all parts => branchesOfAll parts
  | .any parts => branchesOfAny parts

/-- One branch of every part, joined. -/
def branchesOfAll : List Pattern → List Branch
  | [] => [[]]
  | p :: rest =>
    let tails := branchesOfAll rest
    p.branches.flatMap fun b => tails.map (b ++ ·)

/-- The branches of some part. -/
def branchesOfAny : List Pattern → List Branch
  | [] => []
  | p :: rest => p.branches ++ branchesOfAny rest

end

end Pattern

end OntologyTyping
