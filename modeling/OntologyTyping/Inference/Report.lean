import OntologyTyping.Ontology.Basic
import OntologyTyping.Pattern.Text

/-!
Reports of what type inference found out, branch by branch.
-/

namespace OntologyTyping

/-- What was found out about one branch. -/
structure BranchReport where
  index : Nat
  /-- The branch says nothing about types, so nothing was asked. -/
  skipped : Bool := false
  /-- The number of atoms of the query. -/
  querySize : Nat := 0
  answerCount : Nat := 0
  resolved : List (VarName × Label) := []
  ambiguous : List (VarName × List Label) := []
  warnings : List String := []
deriving DecidableEq, Inhabited

/-- What was found out about a pattern. -/
structure Report where
  branches : List BranchReport
deriving DecidableEq, Inhabited

namespace Report

def resolvedCount (r : Report) : Nat :=
  r.branches.foldl (fun n b => n + b.resolved.length) 0

def ambiguousCount (r : Report) : Nat :=
  r.branches.foldl (fun n b => n + b.ambiguous.length) 0

def skippedCount (r : Report) : Nat :=
  r.branches.countP (·.skipped)

def warnings (r : Report) : List String :=
  r.branches.flatMap BranchReport.warnings

end Report

/-- Labels with commas between them. -/
def renderLabels (labels : List Label) : String :=
  ", ".intercalate (labels.map Label.text)

/-- The lines of a report on one branch. -/
def BranchReport.lines (b : BranchReport) : List String :=
  let title := "branch " ++ toString b.index ++ ": "
  if b.skipped then [title ++ "skipped (no type constraints)"]
  else
    [title ++ toString b.querySize ++ " query patterns, " ++ toString b.answerCount ++ " answers"] ++
    b.resolved.map (fun (v, l) => "  resolved  " ++ v.render ++ " -> " ++ l.text) ++
    b.ambiguous.map (fun (v, ls) => "  ambiguous " ++ v.render ++ " -> [" ++ renderLabels ls ++ "]") ++
    b.warnings.map ("  warning   " ++ ·)

/-- The text of a report; every line is ended. -/
def Report.render (r : Report) : String :=
  String.join ((r.branches.flatMap BranchReport.lines).map (· ++ "\n"))

end OntologyTyping
