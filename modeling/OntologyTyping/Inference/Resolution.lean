import OntologyTyping.Inference.Evidence

/-!
What the answers of a query say about the types of a branch: a variable is resolved when all answers give it one label.
-/

namespace OntologyTyping

/-- The labels that answers give to each variable to be inferred, with the kinds of their concepts. -/
abbrev Candidates := List (VarName × List (Label × Kind))

namespace Candidates

/-- Notes a candidate; a kind noted earlier for the same label is replaced. -/
def note (cs : Candidates) (v : VarName) (c : ConceptName) : Candidates :=
  Ordered.put v (Ordered.put c.label c.kind ((cs.lookup v).getD [])) cs

/-- Notes what an answer gives to the variables to be inferred. -/
def noteAnswer (e : Evidence) (cs : Candidates) (b : Binding) : Candidates :=
  b.foldl (fun cs entry => if e.isOpen entry.1 then cs.note entry.1 entry.2 else cs) cs

/-- The candidates from all the answers. -/
def ofAnswers (e : Evidence) (answers : List Binding) : Candidates :=
  answers.foldl (noteAnswer e) []

end Candidates

/-- What is known of the variables with candidates, in increasing order of names. -/
structure Resolution where
  /-- Variables with a single candidate. -/
  resolved : List (VarName × ConceptName)
  /-- Variables with several candidates. -/
  ambiguous : List (VarName × List Label)
  /-- Role variables whose single candidate is no role. -/
  mismatched : List (VarName × ConceptName)
deriving DecidableEq, Inhabited

namespace Resolution

def empty : Resolution :=
  ⟨[], [], []⟩

/-- What the candidates of one variable say about it. -/
def ofEntry (e : Evidence) : VarName × List (Label × Kind) → Resolution
  | (_, []) => empty
  | (v, [(l, k)]) =>
    if e.roles.contains v && k != .role then ⟨[], [], [(v, ⟨l, k⟩)]⟩ else ⟨[(v, ⟨l, k⟩)], [], []⟩
  | (v, labels) => ⟨[], [(v, labels.map Prod.fst)], []⟩

/-- The resolution of all candidates. -/
def ofCandidates (e : Evidence) (cs : Candidates) : Resolution where
  resolved := cs.flatMap fun entry => (ofEntry e entry).resolved
  ambiguous := cs.flatMap fun entry => (ofEntry e entry).ambiguous
  mismatched := cs.flatMap fun entry => (ofEntry e entry).mismatched

/-- The resolution of the answers to a query. -/
def ofAnswers (e : Evidence) (answers : List Binding) : Resolution :=
  ofCandidates e (.ofAnswers e answers)

end Resolution

end OntologyTyping
