import OntologyTyping.Inference.Extension
import OntologyTyping.Inference.Report

/-!
Type inference over a pattern.

The branches of a pattern are taken one after the other. The clues of a branch become a query; the answers resolve
the types of variables, and the resolved types are stated in the branch. Placeholder names are unique over the whole
pattern. The first branch that fails ends the inference.
-/

namespace OntologyTyping

/-- Whoever answers queries. An answer may depend on the queries asked before. -/
abbrev Store := (asked : List Query) → Query → Except QueryError (List Binding)

/-- The concepts of an ontology answer queries. -/
def Ontology.store (o : Ontology) : Store :=
  fun _ q => o.solve q

/-- Answers from a list, one for each query; past its end there are none. -/
def Store.ofReplies (replies : List (Except QueryError (List Binding))) : Store :=
  fun asked _ => replies.getD asked.length (.ok [])

/-- Why inference fails. -/
inductive InferenceError where
  | malformedRelation (slot : MissingRole)
  | queryFailed (cause : QueryError)
deriving DecidableEq

/-- The step of inference that fails. -/
def InferenceError.stage : InferenceError → String
  | .malformedRelation _ => "ConstraintExtraction"
  | .queryFailed _ => "SchemaExecution"

def InferenceError.message : InferenceError → String
  | .malformedRelation slot =>
    " ConstraintExtraction: Malformed relation " ++ slot.relation.render ++ ": role player " ++ slot.player.render ++
      " has neither a role label nor a role variable."
  | .queryFailed cause => " SchemaExecution: " ++ cause.message ++ "."

/-- What became of one branch. -/
inductive Outcome where
  | malformed (slot : MissingRole)
  /-- Without clues there is nothing to ask. -/
  | skipped
  | unanswered (clues : List Clue) (cause : QueryError)
  | answered (clues : List Clue) (answers : List Binding) (ext : List Atom)
deriving DecidableEq

namespace Outcome

def error? : Outcome → Option InferenceError
  | .malformed slot => some (.malformedRelation slot)
  | .unanswered _ cause => some (.queryFailed cause)
  | .skipped | .answered _ _ _ => none

def clues : Outcome → List Clue
  | .unanswered clues _ | .answered clues _ _ => clues
  | .malformed _ | .skipped => []

/-- The query that was asked. -/
def query? : Outcome → Option Query
  | .unanswered clues _ | .answered clues _ _ => some (Evidence.ofClues clues).query
  | .malformed _ | .skipped => none

/-- The atoms to be added to the branch. -/
def extension : Outcome → List Atom
  | .answered _ _ ext => ext
  | .malformed _ | .skipped | .unanswered _ _ => []

end Outcome

/-- Infers the types of one branch. -/
def Branch.infer (settings : Settings) (store : Store) (asked : List Query) (supply : Supply) (b : Branch) :
    Outcome × Supply :=
  match b.clues settings.missingRoles supply with
  | .error slot => (.malformed slot, supply)
  | .ok (clues, supply) =>
    let evidence := Evidence.ofClues clues
    if evidence.query.isEmpty then (.skipped, supply)
    else match store asked evidence.query with
      | .error cause => (.unanswered clues cause, supply)
      | .ok answers =>
        let (ext, supply) := b.extension evidence supply (Resolution.ofAnswers evidence answers).resolved
        (.answered clues answers ext, supply)

/-- Infers the types of branches in turn, up to the first that fails. -/
def inferBranches (settings : Settings) (store : Store) :
    (asked : List Query) → Supply → List Branch → List (Branch × Outcome)
  | _, _, [] => []
  | asked, supply, b :: rest =>
    let (outcome, supply) := b.infer settings store asked supply
    (b, outcome) ::
      (if outcome.error?.isSome then [] else inferBranches settings store (asked ++ outcome.query?.toList) supply rest)

/-- What inference did with a pattern. -/
structure Inference where
  settings : Settings
  pattern : Pattern
  steps : List (Branch × Outcome)

/-- Infers the types of a pattern. -/
def Pattern.infer (settings : Settings) (store : Store) (p : Pattern) : Inference where
  settings := settings
  pattern := p
  steps := inferBranches settings store [] (.forAtoms settings.stem p.atoms) p.branches

/-! ### Views of an inference -/

/-- The warning for a branch without answers. -/
def noAnswersWarning : String :=
  "ontology query has no answers; pattern cannot match this schema"

/-- The warning for a role variable that is bound to something else. -/
def mismatchWarning (entry : VarName × ConceptName) : String :=
  "role variable " ++ entry.1.render ++ " bound to " ++ entry.2.kind.name ++ " concept " ++ entry.2.label.text ++
    ", left untyped"

/-- The report on the branch with this index. -/
def Outcome.report (index : Nat) : Outcome → BranchReport
  | .answered clues answers _ =>
    let evidence := Evidence.ofClues clues
    let resolution := Resolution.ofAnswers evidence answers
    { index
      querySize := evidence.query.length
      answerCount := answers.length
      resolved := resolution.resolved.map fun (v, c) => (v, c.label)
      ambiguous := resolution.ambiguous
      warnings := (if answers.isEmpty then [noAnswersWarning] else []) ++ resolution.mismatched.map mismatchWarning }
  | .skipped | .malformed _ | .unanswered _ _ => { index, skipped := true }

namespace Inference

/-- The error of the branch that failed. -/
def error? (i : Inference) : Option InferenceError :=
  i.steps.findSome? (·.2.error?)

/-- The queries in the order in which they were asked. -/
def queries (i : Inference) : List Query :=
  i.steps.filterMap (·.2.query?)

def report (i : Inference) : Report where
  branches := (i.steps.map Prod.snd).mapIdx Outcome.report

/-- The branches with what was added to them. -/
def revisions (i : Inference) : List (Revision Pattern) :=
  i.steps.map fun (b, outcome) => b.revise outcome.extension i.settings.keepGroups

def isChanged (i : Inference) : Bool :=
  i.revisions.any Revision.isChanged

/-- The pattern with its types stated; where nothing is added it stays as it was given. -/
def result (i : Inference) : Pattern :=
  if i.isChanged then .ofBranches (i.revisions.map Revision.value) else i.pattern

end Inference

/-- A pattern with the types that were inferred, and the report on them. -/
structure Typed where
  pattern : Pattern
  changed : Bool
  report : Report

/-- The outcome of an inference. -/
def Inference.outcome (i : Inference) : Except InferenceError Typed :=
  match i.error? with
  | some e => .error e
  | none => .ok ⟨i.result, i.isChanged, i.report⟩

/-- States in a pattern the types of its variables, as far as the store's answers leave no choice. -/
def Pattern.inferTypes (settings : Settings) (store : Store) (p : Pattern) : Except InferenceError Typed :=
  (p.infer settings store).outcome

end OntologyTyping
