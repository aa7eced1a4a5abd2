import OntologyTyping.Inference.Basic

/-!
The log of an inference, read off what it did.
-/

namespace OntologyTyping

inductive LogLevel where
  | debug
  | info
  | warn
deriving DecidableEq

def LogLevel.name : LogLevel → String
  | .debug => "DEBUG"
  | .info => "INFO"
  | .warn => "WARN"

structure LogRecord where
  level : LogLevel
  text : String
deriving DecidableEq

def LogRecord.render (r : LogRecord) : String :=
  r.level.name ++ " " ++ r.text

/-- A slot that names no role has got a placeholder. -/
def Clue.log : Clue → List LogRecord
  | .slot r p a .missing =>
    [⟨.debug, "ConstraintExtractor: synthesized role " ++ a.render ++ " for " ++ p.render ++ " in " ++ r.render⟩]
  | .slot _ _ _ _ | .isa _ _ => []

namespace Outcome

/-- What is said of the branch with this index in all its messages. -/
def logTitle (index : Nat) : String :=
  "TypeInference: branch " ++ toString index

/-- The log of a branch, first its clues, then query, warnings and result. -/
def log (keepGroups : Bool) (index : Nat) (b : Branch) : Outcome → List LogRecord
  | .malformed _ => []
  | .skipped => [⟨.debug, logTitle index ++ " has no type constraints, skipping"⟩]
  | .unanswered clues _ => asking clues
  | .answered clues answers ext =>
    let evidence := Evidence.ofClues clues
    let candidates := Candidates.ofAnswers evidence answers
    let resolution := Resolution.ofCandidates evidence candidates
    let warning (text : String) : LogRecord := ⟨.warn, logTitle index ++ ": " ++ text⟩
    asking clues ++
    (if answers.isEmpty then [warning noAnswersWarning] else []) ++
    [⟨.debug, logTitle index ++ " candidates for " ++ toString candidates.length ++ " variable(s), " ++
      toString resolution.resolved.length ++ " resolved"⟩] ++
    resolution.ambiguous.map (fun (v, ls) =>
      warning (v.render ++ " is ambiguous (" ++ renderLabels ls ++ "), left untyped")) ++
    resolution.mismatched.map (warning ∘ mismatchWarning) ++
    (match b.revise ext keepGroups with
      | .kept _ => []
      | .changed merged => [⟨.debug, logTitle index ++ " rewritten to " ++ merged.render⟩])
where
  asking (clues : List Clue) : List LogRecord :=
    clues.flatMap Clue.log ++
      [⟨.debug, logTitle index ++ " ontology query " ++ renderAtoms (Evidence.ofClues clues).query⟩]

end Outcome

namespace Inference

/-- The closing message. -/
def summary (i : Inference) : LogRecord :=
  ⟨.info, "TypeInference: " ++ toString i.report.resolvedCount ++ " resolved, " ++ toString i.report.ambiguousCount ++
    " ambiguous, " ++ toString i.report.skippedCount ++ " skipped branch(es), changed=" ++ toString i.isChanged⟩

/-- The log of an inference; one that fails has no closing message. -/
def log (i : Inference) : List LogRecord :=
  [⟨.debug, "TypeInference: " ++ toString i.pattern.branches.length ++ " branch(es) for " ++ i.pattern.render⟩] ++
  (i.steps.mapIdx fun index (b, outcome) => outcome.log i.settings.keepGroups index b).flatten ++
  (if i.error?.isSome then [] else [i.summary])

end Inference

end OntologyTyping
