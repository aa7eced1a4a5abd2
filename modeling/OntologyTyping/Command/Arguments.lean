import OntologyTyping.Settings

/-!
The arguments of the command: what they ask for.

Arguments are taken in order, and the first that is wrong, or that asks for the version or for help, settles the matter.
-/

namespace OntologyTyping.Command

/-- How the pattern is written out. -/
inductive Format where
  | text
  | yaml
  | json
deriving DecidableEq

def Format.parse? : String → Option Format
  | "text" => some .text
  | "yaml" => some .yaml
  | "json" => some .json
  | _ => none

/-- A request to infer the types of a pattern. -/
structure Job where
  /-- The file that defines the ontology. -/
  ontology : String
  /-- The file that holds the pattern. -/
  pattern : String
  /-- The file that holds the settings; without one the environment does. -/
  settings : Option String
  overrides : Settings.Overrides
  format : Format
  /-- Whether to report what was inferred. -/
  report : Bool
deriving DecidableEq

/-- What the arguments ask for. -/
inductive Request where
  | run (job : Job)
  | version
  | help
deriving DecidableEq

/-- What is known from the arguments so far. -/
structure Draft where
  ontology : Option String := none
  pattern : Option String := none
  settings : Option String := none
  stem : Option String := none
  format : Option Format := none
  synthesize : Bool := false
  keepGroups : Bool := false
  report : Bool := false

namespace Draft

/-- An option with a value, given for the first time; none where the value or the repetition is not allowed. The
outer option tells whether there is such an option. -/
def setValue? (d : Draft) (name : String) : Option (String → Option Draft) :=
  match name with
  | "--schema" => some fun v => if d.ontology.isSome || v = "" then none else some { d with ontology := some v }
  | "--pattern" => some fun v => if d.pattern.isSome || v = "" then none else some { d with pattern := some v }
  | "--config" => some fun v => if d.settings.isSome || v = "" then none else some { d with settings := some v }
  | "--anon-prefix" => some fun v => if d.stem.isSome then none else some { d with stem := some v }
  | "--output" => some fun v =>
    if d.format.isSome then none else (Format.parse? v).map fun f => { d with format := some f }
  | _ => none

/-- An option without a value, given for the first time. -/
def setFlag? (d : Draft) (name : String) : Option Draft :=
  match name with
  | "--synthesize-missing-roles" => if d.synthesize then none else some { d with synthesize := true }
  | "--preserve-grouping" => if d.keepGroups then none else some { d with keepGroups := true }
  | "--diagnostics" => if d.report then none else some { d with report := true }
  | _ => none

/-- The job, if the files that it needs are named. -/
def job? (d : Draft) : Option Job := do
  return {
    ontology := ← d.ontology
    pattern := ← d.pattern
    settings := d.settings
    overrides := { synthesize := d.synthesize, keepGroups := d.keepGroups, stem := d.stem }
    format := d.format.getD .text
    report := d.report }

end Draft

/-- An argument with what stands before and behind its first equals sign. -/
def splitEquals (arg : String) : String × Option String :=
  let (before, rest) := arg.toList.span (· ≠ '=')
  (.ofList before, match rest with
    | _ :: value => some (.ofList value)
    | [] => none)

/-- Whether an argument can be the value of the option before it. -/
def isValue (arg : String) : Bool :=
  !arg.startsWith "-" || arg = "-"

/-- Reads the arguments that are left. -/
def parseFrom : Draft → List String → Option Request
  | d, [] => d.job?.map .run
  | d, arg :: rest =>
    match arg.toList with
    | ['-', '-'] => if rest.isEmpty then d.job?.map .run else none
    | '-' :: '-' :: _ =>
      match splitEquals arg with
      | (name, some value) => do
        let set ← d.setValue? name
        parseFrom (← set value) rest
      | (name, none) =>
        if name = "--version" then some .version
        else if name = "--help" then some .help
        else match d.setValue? name, rest with
          | some set, value :: rest => if isValue value then do parseFrom (← set value) rest else none
          | some _, [] => none
          | none, rest => do parseFrom (← d.setFlag? name) rest
    | '-' :: 'V' :: _ => some .version
    | '-' :: 'h' :: _ => some .help
    | _ => none

/-- What the arguments ask for; none where they are wrong. -/
def parse? (args : List String) : Option Request :=
  parseFrom {} args

end OntologyTyping.Command
