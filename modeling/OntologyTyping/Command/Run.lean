import OntologyTyping.Command.Arguments
import OntologyTyping.EnvFile
import OntologyTyping.Inference.Basic
import OntologyTyping.Ontology.Yaml
import OntologyTyping.Pattern.JsonText
import OntologyTyping.Settings.Yaml

/-!
What the command does: it reads settings, an ontology and a pattern, and writes the pattern with the types that it
infers.
-/

namespace OntologyTyping.Command

/-- What a run leaves behind. -/
structure Exit where
  code : Nat
  output : String := ""
  errors : String := ""
deriving DecidableEq

/-! ### Failures -/

/-- A failure: what was being done, or what went wrong, and the causes behind it. -/
structure Failure where
  message : String
  causes : List String := []
deriving DecidableEq

/-- A text whose further lines start with blanks. -/
def hang (blanks : String) (text : String) : String :=
  ("\n" ++ blanks).intercalate (text.splitOn "\n")

/-- The causes; several of them are numbered. -/
def renderCauses : List String → String
  | [] => ""
  | [cause] => "\n\nCaused by:\n    " ++ hang "    " cause
  | causes =>
    "\n\nCaused by:" ++
      String.join (causes.mapIdx fun n cause => "\n    " ++ toString n ++ ": " ++ hang "       " cause)

def Failure.render (f : Failure) : String :=
  "Error: " ++ f.message ++ renderCauses f.causes ++ "\n"

/-- A failure to load settings. -/
def settingsFailure (context : Option String) (e : SettingsError) : Failure :=
  match context with
  | some c => ⟨c, e.message :: e.cause?.toList⟩
  | none => ⟨e.message, e.cause?.toList⟩

def inferenceFailure (e : InferenceError) : Failure :=
  match e with
  | .malformedRelation _ => ⟨e.message, []⟩
  | .queryFailed cause => ⟨e.message, [cause.message]⟩

/-! ### A job -/

/-- What reads a file. -/
abbrev FileReader := String → Except ReadError String

namespace Job

/-- The settings of a job. -/
def loadSettings (job : Job) (read : FileReader) (env : Environment) : Except Failure Settings := do
  let base ← match job.settings with
    | some path => (Settings.ofFile (read path)).mapError (settingsFailure (some ("loading configuration " ++ path)))
    | none =>
      (Settings.ofEnvironment fun name => env.lookup name).mapError
        (settingsFailure (some "loading configuration from environment"))
  (base.override job.overrides).mapError (settingsFailure none)

def loadOntology (job : Job) (read : FileReader) : Except Failure Ontology :=
  (Ontology.ofFile read job.ontology).mapError fun e => ⟨"loading ontology " ++ job.ontology, [e.message]⟩

/-- Whether a file holds JSON, which its name tells. -/
def isJsonFile (path : String) : Bool :=
  (fileExtension? path).any fun ext => Text.lowerAscii ext = "json"

/-- The pattern of a job. -/
def loadPattern (job : Job) (read : FileReader) : Except Failure Pattern := do
  let path := job.pattern
  let text ← (read path).mapError fun e => ⟨"reading pattern file " ++ path, [e.message]⟩
  if isJsonFile path then
    (Pattern.parseJson text).mapError fun e => ⟨"parsing JSON pattern " ++ path, [e.message]⟩
  else match Pattern.parseYaml? text with
    | some p => return p
    | none => throw ⟨"parsing YAML pattern " ++ path, ["no pattern"]⟩

/-- The pattern as it is written out. -/
def write (format : Format) (p : Pattern) : String :=
  match format with
  | .text => p.render ++ "\n"
  | .yaml => p.renderYaml
  | .json => p.toJson.pretty 0 ++ "\n"

/-- Runs a job. -/
def run (job : Job) (read : FileReader) (env : Environment) : Except Failure Exit := do
  let settings ← job.loadSettings read env
  let ontology ← job.loadOntology read
  let pattern ← job.loadPattern read
  let typed ← (pattern.inferTypes settings ontology.store).mapError inferenceFailure
  return {
    code := 0
    output := write job.format typed.pattern
    errors := if job.report then typed.report.render else "" }

end Job

/-! ### The command -/

def versionText : String :=
  "ontoplan 0.3.0-dev\n"

def usage : String :=
  "Usage: ontoplan [OPTIONS] --schema <SCHEMA> --pattern <PATTERN>\n"

def helpText : String :=
  "Ontology-guided type inference and pattern rewriting for graph queries\n\n" ++ usage ++ "\nOptions:\n" ++
  "      --schema <SCHEMA>            Ontology definition (YAML)\n" ++
  "      --pattern <PATTERN>          Pattern to rewrite (JSON, or YAML for any other extension)\n" ++
  "      --config <CONFIG>            Inference configuration (YAML); environment variables are used otherwise\n" ++
  "      --synthesize-missing-roles   Solve role players without a role through placeholder roles instead of failing\n" ++
  "      --preserve-grouping          Keep inferred constraints in their own group instead of flattening\n" ++
  "      --anon-prefix <ANON_PREFIX>  Prefix for placeholder variables\n" ++
  "      --output <OUTPUT>            Output format of the rewritten pattern [default: text] " ++
  "[possible values: text, yaml, json]\n" ++
  "      --diagnostics                Print the inference report to stderr\n" ++
  "  -h, --help                       Print help\n" ++
  "  -V, --version                    Print version\n"

/-- The environment with what the file `.env` sets, if there is one; none where a variable cannot be set. -/
def environment? (read : FileReader) (env : Environment) : Option Environment :=
  match read ".env" with
  | .ok text => EnvFile.load? text env
  | .error _ => some env

/-- Runs the command. A variable that cannot be set ends it with code 101 before anything else, wrong arguments end with
code 2, and every other failure with code 1. -/
def run (args : List String) (read : FileReader) (env : Environment) : Exit :=
  match environment? read env with
  | none => { code := 101, errors := "error: a variable in .env cannot be set\n" }
  | some env =>
    match parse? args with
    | none => { code := 2, errors := "error: invalid arguments\n\n" ++ usage }
    | some .version => { code := 0, output := versionText }
    | some .help => { code := 0, output := helpText }
    | some (.run job) =>
      match job.run read env with
      | .ok exit => exit
      | .error failure => { code := 1, errors := failure.render }

end OntologyTyping.Command
