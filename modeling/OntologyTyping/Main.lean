import OntologyTyping.Command.Run

/-!
The command line: reads the files and variables that a job needs, and prints what the job leaves behind.
-/

namespace OntologyTyping.Command

/-- Reads a text file. -/
def readText (path : String) : IO (Except ReadError String) := do
  try
    return .ok (← IO.FS.readFile path)
  catch
    | .noFileOrDirectory _ _ _ => return .error .notFound
    | .inappropriateType _ _ _ => return .error .isDirectory
    | e => return .error (.other (toString e))

/-- The files that the arguments name. -/
def filesNamed (args : List String) : List String :=
  match parse? args with
  | some (.run job) => [job.ontology, job.pattern] ++ job.settings.toList
  | _ => []

/-- The environment variables that settings come from, and those that a text refers to. -/
def variablesFor (envFile : Except ReadError String) : List String :=
  [Settings.policyVariable, Settings.stemVariable, Settings.groupingVariable] ++
    (match envFile with
      | .ok text => EnvFile.namesIn text
      | .error _ => [])

end OntologyTyping.Command

open OntologyTyping Command in
/-- Runs the command in the current directory. -/
def main (args : List String) : IO UInt32 := do
  let envFile ← readText ".env"
  let mut texts := [(".env", envFile)]
  for path in filesNamed args do
    texts := texts ++ [(path, ← readText path)]
  let mut env : Environment := []
  for name in variablesFor envFile do
    if let some value ← IO.getEnv name then
      env := env ++ [(name, value)]
  let files := texts
  let exit := Command.run args (fun path => (files.lookup path).getD (.error .notFound)) env
  IO.print exit.output
  IO.eprint exit.errors
  return exit.code.toUInt32
