import OntologyTyping.Files
import OntologyTyping.Pattern.Json

/-!
The settings of type inference, and where they come from: an environment, a file, or options given on top of either.

Wherever settings are taken over, the stem of placeholder names is checked: one to sixteen characters, none of them
blank or a dollar sign.
-/

namespace OntologyTyping

/-- What to do with a slot of a relation that names no role. -/
inductive MissingRoles where
  /-- Refuse the pattern. -/
  | reject
  /-- Solve the slot through a placeholder that is never written into the pattern. -/
  | synthesize
deriving DecidableEq, Inhabited

namespace MissingRoles

def name : MissingRoles → String
  | .reject => "reject"
  | .synthesize => "synthesize"

def all : List MissingRoles := [.reject, .synthesize]

/-- Reads a policy; blanks at the ends and the case of letters do not matter. -/
def parse? (s : String) : Option MissingRoles :=
  match Text.lowerAscii (Text.trim s) with
  | "reject" => some .reject
  | "synthesize" => some .synthesize
  | "synthesise" => some .synthesize
  | _ => none

/-- The message for a text that names no policy. -/
def unknownMessage (s : String) : String :=
  "unknown missing role policy `" ++ s ++ "`, expected `reject` or `synthesize`"

def ofJson (j : Json) : Except Json.ShapeError MissingRoles := do
  let name ← j.asName (all.map MissingRoles.name)
  return if name = MissingRoles.synthesize.name then .synthesize else .reject

end MissingRoles

/-- The settings of type inference. -/
structure Settings where
  missingRoles : MissingRoles := .reject
  /-- What placeholder names start with. -/
  stem : String := "_"
  /-- Keep what is added in a group of its own. -/
  keepGroups : Bool := false
deriving DecidableEq, Inhabited

/-- The rules for the stem of placeholder names. -/
inductive StemRule where
  | length
  | characters
deriving DecidableEq

def StemRule.message : StemRule → String
  | .length => "Anonymous variable prefix must be 1 to 16 characters"
  | .characters => "Anonymous variable prefix cannot contain whitespace or `$`"

def StemRule.allows (stem : String) : StemRule → Bool
  | .length => 1 ≤ stem.length && stem.length ≤ 16
  | .characters => stem.toList.all fun c => !Text.isBlank c && c ≠ '$'

/-- Why settings cannot be used. -/
inductive SettingsError where
  /-- The stem breaks these rules. -/
  | badStem (broken : List StemRule)
  /-- An environment variable has a value that cannot be read. -/
  | badVariable (name value reason : String)
  | unreadable (reason : ReadError)
  /-- The text of a file does not describe settings. -/
  | undecodable (text : String)
deriving DecidableEq

namespace SettingsError

/-- The broken rules in words. -/
def stemMessage (broken : List StemRule) : String :=
  "anonymous_var_prefix: " ++ ", ".intercalate (broken.map StemRule.message)

/-- Of a value that could not be read: what it was to be, the value, and why. The reason for a text that does not
describe settings is not told. -/
def parts? : SettingsError → Option (String × String × Option String)
  | .badStem _ => none
  | .badVariable name value reason => some (name, value, some reason)
  | .unreadable reason => some ("yaml_file", "file read failed", some reason.message)
  | .undecodable text => some ("yaml_content", text, none)

def message (e : SettingsError) : String :=
  match e, e.parts? with
  | .badStem broken, _ => "Validation error: " ++ stemMessage broken
  | _, some (field, value, reason) => "Parse error for " ++ field ++ ": " ++ value ++ " - " ++ reason.getD ""
  | _, none => ""

/-- What lies behind the error, where that is told apart from it. -/
def cause? (e : SettingsError) : Option String :=
  match e with
  | .badStem broken => some (stemMessage broken)
  | _ => e.parts?.bind fun (_, _, reason) => reason

end SettingsError

namespace Settings

/-- The settings, provided that the stem keeps the rules. -/
def checked (s : Settings) : Except SettingsError Settings :=
  match [StemRule.length, .characters].filter fun rule => !rule.allows s.stem with
  | [] => .ok s
  | broken => .error (.badStem broken)

/-! ### From an environment -/

def policyVariable : String := "ONTOPLAN_MISSING_ROLE_POLICY"

def stemVariable : String := "ONTOPLAN_ANON_PREFIX"

def groupingVariable : String := "ONTOPLAN_PRESERVE_GROUPING"

def parseFlag? : String → Option Bool
  | "true" => some true
  | "false" => some false
  | _ => none

/-- Settings from environment variables; one that is not set leaves the default. -/
def ofEnvironment (lookup : String → Option String) : Except SettingsError Settings := do
  let missingRoles ← match lookup policyVariable with
    | none => pure .reject
    | some value => match MissingRoles.parse? value with
      | some policy => pure policy
      | none => throw (.badVariable policyVariable value (MissingRoles.unknownMessage value))
  let stem := (lookup stemVariable).getD "_"
  let keepGroups ← match lookup groupingVariable with
    | none => pure false
    | some value => match parseFlag? value with
      | some flag => pure flag
      | none => throw (.badVariable groupingVariable value "provided string was not `true` or `false`")
  checked { missingRoles, stem, keepGroups }

/-! ### Options on top -/

/-- Settings given as options; what is not given stays as it was. -/
structure Overrides where
  synthesize : Bool := false
  keepGroups : Bool := false
  stem : Option String := none
deriving DecidableEq, Inhabited

/-- Settings with options on top of them. -/
def override (s : Settings) (o : Overrides) : Except SettingsError Settings :=
  checked {
    missingRoles := if o.synthesize then .synthesize else s.missingRoles
    stem := o.stem.getD s.stem
    keepGroups := o.keepGroups || s.keepGroups }

/-! ### As JSON values -/

/-- Settings that are being read. -/
structure Draft where
  missingRoles : Option MissingRoles := none
  stem : Option String := none
  keepGroups : Option Bool := none

def record : Json.Record Draft where
  name := "InferenceConfig"
  fields := [
    { name := "missing_role_policy", required := false, isSet := (·.missingRoles.isSome)
      read := fun d j => return { d with missingRoles := some (← MissingRoles.ofJson j) } },
    { name := "anonymous_var_prefix", required := false, isSet := (·.stem.isSome)
      read := fun d j => return { d with stem := some (← j.asText) } },
    { name := "preserve_grouping", required := false, isSet := (·.keepGroups.isSome)
      read := fun d j => return { d with keepGroups := some (← j.asFlag) } }]

/-- The settings of a draft, with defaults for what it lacks. -/
def ofDraft (d : Draft) : Settings where
  missingRoles := d.missingRoles.getD .reject
  stem := d.stem.getD "_"
  keepGroups := d.keepGroups.getD false

/-- Reads settings without checking them. -/
def ofJson (j : Json) : Except Json.ShapeError Settings := do
  return ofDraft (← record.read {} j)

def toJson (s : Settings) : Json :=
  .obj [("missing_role_policy", .str s.missingRoles.name), ("anonymous_var_prefix", .str s.stem),
    ("preserve_grouping", .bool s.keepGroups)]

end Settings

end OntologyTyping
