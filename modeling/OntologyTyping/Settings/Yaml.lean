import OntologyTyping.Settings
import OntologyTyping.Yaml.Shape

/-!
Settings in YAML files.
-/

namespace OntologyTyping

open Yaml (Decode)

/-- A policy by its name, as a scalar or as the tag of nothing. -/
def MissingRoles.ofYaml : Decode MissingRoles :=
  Decode.ofNode fun
    | .scalar s =>
      let named (name : String) := MissingRoles.all.find? (·.name == name)
      match s.tag.bind Yaml.Tag.name? with
      | some name => if s.style = .plain && (s.text = "" || Yaml.isNullWord s.text) then named name else none
      | none => named s.text
    | _ => none

namespace Settings

def ofYaml : Decode Settings :=
  Decode.record ["missing_role_policy", "anonymous_var_prefix", "preserve_grouping"] fun fields => do
    return {
      missingRoles := ← fields.getD "missing_role_policy" MissingRoles.ofYaml .reject
      stem := ← fields.getD "anonymous_var_prefix" Decode.text "_"
      keepGroups := ← fields.getD "preserve_grouping" Decode.flag false }

/-- The settings that a YAML text holds; an empty text leaves the defaults. -/
def parseYaml? (text : String) : Option Settings := do
  return (← (← Yaml.document? text).decode? ofYaml).getD {}

/-- Settings from what was read of a file. -/
def ofFile (read : Except ReadError String) : Except SettingsError Settings :=
  match read with
  | .error reason => .error (.unreadable reason)
  | .ok text =>
    match parseYaml? text with
    | none => .error (.undecodable text)
    | some s => s.checked

end Settings

end OntologyTyping
