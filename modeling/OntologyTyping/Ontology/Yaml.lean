import OntologyTyping.Ontology.Load
import OntologyTyping.Pattern.Yaml

/-!
Definitions of ontologies as YAML texts.
-/

namespace OntologyTyping

open Yaml (Decode)

def TypeDecl.ofYaml : Decode TypeDecl :=
  Decode.record ["label", "sub", "plays"] fun fields => do
    return ⟨← fields.get "label" Label.ofYaml, ← fields.getD "sub" (Decode.optional Label.ofYaml) none,
      ← fields.getD "plays" (Decode.list Label.ofYaml) []⟩

def RelationDecl.ofYaml : Decode RelationDecl :=
  Decode.record ["label", "sub", "relates", "plays"] fun fields => do
    return ⟨← fields.get "label" Label.ofYaml, ← fields.getD "sub" (Decode.optional Label.ofYaml) none,
      ← fields.getD "relates" (Decode.list Label.ofYaml) [], ← fields.getD "plays" (Decode.list Label.ofYaml) []⟩

def RoleDecl.ofYaml : Decode RoleDecl :=
  Decode.record ["label", "sub"] fun fields => do
    return ⟨← fields.get "label" Label.ofYaml, ← fields.getD "sub" (Decode.optional Label.ofYaml) none⟩

def Declarations.ofYaml : Decode Declarations :=
  Decode.record ["entities", "relations", "attributes", "roles"] fun fields => do
    return ⟨← fields.getD "entities" (Decode.list TypeDecl.ofYaml) [],
      ← fields.getD "relations" (Decode.list RelationDecl.ofYaml) [],
      ← fields.getD "attributes" (Decode.list TypeDecl.ofYaml) [],
      ← fields.getD "roles" (Decode.list RoleDecl.ofYaml) []⟩

def Definition.ofYaml : Decode Definition :=
  Decode.record ["name", "ontology"] fun fields => do
    return ⟨← fields.getD "name" (Decode.optional Decode.text) none, ← fields.get "ontology" Declarations.ofYaml⟩

/-- The definition that a YAML text holds. -/
def Definition.parseYaml? (text : String) : Option Definition := do
  ← (← Yaml.document? text).decode? ofYaml

/-- The ontology that a YAML text defines. -/
def Ontology.ofYamlText (text : String) : Except LoadError Ontology :=
  match Definition.parseYaml? text with
  | none => .error (.unparsable "no ontology definition")
  | some d => d.load

/-- The ontology that a file defines. -/
def Ontology.ofFile (read : String → Except ReadError String) (path : String) : Except LoadError Ontology :=
  match read path with
  | .error reason => .error (.unreadable path reason)
  | .ok text => ofYamlText text

end OntologyTyping
