import OntologyTyping.Ontology.Load
import OntologyTyping.Pattern.Json

/-!
Definitions of ontologies as JSON values.
-/

namespace OntologyTyping

open Json (ShapeError)

/-- A list of labels. -/
def labelsOfJson (j : Json) : Except ShapeError (List Label) :=
  j.asList Label.ofJson

/-- A declaration that is being read. -/
structure Declarations.Draft where
  label : Option Label := none
  parent : Option (Option Label) := none
  plays : Option (List Label) := none
  relates : Option (List Label) := none

namespace Declarations

def labelField : Json.Field Draft where
  name := "label"
  required := true
  isSet := (·.label.isSome)
  read := fun d j => return { d with label := some (← Label.ofJson j) }

def parentField : Json.Field Draft where
  name := "sub"
  required := false
  isSet := (·.parent.isSome)
  read := fun d j => return { d with parent := some (← j.asOptional Label.ofJson) }

def playsField : Json.Field Draft where
  name := "plays"
  required := false
  isSet := (·.plays.isSome)
  read := fun d j => return { d with plays := some (← labelsOfJson j) }

def relatesField : Json.Field Draft where
  name := "relates"
  required := false
  isSet := (·.relates.isSome)
  read := fun d j => return { d with relates := some (← labelsOfJson j) }

end Declarations

open Declarations (Draft labelField parentField playsField relatesField)

def TypeDecl.ofJson (j : Json) : Except ShapeError TypeDecl := do
  let record : Json.Record Draft := ⟨"TypeDefinition", [labelField, parentField, playsField]⟩
  let d ← record.read {} j
  return ⟨d.label.getD ⟨""⟩, d.parent.getD none, d.plays.getD []⟩

def RelationDecl.ofJson (j : Json) : Except ShapeError RelationDecl := do
  let record : Json.Record Draft := ⟨"RelationDefinition", [labelField, parentField, relatesField, playsField]⟩
  let d ← record.read {} j
  return ⟨d.label.getD ⟨""⟩, d.parent.getD none, d.relates.getD [], d.plays.getD []⟩

def RoleDecl.ofJson (j : Json) : Except ShapeError RoleDecl := do
  let record : Json.Record Draft := ⟨"RoleDefinition", [labelField, parentField]⟩
  let d ← record.read {} j
  return ⟨d.label.getD ⟨""⟩, d.parent.getD none⟩

/-- The lists of declarations that are being read. -/
structure Declarations.Lists where
  entities : Option (List TypeDecl) := none
  relations : Option (List RelationDecl) := none
  attributes : Option (List TypeDecl) := none
  roles : Option (List RoleDecl) := none

def Declarations.record : Json.Record Declarations.Lists where
  name := "OntologyDefinition"
  fields := [
    { name := "entities", required := false, isSet := (·.entities.isSome)
      read := fun d j => return { d with entities := some (← j.asList TypeDecl.ofJson) } },
    { name := "relations", required := false, isSet := (·.relations.isSome)
      read := fun d j => return { d with relations := some (← j.asList RelationDecl.ofJson) } },
    { name := "attributes", required := false, isSet := (·.attributes.isSome)
      read := fun d j => return { d with attributes := some (← j.asList TypeDecl.ofJson) } },
    { name := "roles", required := false, isSet := (·.roles.isSome)
      read := fun d j => return { d with roles := some (← j.asList RoleDecl.ofJson) } }]

def Declarations.ofJson (j : Json) : Except ShapeError Declarations := do
  let d ← Declarations.record.read {} j
  return ⟨d.entities.getD [], d.relations.getD [], d.attributes.getD [], d.roles.getD []⟩

/-- A definition that is being read. -/
structure Definition.Draft where
  name : Option (Option String) := none
  declarations : Option Declarations := none

def Definition.record : Json.Record Definition.Draft where
  name := "OntologySchemaConfig"
  fields := [
    { name := "name", required := false, isSet := (·.name.isSome)
      read := fun d j => return { d with name := some (← j.asOptional Json.asText) } },
    { name := "ontology", required := true, isSet := (·.declarations.isSome)
      read := fun d j => return { d with declarations := some (← Declarations.ofJson j) } }]

def Definition.ofJson (j : Json) : Except ShapeError Definition := do
  let d ← Definition.record.read {} j
  return ⟨d.name.getD none, d.declarations.getD ⟨[], [], [], []⟩⟩

/-- The kind with this name. -/
def Kind.ofJson (j : Json) : Except ShapeError Kind := do
  let name ← j.asName (Kind.all.map Kind.name)
  return (Kind.all.find? (·.name == name)).getD .entity

def labelsJson (labels : List Label) : Json :=
  .strs (labels.map Label.text)

/-- A concept with its direct declarations. -/
def Concept.toJson (c : Concept) : Json :=
  .obj [("label", .str c.label.text), ("kind", .str c.kind.name), ("sup", .strOrNull (c.parent.map Label.text)),
    ("plays", labelsJson c.plays), ("relates", labelsJson c.relates)]

end OntologyTyping
