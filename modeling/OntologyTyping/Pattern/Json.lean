import OntologyTyping.Json.Shape
import OntologyTyping.Pattern.Text

/-!
Patterns as JSON values: `{"var": …}`, `{"conjunction": […]}` or `{"disjunction": […]}`. Type references are single
strings, with a dollar sign in front of variables; variable names have none.
-/

namespace OntologyTyping

open Json (ShapeError)

/-! ### Writing -/

def Literal.toJson : Literal → Json
  | .bool b => .bool b
  | .int i => .int i.toInt
  | .float d => .float d
  | .str s => .str s

def RolePlayer.toJson (p : RolePlayer) : Json :=
  .obj [("role", .strOrNull (p.role.map TypeRef.render)), ("player", .str p.player.text)]

def Property.toJson : Property → Json
  | .isa t => .obj [("isa", .str t.render)]
  | .sub t => .obj [("sub", .str t.render)]
  | .label l => .obj [("label", .str l.text)]
  | .plays t => .obj [("plays", .str t.render)]
  | .relates t => .obj [("relates", .str t.render)]
  | .relation players => .obj [("relation", .arr (players.map RolePlayer.toJson))]
  | .has a v => .obj [("has", .obj [("attribute", .str a.text), ("value", v.toJson)])]

def Atom.toJson (a : Atom) : Json :=
  .obj [("name", .str a.name.text), ("properties", .arr (a.properties.map Property.toJson))]

namespace Pattern

mutual

def toJson : Pattern → Json
  | .atom a => .obj [("var", a.toJson)]
  | .all parts => .obj [("conjunction", .arr (toJsonList parts))]
  | .any parts => .obj [("disjunction", .arr (toJsonList parts))]

def toJsonList : List Pattern → List Json
  | [] => []
  | p :: rest => p.toJson :: toJsonList rest

end

end Pattern

/-! ### Reading -/

def VarName.ofJson (j : Json) : Except ShapeError VarName :=
  j.asText.map VarName.ofText

def Label.ofJson (j : Json) : Except ShapeError Label :=
  j.asText.map Label.mk

def TypeRef.ofJson (j : Json) : Except ShapeError TypeRef := do
  let s ← j.asText
  match TypeRef.parse? s with
  | some t => return t
  | none => throw (.refused (TypeRef.invalidMessage s))

/-- Whether a whole number fits a literal. -/
def Literal.fitsInt (i : Int) : Bool :=
  -Int.pow 2 63 ≤ i && i < Int.pow 2 63

/-- Whole numbers of 64 bits stay whole; larger ones become the nearest floating-point number. -/
def Literal.ofJson : Json → Except ShapeError Literal
  | .bool b => .ok (.bool b)
  | .int i => .ok (if Literal.fitsInt i then .int (Int64.ofInt i) else .float (.ofInt i))
  | .float d => .ok (.float d)
  | .str s => .ok (.str s)
  | _ => .error .noLiteral

/-- A role player that is being read. -/
structure RolePlayer.Draft where
  role : Option (Option TypeRef) := none
  player : Option VarName := none

def RolePlayer.record : Json.Record RolePlayer.Draft where
  name := "RolePlayer"
  fields := [
    { name := "role", required := false, isSet := (·.role.isSome)
      read := fun d j => return { d with role := some (← j.asOptional TypeRef.ofJson) } },
    { name := "player", required := true, isSet := (·.player.isSome)
      read := fun d j => return { d with player := some (← VarName.ofJson j) } }]

def RolePlayer.ofJson (j : Json) : Except ShapeError RolePlayer := do
  let d ← RolePlayer.record.read {} j
  return ⟨d.role.getD none, d.player.getD ⟨""⟩⟩

/-- The content of a `has` property that is being read. -/
structure Property.HasDraft where
  attr : Option Label := none
  value : Option Literal := none

def Property.hasRecord : Json.Record Property.HasDraft where
  name := "has"
  fields := [
    { name := "attribute", required := true, isSet := (·.attr.isSome)
      read := fun d j => return { d with attr := some (← Label.ofJson j) } },
    { name := "value", required := true, isSet := (·.value.isSome)
      read := fun d j => return { d with value := some (← Literal.ofJson j) } }]

/-- The content of a `has` property, which is always written as an object. -/
def Property.hasOfJson : Json → Except ShapeError Property
  | .obj entries => do
    let d ← Property.hasRecord.ofEntries {} entries
    return .has (d.attr.getD ⟨""⟩) (d.value.getD (.str ""))
  | j => j.mismatch .fields

/-- The names of the properties, in the order in which errors list them. -/
def Property.names : List String :=
  ["isa", "sub", "label", "plays", "relates", "relation", "has"]

/-- The property with this name and content. -/
def Property.ofContent (name : String) (content : Json) : Except ShapeError Property :=
  match name with
  | "isa" => (TypeRef.ofJson content).map .isa
  | "sub" => (TypeRef.ofJson content).map .sub
  | "label" => (Label.ofJson content).map .label
  | "plays" => (TypeRef.ofJson content).map .plays
  | "relates" => (TypeRef.ofJson content).map .relates
  | "relation" => (content.asList RolePlayer.ofJson).map .relation
  | "has" => Property.hasOfJson content
  | _ => .error (.unknownVariant name Property.names)

def Property.ofJson : Json → Except ShapeError Property
  | .obj [(name, content)] => Property.ofContent name content
  | .obj _ => .error .notSingleKey
  | .str name =>
    if !Property.names.contains name then .error (.unknownVariant name Property.names)
    else .error (.wrongType .bareChoice (if name = "has" then .fields else .content))
  | j => j.mismatch .choice

/-- An atom that is being read. -/
structure Atom.Draft where
  name : Option VarName := none
  properties : Option (List Property) := none

def Atom.record : Json.Record Atom.Draft where
  name := "VarPattern"
  fields := [
    { name := "name", required := true, isSet := (·.name.isSome)
      read := fun d j => return { d with name := some (← VarName.ofJson j) } },
    { name := "properties", required := false, isSet := (·.properties.isSome)
      read := fun d j => return { d with properties := some (← j.asList Property.ofJson) } }]

def Atom.ofJson (j : Json) : Except ShapeError Atom := do
  let d ← Atom.record.read {} j
  return ⟨d.name.getD ⟨""⟩, d.properties.getD []⟩

namespace Pattern

/-- The names of the forms of a pattern, in the order in which errors list them. -/
def formNames : List String :=
  ["var", "conjunction", "disjunction"]

mutual

def ofJson : Json → Except ShapeError Pattern
  | .obj [("var", j)] => (Atom.ofJson j).map .atom
  | .obj [("conjunction", .arr items)] => (ofJsonList items).map .all
  | .obj [("disjunction", .arr items)] => (ofJsonList items).map .any
  | .obj [(name, j)] =>
    if name = "conjunction" ∨ name = "disjunction" then j.mismatch .sequence
    else .error (.unknownVariant name formNames)
  | .obj _ => .error .notSingleKey
  | .str name =>
    if formNames.contains name then .error (.wrongType .bareChoice .content)
    else .error (.unknownVariant name formNames)
  | j => j.mismatch .choice

def ofJsonList : List Json → Except ShapeError (List Pattern)
  | [] => .ok []
  | j :: rest => do
    let p ← ofJson j
    let ps ← ofJsonList rest
    return p :: ps

end

end Pattern

end OntologyTyping
