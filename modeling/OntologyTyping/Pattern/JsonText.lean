import OntologyTyping.Json.Typed
import OntologyTyping.Pattern.Json

/-!
Patterns straight from JSON text.
-/

namespace OntologyTyping

open Json (Decode Scanner)

def VarName.decode : Decode VarName := fun depth =>
  VarName.ofText <$> Decode.text depth

def Label.decode : Decode Label := fun depth =>
  Label.mk <$> Decode.text depth

def TypeRef.decode : Decode TypeRef := fun depth => do
  let s ← Decode.text depth
  match TypeRef.parse? s with
  | some t => return t
  | none => Scanner.refuse (.refused (TypeRef.invalidMessage s))

/-- A literal. The value is read to its end before it is refused. -/
def Literal.decode : Decode Literal := fun depth => do
  match Literal.ofJson (← Scanner.value depth) with
  | .ok v => return v
  | .error e => Scanner.refuse e

def RolePlayer.fields : Decode.Record RolePlayer.Draft where
  name := "RolePlayer"
  fields := [
    { name := "role", required := false, isSet := (·.role.isSome)
      read := fun d depth => return { d with role := some (← Decode.optional TypeRef.decode depth) } },
    { name := "player", required := true, isSet := (·.player.isSome)
      read := fun d depth => return { d with player := some (← VarName.decode depth) } }]

def RolePlayer.decode : Decode RolePlayer := fun depth => do
  let d ← RolePlayer.fields.decode {} depth
  return ⟨d.role.getD none, d.player.getD ⟨""⟩⟩

def Property.hasFields : Decode.Record Property.HasDraft where
  name := "variant Property::Has"
  fields := [
    { name := "attribute", required := true, isSet := (·.attr.isSome)
      read := fun d depth => return { d with attr := some (← Label.decode depth) } },
    { name := "value", required := true, isSet := (·.value.isSome)
      read := fun d depth => return { d with value := some (← Literal.decode depth) } }]

/-- The content of a `has` property. -/
def Property.decodeHas : Decode Property := fun depth => do
  let d ← Property.hasFields.decode {} depth
  return .has (d.attr.getD ⟨""⟩) (d.value.getD (.str ""))

/-- The property with this name, of which there is a known one. -/
def Property.decodeContent (name : String) : Decode Property := fun depth =>
  match name with
  | "isa" => .isa <$> TypeRef.decode depth
  | "sub" => .sub <$> TypeRef.decode depth
  | "label" => .label <$> Label.decode depth
  | "plays" => .plays <$> TypeRef.decode depth
  | "relates" => .relates <$> TypeRef.decode depth
  | "relation" => .relation <$> Decode.list RolePlayer.decode depth
  | _ => Property.decodeHas depth

def Property.decode : Decode Property :=
  Decode.choice Property.names (fun name => if name = "has" then .fields else .content) Property.decodeContent

def Atom.fields : Decode.Record Atom.Draft where
  name := "VarPattern"
  fields := [
    { name := "name", required := true, isSet := (·.name.isSome)
      read := fun d depth => return { d with name := some (← VarName.decode depth) } },
    { name := "properties", required := false, isSet := (·.properties.isSome)
      read := fun d depth => return { d with properties := some (← Decode.list Property.decode depth) } }]

def Atom.decode : Decode Atom := fun depth => do
  let d ← Atom.fields.decode {} depth
  return ⟨d.name.getD ⟨""⟩, d.properties.getD []⟩

namespace Pattern

/-- A pattern whose parts `part` reads. -/
def decodeForm (part : Scanner Pattern) : Decode Pattern :=
  Decode.choice formNames (fun _ => .content) fun name depth =>
    match name with
    | "var" => .atom <$> Atom.decode depth
    | "conjunction" => .all <$> Decode.listOf (fun _ => part) depth
    | _ => .any <$> Decode.listOf (fun _ => part) depth

/-- A pattern. Its parts stand in a list inside an object, so they have two levels less. -/
def decode : Decode Pattern
  | 0 => decodeForm (Scanner.failAhead .tooDeep) 0
  | 1 => decodeForm (Scanner.failAhead .tooDeep) 1
  | depth + 2 => decodeForm (decode depth) (depth + 2)

/-- The pattern that a JSON text holds. -/
def parseJson (text : String) : Except Json.ParseError Pattern :=
  Json.decodeText decode text

end Pattern

end OntologyTyping
