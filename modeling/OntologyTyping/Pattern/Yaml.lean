import OntologyTyping.Pattern.Json
import OntologyTyping.Yaml.Shape
import OntologyTyping.Yaml.Writer

/-!
Patterns as YAML nodes: tags name the forms of patterns and properties.
-/

namespace OntologyTyping

open Yaml (Node Decode Decoder)

/-! ### Writing -/

def Literal.toYaml : Literal → Node
  | .bool b => .ofBool b
  | .int i => .ofInt i.toInt
  | .float d => .ofDouble d
  | .str s => .ofText s

/-- A mapping whose keys are the given names. -/
def yamlRecord (fields : List (String × Node)) : Node :=
  .mapping none (fields.map fun (name, n) => (.ofText name, n))

def RolePlayer.toYaml (p : RolePlayer) : Node :=
  yamlRecord [("role", p.role.elim .null fun t => .ofText t.render), ("player", .ofText p.player.text)]

def Property.toYaml : Property → Node
  | .isa t => (Node.ofText t.render).tagged "isa"
  | .sub t => (Node.ofText t.render).tagged "sub"
  | .label l => (Node.ofText l.text).tagged "label"
  | .plays t => (Node.ofText t.render).tagged "plays"
  | .relates t => (Node.ofText t.render).tagged "relates"
  | .relation players => .sequence (some (.named "relation")) (players.map RolePlayer.toYaml)
  | .has a v => (yamlRecord [("attribute", .ofText a.text), ("value", v.toYaml)]).tagged "has"

def Atom.toYaml (a : Atom) : Node :=
  yamlRecord [("name", .ofText a.name.text), ("properties", .sequence none (a.properties.map Property.toYaml))]

namespace Pattern

mutual

def toYaml : Pattern → Node
  | .atom a => a.toYaml.tagged "var"
  | .all parts => .sequence (some (.named "conjunction")) (toYamlList parts)
  | .any parts => .sequence (some (.named "disjunction")) (toYamlList parts)

def toYamlList : List Pattern → List Node
  | [] => []
  | p :: rest => p.toYaml :: toYamlList rest

end

end Pattern

/-! ### Reading -/

def VarName.ofYaml : Decode VarName := fun depth n =>
  VarName.ofText <$> Decode.text depth n

def Label.ofYaml : Decode Label := fun depth n =>
  Label.mk <$> Decode.text depth n

def TypeRef.ofYaml : Decode TypeRef := fun depth n => do
  match TypeRef.parse? (← Decode.text depth n) with
  | some t => return t
  | none => failure

/-- A whole number beyond 64 bits is none, unless it still fits without a sign. -/
def Literal.ofYamlInt? (i : Int) : Option Literal :=
  if fitsInt i then some (.int (Int64.ofInt i))
  else if 0 ≤ i && i < Int.pow 2 64 then some (.float (.ofInt i))
  else none

def Literal.ofYamlValue? : Yaml.Value → Option Literal
  | .null => none
  | .bool b => some (.bool b)
  | .int i => Literal.ofYamlInt? i
  | .float d => some (.float d)
  | .text s => some (.str s)

/-- A scalar without a tag: quoted ones are texts, and plain ones are what they stand for. -/
def Literal.ofUntagged? (s : Yaml.Scalar) : Option Literal :=
  if s.style = .plain then Literal.ofYamlValue? (Yaml.valueOf s.text) else some (.str s.text)

/-- A scalar. A tag of the standard says what it stands for, and a local tag that has a name is refused. -/
def Literal.ofScalar? (s : Yaml.Scalar) : Option Literal :=
  match s.tag with
  | none => ofUntagged? s
  | some tag =>
    if tag.name?.isSome || tag = .standard "null" then none
    else if tag.isLocal then ofUntagged? s
    else if tag = .standard "bool" then (Yaml.bool? s.text).map .bool
    else if tag = .standard "int" then (Yaml.int? s.text.toList).bind Literal.ofYamlInt?
    else if tag = .standard "float" then (Yaml.float? s.text).map .float
    else some (.str s.text)

def Literal.ofYaml : Decode Literal :=
  Decode.ofNode fun
    | .scalar s => Literal.ofScalar? s
    | _ => none

def RolePlayer.ofYaml : Decode RolePlayer :=
  Decode.record ["role", "player"] fun fields => do
    return ⟨← fields.getD "role" (Decode.optional TypeRef.ofYaml) none, ← fields.get "player" VarName.ofYaml⟩

def Property.hasOfYaml : Decode Property :=
  Decode.record ["attribute", "value"] fun fields => do
    return .has (← fields.get "attribute" Label.ofYaml) (← fields.get "value" Literal.ofYaml)

def Property.ofYaml : Decode Property := fun depth n => do
  let n ← n.resolve
  match n.localTag? with
  | some "isa" => return .isa (← TypeRef.ofYaml depth n)
  | some "sub" => return .sub (← TypeRef.ofYaml depth n)
  | some "label" => return .label (← Label.ofYaml depth n)
  | some "plays" => return .plays (← TypeRef.ofYaml depth n)
  | some "relates" => return .relates (← TypeRef.ofYaml depth n)
  | some "relation" => return .relation (← Decode.list RolePlayer.ofYaml depth n)
  | some "has" => Property.hasOfYaml depth n
  | _ => failure

def Atom.ofYaml : Decode Atom :=
  Decode.record ["name", "properties"] fun fields => do
    return ⟨← fields.get "name" VarName.ofYaml, ← fields.getD "properties" (Decode.list Property.ofYaml) []⟩

namespace Pattern

/-- A pattern whose parts `parts` reads. -/
def ofForm (parts : List Node → Decoder (List Pattern)) : Decode Pattern := fun depth n => do
  let n ← n.resolve
  match n.localTag? with
  | some "var" => return .atom (← Atom.ofYaml depth n)
  | some "conjunction" => return .all (← Decode.items parts n)
  | some "disjunction" => return .any (← Decode.items parts n)
  | _ => failure

def ofYaml : Decode Pattern
  | 0 => ofForm (fun _ => failure) 0
  | depth + 1 => ofForm (fun ns => ns.mapM (ofYaml depth)) (depth + 1)

/-- The pattern that a YAML text holds. -/
def parseYaml? (text : String) : Option Pattern := do
  ← (← Yaml.document? text).decode? ofYaml

/-- The YAML text of a pattern. -/
def renderYaml (p : Pattern) : String :=
  p.toYaml.render

end Pattern

end OntologyTyping
