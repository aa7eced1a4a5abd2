import OntologyTyping.Pattern.Basic
import OntologyTyping.Text.Quoted
import OntologyTyping.Decimal.Layout

/-!
Patterns as query text: `$r (actor: $y, $a: $x) isa cast;`, conjunctions in braces, disjunctions joined by `or`.
-/

namespace OntologyTyping

/-- A variable in text, with its dollar sign. -/
def VarName.render (v : VarName) : String :=
  "$" ++ v.text

def TypeRef.render : TypeRef → String
  | .label l => l.text
  | .var v => v.render

def Literal.render : Literal → String
  | .bool true => "true"
  | .bool false => "false"
  | .int i => toString i.toInt
  | .float d => Decimal.Layout.text.write d
  | .str s => Text.quote s

def RolePlayer.render (p : RolePlayer) : String :=
  match p.role with
  | some role => role.render ++ ": " ++ p.player.render
  | none => p.player.render

namespace Property

def render : Property → String
  | .isa t => "isa " ++ t.render
  | .sub t => "sub " ++ t.render
  | .label l => "label " ++ l.text
  | .plays t => "plays " ++ t.render
  | .relates t => "relates " ++ t.render
  | .relation players => "(" ++ ", ".intercalate (players.map RolePlayer.render) ++ ")"
  | .has a v => "has " ++ a.text ++ " " ++ v.render

def isRelation : Property → Bool
  | .relation _ => true
  | _ => false

end Property

/-- The variable, then its relations, then its other properties with commas between them. -/
def Atom.render (a : Atom) : String :=
  let (relations, others) := a.properties.partition Property.isRelation
  let tail := if others.isEmpty then "" else " " ++ ", ".intercalate (others.map Property.render)
  a.name.render ++ String.join (relations.map (" " ++ ·.render)) ++ tail

/-- A list of atoms as a conjunction. -/
def renderAtoms (atoms : List Atom) : String :=
  "\x7b" ++ String.join (atoms.map fun a => " " ++ a.render ++ ";") ++ " \x7d"

namespace Pattern

mutual

/-- The text of a pattern; what is not a conjunction ends with a semicolon. -/
def render : Pattern → String
  | .atom a => a.render ++ ";"
  | .all parts => "\x7b" ++ renderParts parts ++ " \x7d"
  | .any parts => renderChoices parts ++ ";"

def renderParts : List Pattern → String
  | [] => ""
  | p :: rest => " " ++ render p ++ renderParts rest

def renderChoices : List Pattern → String
  | [] => ""
  | [p] => renderChoice p
  | p :: rest => renderChoice p ++ " or " ++ renderChoices rest

/-- One side of a disjunction, in braces. -/
def renderChoice : Pattern → String
  | .all parts => "\x7b" ++ renderParts parts ++ " \x7d"
  | .atom a => "\x7b " ++ a.render ++ "; \x7d"
  | .any parts => "\x7b " ++ renderChoices parts ++ "; \x7d"

end

end Pattern

end OntologyTyping
