import OntologyTyping.Ontology.Basic
import OntologyTyping.Pattern.Text
import OntologyTyping.Search

/-!
Solving queries over the concepts of an ontology.

A query is a conjunction of atoms whose variables stand for concepts. Its answers are the bindings of all its
variables that satisfy every `label`, `sub`, `plays` and `relates` property, in increasing order and each once.
-/

namespace OntologyTyping

/-- A query over the concepts of an ontology. -/
abbrev Query := List Atom

/-- A concept as an answer names it. -/
structure ConceptName where
  label : Label
  kind : Kind
deriving DecidableEq, Inhabited

instance : Ord ConceptName := ⟨fun a b => (compare a.label b.label).then (compare a.kind b.kind)⟩

def Concept.name (c : Concept) : ConceptName :=
  ⟨c.label, c.kind⟩

/-- An answer to a query. -/
abbrev Binding := Assignment ConceptName

/-- Why a query has no answer list. -/
inductive QueryError where
  /-- The property speaks of instances. -/
  | unsupported (var : VarName) (property : Property)
  /-- The store that should answer failed, in its own words. -/
  | backend (reason : String)
deriving DecidableEq

def QueryError.message : QueryError → String
  | .unsupported v p => "`" ++ p.render ++ "` on " ++ v.render ++ " is not a schema-level constraint"
  | .backend reason => "Schema store failure: " ++ reason

namespace Property

/-- Whether the property speaks of concepts. -/
def isSchemaLevel : Property → Bool
  | .label _ | .sub _ | .plays _ | .relates _ => true
  | .isa _ | .relation _ | .has _ _ => false

/-- The label that the property fixes. -/
def exactLabel? : Property → Option Label
  | .label l => some l
  | _ => none

/-- The label below which the property places its variable. -/
def upperLabel? : Property → Option Label
  | .sub (.label l) => some l
  | _ => none

end Property

namespace Ontology

/-- The label that a type reference denotes under a binding. -/
def labelUnder (b : Binding) : TypeRef → Option Label
  | .label l => some l
  | .var v => (b.lookup v).map ConceptName.label

/-- Whether a concept has a property under a binding. -/
def hasProperty (o : Ontology) (b : Binding) (l : Label) : Property → Bool
  | .label expected => l == expected
  | .sub t => (labelUnder b t).any (o.isSubtype l)
  | .plays t => (labelUnder b t).any (o.plays l)
  | .relates t => (labelUnder b t).any (o.relates l)
  | .isa _ | .relation _ | .has _ _ => false

/-- Whether a statement holds under a binding. -/
def holds (o : Ontology) (b : Binding) (s : Statement) : Bool :=
  (b.lookup s.1).any fun c => o.hasProperty b c.label s.2

/-- The first label that the statements of a variable give under a reading of properties. -/
def firstLabel? (read : Property → Option Label) (ss : List Statement) (v : VarName) : Option Label :=
  ss.findSome? fun s => if s.1 = v then read s.2 else none

/-- The concepts to try for a variable: only the one with its label where a label is fixed, only those below a label
where the variable is placed there. -/
def domain (o : Ontology) (ss : List Statement) (v : VarName) : List Concept :=
  match firstLabel? Property.exactLabel? ss v, firstLabel? Property.upperLabel? ss v with
  | some l, _ => (o.concept? l).toList
  | none, some l => o.concepts.filter fun c => o.isSubtype c.label l
  | none, none => o.concepts

/-- The bindings that satisfy a query, as the search finds them. -/
def solutions (o : Ontology) (q : Query) : List Binding :=
  Search.solve (varsOf q) (fun v => (o.domain (statements q) v).map Concept.name) statementVars (statements q) o.holds

/-- The answers to a query; a property that speaks of instances is an error. -/
def solve (o : Ontology) (q : Query) : Except QueryError (List Binding) :=
  match (statements q).find? fun s => !s.2.isSchemaLevel with
  | some (v, p) => .error (.unsupported v p)
  | none => .ok (Ordered.sortDistinct Ordered.compareTables (o.solutions q))

end Ontology

end OntologyTyping
