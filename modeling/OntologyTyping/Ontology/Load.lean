import OntologyTyping.Files
import OntologyTyping.Ontology.Basic

/-!
From the definition of an ontology to the ontology.

A definition lists entity, relation, attribute and role types. A role that some relation relates need not be
declared. A definition is refused when a label is declared twice, a supertype is unknown or of another kind, a
played or related role is unknown or no role, or the supertypes run in a circle.
-/

namespace OntologyTyping

/-- The declaration of an entity or attribute type. -/
structure TypeDecl where
  label : Label
  parent : Option Label
  plays : List Label
deriving DecidableEq, Inhabited

/-- The declaration of a relation type. -/
structure RelationDecl where
  label : Label
  parent : Option Label
  relates : List Label
  plays : List Label
deriving DecidableEq, Inhabited

/-- The declaration of a role type. -/
structure RoleDecl where
  label : Label
  parent : Option Label
deriving DecidableEq, Inhabited

/-- The types that an ontology declares, by kind. -/
structure Declarations where
  entities : List TypeDecl
  relations : List RelationDecl
  attributes : List TypeDecl
  roles : List RoleDecl
deriving DecidableEq, Inhabited

/-- The definition of an ontology. -/
structure Definition where
  name : Option String
  declarations : Declarations
deriving DecidableEq, Inhabited

/-- Why an ontology cannot be loaded. -/
inductive LoadError where
  | unreadable (path : String) (reason : ReadError)
  | unparsable (reason : String)
  | duplicateLabel (label : Label)
  | unknownSupertype (label parent : Label)
  | kindMismatch (label parent : Label)
  | cyclic (label : Label)
  | unknownRole (owner role : Label)
  | notARole (owner label : Label)
deriving DecidableEq

def LoadError.message : LoadError → String
  | .unreadable path reason => "Failed to read configuration file: '" ++ path ++ "': " ++ reason.message
  | .unparsable reason => "Failed to parse configuration: " ++ reason
  | .duplicateLabel l => "Label `" ++ l.text ++ "` is declared more than once"
  | .unknownSupertype l p => "`" ++ l.text ++ "` is declared as a subtype of unknown type `" ++ p.text ++ "`"
  | .kindMismatch l p =>
    "`" ++ l.text ++ "` cannot be a subtype of `" ++ p.text ++ "`: they are different kinds of concept"
  | .cyclic l => "Cyclic type hierarchy through `" ++ l.text ++ "`"
  | .unknownRole o r => "`" ++ o.text ++ "` refers to undeclared role `" ++ r.text ++ "`"
  | .notARole o l =>
    "`" ++ o.text ++ "` refers to `" ++ l.text ++ "` as a role, but it is declared as another kind of type"

namespace Declarations

def ofTypeDecl (kind : Kind) (d : TypeDecl) : Concept :=
  ⟨d.label, kind, d.parent, d.plays, []⟩

def ofRelationDecl (d : RelationDecl) : Concept :=
  ⟨d.label, .relation, d.parent, d.plays, d.relates⟩

def ofRoleDecl (d : RoleDecl) : Concept :=
  ⟨d.label, .role, d.parent, [], []⟩

/-- The declared concepts in the order in which they are entered. -/
def declared (d : Declarations) : List Concept :=
  d.entities.map (ofTypeDecl .entity) ++ d.attributes.map (ofTypeDecl .attr) ++ d.relations.map ofRelationDecl ++
    d.roles.map ofRoleDecl

/-- The roles that relations relate, in order. -/
def relatedRoles (d : Declarations) : List Label :=
  d.relations.flatMap RelationDecl.relates

end Declarations

/-- Enters a concept among others in increasing order of labels. -/
def enterConcept (c : Concept) : List Concept → List Concept
  | [] => [c]
  | d :: rest => if compare c.label d.label = .lt then c :: d :: rest else d :: enterConcept c rest

/-- Enters the declared concepts one after the other. -/
def enterDeclared : List Concept → List Concept → Except LoadError (List Concept)
  | entered, [] => .ok entered
  | entered, c :: rest =>
    if entered.any (·.label == c.label) then .error (.duplicateLabel c.label)
    else enterDeclared (enterConcept c entered) rest

/-- Enters a role without a declaration of its own for each label that is not there. -/
def enterRoles (entered : List Concept) (roles : List Label) : List Concept :=
  roles.foldl (fun cs r => if cs.any (·.label == r) then cs else enterConcept ⟨r, .role, none, [], []⟩ cs) entered

namespace Ontology

/-- The supertype of a concept is declared and of the same kind. -/
def checkParent (o : Ontology) (c : Concept) : Except LoadError Unit :=
  match c.parent with
  | none => .ok ()
  | some p =>
    match o.concept? p with
    | none => .error (.unknownSupertype c.label p)
    | some d => if d.kind = c.kind then .ok () else .error (.kindMismatch c.label p)

/-- A label that a concept plays or relates is a role. -/
def checkRole (o : Ontology) (owner role : Label) : Except LoadError Unit :=
  match o.concept? role with
  | none => .error (.unknownRole owner role)
  | some d => if d.kind = .role then .ok () else .error (.notARole owner role)

def checkConcept (o : Ontology) (c : Concept) : Except LoadError Unit := do
  o.checkParent c
  (c.plays ++ c.relates).forM (o.checkRole c.label)

/-- Whether the walk up from a label, in at most `steps` steps, meets a label again. -/
def revisits (o : Ontology) : (steps : Nat) → (seen : List Label) → Label → Bool
  | 0, _, _ => false
  | steps + 1, seen, l =>
    seen.contains l || (match (o.concept? l).bind Concept.parent with
      | none => false
      | some p => o.revisits steps (l :: seen) p)

/-- Whether the supertypes of a label run in a circle. Among distinct labels the walk is shorter than the bound. -/
def isCyclic (o : Ontology) (l : Label) : Bool :=
  o.revisits (o.concepts.length + 1) [] l

def checkCycle (o : Ontology) (c : Concept) : Except LoadError Unit :=
  if o.isCyclic c.label then .error (.cyclic c.label) else .ok ()

/-- All the checks, in the order in which errors are reported. -/
def check (o : Ontology) : Except LoadError Unit := do
  o.concepts.forM o.checkConcept
  o.concepts.forM o.checkCycle

end Ontology

/-- The ontology that a definition describes. -/
def Definition.load (d : Definition) : Except LoadError Ontology := do
  let entered ← enterDeclared [] d.declarations.declared
  let o : Ontology := ⟨d.name, enterRoles entered d.declarations.relatedRoles⟩
  o.check
  return o

end OntologyTyping
