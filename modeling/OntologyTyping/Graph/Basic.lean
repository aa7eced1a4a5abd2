import OntologyTyping.Ontology.Basic
import OntologyTyping.Search

/-!
Graphs of instances over an ontology. An instance has a type and, as the case may be, attributes or castings: who
fills which role of a relation.
-/

namespace OntologyTyping

/-- One filled role of a relation. -/
structure Casting where
  role : Label
  /-- The instance that fills the role. -/
  player : String
deriving DecidableEq, Inhabited

/-- An instance. -/
structure Instance where
  type : Label
  attributes : List (Label × Literal)
  castings : List Casting
deriving DecidableEq, Inhabited

/-- Instances under their names, in increasing order of names, over an ontology. -/
structure Graph where
  ontology : Ontology
  instances : List (String × Instance)
deriving Inhabited

namespace Graph

/-- The graph without instances. -/
def empty (o : Ontology) : Graph :=
  ⟨o, []⟩

/-- Adds an instance, in place of one with the same name. -/
def add (g : Graph) (id : String) (i : Instance) : Graph :=
  { g with instances := Ordered.put id i g.instances }

/-- The instance with this name. -/
def instance? (g : Graph) (id : String) : Option Instance :=
  g.instances.lookup id

end Graph

/-- What a variable of a pattern can stand for. -/
inductive Value where
  | individual (id : String)
  | concept (l : Label)
deriving DecidableEq, Inhabited

/-- Instances come before concepts. -/
def Value.compare : Value → Value → Ordering
  | .individual a, .individual b => Ord.compare a b
  | .individual _, .concept _ => .lt
  | .concept _, .individual _ => .gt
  | .concept a, .concept b => Ord.compare a b

instance : Ord Value := ⟨Value.compare⟩

end OntologyTyping
