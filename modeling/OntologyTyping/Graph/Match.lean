import OntologyTyping.Graph.Basic
import OntologyTyping.Pattern.Branch

/-!
Matching patterns against a graph.

A variable stands for an instance or for a concept of the ontology. An answer of a branch gives a value to every
variable of the branch so that all its properties hold; the answers of a pattern are those of its branches.
-/

namespace OntologyTyping

/-- Values of the variables of a branch. -/
abbrev Answer := Assignment Value

namespace Graph

/-- The concept that a type reference denotes; a variable must stand for one. -/
def conceptUnder (b : Answer) : TypeRef → Option Label
  | .label l => some l
  | .var v =>
    match b.lookup v with
    | some (.concept l) => some l
    | _ => none

/-- Whether a casting can fill a slot: the same player, in the role that the slot names or one below it. -/
def fits (g : Graph) (b : Answer) (slot : RolePlayer) (c : Casting) : Bool :=
  b.lookup slot.player == some (.individual c.player) &&
    (match slot.role with
      | none => true
      | some t => (conceptUnder b t).any (g.ontology.isSubtype c.role))

/-- Whether the slots can be filled by distinct castings that are not marked as used. The marks are changed during
the search and put back at its end. -/
def fill (g : Graph) (b : Answer) (castings : List Casting) : List RolePlayer → StateM (List Bool) Bool
  | [] => return true
  | slot :: rest =>
    castings.zipIdx.anyM fun (c, i) => do
      if (← get).getD i true || !g.fits b slot c then return false
      modify (·.set i true)
      let filled ← g.fill b castings rest
      modify (·.set i false)
      return filled

/-- Whether an instance fills the slots. -/
def fillsSlots (g : Graph) (b : Answer) (i : Instance) (slots : List RolePlayer) : Bool :=
  (g.fill b i.castings slots (i.castings.map fun _ => false)).1

/-- Whether a value has a property. -/
def hasProperty (g : Graph) (b : Answer) : Value → Property → Bool
  | .individual id, .isa t =>
    (g.instance? id).any fun i => (conceptUnder b t).any (g.ontology.isSubtype i.type)
  | .individual id, .has a v => (g.instance? id).any fun i => i.attributes.any fun e => e.1 == a && e.2.sameValue v
  | .individual id, .relation slots => (g.instance? id).any fun i => g.fillsSlots b i slots
  | .concept l, .label expected => l == expected
  | .concept l, .sub t => (conceptUnder b t).any (g.ontology.isSubtype l)
  | .concept l, .plays t => (conceptUnder b t).any (g.ontology.plays l)
  | .concept l, .relates t => (conceptUnder b t).any (g.ontology.relates l)
  | _, _ => false

/-- Whether a statement holds. -/
def holds (g : Graph) (b : Answer) (s : Statement) : Bool :=
  (b.lookup s.1).any fun value => g.hasProperty b value s.2

end Graph

/-! ### What a variable can stand for -/

/-- Whether a property of `subject` asks `v` to be an instance. -/
def Property.wantsInstance (v subject : VarName) : Property → Bool
  | .isa _ | .has _ _ => subject == v
  | .relation players => subject == v || players.any (·.player == v)
  | .label _ | .sub _ | .plays _ | .relates _ => false

/-- Whether a property of `subject` asks `v` to be a concept. -/
def Property.wantsConcept (v subject : VarName) : Property → Bool
  | .isa t => t.var? == some v
  | .relation players => players.any fun p => p.role.bind TypeRef.var? == some v
  | .label _ => subject == v
  | .sub t | .plays t | .relates t => subject == v || t.var? == some v
  | .has _ _ => false

namespace Graph

def individuals (g : Graph) : List Value :=
  g.instances.map fun e => .individual e.1

def concepts (g : Graph) : List Value :=
  g.ontology.concepts.map fun c => .concept c.label

/-- The values to try for a variable: only instances or only concepts where all its properties ask for them. -/
def domain (g : Graph) (branch : Branch) (v : VarName) : List Value :=
  let asksInstance := (statements branch).any fun s => s.2.wantsInstance v s.1
  let asksConcept := (statements branch).any fun s => s.2.wantsConcept v s.1
  match asksInstance, asksConcept with
  | true, false => g.individuals
  | false, true => g.concepts
  | _, _ => g.individuals ++ g.concepts

/-- The answers of a branch, as the search finds them. -/
def matchBranch (g : Graph) (b : Branch) : List Answer :=
  Search.solve (varsOf b) (g.domain b) statementVars (statements b) g.holds

/-- The answers of a pattern in increasing order, each once. -/
def answers (g : Graph) (p : Pattern) : List Answer :=
  Ordered.sortDistinct Ordered.compareTables (p.branches.flatMap g.matchBranch)

end Graph

end OntologyTyping
