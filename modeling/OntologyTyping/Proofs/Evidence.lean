import OntologyTyping.Proofs.Clues
import OntologyTyping.Proofs.QueryAssembly

/-!
The query of a branch asks for what its clues say.

Merging evidence and grouping atoms by variable lose nothing and add nothing: a choice of concepts is a model of the
query exactly when it satisfies every clue.
-/

namespace OntologyTyping

namespace Evidence

/-! ### Merged evidence -/

theorem mem_foldl_merge {sel : Evidence → List VarName} {v : VarName}
    (hsel : ∀ a b, v ∈ sel (merge a b) ↔ v ∈ sel a ∨ v ∈ sel b) {parts : List Evidence} {e : Evidence} :
    v ∈ sel (parts.foldl merge e) ↔ v ∈ sel e ∨ ∃ p ∈ parts, v ∈ sel p := by
  induction parts generalizing e with
  | nil => simp
  | cons p rest ih =>
    rw [List.foldl_cons, ih, hsel]
    simp only [List.mem_cons, exists_eq_or_imp]
    tauto

theorem atoms_foldl_merge {parts : List Evidence} {e : Evidence} :
    (parts.foldl merge e).atoms = e.atoms ++ parts.flatMap Evidence.atoms := by
  induction parts generalizing e with
  | nil => simp
  | cons p rest ih =>
    rw [List.foldl_cons, ih]
    simp [merge]

theorem atoms_ofClues {cs : List Clue} : (ofClues cs).atoms = cs.flatMap fun c => (ofClue c).atoms := by
  simp only [ofClues, mergeAll, atoms_foldl_merge, empty, List.nil_append, List.flatMap_map]

theorem mem_known_iff {cs : List Clue} {v : VarName} :
    v ∈ (ofClues cs).known ↔ (∃ l, .isa v l ∈ cs) ∨ ∃ r p l, .slot r p v (.label l) ∈ cs := by
  rw [ofClues, mergeAll, mem_foldl_merge (fun a b => by simp [merge])]
  simp only [empty, List.not_mem_nil, false_or, List.mem_map, exists_exists_and_eq_and]
  constructor
  · rintro ⟨c, hc, hv⟩
    rcases c with ⟨w, l⟩ | ⟨r, p, a, l | _ | _⟩ <;> simp [ofClue] at hv
    · exact Or.inl ⟨l, hv ▸ hc⟩
    · exact Or.inr ⟨r, p, l, hv ▸ hc⟩
  · rintro (⟨l, hc⟩ | ⟨r, p, l, hc⟩)
    · exact ⟨_, hc, by simp [ofClue]⟩
    · exact ⟨_, hc, by simp [ofClue]⟩

theorem mem_roles_iff {cs : List Clue} {v : VarName} :
    v ∈ (ofClues cs).roles ↔ ∃ r p, .slot r p v .var ∈ cs ∨ .slot r p v .missing ∈ cs := by
  rw [ofClues, mergeAll, mem_foldl_merge (fun a b => by simp [merge])]
  simp only [empty, List.not_mem_nil, false_or, List.mem_map, exists_exists_and_eq_and]
  constructor
  · rintro ⟨c, hc, hv⟩
    rcases c with ⟨w, l⟩ | ⟨r, p, a, l | _ | _⟩ <;> simp [ofClue] at hv
    · exact ⟨r, p, Or.inl (hv ▸ hc)⟩
    · exact ⟨r, p, Or.inr (hv ▸ hc)⟩
  · rintro ⟨r, p, hc | hc⟩
    · exact ⟨_, hc, by simp [ofClue]⟩
    · exact ⟨_, hc, by simp [ofClue]⟩

theorem mem_synthesized_iff {cs : List Clue} {v : VarName} :
    v ∈ (ofClues cs).synthesized ↔ ∃ r p, .slot r p v .missing ∈ cs := by
  rw [ofClues, mergeAll, mem_foldl_merge (fun a b => by simp [merge])]
  simp only [empty, List.not_mem_nil, false_or, List.mem_map, exists_exists_and_eq_and]
  constructor
  · rintro ⟨c, hc, hv⟩
    rcases c with ⟨w, l⟩ | ⟨r, p, a, l | _ | _⟩ <;> simp [ofClue] at hv
    exact ⟨r, p, hv ▸ hc⟩
  · rintro ⟨r, p, hc⟩
    exact ⟨_, hc, by simp [ofClue]⟩

theorem isOpen_iff {e : Evidence} {v : VarName} : e.isOpen v = true ↔ v ∉ e.known ∧ v ∉ e.synthesized := by
  simp [isOpen]

end Evidence

/-! ### The query of clues -/

namespace Clue

/-- The variables that a clue says something of. -/
def subjects : Clue → List VarName
  | .isa v _ => [v]
  | .slot r p a (.label _) => [a, p, r]
  | .slot r p _ .var | .slot r p _ .missing => [p, r]

/-- Whether a clue holds when variables stand for these concepts. -/
def Holds (o : Ontology) (f : VarName → Concept) : Clue → Prop
  | .isa v l => o.isSubtype (f v).label l = true
  | .slot r p a source =>
    o.plays (f p).label (f a).label = true ∧ o.relates (f r).label (f a).label = true ∧
      ∀ l, source = .label l → o.isSubtype (f a).label l = true

theorem atoms_schemaLevel {c : Clue} {a : Atom} (ha : a ∈ (Evidence.ofClue c).atoms) :
    a.properties ≠ [] ∧ ∀ p ∈ a.properties, p.isSchemaLevel = true := by
  rcases c with ⟨v, l⟩ | ⟨r, p, x, l | _ | _⟩ <;>
    simp only [Evidence.ofClue, Evidence.slotAtoms, List.mem_cons, List.not_mem_nil, or_false] at ha
  · obtain rfl := ha
    simp [Property.isSchemaLevel]
  · rcases ha with rfl | rfl | rfl <;> simp [Property.isSchemaLevel]
  · rcases ha with rfl | rfl <;> simp [Property.isSchemaLevel]
  · rcases ha with rfl | rfl <;> simp [Property.isSchemaLevel]

theorem satisfies_atoms_iff {o : Ontology} {f : VarName → Concept} {c : Clue} :
    (∀ s ∈ statements (Evidence.ofClue c).atoms, o.Satisfies (fun v => (f v).label) s) ↔ c.Holds o f := by
  rcases c with ⟨v, l⟩ | ⟨r, p, x, l | _ | _⟩ <;>
    simp [Evidence.ofClue, Evidence.slotAtoms, statements, Ontology.Satisfies, Holds, TypeRef.under]
  tauto

theorem mem_vars_iff {c : Clue} {v : VarName} :
    v ∈ c.vars ↔ ∃ s ∈ statements (Evidence.ofClue c).atoms, v ∈ statementVars s := by
  rcases c with ⟨w, l⟩ | ⟨r, p, x, l | _ | _⟩ <;>
    simp [Evidence.ofClue, Evidence.slotAtoms, statements, vars, statementVars, Property.vars, TypeRef.var?] <;> tauto

theorem mem_subjects_iff {c : Clue} {v : VarName} : v ∈ c.subjects ↔ v ∈ (Evidence.ofClue c).atoms.map Atom.name := by
  rcases c with ⟨w, l⟩ | ⟨r, p, x, l | _ | _⟩ <;> simp [Evidence.ofClue, Evidence.slotAtoms, subjects]

end Clue

namespace Evidence

variable {cs : List Clue}

theorem atoms_ofClues_schemaLevel {a : Atom} (ha : a ∈ (ofClues cs).atoms) :
    a.properties ≠ [] ∧ ∀ p ∈ a.properties, p.isSchemaLevel = true := by
  rw [atoms_ofClues] at ha
  obtain ⟨c, -, hac⟩ := List.mem_flatMap.mp ha
  exact Clue.atoms_schemaLevel hac

/-- The query states what the atoms of the clues state. -/
theorem mem_statements_query {s : Statement} :
    s ∈ statements (ofClues cs).query ↔ ∃ c ∈ cs, s ∈ statements (ofClue c).atoms := by
  have hfloat : ∀ s ∈ statements (ofClues cs).atoms, s.2.holdsFloat = false := by
    rintro ⟨v, p⟩ hs
    obtain ⟨a, ha, -, hp⟩ := mem_statements.mp hs
    exact Property.holdsFloat_of_isSchemaLevel ((atoms_ofClues_schemaLevel ha).2 p hp)
  rw [groups_query.mem_statements_iff hfloat, atoms_ofClues]
  simp only [statements, List.mem_flatMap]
  constructor
  · rintro ⟨a, ⟨c, hc, ha⟩, hs⟩
    exact ⟨c, hc, a, ha, hs⟩
  · rintro ⟨c, hc, a, ha, hs⟩
    exact ⟨a, ⟨c, hc, ha⟩, hs⟩

theorem mem_varsOf_query {v : VarName} : v ∈ varsOf (ofClues cs).query ↔ ∃ c ∈ cs, v ∈ c.vars := by
  rw [mem_varsOf_iff_statements fun a ha => groups_query.nonempty (fun b hb => (atoms_ofClues_schemaLevel hb).1) ha]
  simp only [mem_statements_query, Clue.mem_vars_iff]
  constructor
  · rintro ⟨s, ⟨c, hc, hs⟩, hv⟩
    exact ⟨c, hc, s, hs, hv⟩
  · rintro ⟨c, hc, s, hs, hv⟩
    exact ⟨s, ⟨c, hc, hs⟩, hv⟩

/-- A choice of concepts is a model of the query exactly when it satisfies every clue. -/
theorem models_query_iff {o : Ontology} {f : VarName → Concept} :
    o.Models (ofClues cs).query f ↔ ∀ c ∈ cs, (∀ v ∈ c.vars, f v ∈ o.concepts) ∧ c.Holds o f := by
  constructor
  · intro h c hc
    refine ⟨fun v hv => h.declared v (mem_varsOf_query.mpr ⟨c, hc, hv⟩), ?_⟩
    exact Clue.satisfies_atoms_iff.mp fun s hs => h.satisfied s (mem_statements_query.mpr ⟨c, hc, hs⟩)
  · intro h
    refine ⟨fun v hv => ?_, fun s hs => ?_⟩
    · obtain ⟨c, hc, hv⟩ := mem_varsOf_query.mp hv
      exact (h c hc).1 v hv
    · obtain ⟨c, hc, hs⟩ := mem_statements_query.mp hs
      exact Clue.satisfies_atoms_iff.mpr (h c hc).2 s hs

/-- Every ontology answers the query of clues. -/
theorem solve_query_isOk (o : Ontology) : ∃ answers, o.solve (ofClues cs).query = .ok answers := by
  refine ⟨_, Ontology.solve_eq_ok_iff.mpr ⟨?_, rfl⟩⟩
  rintro ⟨v, p⟩ hs
  obtain ⟨c, -, hs⟩ := mem_statements_query.mp hs
  obtain ⟨a, ha, -, hp⟩ := mem_statements.mp hs
  exact (Clue.atoms_schemaLevel ha).2 p hp

theorem mem_names_query {v : VarName} : v ∈ (ofClues cs).query.map Atom.name ↔ ∃ c ∈ cs, v ∈ c.subjects := by
  rw [groups_query.names, atoms_ofClues]
  simp only [Clue.mem_subjects_iff, List.map_flatMap, List.mem_flatMap]

end Evidence

/-- A variable of the query stands for an instance of the branch or for the role of a slot. -/
theorem Branch.mem_varsOf_query {b : Branch} {cs : List Clue} (hgives : List.Forall₂ Hint.Gives b.hints cs)
    {v : VarName} (hv : v ∈ varsOf (Evidence.ofClues cs).query) :
    v ∈ b.instanceVars ∨ v ∈ cs.filterMap Clue.role? := by
  obtain ⟨c, hc, hv⟩ := Evidence.mem_varsOf_query.mp hv
  obtain ⟨h, hh, hg⟩ := Hint.exists_hint hgives hc
  rw [mem_instanceVars_iff, List.mem_filterMap]
  cases hg with
  | isa w l => exact Or.inl ⟨_, hh, hv⟩
  | named r p a | labelled r p a l | missing r p a =>
    simp only [Clue.vars, List.mem_cons, List.not_mem_nil, or_false] at hv
    rcases hv with rfl | rfl | rfl
    · exact Or.inl ⟨_, hh, by simp [Hint.instanceVars]⟩
    · exact Or.inl ⟨_, hh, by simp [Hint.instanceVars]⟩
    · exact Or.inr ⟨_, hc, rfl⟩

end OntologyTyping
