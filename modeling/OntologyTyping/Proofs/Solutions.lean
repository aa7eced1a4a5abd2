import OntologyTyping.Proofs.Search
import OntologyTyping.Proofs.WellFormed

/-!
The answers to a query are its models.

A model of a query chooses a declared concept for every variable so that each statement holds. The narrowed domains
lose no model: a fixed label leaves the one concept that has it, and a literal supertype leaves all concepts below
it. The answers of a query are the tables of its models, in increasing order.
-/

namespace OntologyTyping

/-! ### Models -/

/-- The label that a type reference denotes when variables stand for these labels. -/
def TypeRef.under (f : VarName → Label) : TypeRef → Label
  | .label l => l
  | .var v => f v

/-- Whether a statement holds when variables stand for these labels. -/
def Ontology.Satisfies (o : Ontology) (f : VarName → Label) : Statement → Prop
  | (v, .label l) => f v = l
  | (v, .sub t) => o.isSubtype (f v) (t.under f) = true
  | (v, .plays t) => o.plays (f v) (t.under f) = true
  | (v, .relates t) => o.relates (f v) (t.under f) = true
  | (_, .isa _) | (_, .relation _) | (_, .has _ _) => False

/-- A choice of a declared concept for each variable of a query under which every statement holds. -/
structure Ontology.Models (o : Ontology) (q : Query) (f : VarName → Concept) : Prop where
  declared : ∀ v ∈ varsOf q, f v ∈ o.concepts
  satisfied : ∀ s ∈ statements q, o.Satisfies (fun v => (f v).label) s

/-- The binding that names the concepts of a choice. -/
def Query.binding (q : Query) (f : VarName → Concept) : Binding :=
  tabulate (varsOf q) fun v => (f v).name

theorem Property.eq_of_exactLabel? {p : Property} {l : Label} (h : p.exactLabel? = some l) :
    p = .label l := by
  cases p <;> simp [Property.exactLabel?] at h
  rw [h]

theorem Property.eq_of_upperLabel? {p : Property} {l : Label} (h : p.upperLabel? = some l) :
    p = .sub (.label l) := by
  unfold Property.upperLabel? at h
  split at h
  · rw [Option.some.inj h]
  · cases h

namespace Ontology

variable {o : Ontology} {q : Query}

theorem labelUnder_congr {b b' : Binding} {t : TypeRef} (h : ∀ v ∈ t.var?.toList, b.lookup v = b'.lookup v) :
    labelUnder b t = labelUnder b' t := by
  cases t with
  | label l => rfl
  | var v => simp only [labelUnder, h v (by simp [TypeRef.var?])]

theorem holds_isLocal : Search.IsLocal statementVars o.holds := by
  rintro b b' ⟨v, p⟩ h
  have hv : b.lookup v = b'.lookup v := h v List.mem_cons_self
  have hp : ∀ w ∈ p.vars, b.lookup w = b'.lookup w := fun w hw => h w (List.mem_cons_of_mem _ hw)
  simp only [holds, hv]
  congr 1
  funext c
  cases p with
  | label l => rfl
  | sub t | plays t | relates t => simp only [hasProperty, labelUnder_congr hp]
  | isa t | relation players | has a v => rfl

theorem labelUnder_tabulate {vars : List VarName} {f : VarName → ConceptName} {t : TypeRef}
    (h : ∀ v ∈ t.var?.toList, v ∈ vars) : labelUnder (tabulate vars f) t = some (t.under fun v => (f v).label) := by
  cases t with
  | label l => rfl
  | var v => simp [labelUnder, TypeRef.under, lookup_tabulate_of_mem (h v (by simp [TypeRef.var?]))]

/-- Testing a statement on a table is testing it on the choice that the table shows. -/
theorem holds_tabulate_iff {vars : List VarName} {f : VarName → ConceptName} {s : Statement}
    (h : ∀ v ∈ statementVars s, v ∈ vars) :
    o.holds (tabulate vars f) s = true ↔ o.Satisfies (fun v => (f v).label) s := by
  obtain ⟨v, p⟩ := s
  have hv : v ∈ vars := h v List.mem_cons_self
  have hp : ∀ w ∈ p.vars, w ∈ vars := fun w hw => h w (List.mem_cons_of_mem _ hw)
  simp only [holds, lookup_tabulate_of_mem hv, Option.any_some]
  cases p with
  | label l => simp [hasProperty, Satisfies]
  | sub t | plays t | relates t => simp [hasProperty, Satisfies, labelUnder_tabulate hp]
  | isa t | relation players | has a v => simp [hasProperty, Satisfies]

/-! ### Domains -/

theorem mem_of_firstLabel? {read : Property → Option Label} {ss : List Statement} {v : VarName} {l : Label}
    (h : firstLabel? read ss v = some l) : ∃ p, (v, p) ∈ ss ∧ read p = some l := by
  obtain ⟨⟨w, p⟩, hs, hsome⟩ := List.exists_of_findSome?_eq_some h
  split at hsome
  · rename_i hw
    exact ⟨p, hw ▸ hs, hsome⟩
  · cases hsome

theorem domain_subset {ss : List Statement} {v : VarName} {c : Concept} (h : c ∈ o.domain ss v) : c ∈ o.concepts := by
  unfold domain at h
  split at h
  · exact (concept?_mem (by simpa using h)).1
  · exact (List.mem_filter.mp h).1
  · exact h

/-- Narrowing the domain of a variable loses no choice that satisfies the statements. -/
theorem WellFormed.mem_domain (wf : o.WellFormed) {ss : List Statement} {f : VarName → Concept} {v : VarName}
    (hv : f v ∈ o.concepts) (hs : ∀ s ∈ ss, o.Satisfies (fun v => (f v).label) s) : f v ∈ o.domain ss v := by
  unfold domain
  split
  · rename_i l hl
    obtain ⟨p, hp, hread⟩ := mem_of_firstLabel? hl
    obtain rfl := Property.eq_of_exactLabel? hread
    have hlabel : (f v).label = l := hs _ hp
    simpa using wf.concept?_eq_some_iff.mpr ⟨hv, hlabel⟩
  · rename_i l _ hl
    obtain ⟨p, hp, hread⟩ := mem_of_firstLabel? hl
    obtain rfl := Property.eq_of_upperLabel? hread
    exact List.mem_filter.mpr ⟨hv, hs _ hp⟩
  · exact hv

/-! ### Answers -/

/-- The search finds exactly the bindings of the models. -/
theorem WellFormed.mem_solutions_iff (wf : o.WellFormed) {b : Binding} :
    b ∈ o.solutions q ↔ ∃ f, o.Models q f ∧ b = q.binding f := by
  rw [solutions, Search.mem_solve_statements holds_isLocal]
  constructor
  · rintro ⟨g, hg, rfl, hholds⟩
    have hf : ∀ v ∈ varsOf q, ∃ c ∈ o.concepts, o.concept? (g v).label = some c ∧ c.name = g v := by
      intro v hv
      obtain ⟨c, hc, hname⟩ := List.mem_map.mp (hg v hv)
      exact ⟨c, domain_subset hc, wf.concept?_eq_some_iff.mpr ⟨domain_subset hc, congrArg ConceptName.label hname⟩,
        hname⟩
    have hget : ∀ v ∈ varsOf q, ((o.concept? (g v).label).getD default).name = g v := by
      intro v hv
      obtain ⟨c, -, hc, hname⟩ := hf v hv
      rw [hc, Option.getD_some, hname]
    refine ⟨fun v => (o.concept? (g v).label).getD default, ⟨fun v hv => ?_, fun s hs => ?_⟩, ?_⟩
    · obtain ⟨c, hmem, hc, -⟩ := hf v hv
      rw [hc]
      exact hmem
    · have hsub : ∀ v ∈ statementVars s, v ∈ varsOf q := fun v hv => statementVars_subset hs hv
      have heq : tabulate (varsOf q) g =
          tabulate (varsOf q) fun v => ((o.concept? (g v).label).getD default).name :=
        tabulate_congr (fun _ => Iff.rfl) fun v hv => (hget v hv).symm
      rw [heq] at hholds
      exact (holds_tabulate_iff hsub).mp (hholds s hs)
    · exact tabulate_congr (fun _ => Iff.rfl) fun v hv => (hget v hv).symm
  · rintro ⟨f, hf, rfl⟩
    refine ⟨fun v => (f v).name, fun v hv => ?_, rfl, fun s hs => ?_⟩
    · exact List.mem_map_of_mem (wf.mem_domain (hf.declared v hv) hf.satisfied)
    · exact (holds_tabulate_iff fun v hv => statementVars_subset hs hv).mpr (hf.satisfied s hs)

theorem solve_eq_ok_iff {answers : List Binding} :
    o.solve q = .ok answers ↔
      (∀ s ∈ statements q, s.2.isSchemaLevel = true) ∧
        Ordered.sortDistinct Ordered.compareTables (o.solutions q) = answers := by
  unfold solve
  split
  · rename_i v p hfind
    refine iff_of_false (by simp) fun h => ?_
    have hp := List.find?_some hfind
    simp [h.1 _ (List.mem_of_find?_eq_some hfind)] at hp
  · rename_i hfind
    have hall : ∀ s ∈ statements q, s.2.isSchemaLevel = true := by
      intro s hs
      simpa using List.find?_eq_none.mp hfind s hs
    exact ⟨fun h => ⟨hall, Except.ok.inj h⟩, fun h => congrArg Except.ok h.2⟩

/-- The answers of a query are the bindings of its models. -/
theorem WellFormed.mem_answers_iff (wf : o.WellFormed) {answers : List Binding} (h : o.solve q = .ok answers)
    {b : Binding} : b ∈ answers ↔ ∃ f, o.Models q f ∧ b = q.binding f := by
  obtain ⟨-, rfl⟩ := solve_eq_ok_iff.mp h
  rw [Ordered.mem_sortDistinct, wf.mem_solutions_iff]

theorem answers_increasing {answers : List Binding} (h : o.solve q = .ok answers) :
    answers.Pairwise fun a b => Ordered.compareTables a b = .lt := by
  obtain ⟨-, rfl⟩ := solve_eq_ok_iff.mp h
  exact Ordered.pairwise_sortDistinct

theorem answers_nodup {answers : List Binding} (h : o.solve q = .ok answers) : answers.Nodup := by
  obtain ⟨-, rfl⟩ := solve_eq_ok_iff.mp h
  exact Ordered.nodup_sortDistinct

end Ontology

/-! ### What solving a query returns -/

/-- The property speaks of instances. -/
def Property.OfInstances (p : Property) : Prop :=
  (∃ t, p = .isa t) ∨ (∃ players, p = .relation players) ∨ ∃ a v, p = .has a v

theorem Property.ofInstances_iff {p : Property} : p.OfInstances ↔ p.isSchemaLevel = false := by
  cases p <;> simp [OfInstances, isSchemaLevel]

instance : DecidablePred Property.OfInstances := fun _ => decidable_of_iff _ Property.ofInstances_iff.symm

theorem Ontology.solve_eq_error_iff {o : Ontology} {q : Query} {e : QueryError} :
    o.solve q = .error e ↔
      ∃ before v p after, statements q = before ++ (v, p) :: after ∧ (∀ s ∈ before, ¬s.2.OfInstances) ∧
        p.OfInstances ∧ e = .unsupported v p := by
  simp only [Property.ofInstances_iff, Bool.not_eq_false]
  unfold solve
  split
  · rename_i v p hfind
    obtain ⟨hp, before, after, hsplit, hbefore⟩ := List.find?_eq_some_iff_append.mp hfind
    have hp' : p.isSchemaLevel = false := by simpa using hp
    have hbefore' : ∀ s ∈ before, s.2.isSchemaLevel = true := fun s hs => by simpa using hbefore s hs
    constructor
    · intro h
      exact ⟨before, v, p, after, hsplit, hbefore', hp', (Except.error.inj h).symm⟩
    · rintro ⟨before₂, v₂, p₂, after₂, hsplit₂, hbefore₂, hp₂, rfl⟩
      have hfind₂ : (statements q).find? (fun s => !s.2.isSchemaLevel) = some (v₂, p₂) :=
        List.find?_eq_some_iff_append.mpr
          ⟨by simpa using hp₂, before₂, after₂, hsplit₂, fun s hs => by simpa using hbefore₂ s hs⟩
      rw [hfind] at hfind₂
      cases hfind₂
      rfl
  · rename_i hfind
    refine iff_of_false (by simp) ?_
    rintro ⟨before, v, p, after, hsplit, -, hp, -⟩
    have hmem : (v, p) ∈ statements q := by simp [hsplit]
    exact List.find?_eq_none.mp hfind _ hmem (by simpa using hp)

/-- Solving a query fails exactly at its first property that speaks of instances. Otherwise it returns, in
increasing order, the bindings of the models of the query and nothing else. -/
theorem Ontology.solve_exact {d : Definition} {o : Ontology} (h : d.load = .ok o) (q : Query) :
    ((∃ e, o.solve q = .error e) ↔ ∃ s ∈ statements q, s.2.OfInstances) ∧
    (∀ e, o.solve q = .error e ↔
      ∃ before v p after, statements q = before ++ (v, p) :: after ∧ (∀ s ∈ before, ¬s.2.OfInstances) ∧
        p.OfInstances ∧ e = .unsupported v p) ∧
    ((∀ s ∈ statements q, ¬s.2.OfInstances) →
      ∃ answers, o.solve q = .ok answers ∧ answers.Pairwise (fun a b => Ordered.compareTables a b = .lt) ∧
        ∀ b, b ∈ answers ↔ ∃ f, o.Models q f ∧ b = q.binding f) := by
  have hok : (∀ s ∈ statements q, ¬s.2.OfInstances) → ∃ answers, o.solve q = .ok answers := by
    intro hq
    refine ⟨_, solve_eq_ok_iff.mpr ⟨fun s hs => ?_, rfl⟩⟩
    simpa [Property.ofInstances_iff] using hq s hs
  refine ⟨⟨?_, fun hs => ?_⟩, fun e => solve_eq_error_iff, fun hq => ?_⟩
  · rintro ⟨e, he⟩
    obtain ⟨before, v, p, after, hsplit, -, hp, -⟩ := solve_eq_error_iff.mp he
    exact ⟨(v, p), by simp [hsplit], hp⟩
  · cases hsolve : o.solve q with
    | error e => exact ⟨e, rfl⟩
    | ok answers =>
      obtain ⟨s, hs, hp⟩ := hs
      have hlevel := (solve_eq_ok_iff.mp hsolve).1 s hs
      rw [Property.ofInstances_iff, hlevel] at hp
      cases hp
  · obtain ⟨answers, hanswers⟩ := hok hq
    exact ⟨answers, hanswers, answers_increasing hanswers, fun b => (d.load_wellFormed h).mem_answers_iff hanswers⟩

/-- Castings tie actors to movies, and actors are performers. -/
def filmDefinition : Definition where
  name := none
  declarations :=
    { entities := [⟨⟨"person"⟩, none, [⟨"actor"⟩]⟩, ⟨⟨"movie"⟩, none, [⟨"work"⟩]⟩]
      relations := [⟨⟨"casting"⟩, none, [⟨"actor"⟩, ⟨"work"⟩], []⟩]
      attributes := []
      roles := [⟨⟨"performer"⟩, none⟩, ⟨⟨"actor"⟩, some ⟨"performer"⟩⟩] }

def filmOntology : Ontology where
  name := none
  concepts :=
    [⟨⟨"actor"⟩, .role, some ⟨"performer"⟩, [], []⟩, ⟨⟨"casting"⟩, .relation, none, [], [⟨"actor"⟩, ⟨"work"⟩]⟩,
      ⟨⟨"movie"⟩, .entity, none, [⟨"work"⟩], []⟩, ⟨⟨"performer"⟩, .role, none, [], []⟩,
      ⟨⟨"person"⟩, .entity, none, [⟨"actor"⟩], []⟩, ⟨⟨"work"⟩, .role, none, [], []⟩]

theorem load_filmDefinition : filmDefinition.load = .ok filmOntology := by
  decide +kernel

/-- Who plays which role below `performer` in a casting. -/
def performerQuery : Query :=
  [⟨⟨"y"⟩, [.plays (.var ⟨"a"⟩), .plays (.var ⟨"a"⟩)]⟩, ⟨⟨"a"⟩, [.sub (.label ⟨"performer"⟩)]⟩,
    ⟨⟨"r"⟩, [.label ⟨"casting"⟩, .relates (.var ⟨"a"⟩)]⟩]

theorem solve_exact_performerQuery :
    filmDefinition.load = .ok filmOntology ∧ (∀ s ∈ statements performerQuery, ¬s.2.OfInstances) ∧
      ∃ answers, filmOntology.solve performerQuery = .ok answers ∧
        answers.Pairwise (fun a b => Ordered.compareTables a b = .lt) ∧
        ∀ b, b ∈ answers ↔ ∃ f, filmOntology.Models performerQuery f ∧ b = performerQuery.binding f :=
  have hq : ∀ s ∈ statements performerQuery, ¬s.2.OfInstances := by decide +kernel
  ⟨load_filmDefinition, hq, (Ontology.solve_exact load_filmDefinition performerQuery).2.2 hq⟩

end OntologyTyping
