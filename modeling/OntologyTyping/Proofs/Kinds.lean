import OntologyTyping.Proofs.Conformance
import OntologyTyping.Proofs.Runs

/-!
The kinds of inferred types.

A slot of a relation asks for three concepts: one that relates, which only relations do, one that plays, which no
role does, and one that is played, which is always a role. Every answer keeps to that, so a variable gets types only
of the kinds that all its slots allow, and no role variable is ever found to be bound to something else.
-/

namespace OntologyTyping

/-! ### The kinds in a slot -/

namespace Ontology

variable {o : Ontology}

namespace WellFormed

variable (wf : o.WellFormed) {r p a : VarName} {source : RoleSource}
include wf

theorem kinds_of_slot {f : VarName → Concept} (hdeclared : ∀ v ∈ (Clue.slot r p a source).vars, f v ∈ o.concepts)
    (hholds : (Clue.slot r p a source).Holds o f) :
    (f r).kind = .relation ∧ (f p).kind ≠ .role ∧ (f a).kind = .role := by
  obtain ⟨hplays, hrelates, -⟩ := hholds
  have hconcept : ∀ v ∈ (Clue.slot r p a source).vars, o.concept? (f v).label = some (f v) := by
    intro v hv
    exact wf.concept?_eq_some_iff.mpr ⟨hdeclared v hv, rfl⟩
  have hr := hconcept r (by simp [Clue.vars])
  have hp := hconcept p (by simp [Clue.vars])
  have ha := hconcept a (by simp [Clue.vars])
  obtain ⟨-, d, hd, hkind⟩ := wf.plays_declared hplays
  rw [ha] at hd
  cases hd
  exact ⟨kind_of_relates hrelates hr, kind_of_plays hplays hp, hkind⟩

/-- Answers bind the variables of a slot to concepts of the kinds that belong there. -/
theorem kinds_of_bound {cs : List Clue} {answers : List Binding}
    (hsolve : o.solve (Evidence.ofClues cs).query = .ok answers) (hclue : .slot r p a source ∈ cs) {v : VarName}
    {c : ConceptName} (hc : Bound answers v c) :
    (v = r → c.kind = .relation) ∧ (v = p → c.kind ≠ .role) ∧ (v = a → c.kind = .role) := by
  obtain ⟨-, f, hf, rfl⟩ := (wf.bound_iff hsolve).mp hc
  obtain ⟨hdeclared, hholds⟩ := Evidence.models_query_iff.mp hf _ hclue
  obtain ⟨hr, hp, ha⟩ := wf.kinds_of_slot hdeclared hholds
  refine ⟨?_, ?_, ?_⟩
  · rintro rfl
    exact hr
  · rintro rfl
    exact hp
  · rintro rfl
    exact ha

theorem kind_of_roleVar {b : Branch} {cs : List Clue} (hgives : List.Forall₂ Hint.Gives b.hints cs)
    {answers : List Binding} (hsolve : o.solve (Evidence.ofClues cs).query = .ok answers) {v : VarName}
    (hv : v ∈ b.roleVars) {c : ConceptName} (hc : Bound answers v c) : c.kind = .role := by
  obtain ⟨r, p, hh⟩ := Branch.mem_roleVars_iff.mp hv
  obtain ⟨clue, hclue, hg⟩ := Hint.exists_clue hgives hh
  cases hg
  exact (wf.kinds_of_bound hsolve hclue hc).2.2 rfl

end WellFormed

end Ontology

/-! ### Resolved variables -/

theorem Resolution.mem_mismatched {e : Evidence} {answers : List Binding} {v : VarName} {c : ConceptName}
    (h : (v, c) ∈ (ofAnswers e answers).mismatched) : v ∈ e.roles ∧ c.kind ≠ .role ∧ Bound answers v c := by
  simp only [ofAnswers, ofCandidates, List.mem_flatMap, Prod.exists] at h
  obtain ⟨w, labels, hlabels, h⟩ := h
  rcases labels with _ | ⟨⟨l, k⟩, _ | ⟨x, rest⟩⟩
  · cases h
  · simp only [ofEntry] at h
    split at h
    · rename_i hkind
      obtain ⟨rfl, rfl⟩ := Prod.mk.inj (List.mem_singleton.mp h)
      obtain ⟨hrole, hne⟩ := Bool.and_eq_true_iff.mp hkind
      obtain ⟨-, -, hgiven⟩ := Candidates.mem_ofAnswers_iff.mp hlabels
      have hmem : (l, k) ∈ Ordered.tableOf (Candidates.given answers.flatten v) := by simp [← hgiven]
      exact ⟨by simpa using hrole, by simpa using hne,
        Candidates.mem_given_flatten.mp (Ordered.mem_of_mem_tableOf hmem)⟩
    · cases h
  · cases h

namespace Branch

/-- The variable stands for a relation with a slot at least. -/
def Relates (b : Branch) (v : VarName) : Prop :=
  ∃ players, (v, .relation players) ∈ statements b ∧ players ≠ []

section Solved
variable {o : Ontology} (wf : o.WellFormed) {b : Branch} {cs : List Clue} (hgives : List.Forall₂ Hint.Gives b.hints cs)
  {answers : List Binding} (hsolve : o.solve (Evidence.ofClues cs).query = .ok answers) {v : VarName} {c : ConceptName}
include wf hsolve

/-- What stands for a role is bound to roles only, so nothing is out of place. -/
theorem mismatched_eq_nil : (Resolution.ofAnswers (.ofClues cs) answers).mismatched = [] := by
  rw [List.eq_nil_iff_forall_not_mem]
  rintro ⟨v, c⟩ h
  obtain ⟨hrole, hkind, hbound⟩ := Resolution.mem_mismatched h
  obtain ⟨r, p, hclue | hclue⟩ := Evidence.mem_roles_iff.mp hrole
  · exact hkind ((wf.kinds_of_bound hsolve hclue hbound).2.2 rfl)
  · exact hkind ((wf.kinds_of_bound hsolve hclue hbound).2.2 rfl)

include hgives

theorem kind_of_relation (hv : b.Relates v) (hc : Bound answers v c) : c.kind = .relation := by
  obtain ⟨players, hs, hne⟩ := hv
  obtain ⟨filling, hf⟩ := List.exists_mem_of_ne_nil _ hne
  obtain ⟨clue, hclue, hg⟩ := Hint.exists_clue hgives (slot_mem_hints.mpr ⟨players, hs, hf⟩)
  cases hg <;> exact (wf.kinds_of_bound hsolve hclue hc).1 rfl

/-- An open variable that stands for an instance relates or plays in some slot, so no role is found for it. -/
theorem kind_of_instance (hopen : (Evidence.ofClues cs).isOpen v = true) (hv : v ∈ b.instanceVars)
    (hc : Bound answers v c) : c.kind ≠ .role := by
  obtain ⟨h, hh, hv⟩ := mem_instanceVars_iff.mp hv
  obtain ⟨clue, hclue, hg⟩ := Hint.exists_clue hgives hh
  have hslot : ∀ {r p a : VarName} {source : RoleSource}, .slot r p a source ∈ cs → v = r ∨ v = p → c.kind ≠ .role := by
    intro r p a source hclue hv
    obtain ⟨hr, hp, -⟩ := wf.kinds_of_bound hsolve hclue hc
    rcases hv with hv | hv
    · rw [hr hv]
      decide
    · exact hp hv
  cases hg with
  | isa w l =>
    obtain rfl := List.mem_singleton.mp hv
    exact absurd (Evidence.mem_known_iff.mpr (Or.inl ⟨l, hclue⟩)) (Evidence.isOpen_iff.mp hopen).1
  | named r p a => exact hslot hclue (by simpa [Hint.instanceVars] using hv)
  | labelled r p a l => exact hslot hclue (by simpa [Hint.instanceVars] using hv)
  | missing r p a => exact hslot hclue (by simpa [Hint.instanceVars] using hv)

end Solved

/-- The atom states a type of the kind that its variable asks for. -/
inductive StatesKind (o : Ontology) (b : Branch) : Atom → Prop
  | isa {v : VarName} {c : Concept} (hc : o.concept? c.label = some c) (hkind : c.kind ≠ .role)
      (hrelates : b.Relates v → c.kind = .relation) : StatesKind o b ⟨v, [.isa (.label c.label)]⟩
  | role {name a : VarName} {c : Concept} (hc : o.concept? c.label = some c) (hkind : c.kind = .role)
      (ha : a ∈ b.roleVars) : StatesKind o b ⟨name, [.label c.label, .sub (.var a)]⟩

theorem Inferred.statesKind {o : Ontology} (wf : o.WellFormed) {b : Branch} {used : List VarName} {out : Outcome}
    (hinferred : b.Inferred o.solve used out) {a : Atom} (ha : a ∈ out.extension) : StatesKind o b a := by
  cases hinferred with
  | skipped _ => cases ha
  | @answered cs answers _ _ _ hclued hsolve _ hext =>
    -- A resolved variable is open and bound to a declared concept.
    have hresolved : ∀ v c, (v, c) ∈ (Resolution.ofAnswers (.ofClues cs) answers).resolved →
        (Evidence.ofClues cs).isOpen v = true ∧ Bound answers v c ∧ v ∈ varsOf (Evidence.ofClues cs).query ∧
          ∃ d, o.concept? d.label = some d ∧ d.name = c := by
      intro v c hc
      obtain ⟨hopen, ⟨β, hβ, he⟩, -⟩ := Resolution.resolved_spec hc
      obtain ⟨hquery, d, hd, hname⟩ := wf.mem_answer hsolve hβ he
      exact ⟨hopen, ⟨β, hβ, he⟩, hquery, d, wf.concept?_eq_some_iff.mpr ⟨hd, rfl⟩, hname⟩
    cases hext.adds ha with
    | isa hc hv =>
      obtain ⟨hopen, hbound, hquery, d, hd, rfl⟩ := hresolved _ _ hc
      rcases kind_of_open hclued.gives hopen hquery with ⟨hrole, -⟩ | ⟨-, hinstance⟩
      · exact absurd hrole hv
      · exact .isa hd (kind_of_instance wf hclued.gives hsolve hopen hinstance hbound)
          fun hrelates => kind_of_relation wf hclued.gives hsolve hrelates hbound
    | role hc hv _ =>
      obtain ⟨hopen, hbound, hquery, d, hd, rfl⟩ := hresolved _ _ hc
      rcases kind_of_open hclued.gives hopen hquery with ⟨-, hrole⟩ | ⟨hnot, -⟩
      · exact .role hd (wf.kind_of_roleVar hclued.gives hsolve hrole hbound) hrole
      · exact absurd hv hnot

end Branch

/-! ### Whole runs -/

theorem Outcome.warnings_report {clues : List Clue} {answers : List Binding} {ext : List Atom}
    (h : (Resolution.ofAnswers (.ofClues clues) answers).mismatched = []) (i : Nat) :
    ((Outcome.answered clues answers ext).report i).warnings = if answers.isEmpty then [noAnswersWarning] else [] := by
  simp [Outcome.report, h]

/-- With an ontology to answer, no role variable is found to be bound to something else, and the only warning is
that there are no answers. A label that is put below a role variable is a role. A type that is stated of an instance
is declared and no role, and it is a relation if the instance is a relation with a slot at least. -/
theorem Pattern.inferTypes_kinds {d : Definition} {o : Ontology} (hload : d.load = .ok o) {settings : Settings}
    {p : Pattern} {t : Typed} (h : p.inferTypes settings o.store = .ok t) :
    (∀ step ∈ (p.infer settings o.store).steps, ∀ clues answers ext, step.2 = .answered clues answers ext →
      (Resolution.ofAnswers (.ofClues clues) answers).mismatched = []) ∧
    (∀ r ∈ t.report.branches, r.warnings = [] ∨ r.answerCount = 0 ∧ r.warnings = [noAnswersWarning]) ∧
    ∀ (k : Nat) (b : Branch) (ext : List Atom), p.branches[k]? = some b → t.pattern.branches[k]? = some (b ++ ext) →
      (∀ name a l, ⟨name, [.label l, .sub (.var a)]⟩ ∈ ext →
        a ∈ b.roleVars ∧ ∃ c, o.concept? l = some c ∧ c.kind = .role) ∧
      ∀ v l, ⟨v, [.isa (.label l)]⟩ ∈ ext →
        ∃ c, o.concept? l = some c ∧ c.kind ≠ .role ∧ (b.Relates v → c.kind = .relation) := by
  obtain ⟨hok, rfl⟩ := inferTypes_eq_ok_iff.mp h
  have wf := d.load_wellFormed hload
  have hmismatched : ∀ step ∈ (p.infer settings o.store).steps, ∀ clues answers ext,
      step.2 = .answered clues answers ext → (Resolution.ofAnswers (.ofClues clues) answers).mismatched = [] := by
    intro step hstep clues answers ext hout
    obtain ⟨-, -, used, -, hinferred⟩ := inferred_of_mem_steps hok hstep
    rw [hout] at hinferred
    cases hinferred with
    | answered _ _ hsolve _ _ => exact Branch.mismatched_eq_nil wf hsolve
  refine ⟨hmismatched, ?_, ?_⟩
  · intro r hr
    obtain ⟨k, hk⟩ := List.mem_iff_getElem?.mp hr
    rw [Inference.getElem?_report, Option.map_eq_some_iff] at hk
    obtain ⟨⟨b, out⟩, hk, rfl⟩ := hk
    have hstep := List.mem_of_getElem? hk
    cases out with
    | answered clues answers ext =>
      rw [Outcome.warnings_report (hmismatched _ hstep clues answers ext rfl)]
      cases answers with
      | nil => exact Or.inr ⟨rfl, rfl⟩
      | cons β rest => exact Or.inl rfl
    | _ => exact Or.inl rfl
  · intro k b ext hb hext
    obtain ⟨out, hk, rfl⟩ := exists_step_extending hok hb hext
    obtain ⟨-, -, used, -, hinferred⟩ := inferred_of_mem_steps hok (List.mem_of_getElem? hk)
    constructor
    · intro name a l ha
      cases hinferred.statesKind wf ha with
      | role hc hkind ha => exact ⟨ha, _, hc, hkind⟩
    · intro v l ha
      cases hinferred.statesKind wf ha with
      | isa hc hkind hrelates => exact ⟨_, hc, hkind, hrelates⟩

/-- What is found out about a casting of a movie. -/
def castingTypes : List Atom :=
  [⟨⟨"_1"⟩, [.label ⟨"work"⟩, .sub (.var ⟨"a"⟩)]⟩, ⟨⟨"r"⟩, [.isa (.label ⟨"casting"⟩)]⟩,
    ⟨⟨"y"⟩, [.isa (.label ⟨"person"⟩)]⟩]

theorem inferTypes_kinds_castingBranch :
    filmDefinition.load = .ok filmOntology ∧
      ∃ t, (Pattern.ofAtoms castingBranch).inferTypes {} filmOntology.store = .ok t ∧
        t.pattern.branches = [castingBranch ++ castingTypes] ∧
        (∃ c, filmOntology.concept? ⟨"work"⟩ = some c ∧ c.kind = .role) ∧
        (∃ c, filmOntology.concept? ⟨"casting"⟩ = some c ∧ c.kind = .relation) ∧
        ∃ c, filmOntology.concept? ⟨"person"⟩ = some c ∧ c.kind ≠ .role := by
  have hrun : ((Pattern.ofAtoms castingBranch).inferTypes {} filmOntology.store).toOption.any
      (fun t => t.pattern.branches == [castingBranch ++ castingTypes]) = true := by decide +kernel
  obtain ⟨t, h, hbranches⟩ := exists_ok_of_any hrun
  have hbranches := eq_of_beq hbranches
  obtain ⟨-, -, hkinds⟩ := Pattern.inferTypes_kinds load_filmDefinition h
  obtain ⟨hroles, htypes⟩ := hkinds 0 castingBranch castingTypes
    (by simp [Pattern.branches_ofAtoms]) (by simp [hbranches])
  obtain ⟨c, hc, -, hrelation⟩ := htypes ⟨"r"⟩ ⟨"casting"⟩ (by decide)
  obtain ⟨c', hc', hkind, -⟩ := htypes ⟨"y"⟩ ⟨"person"⟩ (by decide)
  have hrelates : castingBranch.Relates ⟨"r"⟩ :=
    ⟨[⟨some (.label ⟨"performer"⟩), ⟨"y"⟩⟩, ⟨some (.var ⟨"a"⟩), ⟨"x"⟩⟩], by decide, by decide⟩
  exact ⟨load_filmDefinition, t, h, hbranches, (hroles ⟨"_1"⟩ ⟨"a"⟩ ⟨"work"⟩ (by decide)).2,
    ⟨c, hc, hrelation hrelates⟩, c', hc', hkind⟩

/-- An actor in a casting who is also said to be a relation, one without any slots. -/
def slotlessBranch : Branch :=
  [⟨⟨"x"⟩, [.relation []]⟩, ⟨⟨"r"⟩, [.relation [⟨some (.label ⟨"actor"⟩), ⟨"x"⟩⟩]]⟩]

/-- A relation without slots asks for nothing, so the type that is stated of it can be one of entities. -/
theorem inferTypes_states_entity_of_slotless_relation :
    filmDefinition.load = .ok filmOntology ∧ (⟨"x"⟩, .relation []) ∈ statements slotlessBranch ∧
      ∃ t ext, (Pattern.ofAtoms slotlessBranch).inferTypes {} filmOntology.store = .ok t ∧
        t.pattern.branches = [slotlessBranch ++ ext] ∧ ⟨⟨"x"⟩, [.isa (.label ⟨"person"⟩)]⟩ ∈ ext ∧
        ∃ c, filmOntology.concept? ⟨"person"⟩ = some c ∧ c.kind = .entity := by
  have hrun : ((Pattern.ofAtoms slotlessBranch).inferTypes {} filmOntology.store).toOption.any
      (fun t => t.pattern.branches ==
        [slotlessBranch ++ [⟨⟨"r"⟩, [.isa (.label ⟨"casting"⟩)]⟩, ⟨⟨"x"⟩, [.isa (.label ⟨"person"⟩)]⟩]]) = true := by
    decide +kernel
  obtain ⟨t, h, hbranches⟩ := exists_ok_of_any hrun
  exact ⟨load_filmDefinition, by decide, t, _, h, eq_of_beq hbranches, by decide, _, rfl, rfl⟩

end OntologyTyping
