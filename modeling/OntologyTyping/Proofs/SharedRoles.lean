import OntologyTyping.Proofs.Preservation

/-!
What stating the inferred types does to a pattern with shared role variables.

A match may take a role variable for a concept above the roles of several castings. The query asks for one role in
all its slots, so its answers need not speak of such a match, and a type that they agree on may be none that the
match has. What is kept is exactly the matches that leave room for the resolved types. A match with one role for all
the slots of each role variable is among them.
-/

namespace OntologyTyping

variable {g : Graph} {p : Pattern} {settings : Settings}

/-- The answers that are kept are the matches of a branch that leave room for what its step resolves. -/
theorem Pattern.exists_project_iff (wf : g.ontology.WellFormed)
    (hok : ∀ step ∈ (p.infer settings g.ontology.store).steps, step.2.error? = none) {s : Answer} :
    (∃ s' ∈ g.answers (p.infer settings g.ontology.store).result, s = s'.project p.vars) ↔
      ∃ (k : Nat) (b : Branch) (out : Outcome), (p.infer settings g.ontology.store).steps[k]? = some (b, out) ∧
        s ∈ g.matchBranch b ∧ ∀ v l, (v, l) ∈ (out.report k).resolved → g.Admits b s v l := by
  have hstep : ∀ {k : Nat} {b : Branch} {out : Outcome}, (p.infer settings g.ontology.store).steps[k]? = some (b, out) →
      ((∃ s' ∈ g.matchBranch (b ++ out.extension), s = s'.project p.vars) ↔
        s ∈ g.matchBranch b ∧ ∀ v l, (v, l) ∈ (out.report k).resolved → g.Admits b s v l) := by
    intro k b out hk
    obtain ⟨hmem, -, used, hused, hinferred⟩ := inferred_of_mem_steps hok (List.mem_of_getElem? hk)
    exact hinferred.exists_project_iff wf (varsOf_subset_vars hmem) hused
  simp only [Graph.mem_answers_iff, Inference.branches_result (map_fst_steps hok)]
  constructor
  · rintro ⟨s', ⟨b', hb', hs'⟩, rfl⟩
    obtain ⟨⟨b, out⟩, hmem, rfl⟩ := List.mem_map.mp hb'
    obtain ⟨k, hk⟩ := List.mem_iff_getElem?.mp hmem
    exact ⟨k, b, out, hk, (hstep hk).mp ⟨s', hs', rfl⟩⟩
  · rintro ⟨k, b, out, hk, hs⟩
    obtain ⟨s', hs', rfl⟩ := (hstep hk).mpr hs
    exact ⟨s', ⟨_, List.mem_map_of_mem (List.mem_of_getElem? hk), hs'⟩, rfl⟩

/-- The answers that are kept are those that leave room for every resolved type of their branch, and among these are
all the answers with one role for each role variable. -/
theorem Pattern.inferTypes_keeps_admitted_answers {d : Definition} {o : Ontology} (hload : d.load = .ok o)
    (hg : g.ontology = o) (hconf : g.Conforms) {t : Typed} (h : p.inferTypes settings o.store = .ok t) (s : Answer) :
    ((∃ s' ∈ g.answers t.pattern, s = s'.project p.vars) ↔
      ∃ (k : Nat) (b : Branch) (r : BranchReport), p.branches[k]? = some b ∧ t.report.branches[k]? = some r ∧
        s ∈ g.matchBranch b ∧ ∀ v l, (v, l) ∈ r.resolved → g.Admits b s v l) ∧
    ∀ b ∈ p.branches, s ∈ g.matchBranch b → g.UniformlyCast b s →
      ∃ s' ∈ g.answers t.pattern, s = s'.project p.vars := by
  subst hg
  have wf := d.load_wellFormed hload
  obtain ⟨hok, rfl⟩ := Pattern.inferTypes_eq_ok_iff.mp h
  rw [Pattern.exists_project_iff wf hok]
  refine ⟨⟨?_, ?_⟩, fun b hb hs huniform => ?_⟩
  · rintro ⟨k, b, out, hk, hs⟩
    refine ⟨k, b, out.report k, ?_, ?_, hs⟩
    · rw [← Pattern.map_fst_steps hok, List.getElem?_map, hk, Option.map_some]
    · rw [Inference.getElem?_report, hk, Option.map_some]
  · rintro ⟨k, b, r, hb, hr, hs⟩
    obtain ⟨out, hk⟩ := Pattern.exists_step hok hb
    rw [Inference.getElem?_report, hk] at hr
    obtain rfl := Option.some.inj hr
    exact ⟨k, b, out, hk, hs⟩
  · obtain ⟨k, hk⟩ := List.mem_iff_getElem?.mp hb
    obtain ⟨out, hk⟩ := Pattern.exists_step hok hk
    obtain ⟨hmem, -, used, hused, hinferred⟩ := Pattern.inferred_of_mem_steps hok (List.mem_of_getElem? hk)
    have hbused : ∀ v ∈ varsOf b, v ∈ used := fun v hv => hused v (Pattern.varsOf_subset_vars hmem v hv)
    exact ⟨k, b, out, hk, hs, fun v l hv => hinferred.admits wf hconf hbused hs huniform hv⟩

/-! ### Two makers of a film -/

/-- Actors lead a film and directors helm it; both are makers of it. -/
def makerDefinition : Definition where
  name := none
  declarations :=
    { entities := [⟨⟨"actor"⟩, none, [⟨"lead"⟩]⟩, ⟨⟨"director"⟩, none, [⟨"helm"⟩]⟩]
      relations := [⟨⟨"film"⟩, none, [⟨"lead"⟩, ⟨"helm"⟩], []⟩]
      attributes := []
      roles := [⟨⟨"maker"⟩, none⟩, ⟨⟨"lead"⟩, some ⟨"maker"⟩⟩, ⟨⟨"helm"⟩, some ⟨"maker"⟩⟩] }

def makerOntology : Ontology where
  name := none
  concepts :=
    [⟨⟨"actor"⟩, .entity, none, [⟨"lead"⟩], []⟩, ⟨⟨"director"⟩, .entity, none, [⟨"helm"⟩], []⟩,
      ⟨⟨"film"⟩, .relation, none, [], [⟨"lead"⟩, ⟨"helm"⟩]⟩, ⟨⟨"helm"⟩, .role, some ⟨"maker"⟩, [], []⟩,
      ⟨⟨"lead"⟩, .role, some ⟨"maker"⟩, [], []⟩, ⟨⟨"maker"⟩, .role, none, [], []⟩]

theorem load_makerDefinition : makerDefinition.load = .ok makerOntology := by
  decide +kernel

/-- A film with one actor and one director. -/
def heatGraph : Graph where
  ontology := makerOntology
  instances :=
    [("ann", ⟨⟨"actor"⟩, [], []⟩), ("bob", ⟨⟨"director"⟩, [], []⟩),
      ("heat", ⟨⟨"film"⟩, [], [⟨⟨"lead"⟩, "ann"⟩, ⟨⟨"helm"⟩, "bob"⟩]⟩)]

/-- An actor and someone else in a film, in roles below one concept. -/
def makersBranch : Branch :=
  [⟨⟨"x"⟩, [.isa (.label ⟨"actor"⟩)]⟩,
    ⟨⟨"r"⟩, [.relation [⟨some (.var ⟨"a"⟩), ⟨"x"⟩⟩, ⟨some (.var ⟨"a"⟩), ⟨"y"⟩⟩], .isa (.label ⟨"film"⟩)]⟩]

/-- The film with two actors as well. -/
def duoGraph : Graph :=
  (heatGraph.add "cat" ⟨⟨"actor"⟩, [], []⟩).add "duo" ⟨⟨"film"⟩, [], [⟨⟨"lead"⟩, "ann"⟩, ⟨⟨"lead"⟩, "cat"⟩]⟩

/-- The two actors as makers. -/
def duoAnswer : Answer :=
  [(⟨"a"⟩, .concept ⟨"maker"⟩), (⟨"r"⟩, .individual "duo"), (⟨"x"⟩, .individual "ann"), (⟨"y"⟩, .individual "cat")]

theorem uniformlyCast_duoAnswer : duoGraph.UniformlyCast makersBranch duoAnswer := by
  intro a _
  have hbelow : ∀ t, some (TypeRef.var ⟨"a"⟩) = some t →
      ∃ l, Graph.conceptUnder duoAnswer t = some l ∧ duoGraph.ontology.isSubtype ⟨"lead"⟩ l = true := by
    rintro t ⟨⟩
    exact ⟨⟨"maker"⟩, by decide +kernel, by decide +kernel⟩
  refine ⟨⟨"lead"⟩, fun r slots hs slot hslot _ => ?_⟩
  simp only [makersBranch, mem_statements, List.mem_cons, List.not_mem_nil, or_false, exists_eq_or_imp, exists_eq_left,
    reduceCtorEq, and_false, false_or, Property.relation.injEq] at hs
  obtain ⟨rfl, rfl⟩ := hs
  have hrelation : ∃ t, duoGraph.typeOf? duoAnswer ⟨"r"⟩ = some t ∧ duoGraph.ontology.relates t ⟨"lead"⟩ = true :=
    ⟨⟨"film"⟩, by decide +kernel, by decide +kernel⟩
  simp only [List.mem_cons, List.not_mem_nil, or_false] at hslot
  rcases hslot with rfl | rfl
  all_goals exact ⟨hrelation, ⟨⟨"actor"⟩, by decide +kernel, by decide +kernel⟩, hbelow⟩

theorem inferTypes_keeps_admitted_answers_makersBranch :
    (makerDefinition.load = .ok makerOntology ∧ duoGraph.Conforms ∧ duoAnswer ∈ duoGraph.matchBranch makersBranch) ∧
    ∃ t, (Pattern.ofAtoms makersBranch).inferTypes {} makerOntology.store = .ok t ∧ t.changed = true ∧
      (∃ s' ∈ duoGraph.answers t.pattern, duoAnswer = s'.project (Pattern.ofAtoms makersBranch).vars) ∧
      ∃ (k : Nat) (b : Branch) (r : BranchReport), (Pattern.ofAtoms makersBranch).branches[k]? = some b ∧
        t.report.branches[k]? = some r ∧ duoAnswer ∈ duoGraph.matchBranch b ∧
        ∀ v l, (v, l) ∈ r.resolved → duoGraph.Admits b duoAnswer v l := by
  have hconf : duoGraph.Conforms := by decide +kernel
  have hmatch : duoAnswer ∈ duoGraph.matchBranch makersBranch := by decide +kernel
  refine ⟨⟨load_makerDefinition, hconf, hmatch⟩, ?_⟩
  have hrun : ((Pattern.ofAtoms makersBranch).inferTypes {} makerOntology.store).toOption.any Typed.changed = true := by
    decide +kernel
  obtain ⟨t, h, hchanged⟩ := exists_ok_of_any hrun
  obtain ⟨hiff, hkept⟩ := Pattern.inferTypes_keeps_admitted_answers load_makerDefinition rfl hconf h duoAnswer
  have hduo := hkept makersBranch (by simp [Pattern.branches_ofAtoms]) hmatch uniformlyCast_duoAnswer
  exact ⟨t, h, hchanged, hduo, hiff.mp hduo⟩

/-- An actor and a director as makers. -/
def heatAnswer : Answer :=
  [(⟨"a"⟩, .concept ⟨"maker"⟩), (⟨"r"⟩, .individual "heat"), (⟨"x"⟩, .individual "ann"), (⟨"y"⟩, .individual "bob")]

/-- An answer with a role of its own in each slot is lost: the query knows only the makers in one role. -/
theorem inferTypes_loses_heatAnswer :
    makerDefinition.load = .ok makerOntology ∧ heatGraph.Conforms ∧ ¬makersBranch.roleVars.Nodup ∧
    heatAnswer ∈ heatGraph.answers (.ofAtoms makersBranch) ∧
    ∃ t, (Pattern.ofAtoms makersBranch).inferTypes {} makerOntology.store = .ok t ∧
      ¬∃ s' ∈ heatGraph.answers t.pattern, heatAnswer = s'.project (Pattern.ofAtoms makersBranch).vars := by
  have hmatch : heatAnswer ∈ heatGraph.matchBranch makersBranch := by decide +kernel
  refine ⟨load_makerDefinition, by decide +kernel, by decide +kernel, ?_, ?_⟩
  · exact Graph.mem_answers_iff.mpr ⟨makersBranch, by simp [Pattern.branches_ofAtoms], hmatch⟩
  have hrun : ((Pattern.ofAtoms makersBranch).inferTypes {} makerOntology.store).toOption.any
      (fun t => t.pattern.branches.all fun b => (heatGraph.matchBranch b).isEmpty) = true := by
    decide +kernel
  obtain ⟨t, h, hnone⟩ := exists_ok_of_any hrun
  refine ⟨t, h, ?_⟩
  rintro ⟨s', hs', -⟩
  obtain ⟨b, hb, hs'⟩ := Graph.mem_answers_iff.mp hs'
  rw [List.isEmpty_iff.mp (List.all_eq_true.mp hnone b hb)] at hs'
  cases hs'

end OntologyTyping
