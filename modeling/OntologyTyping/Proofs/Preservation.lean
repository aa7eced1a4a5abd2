import OntologyTyping.Proofs.Conformance
import OntologyTyping.Proofs.Runs
import Mathlib.Logic.Function.Basic

/-!
Stating the inferred types keeps the answers of a pattern.

A match satisfies the literal types that are added, and extends to the placeholders that are added below role
variables, exactly when it leaves room for every resolved type. On a conforming graph every match does where no role
variable is shared: it has, for each resolved variable, the very type that all answers of the query give to it.
-/

namespace OntologyTyping

open Ordered

/-- The part of an assignment that gives values to these variables. -/
def Assignment.project {α : Type} (names : List VarName) (s : Assignment α) : Assignment α :=
  s.filter fun e => e.1 ∈ names

theorem lookup_project {α : Type} {names : List VarName} {s : Assignment α} {v : VarName} :
    (s.project names).lookup v = if v ∈ names then s.lookup v else none := by
  rw [Assignment.project, lookup_filter fun w => decide (w ∈ names)]
  simp only [decide_eq_true_eq]

theorem project_tabulate {α : Type} {names vars vars' : List VarName} {F : VarName → α}
    (hvars : ∀ v, v ∈ vars' ↔ v ∈ vars ∧ v ∈ names) : (tabulate vars F).project names = tabulate vars' F := by
  have htable : IsTable ((tabulate vars F).project names) := isTable_tabulate.filter
  refine eq_tabulate htable (fun v hv => ?_) fun v hv => ?_
  · obtain ⟨hmem, hname⟩ := (hvars v).mp hv
    rw [lookup_project, if_pos hname, lookup_tabulate_of_mem hmem]
  · rw [lookup_project, lookup_tabulate]
    split
    · rename_i hname
      exact if_neg fun hmem => hv ((hvars v).mpr ⟨hmem, hname⟩)
    · rfl

namespace Graph

variable {g : Graph} {b : Branch} {ext : List Atom}

/-- The matches of a longer branch, taken on the variables of its first part. -/
theorem exists_project_iff {names : List VarName} (hb : ∀ v ∈ varsOf b, v ∈ names)
    (hext : ∀ v ∈ varsOf ext, v ∈ names → v ∈ varsOf b) {s : Answer} :
    (∃ s' ∈ g.matchBranch (b ++ ext), s = s'.project names) ↔
      ∃ F, g.Matches (b ++ ext) F ∧ s = tabulate (varsOf b) F := by
  have hvars : ∀ v, v ∈ varsOf b ↔ v ∈ varsOf (b ++ ext) ∧ v ∈ names := by
    intro v
    rw [mem_varsOf_append]
    refine ⟨fun hv => ⟨Or.inl hv, hb v hv⟩, ?_⟩
    rintro ⟨hv | hv, hname⟩
    · exact hv
    · exact hext v hv hname
  constructor
  · rintro ⟨s', hs', rfl⟩
    obtain ⟨F, hF, rfl⟩ := mem_matchBranch_iff.mp hs'
    exact ⟨F, hF, project_tabulate hvars⟩
  · rintro ⟨F, hF, rfl⟩
    exact ⟨_, mem_matchBranch_iff.mpr ⟨F, hF, rfl⟩, (project_tabulate hvars).symm⟩

end Graph

/-- Values for the placeholders that an extension adds. -/
theorem Branch.Extends.exists_values {b : Branch} {e : Evidence} {used : List VarName}
    {resolved : List (VarName × ConceptName)} {ext : List Atom} (h : b.Extends e used resolved ext)
    (F : VarName → Value) :
    ∃ F' : VarName → Value, (∀ v ∈ used, F' v = F v) ∧
      ∀ a ∈ ext, ∀ l p, a.properties = [.label l, p] → F' a.name = .concept l := by
  induction h generalizing F with
  | nil => exact ⟨F, fun _ _ => rfl, by simp⟩
  | roleStated _ _ _ ih | isaStated _ _ _ ih => exact ih F
  | @role used v c rest ext name _ _ hname _ ih =>
    obtain ⟨F', hsame, hext⟩ := ih (Function.update F name (.concept c.label))
    refine ⟨F', fun w hw => ?_, fun a ha l p hprops => ?_⟩
    · rw [hsame w (List.mem_cons_of_mem _ hw), Function.update_of_ne]
      rintro rfl
      exact hname hw
    · rcases List.mem_cons.mp ha with rfl | ha
      · cases hprops
        rw [hsame name List.mem_cons_self, Function.update_self]
      · exact hext a ha l p hprops
  | isa _ _ _ ih =>
    obtain ⟨F', hsame, hext⟩ := ih F
    refine ⟨F', hsame, fun a ha l p hprops => ?_⟩
    rcases List.mem_cons.mp ha with rfl | ha
    · cases hprops
    · exact hext a ha l p hprops

namespace Graph

variable {g : Graph} {b : Branch} {F : VarName → Value} {used used' : List VarName} {cs : List Clue}
  {answers : List Binding} {ext : List Atom}

/-- The answer leaves room for the type: it gives the variable an instance of the type, or where that is a role
variable a concept above the type. -/
structure Admits (g : Graph) (b : Branch) (s : Answer) (v : VarName) (l : Label) : Prop where
  role : v ∈ b.roleVars → ∃ upper, s.lookup v = some (.concept upper) ∧ g.ontology.isSubtype l upper = true
  type : v ∉ b.roleVars → ∃ t, g.typeOf? s v = some t ∧ g.ontology.isSubtype t l = true

theorem mem_concepts_iff {l : Label} : .concept l ∈ g.concepts ↔ ∃ c ∈ g.ontology.concepts, c.label = l := by
  simp [concepts]

/-- An answer that is lifted to a model leaves room for all that is resolved. -/
theorem Lifts.admits {s : Answer} {f : VarName → Concept} (h : g.Lifts b s f) (wf : g.ontology.WellFormed)
    (hmodel : g.ontology.Models (Evidence.ofClues cs).query f) (hgives : List.Forall₂ Hint.Gives b.hints cs)
    (hsolve : g.ontology.solve (Evidence.ofClues cs).query = .ok answers) {v : VarName} {c : ConceptName}
    (hv : (v, c) ∈ (Resolution.ofAnswers (.ofClues cs) answers).resolved) : g.Admits b s v c.label := by
  have hquery := wf.mem_varsOf_of_resolved hsolve hv
  have hlabel := wf.label_of_resolved hsolve hv hmodel
  refine ⟨fun hrole => ?_, fun hrole => ?_⟩
  · obtain ⟨-, upper, hupper, hsub⟩ := h.roles v hrole
    exact ⟨upper, hupper, hlabel ▸ hsub⟩
  · rcases Branch.kind_of_open hgives (Resolution.resolved_spec hv).1 hquery with ⟨-, hmem⟩ | ⟨-, hmem⟩
    · exact absurd hmem hrole
    · have hfound := wf.concept?_eq_some_iff.mpr ⟨hmodel.declared v hquery, rfl⟩
      exact ⟨_, h.instances v hmem, hlabel ▸ Ontology.isSubtype_self hfound⟩

theorem concept_of_resolved (wf : g.ontology.WellFormed)
    (hsolve : g.ontology.solve (Evidence.ofClues cs).query = .ok answers) {v : VarName} {c : ConceptName}
    (hv : (v, c) ∈ (Resolution.ofAnswers (.ofClues cs) answers).resolved) : .concept c.label ∈ g.concepts := by
  obtain ⟨-, ⟨β, hβ, hc⟩, -⟩ := Resolution.resolved_spec hv
  obtain ⟨-, k, hk, rfl⟩ := wf.mem_answer hsolve hβ hc
  exact mem_concepts_iff.mpr ⟨k, hk, rfl⟩

/-- A match that leaves room for the resolved types extends to the atoms that state them. -/
theorem Matches.append_extension (wf : g.ontology.WellFormed) (hF : g.Matches b F) (hused : ∀ v ∈ varsOf b, v ∈ used)
    (hgives : List.Forall₂ Hint.Gives b.hints cs) (hsolve : g.ontology.solve (Evidence.ofClues cs).query = .ok answers)
    (hext : b.Extends (.ofClues cs) used (Resolution.ofAnswers (.ofClues cs) answers).resolved ext)
    (hadmits : ∀ v c, (v, c) ∈ (Resolution.ofAnswers (.ofClues cs) answers).resolved →
      g.Admits b (tabulate (varsOf b) F) v c.label) :
    ∃ F', (∀ v ∈ varsOf b, F' v = F v) ∧ g.Matches (b ++ ext) F' := by
  obtain ⟨F', hkept, hadded⟩ := hext.exists_values F
  have hsame : ∀ v ∈ varsOf b, F' v = F v := fun v hv => hkept v (hused v hv)
  have hlookup : ∀ {v : VarName} {value : Value}, v ∈ varsOf (b ++ ext) → F' v = value →
      (tabulate (varsOf (b ++ ext)) F').lookup v = some value := fun hv heq => lookup_tabulate_eq_some.mpr ⟨hv, heq⟩
  have hrole : ∀ {v : VarName} {c : ConceptName}, (v, c) ∈ (Resolution.ofAnswers (.ofClues cs) answers).resolved →
      (v ∈ (Evidence.ofClues cs).roles ↔ v ∈ b.roleVars) :=
    fun hc => Branch.mem_roles_iff_of_open hgives (Resolution.resolved_spec hc).1
  refine ⟨F', hsame, matches_append_iff.mpr ⟨hF.congr fun v hv => (hsame v hv).symm, fun v hv => ?_, ?_⟩⟩
  · rcases hext.mem_varsOf hv with ⟨c, hc⟩ | ⟨-, w, c, hc, ha⟩
    · have hvb := Branch.mem_varsOf_of_resolved wf hgives hsolve hc
      rw [hsame v hvb]
      exact hF.values v hvb
    · rw [hadded _ ha _ _ rfl]
      exact List.mem_append_right _ (concept_of_resolved wf hsolve hc)
  · rintro ⟨w, p⟩ hst
    obtain ⟨a, ha, rfl, hp⟩ := mem_statements.mp hst
    have hname : a.name ∈ varsOf (b ++ ext) := mem_varsOf.mpr ⟨a, List.mem_append_right _ ha, Or.inl rfl⟩
    have hvalue := hadded a ha
    cases hext.adds ha with
    | @isa v c hc hnot =>
      obtain rfl := List.mem_singleton.mp hp
      obtain ⟨t, ht, hsub⟩ := (hadmits _ _ hc).type fun hmem => hnot ((hrole hc).mpr hmem)
      obtain ⟨id, i, hid, hi, rfl⟩ := typeOf?_eq_some_iff.mp ht
      obtain ⟨hvb, hFv⟩ := lookup_tabulate_eq_some.mp hid
      exact holds_isa_iff.mpr ⟨id, i, c.label, hlookup hname ((hsame _ hvb).trans hFv), hi, rfl, hsub⟩
    | @role v c name hc hmem _ =>
      -- The placeholder stands for the resolved role, which lies below the concept of the role variable.
      obtain ⟨upper, hupper, hsub⟩ := (hadmits _ _ hc).role ((hrole hc).mp hmem)
      obtain ⟨hvb, hFv⟩ := lookup_tabulate_eq_some.mp hupper
      have hconcept := hlookup hname (hvalue _ _ rfl)
      have hv := hlookup (mem_varsOf_append.mpr (Or.inl hvb)) ((hsame _ hvb).trans hFv)
      simp only [List.mem_cons, List.not_mem_nil, or_false] at hp
      rcases hp with rfl | rfl
      · exact holds_iff.mpr ⟨_, hconcept, beq_self_eq_true _⟩
      · exact holds_sub_iff.mpr ⟨c.label, upper, hconcept, conceptUnder_var_eq_some.mpr hv, hsub⟩

/-- A match of the atoms that state a type leaves room for it. -/
theorem Matches.admits (hF : g.Matches (b ++ ext) F) {e : Evidence} {v : VarName} {l : Label} (hv : v ∈ varsOf b)
    (hrole : v ∈ e.roles ↔ v ∈ b.roleVars) (hstates : Branch.States (b ++ ext) e v l) :
    g.Admits b (tabulate (varsOf b) F) v l := by
  have hlookup : ∀ {value : Value}, (tabulate (varsOf (b ++ ext)) F).lookup v = some value →
      (tabulate (varsOf b) F).lookup v = some value := by
    intro value h
    exact lookup_tabulate_eq_some.mpr ⟨hv, (lookup_tabulate_eq_some.mp h).2⟩
  refine ⟨fun hmem => ?_, fun hnot => ?_⟩
  · obtain ⟨a, ha, hprops⟩ := Branch.statesRole_iff.mp (hstates.1 (hrole.mpr hmem))
    have hholds : ∀ p ∈ a.properties, g.holds (tabulate (varsOf (b ++ ext)) F) (a.name, p) = true :=
      fun p hp => hF.holds _ (mem_statements.mpr ⟨a, ha, rfl, hp⟩)
    obtain ⟨l', upper, hl', hupper, hsub⟩ := holds_sub_iff.mp (hholds (.sub (.var v)) (by simp [hprops]))
    obtain ⟨value, hvalue, hlabel⟩ := holds_iff.mp (hholds (.label l) (by simp [hprops]))
    obtain rfl : value = .concept l' := Option.some.inj (hvalue.symm.trans hl')
    obtain rfl : l' = l := beq_iff_eq.mp hlabel
    exact ⟨upper, hlookup (conceptUnder_var_eq_some.mp hupper), hsub⟩
  · have hisa := Branch.statesIsa_iff.mp (hstates.2 fun hmem => hnot (hrole.mp hmem))
    obtain ⟨id, i, l', hid, hi, hl', hsub⟩ := holds_isa_iff.mp (hF.holds _ hisa)
    obtain rfl := Option.some.inj hl'
    exact ⟨i.type, typeOf?_eq_some_iff.mpr ⟨id, i, hlookup hid, hi, rfl⟩, hsub⟩

end Graph

/-! ### Answers -/

namespace Branch.Inferred

variable {g : Graph} {b : Branch} {used names : List VarName} {out : Outcome}

/-- The matches of a branch with its extension, without the placeholders, are the matches of the branch that leave
room for every resolved type. -/
theorem exists_project_iff (h : b.Inferred g.ontology.solve used out) (wf : g.ontology.WellFormed)
    (hb : ∀ v ∈ varsOf b, v ∈ names) (hnames : ∀ v ∈ names, v ∈ used) {s : Answer} {i : Nat} :
    (∃ s' ∈ g.matchBranch (b ++ out.extension), s = s'.project names) ↔
      s ∈ g.matchBranch b ∧ ∀ v l, (v, l) ∈ (out.report i).resolved → g.Admits b s v l := by
  cases h with
  | skipped hhints =>
    have hnone : ∀ v ∈ varsOf Outcome.skipped.extension, v ∈ names → v ∈ varsOf b := by
      intro v hv
      cases hv
    rw [Graph.exists_project_iff hb hnone, Outcome.extension, List.append_nil, Graph.mem_matchBranch_iff]
    simp [Outcome.report]
  | @answered clues answers ext used' _ hclued hsolve hused hext =>
    have hresolved : ∀ {v : VarName} {c : ConceptName},
        (v, c) ∈ (Resolution.ofAnswers (.ofClues clues) answers).resolved → v ∈ varsOf b :=
      Branch.mem_varsOf_of_resolved wf hclued.gives hsolve
    have hkept : ∀ v ∈ names, v ∈ used' := fun v hv => hused v (Or.inr (hnames v hv))
    rw [Graph.exists_project_iff hb]
    · constructor
      · rintro ⟨F, hF, rfl⟩
        refine ⟨Graph.mem_matchBranch_iff.mpr ⟨F, (Graph.matches_append_iff.mp hF).1, rfl⟩, fun v l hv => ?_⟩
        obtain ⟨c, hc, rfl⟩ := Outcome.mem_report_resolved_iff.mp hv
        have hopen := (Resolution.resolved_spec hc).1
        exact hF.admits (hresolved hc) (Branch.mem_roles_iff_of_open hclued.gives hopen) (hext.states hc)
      · rintro ⟨hs, hadmits⟩
        obtain ⟨F, hF, rfl⟩ := Graph.mem_matchBranch_iff.mp hs
        obtain ⟨F', hsame, hF'⟩ := hF.append_extension wf (fun v hv => hkept v (hb v hv)) hclued.gives hsolve hext
          fun v c hc => hadmits v _ (Outcome.mem_report_resolved_iff.mpr ⟨c, hc, rfl⟩)
        exact ⟨F', hF', tabulate_congr (fun _ => Iff.rfl) fun v hv => (hsame v hv).symm⟩
    · intro v hv hname
      rcases hext.mem_varsOf hv with ⟨c, hc⟩ | ⟨hfresh, -⟩
      · exact hresolved hc
      · exact absurd (hkept v hname) hfresh

/-- A match with one role for each role variable leaves room for every resolved type. -/
theorem admits (h : b.Inferred g.ontology.solve used out) (wf : g.ontology.WellFormed) (hconf : g.Conforms)
    (hused : ∀ v ∈ varsOf b, v ∈ used) {s : Answer} (hs : s ∈ g.matchBranch b) (huniform : g.UniformlyCast b s)
    {i : Nat} {v : VarName} {l : Label} (hv : (v, l) ∈ (out.report i).resolved) : g.Admits b s v l := by
  cases h with
  | skipped hhints => cases hv
  | answered _ hclued hsolve _ _ =>
    obtain ⟨c, hc, rfl⟩ := Outcome.mem_report_resolved_iff.mp hv
    obtain ⟨F, hF, rfl⟩ := Graph.mem_matchBranch_iff.mp hs
    obtain ⟨f, hmodel, hlifts⟩ := hF.exists_model_of_uniformlyCast wf hconf hclued hused huniform
    exact hlifts.admits wf hmodel hclued.gives hsolve hc

/-- The matches of a branch are the matches of the branch with its extension, without the placeholders. -/
theorem mem_matchBranch_iff (h : b.Inferred g.ontology.solve used out) (wf : g.ontology.WellFormed) (hconf : g.Conforms)
    (hshare : b.roleVars.Nodup) (hb : ∀ v ∈ varsOf b, v ∈ names) (hnames : ∀ v ∈ names, v ∈ used) {s : Answer} :
    s ∈ g.matchBranch b ↔ ∃ s' ∈ g.matchBranch (b ++ out.extension), s = s'.project names := by
  rw [h.exists_project_iff wf hb hnames (i := 0)]
  refine ⟨fun hs => ⟨hs, fun v l hv => ?_⟩, And.left⟩
  obtain ⟨F, hF, rfl⟩ := Graph.mem_matchBranch_iff.mp hs
  exact h.admits wf hconf (fun v hv => hnames v (hb v hv)) hs (hF.uniformlyCast hconf hshare) hv

end Branch.Inferred

/-- Stating the inferred types keeps the answers: those of the new pattern, taken on the variables of the given one, are
those of the given one. -/
theorem Pattern.inferTypes_preserves_answers {d : Definition} {o : Ontology} (hload : d.load = .ok o) {g : Graph}
    (hg : g.ontology = o) (hconf : g.Conforms) {p : Pattern} (hshare : ∀ b ∈ p.branches, b.roleVars.Nodup)
    {settings : Settings} {t : Typed} (h : p.inferTypes settings o.store = .ok t) (s : Answer) :
    s ∈ g.answers p ↔ ∃ s' ∈ g.answers t.pattern, s = s'.project p.vars := by
  subst hg
  have wf := d.load_wellFormed hload
  obtain ⟨hok, rfl⟩ := Pattern.inferTypes_eq_ok_iff.mp h
  have hsteps := Pattern.map_fst_steps hok
  have hbranch : ∀ step ∈ (p.infer settings g.ontology.store).steps,
      s ∈ g.matchBranch step.1 ↔ ∃ s' ∈ g.matchBranch (step.1 ++ step.2.extension), s = s'.project p.vars := by
    intro step hstep
    obtain ⟨hmem, -, used, hused, hinferred⟩ := Pattern.inferred_of_mem_steps hok hstep
    exact hinferred.mem_matchBranch_iff wf hconf (hshare _ hmem) (Pattern.varsOf_subset_vars hmem) hused
  simp only [Graph.mem_answers_iff, Inference.branches_result hsteps]
  rw [← hsteps]
  constructor
  · rintro ⟨b, hb, hs⟩
    obtain ⟨step, hstep, rfl⟩ := List.mem_map.mp hb
    obtain ⟨s', hs', rfl⟩ := (hbranch step hstep).mp hs
    exact ⟨s', ⟨_, List.mem_map_of_mem hstep, hs'⟩, rfl⟩
  · rintro ⟨s', ⟨b, hb, hs'⟩, rfl⟩
    obtain ⟨step, hstep, rfl⟩ := List.mem_map.mp hb
    exact ⟨step.1, List.mem_map_of_mem hstep, (hbranch step hstep).mpr ⟨s', hs', rfl⟩⟩

/-- A movie in some role together with a performer, or else a person. -/
def castingPattern : Pattern :=
  .any [.ofAtoms castingBranch, .atom ⟨⟨"x"⟩, [.isa (.label ⟨"person"⟩)]⟩]

theorem inferTypes_preserves_answers_castingPattern :
    (filmDefinition.load = .ok filmOntology ∧ filmGraph.Conforms ∧ (∀ b ∈ castingPattern.branches, b.roleVars.Nodup) ∧
      ∃ s, s ∈ filmGraph.answers castingPattern) ∧
    ∃ t, castingPattern.inferTypes {} filmOntology.store = .ok t ∧ t.changed = true ∧
      ∀ s, s ∈ filmGraph.answers castingPattern ↔
        ∃ s' ∈ filmGraph.answers t.pattern, s = s'.project castingPattern.vars := by
  have hconf : filmGraph.Conforms := by decide +kernel
  have hshare : ∀ b ∈ castingPattern.branches, b.roleVars.Nodup := by decide +kernel
  obtain ⟨s, hs⟩ := List.exists_mem_of_ne_nil (filmGraph.matchBranch castingBranch) (by decide +kernel)
  refine ⟨⟨load_filmDefinition, hconf, hshare, s, Graph.mem_answers_iff.mpr ⟨castingBranch, by decide +kernel, hs⟩⟩, ?_⟩
  have hrun : (castingPattern.inferTypes {} filmOntology.store).toOption.any Typed.changed = true := by decide +kernel
  obtain ⟨t, h, hchanged⟩ := exists_ok_of_any hrun
  exact ⟨t, h, hchanged, Pattern.inferTypes_preserves_answers load_filmDefinition rfl hconf hshare h⟩

end OntologyTyping
