import OntologyTyping.Proofs.Reclued
import OntologyTyping.Proofs.Runs

/-!
Inferring types again changes nothing.

The clues of a branch with its extension are those of the branch, up to the names of placeholders, and one literal
type for each resolved instance. These hold in every model already, so the second query has the answers of the
first. The candidates are the same, except that the resolved instances are known now; the resolved roles are stated
and so not stated again.
-/

namespace OntologyTyping

open Ordered

/-! ### Lists -/

theorem flatMap_filter_congr {α β : Type} {xs : List α} {keep : α → Bool} {f g : α → List β}
    (h : ∀ x ∈ xs, (if keep x then f x else []) = g x) : (xs.filter keep).flatMap f = xs.flatMap g := by
  induction xs with
  | nil => rfl
  | cons x rest ih =>
    rw [List.flatMap_cons, ← h x List.mem_cons_self, ← ih fun y hy => h y (List.mem_cons_of_mem _ hy), List.filter_cons]
    split <;> rfl

/-! ### The clues of an extended branch -/

/-- The hints of an extension are the literal types of the resolved instances. -/
theorem Branch.Extends.hints {b : Branch} {e : Evidence} {used : List VarName} {resolved : List (VarName × ConceptName)}
    {ext : List Atom} (hext : b.Extends e used resolved ext) {h : Hint} (hh : h ∈ Branch.hints ext) :
    ∃ v c, (v, c) ∈ resolved ∧ v ∉ e.roles ∧ h = .isa v c.label := by
  cases h with
  | isa w l =>
    obtain ⟨a, ha, hname, hp⟩ := mem_statements.mp (Branch.isa_mem_hints.mp hh)
    cases hext.adds ha with
    | @isa v c hc hv =>
      cases hname
      cases List.mem_singleton.mp hp
      exact ⟨v, c, hc, hv, rfl⟩
    | role _ _ _ => simp at hp
  | slot r filling =>
    obtain ⟨players, hs, -⟩ := Branch.slot_mem_hints.mp hh
    obtain ⟨a, ha, -, hp⟩ := mem_statements.mp hs
    cases hext.adds ha with
    | isa _ _ => simp at hp
    | role _ _ _ => simp at hp

theorem Branch.Extends.exists_reclued {b : Branch} {cs cs' : List Clue} {used used' used₂ : List VarName}
    {resolved : List (VarName × ConceptName)} {ext : List Atom}
    (hext : b.Extends (.ofClues cs) used' resolved ext) (hclued : Hint.Clued used b.hints cs)
    (hused : ∀ v ∈ varsOf b, v ∈ used) (hclued' : Hint.Clued used₂ (Branch.hints (b ++ ext)) cs')
    (hused₂ : ∀ v ∈ varsOf (b ++ ext), v ∈ used₂) : ∃ π, Reclued b cs resolved π cs' := by
  rw [Branch.hints_append] at hclued'
  obtain ⟨π, more, hfix, rfl, hmore⟩ := hclued.exists_rename_append hused hclued'
    fun v hv => hused₂ v (mem_varsOf_append.mpr (Or.inl hv))
  refine ⟨π, hfix, fun c hc => List.mem_append_left _ (List.mem_map_of_mem hc), fun d hd => ?_, fun v c hc hv => ?_⟩
  · rcases List.mem_append.mp hd with hd | hd
    · obtain ⟨c, hc, rfl⟩ := List.mem_map.mp hd
      exact Or.inl ⟨c, hc, rfl⟩
    · obtain ⟨h, hh, hg⟩ := Hint.exists_hint hmore hd
      obtain ⟨v, c, hc, hv, rfl⟩ := hext.hints hh
      cases hg
      exact Or.inr ⟨v, c, hc, hv, rfl⟩
  · have hstates := statesIsa_iff.mp ((hext.states hc).2 hv)
    obtain ⟨d, hd, hg⟩ := Hint.exists_clue hclued'.gives
      (Branch.hints_append ▸ Branch.isa_mem_hints.mpr hstates)
    cases hg
    exact hd

/-! ### The second resolution -/

namespace Reclued

variable {o : Ontology} {b : Branch} {cs cs' : List Clue} {answers answers' : List Binding} {π : Equiv.Perm VarName}

variable (h : Reclued b cs (Resolution.ofAnswers (.ofClues cs) answers).resolved π cs') (wf : o.WellFormed)
  (hgives : List.Forall₂ Hint.Gives b.hints cs) (hsolve : o.solve (Evidence.ofClues cs).query = .ok answers)
include h wf hgives hsolve

/-- How the second evidence sees the entry of a candidate: a role as before, and an instance only if it was not
resolved. -/
theorem entry_cases {v : VarName} {labels : List (Label × Kind)}
    (hmem : (v, labels) ∈ Candidates.ofAnswers (.ofClues cs) answers) :
    (v ∈ (Evidence.ofClues cs').roles ↔ v ∈ (Evidence.ofClues cs).roles) ∧
    (v ∈ (Evidence.ofClues cs).roles ↔ v ∈ b.roleVars) ∧
    ((Evidence.ofClues cs').isOpen v = true ↔ v ∈ b.roleVars ∨ labels.length ≠ 1) := by
  have hopen := (Candidates.mem_ofAnswers_iff.mp hmem).1
  have hv : π v = v := h.names v (Branch.mem_varsOf_of_candidate wf hgives hsolve hmem)
  have hroles := Branch.mem_roles_iff_of_open hgives hopen
  refine ⟨h.mem_roles_iff hv, hroles, ?_⟩
  rw [h.isOpen_iff hv, ← hroles]
  constructor
  · rintro ⟨-, hresolved⟩
    by_contra hnot
    obtain ⟨hrole, hlen⟩ := not_or.mp hnot
    obtain ⟨⟨l, k⟩, rfl⟩ := List.length_eq_one_iff.mp (not_not.mp hlen)
    exact hrole (hresolved ⟨l, k⟩ (Resolution.mem_resolved_iff.mpr ⟨hmem, fun hin => absurd hin hrole⟩))
  · intro hor
    refine ⟨hopen, fun c hc => hor.resolve_right fun hlen => hlen ?_⟩
    have hsingle := Candidates.isTable_ofAnswers.mem_iff.mp (Resolution.mem_resolved_iff.mp hc).1
    rw [Candidates.isTable_ofAnswers.mem_iff, hsingle] at hmem
    cases hmem
    rfl

/-- The ambiguous variables are the same: a variable that is no longer open was resolved. -/
theorem ambiguous_eq (hsolve' : o.solve (Evidence.ofClues cs').query = .ok answers') :
    (Resolution.ofAnswers (.ofClues cs') answers').ambiguous =
      (Resolution.ofAnswers (.ofClues cs) answers).ambiguous := by
  rw [Resolution.ofAnswers, Resolution.ofAnswers, h.candidates_eq (fun _ hr => hr) wf hgives hsolve hsolve']
  refine flatMap_filter_congr ?_
  rintro ⟨v, labels⟩ hmem
  obtain ⟨-, -, hopen⟩ := h.entry_cases wf hgives hsolve hmem
  simp only [Resolution.ofEntry_ambiguous, hopen]
  split
  · rfl
  · rename_i hnot
    have hlen : labels.length = 1 := not_not.mp (not_or.mp hnot).2
    simp [hlen]

/-- The resolved variables are those of the first that stand for roles. -/
theorem resolved_eq (hsolve' : o.solve (Evidence.ofClues cs').query = .ok answers') :
    (Resolution.ofAnswers (.ofClues cs') answers').resolved =
      (Resolution.ofAnswers (.ofClues cs) answers).resolved.filter fun e => e.1 ∈ b.roleVars := by
  rw [Resolution.ofAnswers, Resolution.ofAnswers, h.candidates_eq (fun _ hr => hr) wf hgives hsolve hsolve']
  simp only [Resolution.ofCandidates, List.filter_flatMap]
  refine flatMap_filter_congr ?_
  rintro ⟨v, labels⟩ hmem
  obtain ⟨hroles', hroles, hopen⟩ := h.entry_cases wf hgives hsolve hmem
  have hname : ∀ r ∈ (Resolution.ofEntry (.ofClues cs) (v, labels)).resolved, r.1 = v :=
    fun r hr => (Resolution.mem_ofEntry_resolved_iff.mp hr).1
  simp only [Resolution.ofEntry_congr hroles']
  by_cases hrole : v ∈ b.roleVars
  · rw [if_pos (hopen.mpr (Or.inl hrole)), List.filter_eq_self.mpr]
    intro r hr
    simpa [hname r hr] using hrole
  · have hnil : ((Resolution.ofEntry (.ofClues cs) (v, labels)).resolved.filter fun e => e.1 ∈ b.roleVars) = [] := by
      refine List.filter_eq_nil_iff.mpr fun r hr => ?_
      simpa [hname r hr] using hrole
    rw [hnil]
    split
    · rename_i hisOpen
      have hlen := (hopen.mp hisOpen).resolve_left hrole
      refine List.eq_nil_iff_forall_not_mem.mpr fun r hr => hlen ?_
      rw [(Resolution.mem_ofEntry_resolved_iff.mp hr).2.1]
      rfl
    · rfl

end Reclued

/-! ### The second run -/

/-- The report of a second run on a branch: the same, except that only roles are resolved. -/
structure BranchReport.Repeats (b : Branch) (r r' : BranchReport) : Prop where
  skipped : r'.skipped = r.skipped
  querySize : r'.querySize = r.querySize
  answerCount : r'.answerCount = r.answerCount
  ambiguous : r'.ambiguous = r.ambiguous
  resolved : r'.resolved = r.resolved.filter fun e => e.1 ∈ b.roleVars

/-- Inferring an extended branch adds nothing and finds what was found before. -/
theorem Branch.Inferred.again {o : Ontology} (wf : o.WellFormed) {b : Branch} {used used' : List VarName}
    {out out' : Outcome} (h : b.Inferred o.solve used out) (hused : ∀ v ∈ varsOf b, v ∈ used)
    (h' : Branch.Inferred o.solve used' (b ++ out.extension) out')
    (hused' : ∀ v ∈ varsOf (b ++ out.extension), v ∈ used') :
    out'.extension = [] ∧ ∀ i, BranchReport.Repeats b (out.report i) (out'.report i) := by
  cases h with
  | skipped hhints =>
    cases h' with
    | skipped _ => exact ⟨rfl, fun i => ⟨rfl, rfl, rfl, rfl, rfl⟩⟩
    | answered hhints' _ _ _ _ =>
      rw [Outcome.extension, List.append_nil] at hhints'
      exact absurd hhints hhints'
  | @answered clues answers ext used₁ hhints hclued hsolve _ hext =>
    cases h' with
    | skipped hhints' =>
      rw [Branch.hints_append] at hhints'
      exact absurd (List.append_eq_nil_iff.mp hhints').1 hhints
    | @answered clues' answers' ext' used₂ _ hclued' hsolve' _ hext' =>
      obtain ⟨π, h⟩ := hext.exists_reclued hclued hused hclued' hused'
      have hgives := hclued.gives
      have hresolved := h.resolved_eq wf hgives hsolve hsolve'
      refine ⟨hext'.eq_nil fun v c hc => ?_, fun i => ⟨rfl, ?_, ?_, ?_, ?_⟩⟩
      · rw [hresolved, List.mem_filter] at hc
        obtain ⟨hroles', hroles, -⟩ := h.entry_cases wf hgives hsolve (Resolution.mem_resolved_iff.mp hc.1).1
        have hrole := hroles.mpr (by simpa using hc.2)
        exact ⟨hroles'.mpr hrole, (hext.states hc.1).1 hrole⟩
      · exact h.length_query (fun _ hr => hr) wf hgives hsolve
      · exact (h.renames (fun _ hr => hr) wf hgives hsolve).length_answers wf hsolve hsolve'
      · exact h.ambiguous_eq wf hgives hsolve hsolve'
      · simp only [Outcome.report, hresolved, List.filter_map]
        rfl

/-- A slot of an extended branch is a slot of the branch. -/
theorem Branch.Inferred.slot_mem_hints {o : Ontology} {b : Branch} {used : List VarName} {out : Outcome}
    (h : b.Inferred o.solve used out) {r : VarName} {filling : RolePlayer}
    (hh : Hint.slot r filling ∈ Branch.hints (b ++ out.extension)) : Hint.slot r filling ∈ b.hints := by
  cases h with
  | skipped _ => rwa [Outcome.extension, List.append_nil] at hh
  | answered _ _ _ _ hext =>
    rw [Branch.hints_append, List.mem_append] at hh
    refine hh.resolve_right fun hmem => ?_
    obtain ⟨v, c, -, -, heq⟩ := hext.hints hmem
    cases heq

namespace Pattern

variable {settings : Settings} {o : Ontology} {p : Pattern}

/-- The second run does not fail: its slots without a role are those of the first. -/
theorem error?_second_run (hok : ∀ step ∈ (p.infer settings o.store).steps, step.2.error? = none) :
    ∀ step ∈ ((p.infer settings o.store).result.infer settings o.store).steps, step.2.error? = none := by
  intro step hstep
  obtain ⟨k, hk⟩ := List.mem_iff_getElem?.mp hstep
  obtain ⟨hmem, supply, -, hinfer⟩ := exists_infer hk
  rw [Inference.branches_result (map_fst_steps hok)] at hmem
  obtain ⟨step₁, hstep₁, hbranch⟩ := List.mem_map.mp hmem
  obtain ⟨-, hpolicy, used, -, hinferred⟩ := inferred_of_mem_steps hok hstep₁
  rw [hinfer, Branch.infers.error?_eq_none_iff, ← hbranch]
  exact hpolicy.imp_right fun hnone r p hh => hnone r p (hinferred.slot_mem_hints hh)

/-- Step by step, the second run adds nothing and finds what the first found. -/
theorem second_step (wf : o.WellFormed) (hok : ∀ step ∈ (p.infer settings o.store).steps, step.2.error? = none)
    {k : Nat} {step step' : Branch × Outcome} (hstep : (p.infer settings o.store).steps[k]? = some step)
    (hstep' : ((p.infer settings o.store).result.infer settings o.store).steps[k]? = some step') :
    step'.2.extension = [] ∧ BranchReport.Repeats step.1 (step.2.report k) (step'.2.report k) := by
  have hok' := error?_second_run hok
  have hbranch : step'.1 = step.1 ++ step.2.extension := by
    have hfst := congrArg (fun bs => bs[k]?)
      ((map_fst_steps hok').trans (Inference.branches_result (map_fst_steps hok)))
    simpa [hstep, hstep'] using hfst
  obtain ⟨hmem, -, used, hused, hinferred⟩ := inferred_of_mem_steps hok (List.mem_of_getElem? hstep)
  obtain ⟨hmem', -, used', hused', hinferred'⟩ := inferred_of_mem_steps hok' (List.mem_of_getElem? hstep')
  have hvars' : ∀ v ∈ varsOf step'.1, v ∈ used' := fun v hv => hused' v (varsOf_subset_vars hmem' v hv)
  rw [hbranch] at hinferred' hvars'
  obtain ⟨hext, hrepeats⟩ := hinferred.again wf (fun v hv => hused v (varsOf_subset_vars hmem v hv)) hinferred' hvars'
  exact ⟨hext, hrepeats k⟩

/-- Inferring the types of a pattern that has its types stated succeeds and changes nothing, and branch by branch
the report repeats the first one. -/
theorem inferTypes_idempotent {d : Definition} (hload : d.load = .ok o) {t : Typed}
    (h : p.inferTypes settings o.store = .ok t) :
    ∃ t', t.pattern.inferTypes settings o.store = .ok t' ∧ t'.changed = false ∧ t'.pattern = t.pattern ∧
      t.report.branches.length = p.branches.length ∧ t'.report.branches.length = p.branches.length ∧
      ∀ (k : Nat) (b : Branch) (r r' : BranchReport), p.branches[k]? = some b → t.report.branches[k]? = some r →
        t'.report.branches[k]? = some r' → BranchReport.Repeats b r r' := by
  have wf := d.load_wellFormed hload
  obtain ⟨hok, rfl⟩ := inferTypes_eq_ok_iff.mp h
  have hok' := error?_second_run hok
  have hsteps := map_fst_steps hok
  have hsteps' := (map_fst_steps hok').trans (Inference.branches_result hsteps)
  have hlength : ((p.infer settings o.store).result.infer settings o.store).steps.length =
      (p.infer settings o.store).steps.length := by
    simpa using congrArg List.length hsteps'
  have hbranches : (p.infer settings o.store).steps.length = p.branches.length := by
    simpa using congrArg List.length hsteps
  have hchanged : ((p.infer settings o.store).result.infer settings o.store).isChanged = false := by
    refine Inference.isChanged_eq_false_iff.mpr fun step' hmem => ?_
    obtain ⟨k, hk⟩ := List.mem_iff_getElem?.mp hmem
    have hlt : k < (p.infer settings o.store).steps.length := hlength ▸ (List.getElem?_eq_some_iff.mp hk).1
    exact (second_step wf hok (List.getElem?_eq_getElem hlt) hk).1
  refine ⟨_, inferTypes_eq_ok_iff.mpr ⟨hok', rfl⟩, hchanged, Inference.result_of_not_changed hchanged, ?_, ?_, ?_⟩
  · simpa [Inference.report] using hbranches
  · simpa [Inference.report] using hlength.trans hbranches
  · intro k b r r' hb hr hr'
    rw [Inference.getElem?_report, Option.map_eq_some_iff] at hr hr'
    obtain ⟨step, hstep, rfl⟩ := hr
    obtain ⟨step', hstep', rfl⟩ := hr'
    obtain rfl : step.1 = b := by
      rw [← hsteps, List.getElem?_map, hstep] at hb
      exact Option.some.inj hb
    exact (second_step wf hok hstep hstep').2

end Pattern

/-- A movie, and a performer in a casting with it or some person. -/
def moviePattern : Pattern :=
  .all [.atom ⟨⟨"x"⟩, [.isa (.label ⟨"movie"⟩)]⟩,
    .any [.atom ⟨⟨"r"⟩, [.relation [⟨some (.label ⟨"performer"⟩), ⟨"y"⟩⟩, ⟨some (.var ⟨"a"⟩), ⟨"x"⟩⟩]]⟩,
      .atom ⟨⟨"y"⟩, [.isa (.label ⟨"person"⟩)]⟩]]

theorem inferTypes_idempotent_moviePattern :
    filmDefinition.load = .ok filmOntology ∧
      ∃ t, moviePattern.inferTypes { keepGroups := true } filmOntology.store = .ok t ∧ t.changed = true ∧
        ∃ t', t.pattern.inferTypes { keepGroups := true } filmOntology.store = .ok t' ∧ t'.changed = false ∧
          t'.pattern = t.pattern ∧ t.report.branches.length = moviePattern.branches.length ∧
          t'.report.branches.length = moviePattern.branches.length ∧
          ∀ (k : Nat) (b : Branch) (r r' : BranchReport), moviePattern.branches[k]? = some b →
            t.report.branches[k]? = some r → t'.report.branches[k]? = some r' → BranchReport.Repeats b r r' := by
  have hrun :
      (moviePattern.inferTypes { keepGroups := true } filmOntology.store).toOption.any Typed.changed = true := by
    decide +kernel
  obtain ⟨t, h, hchanged⟩ := exists_ok_of_any hrun
  exact ⟨load_filmDefinition, t, h, hchanged, Pattern.inferTypes_idempotent load_filmDefinition h⟩

end OntologyTyping
