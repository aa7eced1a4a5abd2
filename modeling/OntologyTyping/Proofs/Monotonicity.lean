import OntologyTyping.Proofs.Kinds
import OntologyTyping.Proofs.Renaming
import OntologyTyping.Proofs.Unambiguous

/-!
A longer conjunction leaves less open.

The clues of a conjunction are among those of every longer one, under other names for the placeholders. So what the
longer one finds for a variable is among what the shorter one finds. A resolved variable stays resolved, unless its
type is now given or nothing answers any more, and an ambiguous one was ambiguous before, between at least as many
labels.
-/

namespace OntologyTyping

namespace Branch

variable {b more : Branch} {q q' : Query} {v : VarName}

theorem Unknown.append (h : b.Unknown q v) (hv : v ∈ varsOf b) (hmore : ∀ l, (v, .isa (.label l)) ∉ statements more) :
    Unknown (b ++ more) q' v := by
  refine ⟨fun l hl => ?_, fun _ => mem_varsOf_append.mpr (Or.inl hv)⟩
  rw [statements_append, List.mem_append] at hl
  exact hl.elim (h.1 l) (hmore l)

theorem Unknown.of_append (h : Unknown (b ++ more) q' v) (hv : v ∈ varsOf b) : b.Unknown q v := by
  refine ⟨fun l hl => h.1 l ?_, fun _ => hv⟩
  rw [statements_append]
  exact List.mem_append_left _ hl

end Branch

section Answered
variable {b : Branch} {used : List VarName} {cs : List Clue} {answers : List Binding} {ext : List Atom} {i : Nat}
  {v : VarName}

/-- An unknown variable with two labels is ambiguous between all its labels. -/
theorem Hint.Clued.exists_ambiguous (hclued : Hint.Clued used b.hints cs) (hused : ∀ v ∈ varsOf b, v ∈ used)
    (hunknown : b.Unknown (Evidence.ofClues cs).query v) {ls : List Label} (hlength : 2 ≤ ls.length) (hnodup : ls.Nodup)
    (hls : ∀ l ∈ ls, ∃ k, Bound answers v ⟨l, k⟩) :
    ∃ ls', (v, ls') ∈ ((Outcome.answered cs answers ext).report i).ambiguous ∧ ∀ l ∈ ls, l ∈ ls' := by
  have hsub : ls ⊆ (Ordered.tableOf (Candidates.given answers.flatten v)).map Prod.fst :=
    fun l hl => mem_labels_iff.mpr (hls l hl)
  refine ⟨_, (hclued.mem_report_ambiguous_iff hused).mpr ⟨hunknown, ?_, ?_, fun l => mem_labels_iff⟩, hsub⟩
  · exact hlength.trans (hnodup.subperm hsub).length_le
  · exact List.pairwise_map.mpr Ordered.isTable_tableOf

end Answered

/-! ### Clues of a longer conjunction -/

section Longer
variable {o : Ontology} {b more : Branch} {used used' : List VarName} {cs cs' : List Clue}
  {answers answers' : List Binding}
  {v : VarName}

variable (wf : o.WellFormed) (hclued : Hint.Clued used b.hints cs) (hused : ∀ v ∈ varsOf b, v ∈ used)
  (hclued' : Hint.Clued used' (Branch.hints (b ++ more)) cs') (hused' : ∀ v ∈ varsOf (b ++ more), v ∈ used')

include hclued hused hclued' hused' in
theorem Hint.Clued.exists_kept :
    ∃ π : Equiv.Perm VarName, (∀ v ∈ varsOf b, π v = v) ∧ ∀ c ∈ cs, c.rename π ∈ cs' := by
  rw [Branch.hints_append] at hclued'
  obtain ⟨π, rest, hfix, rfl, -⟩ := hclued.exists_rename_append hused hclued'
    fun v hv => hused' v (mem_varsOf_append.mpr (Or.inl hv))
  exact ⟨π, hfix, fun c hc => List.mem_append_left _ (List.mem_map_of_mem hc)⟩

include hclued hused hclued' hused' in
theorem Hint.Clued.mem_query_longer (hv : v ∈ varsOf b) (hquery : v ∈ varsOf (Evidence.ofClues cs).query) :
    v ∈ varsOf (Evidence.ofClues cs').query := by
  obtain ⟨π, hfix, hkept⟩ := hclued.exists_kept hused hclued' hused'
  obtain ⟨c, hc, hvc⟩ := Evidence.mem_varsOf_query.mp hquery
  refine Evidence.mem_varsOf_query.mpr ⟨_, hkept c hc, ?_⟩
  rw [Clue.vars_rename, ← hfix v hv]
  exact List.mem_map_of_mem hvc

include wf hclued hused hclued' hused' in
/-- What the longer conjunction finds for a variable, the shorter one does. -/
theorem Hint.Clued.bound_of_longer (hsolve : o.solve (Evidence.ofClues cs).query = .ok answers)
    (hsolve' : o.solve (Evidence.ofClues cs').query = .ok answers') (hv : v ∈ varsOf b)
    (hquery : v ∈ varsOf (Evidence.ofClues cs).query) {c : ConceptName} (hc : Bound answers' v c) :
    Bound answers v c := by
  obtain ⟨π, hfix, hkept⟩ := hclued.exists_kept hused hclued' hused'
  obtain ⟨-, f, hf, hname⟩ := (wf.bound_iff hsolve').mp hc
  refine (wf.bound_iff hsolve).mpr ⟨hquery, _, Evidence.models_of_kept hkept hf, ?_⟩
  rw [hfix v hv, hname]

variable {ext ext' : List Atom} {i : Nat} (hsolve : o.solve (Evidence.ofClues cs).query = .ok answers)
  (hsolve' : o.solve (Evidence.ofClues cs').query = .ok answers')

include wf hclued hused hclued' hused' hsolve hsolve' in
theorem Hint.Clued.resolved_longer (hne : answers' ≠ []) {l : Label}
    (hmore : ∀ l', (v, .isa (.label l')) ∉ statements more)
    (hl : (v, l) ∈ ((Outcome.answered cs answers ext).report i).resolved) :
    (v, l) ∈ ((Outcome.answered cs' answers' ext').report i).resolved := by
  obtain ⟨hunknown, ⟨c, hc⟩, hlabel, -⟩ := (hclued.mem_report_resolved_iff hused (wf.uniformKinds hsolve)).mp hl
  have hquery := ((wf.bound_iff hsolve).mp hc).1
  have hv := hunknown.2 hquery
  have hbound := wf.exists_bound hsolve' hne (hclued.mem_query_longer hused hclued' hused' hv hquery)
  refine (hclued'.mem_report_resolved_iff hused' (wf.uniformKinds hsolve')).mpr
    ⟨hunknown.append hv hmore, hbound, fun c' hc' => ?_, fun hrole c' hc' => ?_⟩
  · exact hlabel c' (hclued.bound_of_longer wf hused hclued' hused' hsolve hsolve' hv hquery hc')
  · exact wf.kind_of_roleVar hclued'.gives hsolve' hrole hc'

include wf hclued hused hclued' hused' hsolve hsolve' in
theorem Hint.Clued.ambiguous_of_longer (hv : v ∈ varsOf b) (hquery : v ∈ varsOf (Evidence.ofClues cs).query)
    {ls' : List Label} (hls' : (v, ls') ∈ ((Outcome.answered cs' answers' ext').report i).ambiguous) :
    ∃ ls, (v, ls) ∈ ((Outcome.answered cs answers ext).report i).ambiguous ∧ ∀ l ∈ ls', l ∈ ls := by
  obtain ⟨hunknown', hlength, hincreasing, hls⟩ := (hclued'.mem_report_ambiguous_iff hused').mp hls'
  have hnodup : ls'.Nodup := hincreasing.imp fun hlt heq => by simp [heq] at hlt
  refine hclued.exists_ambiguous hused (hunknown'.of_append hv) hlength hnodup fun l hl => ?_
  obtain ⟨k, hk⟩ := (hls l).mp hl
  exact ⟨k, hclued.bound_of_longer wf hused hclued' hused' hsolve hsolve' hv hquery hk⟩

end Longer

/-! ### Reports on a longer conjunction -/

/-- How the report on a longer conjunction relates to that on the first part of it, about which these queries were
asked. What is resolved stays so, unless it is now given or there are no answers; what is ambiguous was so before,
between no fewer labels. -/
structure BranchReport.Narrows (b more : Branch) (asked : List Query) (r r' : BranchReport) : Prop where
  resolved : ∀ v l, (v, l) ∈ r.resolved →
    (v, l) ∈ r'.resolved ∨ (∃ l', (v, .isa (.label l')) ∈ statements more) ∨ (r'.skipped = false ∧ r'.answerCount = 0)
  ambiguous : ∀ v ls', v ∈ varsOf b → (∃ q ∈ asked, v ∈ varsOf q) → (v, ls') ∈ r'.ambiguous →
    ∃ ls, (v, ls) ∈ r.ambiguous ∧ ∀ l ∈ ls', l ∈ ls

namespace Branch

variable {o : Ontology} {b more : Branch} {used used' : List VarName} {out out' : Outcome} {i : Nat}

theorem Inferred.narrows (h : b.Inferred o.solve used out) (wf : o.WellFormed) (hused : ∀ v ∈ varsOf b, v ∈ used)
    (h' : Inferred o.solve used' (b ++ more) out') (hused' : ∀ v ∈ varsOf (b ++ more), v ∈ used') :
    BranchReport.Narrows b more out.query?.toList (out.report i) (out'.report i) := by
  cases h with
  | skipped _ =>
    refine ⟨fun v l hl => ?_, fun v ls' _ hquery => ?_⟩
    · cases hl
    · simp [Outcome.query?] at hquery
  | @answered cs answers ext used₁ hhints hclued hsolve _ _ =>
    cases h' with
    | skipped hhints' =>
      rw [hints_append, List.append_eq_nil_iff] at hhints'
      exact absurd hhints'.1 hhints
    | @answered cs' answers' ext' used₁' hhints' hclued' hsolve' _ _ =>
      refine ⟨fun v l hl => ?_, fun v ls' hv hquery hls' => ?_⟩
      · by_cases hmore : ∃ l', (v, .isa (.label l')) ∈ statements more
        · exact Or.inr (Or.inl hmore)
        by_cases hnone : answers' = []
        · exact Or.inr (Or.inr ⟨rfl, by simp [Outcome.report, hnone]⟩)
        exact Or.inl (hclued.resolved_longer wf hused hclued' hused' hsolve hsolve' hnone (not_exists.mp hmore) hl)
      · have hquery : v ∈ varsOf (Evidence.ofClues cs).query := by simpa [Outcome.query?] using hquery
        exact hclued.ambiguous_of_longer wf hused hclued' hused' hsolve hsolve' hv hquery hls'

end Branch

/-- Inference is monotone: where a conjunction and a longer one can both be typed, the report on the longer one
narrows that on the first. -/
theorem Pattern.inferTypes_monotone {d : Definition} {o : Ontology} (hload : d.load = .ok o) {settings : Settings}
    {b more : Branch} {t t' : Typed} (h : (ofAtoms b).inferTypes settings o.store = .ok t)
    (h' : (ofAtoms (b ++ more)).inferTypes settings o.store = .ok t') :
    ∃ r r', t.report.branches = [r] ∧ t'.report.branches = [r'] ∧
      BranchReport.Narrows b more ((ofAtoms b).infer settings o.store).queries r r' := by
  have hnone := inferTypes_ofAtoms_isOk_iff.mp ⟨t, h⟩
  have hnone' := inferTypes_ofAtoms_isOk_iff.mp ⟨t', h'⟩
  refine ⟨_, _, (inferTypes_ofAtoms_eq_ok h).1, (inferTypes_ofAtoms_eq_ok h').1, ?_⟩
  have hqueries : ((ofAtoms b).infer settings o.store).queries =
      (b.infer settings o.store [] (.forAtoms settings.stem b)).1.query?.toList := by
    rw [Inference.queries, steps_ofAtoms, List.filterMap_cons, List.filterMap_nil]
    split <;> simp_all
  rw [hqueries]
  exact (Branch.infers.spec.2 hnone).narrows (d.load_wellFormed hload) (fun v hv => Supply.mem_forAtoms_used.mpr hv)
    (Branch.infers.spec.2 hnone') fun v hv => Supply.mem_forAtoms_used.mpr hv

/-- Someone whose variable has the name that a placeholder of the casting gets where it is free. -/
def namesakeBranch : Branch :=
  [⟨⟨"_0"⟩, [.isa (.label ⟨"person"⟩)]⟩]

theorem inferTypes_monotone_castingBranch :
    filmDefinition.load = .ok filmOntology ∧
      ∃ t t', (Pattern.ofAtoms castingBranch).inferTypes {} filmOntology.store = .ok t ∧
        (Pattern.ofAtoms (castingBranch ++ namesakeBranch)).inferTypes {} filmOntology.store = .ok t' ∧
        ∃ r r', t.report.branches = [r] ∧ t'.report.branches = [r'] ∧
          BranchReport.Narrows castingBranch namesakeBranch
            ((Pattern.ofAtoms castingBranch).infer {} filmOntology.store).queries r r' ∧
          (⟨"a"⟩, ⟨"work"⟩) ∈ r.resolved ∧ (⟨"a"⟩, ⟨"work"⟩) ∈ r'.resolved := by
  have hrun : ((Pattern.ofAtoms castingBranch).inferTypes {} filmOntology.store).toOption.any
      (fun t => t.report.branches.all fun r => decide ((⟨"a"⟩, ⟨"work"⟩) ∈ r.resolved)) = true := by decide +kernel
  have hrun' : ((Pattern.ofAtoms (castingBranch ++ namesakeBranch)).inferTypes {} filmOntology.store).toOption.any
      (fun t => t.report.branches.all fun r => decide (r.answerCount ≠ 0)) = true := by decide +kernel
  obtain ⟨t, h, ha⟩ := exists_ok_of_any hrun
  obtain ⟨t', h', hcount⟩ := exists_ok_of_any hrun'
  obtain ⟨r, r', hr, hr', hnarrows⟩ := Pattern.inferTypes_monotone load_filmDefinition h h'
  have ha : (⟨"a"⟩, ⟨"work"⟩) ∈ r.resolved := by simpa [hr] using ha
  have hcount : r'.answerCount ≠ 0 := by simpa [hr'] using hcount
  refine ⟨load_filmDefinition, t, t', h, h', r, r', hr, hr', hnarrows, ha, ?_⟩
  rcases hnarrows.resolved _ _ ha with ha' | ⟨l, hl⟩ | ⟨-, hnone⟩
  · exact ha'
  · simp [statements, namesakeBranch] at hl
  · exact absurd hnone hcount

end OntologyTyping
