import OntologyTyping.Inference.Basic
import OntologyTyping.Proofs.Renaming
import Mathlib.Data.List.Perm.Basic

/-!
Clues that say the same find out the same.

A second list of clues has those of the first under other names for the placeholders, in any order, and besides them
literal types that hold in every model already. So the second query has the answers of the first. What is open in it
has the candidates that it had, and where nothing is added the two resolutions are equal.
-/

namespace OntologyTyping

open Ordered

/-- The second list has the clues of the first under other names, and besides them literal types of resolved
instances. -/
structure Reclued (b : Branch) (cs : List Clue) (resolved : List (VarName × ConceptName)) (π : Equiv.Perm VarName)
    (cs' : List Clue) : Prop where
  names : ∀ v ∈ varsOf b, π v = v
  kept : ∀ c ∈ cs, c.rename π ∈ cs'
  cases : ∀ d ∈ cs', (∃ c ∈ cs, d = c.rename π) ∨
    ∃ v c, (v, c) ∈ resolved ∧ v ∉ (Evidence.ofClues cs).roles ∧ d = .isa v c.label
  stated : ∀ v c, (v, c) ∈ resolved → v ∉ (Evidence.ofClues cs).roles → .isa v c.label ∈ cs'

theorem Branch.mem_names_query {b : Branch} {cs : List Clue} (hgives : List.Forall₂ Hint.Gives b.hints cs) {v : VarName}
    (hv : v ∈ b.instanceVars) : v ∈ (Evidence.ofClues cs).query.map Atom.name := by
  obtain ⟨h, hh, hv⟩ := Branch.mem_instanceVars_iff.mp hv
  obtain ⟨c, hc, hg⟩ := Hint.exists_clue hgives hh
  refine Evidence.mem_names_query.mpr ⟨c, hc, ?_⟩
  cases hg <;> simp [Hint.instanceVars, Clue.subjects] at hv ⊢ <;> tauto

theorem Evidence.not_isOpen_placeholder {cs : List Clue} {c : Clue} (hc : c ∈ cs) {a : VarName}
    (ha : c.placeholder? = some a) : (ofClues cs).isOpen a = false := by
  rw [← Bool.not_eq_true, isOpen_iff, mem_known_iff, mem_synthesized_iff]
  rintro ⟨hknown, hsynthesized⟩
  rcases c with ⟨v, l⟩ | ⟨r, p, a, l | _ | _⟩ <;> cases ha
  · exact hknown (Or.inr ⟨r, p, l, hc⟩)
  · exact hsynthesized ⟨r, p, hc⟩

namespace Reclued

variable {o : Ontology} {b : Branch} {cs cs' : List Clue} {answers answers' : List Binding} {π : Equiv.Perm VarName}
  {resolved : List (VarName × ConceptName)}

/-- A slot of the second list stands in the first under the old names. -/
theorem slot_iff (h : Reclued b cs resolved π cs') {a : VarName} (ha : π a = a) {source : RoleSource} :
    (∃ r p, .slot r p a source ∈ cs') ↔ ∃ r p, .slot r p a source ∈ cs := by
  constructor
  · rintro ⟨r, p, hd⟩
    rcases h.cases _ hd with ⟨c, hc, heq⟩ | ⟨v, c, -, -, heq⟩
    · rcases c with ⟨v, l⟩ | ⟨r', p', a', source'⟩ <;> cases heq
      refine ⟨r', p', ?_⟩
      rwa [π.injective ha]
    · cases heq
  · rintro ⟨r, p, hc⟩
    exact ⟨π r, π p, ha ▸ h.kept _ hc⟩

theorem mem_roles_iff (h : Reclued b cs resolved π cs') {a : VarName} (ha : π a = a) :
    a ∈ (Evidence.ofClues cs').roles ↔ a ∈ (Evidence.ofClues cs).roles := by
  simp only [Evidence.mem_roles_iff, exists_or, h.slot_iff ha]

theorem isa_iff (h : Reclued b cs resolved π cs') {v : VarName} (hv : π v = v) :
    (∃ l, .isa v l ∈ cs') ↔ (∃ l, .isa v l ∈ cs) ∨ ∃ c, (v, c) ∈ resolved ∧ v ∉ (Evidence.ofClues cs).roles := by
  constructor
  · rintro ⟨l, hd⟩
    rcases h.cases _ hd with ⟨c, hc, heq⟩ | ⟨w, c, hc, hrole, heq⟩
    · rcases c with ⟨w, l'⟩ | ⟨r, p, a, source⟩ <;> cases heq
      refine Or.inl ⟨l, ?_⟩
      rwa [π.injective hv]
    · cases heq
      exact Or.inr ⟨c, hc, hrole⟩
  · rintro (⟨l, hc⟩ | ⟨c, hc, hrole⟩)
    · exact ⟨l, hv ▸ h.kept _ hc⟩
    · exact ⟨c.label, h.stated v c hc hrole⟩

/-- A variable of the branch is open again unless its literal type has been stated. -/
theorem isOpen_iff (h : Reclued b cs resolved π cs') {v : VarName} (hv : π v = v) :
    (Evidence.ofClues cs').isOpen v = true ↔
      (Evidence.ofClues cs).isOpen v = true ∧ ∀ c, (v, c) ∈ resolved → v ∈ (Evidence.ofClues cs).roles := by
  have hlabel : (∃ r p l, .slot r p v (.label l) ∈ cs') ↔ ∃ r p l, .slot r p v (.label l) ∈ cs := by
    have hslot : ∀ l, (∃ r p, Clue.slot r p v (.label l) ∈ cs') ↔ ∃ r p, Clue.slot r p v (.label l) ∈ cs :=
      fun l => h.slot_iff hv
    constructor
    · rintro ⟨r, p, l, hd⟩
      obtain ⟨r, p, hc⟩ := (hslot l).mp ⟨r, p, hd⟩
      exact ⟨r, p, l, hc⟩
    · rintro ⟨r, p, l, hc⟩
      obtain ⟨r, p, hd⟩ := (hslot l).mpr ⟨r, p, hc⟩
      exact ⟨r, p, l, hd⟩
  simp only [Evidence.isOpen_iff, Evidence.mem_known_iff, Evidence.mem_synthesized_iff, h.isa_iff hv, hlabel,
    h.slot_iff hv, not_or, not_exists, not_and, not_not]
  tauto

section Answered

variable (h : Reclued b cs resolved π cs')
  (hresolved : ∀ r ∈ resolved, r ∈ (Resolution.ofAnswers (.ofClues cs) answers).resolved) (wf : o.WellFormed)
  (hgives : List.Forall₂ Hint.Gives b.hints cs) (hsolve : o.solve (Evidence.ofClues cs).query = .ok answers)
include h hresolved wf hgives hsolve

/-- The second query asks what the first asks: the literal types of resolved instances hold in every model. -/
theorem renames :
    o.Renames π (Evidence.ofClues cs).query (Evidence.ofClues cs').query where
  vars v := by
    rw [Evidence.mem_varsOf_query]
    constructor
    · rintro ⟨d, hd, hv⟩
      rcases h.cases d hd with ⟨c, hc, rfl⟩ | ⟨w, c, hc, -, rfl⟩
      · rw [Clue.vars_rename, List.mem_map_of_injective π.injective] at hv
        exact Evidence.mem_varsOf_query.mpr ⟨c, hc, hv⟩
      · have hw : π w = w := h.names w (Branch.mem_varsOf_of_resolved wf hgives hsolve (hresolved _ hc))
        obtain rfl : v = w := π.injective ((List.mem_singleton.mp hv).trans hw.symm)
        exact wf.mem_varsOf_of_resolved hsolve (hresolved _ hc)
    · intro hv
      obtain ⟨c, hc, hv⟩ := Evidence.mem_varsOf_query.mp hv
      exact ⟨_, h.kept c hc, Clue.vars_rename ▸ List.mem_map_of_mem hv⟩
  models f := by
    constructor
    · exact Evidence.models_of_kept h.kept
    · intro hf
      rw [Evidence.models_query_iff]
      intro d hd
      rcases h.cases d hd with ⟨c, hc, rfl⟩ | ⟨v, c, hc, -, rfl⟩
      · obtain ⟨hdeclared, hholds⟩ := Evidence.models_query_iff.mp hf c hc
        refine ⟨fun w hw => ?_, Clue.holds_rename.mpr hholds⟩
        rw [Clue.vars_rename] at hw
        obtain ⟨v, hv, rfl⟩ := List.mem_map.mp hw
        exact hdeclared v hv
      · -- A literal type that was added: every model gives the resolved variable exactly this type.
        have hc := hresolved _ hc
        have hv : π v = v := h.names v (Branch.mem_varsOf_of_resolved wf hgives hsolve hc)
        have hdeclared := hf.declared v (wf.mem_varsOf_of_resolved hsolve hc)
        have hlabel := wf.label_of_resolved hsolve hc hf
        rw [hv] at hdeclared hlabel
        refine ⟨fun w hw => List.mem_singleton.mp hw ▸ hdeclared, ?_⟩
        rw [Clue.Holds, hlabel]
        exact Ontology.isSubtype_self (wf.concept?_eq_some_iff.mpr ⟨hdeclared, hlabel⟩)

theorem length_query :
    (Evidence.ofClues cs').query.length = (Evidence.ofClues cs).query.length := by
  have hperm : ((Evidence.ofClues cs').query.map Atom.name).Perm
      (((Evidence.ofClues cs).query.map Atom.name).map π) := by
    rw [List.perm_ext_iff_of_nodup Evidence.groups_query.distinct
      (Evidence.groups_query.distinct.map π.injective)]
    intro w
    constructor
    · intro hw
      obtain ⟨d, hd, hw⟩ := Evidence.mem_names_query.mp hw
      rcases h.cases d hd with ⟨c, hc, rfl⟩ | ⟨v, c, hc, hrole, rfl⟩
      · rw [Clue.subjects_rename] at hw
        obtain ⟨v, hv, rfl⟩ := List.mem_map.mp hw
        exact List.mem_map_of_mem (Evidence.mem_names_query.mpr ⟨c, hc, hv⟩)
      · obtain rfl := List.mem_singleton.mp hw
        have hc := hresolved _ hc
        have hquery := wf.mem_varsOf_of_resolved hsolve hc
        rcases Branch.kind_of_open hgives (Resolution.resolved_spec hc).1 hquery with ⟨hin, -⟩ | ⟨-, hmem⟩
        · exact absurd hin hrole
        · exact List.mem_map.mpr ⟨w, Branch.mem_names_query hgives hmem,
            h.names w (Branch.mem_varsOf_of_mem_instanceVars hmem)⟩
    · intro hw
      obtain ⟨v, hv, rfl⟩ := List.mem_map.mp hw
      obtain ⟨c, hc, hv⟩ := Evidence.mem_names_query.mp hv
      exact Evidence.mem_names_query.mpr ⟨_, h.kept c hc, Clue.subjects_rename ▸ List.mem_map_of_mem hv⟩
  simpa using hperm.length_eq

/-- What is open in the second query is a variable of the branch. -/
theorem mem_varsOf_of_isOpen {v : VarName} (hopen : (Evidence.ofClues cs').isOpen v = true)
    (hv : v ∈ varsOf (Evidence.ofClues cs').query) : v ∈ varsOf b := by
  obtain ⟨w, rfl⟩ := π.surjective v
  obtain ⟨c, hc, hw⟩ := Evidence.mem_varsOf_query.mp (((h.renames hresolved wf hgives hsolve).vars w).mp hv)
  obtain ⟨hint, hh, hg⟩ := Hint.exists_hint hgives hc
  rcases hg.vars_right hw with hw | hw
  · have hmem := Hint.vars_subset hh hw
    rwa [h.names w hmem]
  · have hplace : (c.rename π).placeholder? = some (π w) := by rw [Clue.placeholder?_rename, hw, Option.map_some]
    rw [Evidence.not_isOpen_placeholder (h.kept c hc) hplace] at hopen
    cases hopen

/-- The second candidates are those of the first that are still open. -/
theorem candidates_eq (hsolve' : o.solve (Evidence.ofClues cs').query = .ok answers') :
    Candidates.ofAnswers (.ofClues cs') answers' =
      (Candidates.ofAnswers (.ofClues cs) answers).filter fun e => (Evidence.ofClues cs').isOpen e.1 := by
  have hrenames := h.renames hresolved wf hgives hsolve
  refine Candidates.isTable_ofAnswers.ext Candidates.isTable_ofAnswers.filter fun v => ?_
  rw [lookup_filter (Evidence.ofClues cs').isOpen]
  by_cases hopen' : (Evidence.ofClues cs').isOpen v = true
  · rw [if_pos hopen', Candidates.lookup_ofAnswers, Candidates.lookup_ofAnswers]
    by_cases hb : v ∈ varsOf b
    · have hv := h.names v hb
      have hopen := ((h.isOpen_iff hv).mp hopen').1
      have hkeys : v ∈ answers'.flatten.map Prod.fst ↔ v ∈ answers.flatten.map Prod.fst := by
        simp only [Candidates.mem_keys_iff, hrenames.gives_iff wf hsolve hsolve' hv]
      have hgiven : tableOf (Candidates.given answers'.flatten v) = tableOf (Candidates.given answers.flatten v) := by
        refine (wf.uniformKinds hsolve').functional_given.tableOf_congr fun e => ?_
        rw [Candidates.mem_given_flatten, Candidates.mem_given_flatten, hrenames.gives_iff wf hsolve hsolve' hv]
      simp only [hopen, hopen', hkeys, hgiven]
    · -- Outside the branch there are only placeholders, and these are never open.
      rw [if_neg, if_neg]
      · rintro ⟨hopen, hkey⟩
        obtain ⟨c, β, hβ, hc⟩ := Candidates.mem_keys_iff.mp hkey
        exact hb (Branch.mem_varsOf_of_open hgives hopen (wf.mem_answer hsolve hβ hc).1)
      · rintro ⟨-, hkey⟩
        obtain ⟨c, β, hβ, hc⟩ := Candidates.mem_keys_iff.mp hkey
        exact hb (h.mem_varsOf_of_isOpen hresolved wf hgives hsolve hopen' (wf.mem_answer hsolve' hβ hc).1)
  · rw [if_neg hopen', Candidates.lookup_ofAnswers, if_neg fun hc => hopen' hc.1]

end Answered

/-! ### Nothing added -/

section Same

variable (h : Reclued b cs [] π cs') (wf : o.WellFormed) (hgives : List.Forall₂ Hint.Gives b.hints cs)
  (hsolve : o.solve (Evidence.ofClues cs).query = .ok answers)
  (hsolve' : o.solve (Evidence.ofClues cs').query = .ok answers')
include h wf hgives hsolve hsolve'

theorem length_answers : answers'.length = answers.length :=
  (h.renames (fun _ hr => by cases hr) wf hgives hsolve).length_answers wf hsolve hsolve'

theorem resolution_eq : Resolution.ofAnswers (.ofClues cs') answers' = Resolution.ofAnswers (.ofClues cs) answers := by
  have hnames : ∀ entry ∈ Candidates.ofAnswers (.ofClues cs) answers, π entry.1 = entry.1 := by
    rintro ⟨v, labels⟩ hmem
    exact h.names v (Branch.mem_varsOf_of_candidate wf hgives hsolve hmem)
  have hcandidates : Candidates.ofAnswers (.ofClues cs') answers' = Candidates.ofAnswers (.ofClues cs) answers := by
    rw [h.candidates_eq (fun _ hr => by cases hr) wf hgives hsolve hsolve', List.filter_eq_self]
    rintro ⟨v, labels⟩ hmem
    have hopen := (Candidates.mem_ofAnswers_iff.mp hmem).1
    exact (h.isOpen_iff (hnames _ hmem)).mpr ⟨hopen, fun c hc => by cases hc⟩
  have hentry : ∀ entry ∈ Candidates.ofAnswers (.ofClues cs) answers,
      Resolution.ofEntry (.ofClues cs') entry = Resolution.ofEntry (.ofClues cs) entry := by
    rintro ⟨v, labels⟩ hmem
    exact Resolution.ofEntry_congr (h.mem_roles_iff (hnames _ hmem))
  simp only [Resolution.ofAnswers, hcandidates, Resolution.ofCandidates, Resolution.mk.injEq]
  refine ⟨?_, ?_, ?_⟩ <;> exact List.flatMap_congr fun entry hmem => by rw [hentry entry hmem]

theorem report_eq {ext ext' : List Atom} (i : Nat) :
    (Outcome.answered cs' answers' ext').report i = (Outcome.answered cs answers ext).report i := by
  have hresolution := h.resolution_eq wf hgives hsolve hsolve'
  have hquery := h.length_query (fun _ hr => by cases hr) wf hgives hsolve
  have hlength := h.length_answers wf hgives hsolve hsolve'
  have hempty : answers'.isEmpty = answers.isEmpty := by
    rw [Bool.eq_iff_iff, List.isEmpty_iff_length_eq_zero, List.isEmpty_iff_length_eq_zero, hlength]
  simp only [Outcome.report, hresolution, hquery, hlength, hempty]

end Same

end Reclued

/-- The clues of the same hints in another order say the same. -/
theorem Hint.Clued.exists_reclued {b : Branch} {hs : List Hint} {cs cs' : List Clue} {used used' : List VarName}
    (hclued : Hint.Clued used b.hints cs) (hclued' : Hint.Clued used' hs cs') (hperm : b.hints.Perm hs)
    (hused : ∀ v ∈ varsOf b, v ∈ used) (hused' : ∀ v ∈ varsOf b, v ∈ used') : ∃ π, Reclued b cs [] π cs' := by
  obtain ⟨hgives, hdistinct, hfresh⟩ := hclued.mono hused
  -- The clues of the first hints, put in the order of the second.
  obtain ⟨cs₁, hgives₁, hperm₁⟩ : ∃ cs₁, List.Forall₂ Gives hs cs₁ ∧ cs₁.Perm cs :=
    List.perm_comp_forall₂ hperm.symm hgives
  have hplaceholders : (Clue.placeholders cs₁).Perm (Clue.placeholders cs) := hperm₁.filterMap _
  have hclued₁ : Clued (varsOf b) hs cs₁ :=
    ⟨hgives₁, hplaceholders.nodup_iff.mpr hdistinct, fun v hv => hfresh v (hplaceholders.mem_iff.mp hv)⟩
  obtain ⟨π, hfix, rfl⟩ := hclued₁.exists_rename (hclued'.mono hused')
    fun h hh v hv => Hint.vars_subset (hperm.mem_iff.mpr hh) hv
  refine ⟨π, hfix, fun c hc => List.mem_map_of_mem (hperm₁.mem_iff.mpr hc), fun d hd => ?_, fun v c hc => by cases hc⟩
  obtain ⟨c, hc, rfl⟩ := List.mem_map.mp hd
  exact Or.inl ⟨c, hperm₁.mem_iff.mp hc, rfl⟩

end OntologyTyping
