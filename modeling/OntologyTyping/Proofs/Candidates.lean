import OntologyTyping.Inference.Resolution
import OntologyTyping.Proofs.Evidence

/-!
What the candidates of a variable are, and when it is resolved.

The candidates of an open variable are the concepts that some answer gives it. It is resolved when there is one, and
ambiguous when there are several.
-/

namespace OntologyTyping

open Ordered

namespace Candidates

/-! ### What is noted -/

/-- The labels and kinds that the entries give to a variable. -/
def given (entries : List (VarName × ConceptName)) (v : VarName) : List (Label × Kind) :=
  (entries.filter fun e => e.1 = v).map fun e => (e.2.label, e.2.kind)

theorem mem_given {entries : List (VarName × ConceptName)} {v : VarName} {l : Label} {k : Kind} :
    (l, k) ∈ given entries v ↔ (v, ⟨l, k⟩) ∈ entries := by
  simp only [given, List.mem_map, List.mem_filter, decide_eq_true_eq, Prod.mk.injEq]
  constructor
  · rintro ⟨⟨w, c⟩, ⟨he, rfl⟩, rfl, rfl⟩
    exact he
  · intro he
    exact ⟨_, ⟨he, rfl⟩, rfl, rfl⟩

/-- The candidates from a list of entries. -/
def ofEntries (entries : List (VarName × ConceptName)) : Candidates :=
  entries.foldl (fun cs e => cs.note e.1 e.2) []

theorem isTable_ofEntries {entries : List (VarName × ConceptName)} : IsTable (ofEntries entries) := by
  unfold ofEntries
  induction entries using List.reverseRecOn with
  | nil => exact isTable_nil
  | append_singleton rest e ih =>
    rw [List.foldl_append]
    exact IsTable.put ih

theorem lookup_ofEntries {entries : List (VarName × ConceptName)} {v : VarName} :
    (ofEntries entries).lookup v = if v ∈ entries.map Prod.fst then some (tableOf (given entries v)) else none := by
  induction entries using List.reverseRecOn with
  | nil => rfl
  | append_singleton rest e ih =>
    have hnote : ofEntries (rest ++ [e]) = (ofEntries rest).note e.1 e.2 := by
      simp [ofEntries, List.foldl_append]
    rw [hnote, note, lookup_put]
    by_cases hv : v = e.1
    · subst hv
      have hgiven : given (rest ++ [e]) e.1 = given rest e.1 ++ [(e.2.label, e.2.kind)] := by
        simp [given, List.filter_append]
      have hold : ((ofEntries rest).lookup e.1).getD [] = tableOf (given rest e.1) := by
        rw [ih]
        split
        · rfl
        · rename_i hnot
          have hnil : given rest e.1 = [] := by
            rw [given, List.map_eq_nil_iff, List.filter_eq_nil_iff]
            intro d hd hde
            exact hnot (List.mem_map.mpr ⟨d, hd, by simpa using hde⟩)
          rw [hnil]
          rfl
      rw [if_pos rfl, if_pos (by simp), hgiven, hold, tableOf, tableOf, List.foldl_append]
      rfl
    · have hgiven : given (rest ++ [e]) v = given rest v := by
        simp [given, List.filter_append, Ne.symm hv]
      have hkeys : v ∈ (rest ++ [e]).map Prod.fst ↔ v ∈ rest.map Prod.fst := by simp [hv]
      simp only [if_neg hv, ih, hgiven, hkeys]

/-! ### Candidates from answers -/

variable {e : Evidence} {answers : List Binding}

theorem ofAnswers_eq_ofEntries : ofAnswers e answers = ofEntries (answers.flatten.filter fun en => e.isOpen en.1) := by
  rw [ofEntries, List.foldl_filter, List.foldl_flatten]
  rfl

theorem isTable_ofAnswers : IsTable (ofAnswers e answers) :=
  ofAnswers_eq_ofEntries ▸ isTable_ofEntries

theorem lookup_ofAnswers {v : VarName} :
    (ofAnswers e answers).lookup v =
      if e.isOpen v = true ∧ v ∈ answers.flatten.map Prod.fst then
        some (tableOf (given answers.flatten v)) else none := by
  rw [ofAnswers_eq_ofEntries, lookup_ofEntries]
  by_cases hv : e.isOpen v = true
  · have hgiven : given (answers.flatten.filter fun en => e.isOpen en.1) v = given answers.flatten v := by
      unfold given
      rw [List.filter_filter]
      congr 1
      apply List.filter_congr
      rintro ⟨w, c⟩ -
      by_cases hw : w = v
      · simp [hw, hv]
      · simp [hw]
    have hmem : v ∈ (answers.flatten.filter fun en => e.isOpen en.1).map Prod.fst ↔
        v ∈ answers.flatten.map Prod.fst := by
      simp only [List.mem_map, List.mem_filter]
      constructor
      · rintro ⟨en, ⟨hen, -⟩, rfl⟩
        exact ⟨en, hen, rfl⟩
      · rintro ⟨en, hen, rfl⟩
        exact ⟨en, ⟨hen, hv⟩, rfl⟩
    simp only [hgiven, hmem, hv, true_and]
  · have hmem : v ∉ (answers.flatten.filter fun en => e.isOpen en.1).map Prod.fst := by
      simp only [List.mem_map, List.mem_filter, not_exists, not_and]
      rintro en ⟨-, hopen⟩ rfl
      exact hv hopen
    rw [if_neg hmem, if_neg fun h => hv h.1]

theorem mem_keys_iff {v : VarName} : v ∈ answers.flatten.map Prod.fst ↔ ∃ c, ∃ b ∈ answers, (v, c) ∈ b := by
  simp only [List.mem_map, List.mem_flatten, Prod.exists, exists_and_right, exists_eq_right]

theorem mem_ofAnswers_iff {v : VarName} {labels : List (Label × Kind)} :
    (v, labels) ∈ ofAnswers e answers ↔
      e.isOpen v = true ∧ (∃ c, ∃ b ∈ answers, (v, c) ∈ b) ∧ labels = tableOf (given answers.flatten v) := by
  rw [isTable_ofAnswers.mem_iff, lookup_ofAnswers]
  split <;> rename_i h <;> rw [mem_keys_iff] at h
  · rw [Option.some.injEq, eq_comm (a := labels)]
    tauto
  · exact iff_of_false (by simp) fun h' => h ⟨h'.1, h'.2.1⟩

theorem mem_given_flatten {v : VarName} {l : Label} {k : Kind} :
    (l, k) ∈ given answers.flatten v ↔ ∃ b ∈ answers, (v, ⟨l, k⟩) ∈ b := by
  rw [mem_given, List.mem_flatten]

/-- A label that an answer gives to an open variable is among its candidates. -/
theorem exists_candidate {v : VarName} {b : Binding} {c : ConceptName} (hopen : e.isOpen v = true) (hb : b ∈ answers)
    (hc : (v, c) ∈ b) : ∃ labels, (v, labels) ∈ ofAnswers e answers ∧ c.label ∈ labels.map Prod.fst := by
  refine ⟨_, mem_ofAnswers_iff.mpr ⟨hopen, ⟨c, b, hb, hc⟩, rfl⟩, ?_⟩
  obtain ⟨k, hk⟩ := exists_mem_tableOf (mem_given_flatten.mpr ⟨b, hb, hc⟩ : (c.label, c.kind) ∈ given answers.flatten v)
  exact List.mem_map.mpr ⟨_, hk, rfl⟩

end Candidates

namespace Resolution

variable {e : Evidence} {answers : List Binding}

theorem mem_ofEntry_resolved_iff {v w : VarName} {labels : List (Label × Kind)} {c : ConceptName} :
    (w, c) ∈ (ofEntry e (v, labels)).resolved ↔ w = v ∧ labels = [(c.label, c.kind)] ∧
      (v ∈ e.roles → c.kind = .role) := by
  rcases labels with _ | ⟨⟨l, k⟩, _ | ⟨x, rest⟩⟩
  · simp [ofEntry, empty]
  · obtain ⟨l', k'⟩ := c
    simp only [ofEntry, Bool.and_eq_true, List.contains_iff_mem, bne_iff_ne, List.cons.injEq, Prod.mk.injEq, and_true]
    split
    · rename_i hkind
      refine iff_of_false List.not_mem_nil ?_
      rintro ⟨-, ⟨-, rfl⟩, hrole⟩
      exact hkind.2 (hrole hkind.1)
    · rename_i hkind
      simp only [List.mem_singleton, Prod.mk.injEq, ConceptName.mk.injEq]
      constructor
      · rintro ⟨rfl, rfl, rfl⟩
        exact ⟨rfl, ⟨rfl, rfl⟩, fun hrole => by_contra fun hne => hkind ⟨hrole, hne⟩⟩
      · rintro ⟨rfl, ⟨rfl, rfl⟩, -⟩
        exact ⟨rfl, rfl, rfl⟩
  · simp [ofEntry]

theorem length_ofEntry_resolved_le {entry : VarName × List (Label × Kind)} : (ofEntry e entry).resolved.length ≤ 1 := by
  obtain ⟨v, _ | ⟨⟨l, k⟩, _ | ⟨x, rest⟩⟩⟩ := entry
  · simp [ofEntry, empty]
  · simp only [ofEntry]
    split <;> simp
  · simp [ofEntry]

theorem ofEntry_ambiguous {v : VarName} {labels : List (Label × Kind)} :
    (ofEntry e (v, labels)).ambiguous = if 2 ≤ labels.length then [(v, labels.map Prod.fst)] else [] := by
  rcases labels with _ | ⟨⟨l, k⟩, _ | ⟨x, rest⟩⟩
  · rfl
  · simp only [ofEntry]
    split <;> rfl
  · rw [if_pos (by simp)]
    rfl

/-- Evidence matters only in so far as the variable stands for a role. -/
theorem ofEntry_congr {e e' : Evidence} {v : VarName} {labels : List (Label × Kind)} (h : v ∈ e'.roles ↔ v ∈ e.roles) :
    ofEntry e' (v, labels) = ofEntry e (v, labels) := by
  rcases labels with _ | ⟨⟨l, k⟩, _ | ⟨x, rest⟩⟩
  · rfl
  · simp only [ofEntry, Bool.and_eq_true, List.contains_iff_mem, h]
  · rfl

theorem mem_resolved_iff {v : VarName} {c : ConceptName} :
    (v, c) ∈ (ofAnswers e answers).resolved ↔
      (v, [(c.label, c.kind)]) ∈ Candidates.ofAnswers e answers ∧ (v ∈ e.roles → c.kind = .role) := by
  simp only [ofAnswers, ofCandidates, List.mem_flatMap, Prod.exists, mem_ofEntry_resolved_iff]
  constructor
  · rintro ⟨w, labels, hmem, rfl, rfl, hkind⟩
    exact ⟨hmem, hkind⟩
  · rintro ⟨hmem, hkind⟩
    exact ⟨v, _, hmem, rfl, rfl, hkind⟩

theorem mem_ambiguous_iff {v : VarName} {ls : List Label} :
    (v, ls) ∈ (ofAnswers e answers).ambiguous ↔
      ∃ labels, (v, labels) ∈ Candidates.ofAnswers e answers ∧ 2 ≤ labels.length ∧ ls = labels.map Prod.fst := by
  simp only [ofAnswers, ofCandidates, List.mem_flatMap, Prod.exists, ofEntry_ambiguous]
  constructor
  · rintro ⟨w, labels, hmem, h⟩
    split at h
    · rename_i hlen
      obtain ⟨rfl, rfl⟩ := Prod.mk.inj (List.mem_singleton.mp h)
      exact ⟨labels, hmem, hlen, rfl⟩
    · cases h
  · rintro ⟨labels, hmem, hlen, rfl⟩
    exact ⟨v, labels, hmem, by simp [hlen]⟩

theorem isTable_resolved : IsTable (ofAnswers e answers).resolved := by
  refine Candidates.isTable_ofAnswers.flatMap (fun _ _ => length_ofEntry_resolved_le) ?_
  rintro ⟨v, labels⟩ - ⟨w, c⟩ hw
  exact (mem_ofEntry_resolved_iff.mp hw).1

theorem isTable_ambiguous : IsTable (ofAnswers e answers).ambiguous := by
  refine Candidates.isTable_ofAnswers.flatMap ?_ ?_
  · rintro ⟨v, labels⟩ -
    rw [ofEntry_ambiguous]
    split <;> simp
  · rintro ⟨v, labels⟩ - d hd
    rw [ofEntry_ambiguous] at hd
    split at hd
    · rw [List.mem_singleton.mp hd]
    · cases hd

/-- A resolved variable is open, and every answer that binds it gives it the one label. -/
theorem resolved_spec {v : VarName} {c : ConceptName} (h : (v, c) ∈ (ofAnswers e answers).resolved) :
    e.isOpen v = true ∧ (∃ b ∈ answers, (v, c) ∈ b) ∧ ∀ b ∈ answers, ∀ c', (v, c') ∈ b → c'.label = c.label := by
  obtain ⟨hopen, -, hlabels⟩ := Candidates.mem_ofAnswers_iff.mp (mem_resolved_iff.mp h).1
  refine ⟨hopen, ?_, fun b hb c' hc' => ?_⟩
  · have hmem : (c.label, c.kind) ∈ tableOf (Candidates.given answers.flatten v) := by simp [← hlabels]
    exact Candidates.mem_given_flatten.mp (mem_of_mem_tableOf hmem)
  · obtain ⟨k, hk⟩ := exists_mem_tableOf (Candidates.mem_given_flatten.mpr ⟨b, hb, hc'⟩ :
      (c'.label, c'.kind) ∈ Candidates.given answers.flatten v)
    rw [← hlabels, List.mem_singleton] at hk
    exact (Prod.mk.inj hk).1

end Resolution

/-! ### Bound concepts -/

/-- Some answer gives the concept to the variable. -/
def Bound (answers : List Binding) (v : VarName) (c : ConceptName) : Prop :=
  ∃ β ∈ answers, (v, c) ∈ β

/-- In the answers a label always has the same kind. -/
def UniformKinds (answers : List Binding) : Prop :=
  ∀ β ∈ answers, ∀ e ∈ β, ∀ β' ∈ answers, ∀ e' ∈ β', e.2.label = e'.2.label → e.2.kind = e'.2.kind

instance (answers : List Binding) : Decidable (UniformKinds answers) := by
  unfold UniformKinds
  infer_instance

section Bound
variable {o : Ontology} {answers : List Binding} {q : Query} {v v' : VarName} {c c' : ConceptName}

theorem UniformKinds.eq_of_label (h : UniformKinds answers) (hc : Bound answers v c) (hc' : Bound answers v' c')
    (hlabel : c.label = c'.label) : c = c' := by
  obtain ⟨β, hβ, he⟩ := hc
  obtain ⟨β', hβ', he'⟩ := hc'
  have hkind := h β hβ _ he β' hβ' _ he' hlabel
  cases c
  cases c'
  exact congrArg₂ ConceptName.mk hlabel hkind

/-- The kind of a candidate is determined by its label. -/
theorem UniformKinds.functional_given (h : UniformKinds answers) : Functional (Candidates.given answers.flatten v) := by
  intro l k k' hk hk'
  have hc := h.eq_of_label (Candidates.mem_given_flatten.mp hk) (Candidates.mem_given_flatten.mp hk') rfl
  exact (ConceptName.mk.inj hc).2

namespace Ontology.WellFormed

/-- What is bound is what some model chooses. -/
theorem bound_iff (wf : o.WellFormed) (hsolve : o.solve q = .ok answers) :
    Bound answers v c ↔ v ∈ varsOf q ∧ ∃ f, o.Models q f ∧ (f v).name = c := by
  constructor
  · rintro ⟨β, hβ, hc⟩
    obtain ⟨f, hf, rfl⟩ := (wf.mem_answers_iff hsolve).mp hβ
    obtain ⟨hv, hname⟩ := lookup_tabulate_eq_some.mp (isTable_tabulate.mem_iff.mp hc)
    exact ⟨hv, f, hf, hname⟩
  · rintro ⟨hv, f, hf, hname⟩
    have hmem : (v, c) ∈ q.binding f := isTable_tabulate.mem_iff.mpr (lookup_tabulate_eq_some.mpr ⟨hv, hname⟩)
    exact ⟨_, (wf.mem_answers_iff hsolve).mpr ⟨f, hf, rfl⟩, hmem⟩

/-- If there are answers, they bind every variable of the query. -/
theorem exists_bound (wf : o.WellFormed) (hsolve : o.solve q = .ok answers) (hne : answers ≠ []) (hv : v ∈ varsOf q) :
    ∃ c, Bound answers v c := by
  obtain ⟨β, hβ⟩ := List.exists_mem_of_ne_nil _ hne
  obtain ⟨f, hf, -⟩ := (wf.mem_answers_iff hsolve).mp hβ
  exact ⟨_, (wf.bound_iff hsolve).mpr ⟨hv, f, hf, rfl⟩⟩

/-- An entry of an answer names a declared concept. -/
theorem mem_answer (wf : o.WellFormed) (hsolve : o.solve q = .ok answers) {β : Binding} (hβ : β ∈ answers)
    (hc : (v, c) ∈ β) : v ∈ varsOf q ∧ ∃ k ∈ o.concepts, k.name = c := by
  obtain ⟨hv, f, hf, hname⟩ := (wf.bound_iff hsolve).mp ⟨β, hβ, hc⟩
  exact ⟨hv, f v, hf.declared v hv, hname⟩

theorem uniformKinds (wf : o.WellFormed) (hsolve : o.solve q = .ok answers) : UniformKinds answers := by
  rintro β hβ ⟨v, c⟩ hc β' hβ' ⟨v', c'⟩ hc' hlabel
  obtain ⟨-, k, hk, rfl⟩ := wf.mem_answer hsolve hβ hc
  obtain ⟨-, k', hk', rfl⟩ := wf.mem_answer hsolve hβ' hc'
  rw [SortedConcepts.eq_of_label wf.sorted hk hk' hlabel]

end Ontology.WellFormed

end Bound

/-! ### Resolved variables -/

section Resolved
variable {o : Ontology} {b : Branch} {used : List VarName} {cs : List Clue} {answers : List Binding} {v : VarName}
  {c : ConceptName}

theorem Ontology.WellFormed.mem_varsOf_of_resolved (wf : o.WellFormed)
    (hsolve : o.solve (Evidence.ofClues cs).query = .ok answers)
    (hv : (v, c) ∈ (Resolution.ofAnswers (.ofClues cs) answers).resolved) : v ∈ varsOf (Evidence.ofClues cs).query := by
  obtain ⟨-, ⟨β, hβ, hc⟩, -⟩ := Resolution.resolved_spec hv
  exact (wf.mem_answer hsolve hβ hc).1

/-- Every model of the query gives a resolved variable its label. -/
theorem Ontology.WellFormed.label_of_resolved (wf : o.WellFormed)
    (hsolve : o.solve (Evidence.ofClues cs).query = .ok answers)
    (hv : (v, c) ∈ (Resolution.ofAnswers (.ofClues cs) answers).resolved) {f : VarName → Concept}
    (hf : o.Models (Evidence.ofClues cs).query f) : (f v).label = c.label := by
  obtain ⟨-, -, hall⟩ := Resolution.resolved_spec hv
  have hlookup : ((Evidence.ofClues cs).query.binding f).lookup v = some (f v).name :=
    lookup_tabulate_of_mem (wf.mem_varsOf_of_resolved hsolve hv)
  exact hall _ ((wf.mem_answers_iff hsolve).mpr ⟨f, hf, rfl⟩) _ (isTable_tabulate.mem_iff.mpr hlookup)

/-- An open variable stands for a role when it is a role variable of the branch. -/
theorem Branch.mem_roles_iff_of_open (hgives : List.Forall₂ Hint.Gives b.hints cs)
    (hopen : (Evidence.ofClues cs).isOpen v = true) : v ∈ (Evidence.ofClues cs).roles ↔ v ∈ b.roleVars := by
  rw [Evidence.mem_roles_iff, Branch.mem_roleVars_iff]
  constructor
  · rintro ⟨r, p, hslot | hslot⟩
    · obtain ⟨h, hh, hg⟩ := Hint.exists_hint hgives hslot
      cases hg
      exact ⟨r, p, hh⟩
    · exact absurd (Evidence.mem_synthesized_iff.mpr ⟨r, p, hslot⟩) (Evidence.isOpen_iff.mp hopen).2
  · rintro ⟨r, p, hh⟩
    obtain ⟨c, hc, hg⟩ := Hint.exists_clue hgives hh
    cases hg
    exact ⟨r, p, Or.inl hc⟩

/-- An open variable of the query is a role variable of the branch where it stands for a role, and else an instance. -/
theorem Branch.kind_of_open (hgives : List.Forall₂ Hint.Gives b.hints cs)
    (hopen : (Evidence.ofClues cs).isOpen v = true) (hquery : v ∈ varsOf (Evidence.ofClues cs).query) :
    (v ∈ (Evidence.ofClues cs).roles ∧ v ∈ b.roleVars) ∨ (v ∉ (Evidence.ofClues cs).roles ∧ v ∈ b.instanceVars) := by
  by_cases hrole : v ∈ (Evidence.ofClues cs).roles
  · exact Or.inl ⟨hrole, (mem_roles_iff_of_open hgives hopen).mp hrole⟩
  · obtain ⟨hknown, hsynthesized⟩ := Evidence.isOpen_iff.mp hopen
    rw [Evidence.mem_known_iff] at hknown
    rw [Evidence.mem_synthesized_iff] at hsynthesized
    refine Or.inr ⟨hrole, (Branch.mem_varsOf_query hgives hquery).resolve_right fun hmem => ?_⟩
    obtain ⟨⟨w, l⟩ | ⟨r, p, a, l | _ | _⟩, hc, ha⟩ := List.mem_filterMap.mp hmem <;> cases ha
    · exact hknown (Or.inr ⟨r, p, l, hc⟩)
    · exact hrole (Evidence.mem_roles_iff.mpr ⟨r, p, Or.inl hc⟩)
    · exact hsynthesized ⟨r, p, hc⟩

theorem Branch.mem_varsOf_of_mem_roleVars {a : VarName} (ha : a ∈ b.roleVars) : a ∈ varsOf b := by
  obtain ⟨r, p, hh⟩ := Branch.mem_roleVars_iff.mp ha
  exact Hint.vars_subset hh (by simp [Hint.vars, TypeRef.var?])

theorem Branch.mem_varsOf_of_mem_instanceVars (hv : v ∈ b.instanceVars) : v ∈ varsOf b := by
  obtain ⟨h, hh, hv⟩ := Branch.mem_instanceVars_iff.mp hv
  refine Hint.vars_subset hh ?_
  cases h with
  | isa w l => exact hv
  | slot r slot => exact List.mem_append_left _ hv

/-- An open variable of the query is a variable of the branch. -/
theorem Branch.mem_varsOf_of_open (hgives : List.Forall₂ Hint.Gives b.hints cs)
    (hopen : (Evidence.ofClues cs).isOpen v = true) (hquery : v ∈ varsOf (Evidence.ofClues cs).query) :
    v ∈ varsOf b := by
  rcases Branch.kind_of_open hgives hopen hquery with ⟨-, hmem⟩ | ⟨-, hmem⟩
  · exact mem_varsOf_of_mem_roleVars hmem
  · exact mem_varsOf_of_mem_instanceVars hmem

theorem Branch.mem_varsOf_of_resolved (wf : o.WellFormed) (hgives : List.Forall₂ Hint.Gives b.hints cs)
    (hsolve : o.solve (Evidence.ofClues cs).query = .ok answers)
    (hv : (v, c) ∈ (Resolution.ofAnswers (.ofClues cs) answers).resolved) : v ∈ varsOf b :=
  mem_varsOf_of_open hgives (Resolution.resolved_spec hv).1 (wf.mem_varsOf_of_resolved hsolve hv)

theorem Branch.mem_varsOf_of_candidate (wf : o.WellFormed) (hgives : List.Forall₂ Hint.Gives b.hints cs)
    (hsolve : o.solve (Evidence.ofClues cs).query = .ok answers) {labels : List (Label × Kind)}
    (hv : (v, labels) ∈ Candidates.ofAnswers (.ofClues cs) answers) : v ∈ varsOf b := by
  obtain ⟨hopen, ⟨c, β, hβ, hc⟩, -⟩ := Candidates.mem_ofAnswers_iff.mp hv
  exact mem_varsOf_of_open hgives hopen (wf.mem_answer hsolve hβ hc).1

end Resolved

end OntologyTyping
