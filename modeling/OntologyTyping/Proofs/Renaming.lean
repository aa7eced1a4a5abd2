import OntologyTyping.Proofs.Candidates
import Mathlib.Logic.Equiv.Basic
import Mathlib.Data.List.Nodup

/-!
The names of placeholders do not matter.

Two lists of clues for the same hints differ by a permutation of names that moves placeholders only: where one has
the placeholder `a` and the other `a'`, the permutation for the rest is followed by a swap of the image of `a` with
`a'`. Queries that differ by a permutation have the same answers, up to it.
-/

namespace OntologyTyping

open Ordered

/-! ### Renamed clues -/

/-- The clue with other names for its variables. -/
def Clue.rename (π : VarName → VarName) : Clue → Clue
  | .isa v l => .isa (π v) l
  | .slot r p a source => .slot (π r) (π p) (π a) source

namespace Clue

variable {π σ : VarName → VarName} {c : Clue}

theorem vars_rename : (c.rename π).vars = c.vars.map π := by
  cases c <;> rfl

theorem subjects_rename : (c.rename π).subjects = c.subjects.map π := by
  rcases c with ⟨v, l⟩ | ⟨r, p, a, l | _ | _⟩ <;> rfl

theorem placeholder?_rename : (c.rename π).placeholder? = c.placeholder?.map π := by
  rcases c with ⟨v, l⟩ | ⟨r, p, a, l | _ | _⟩ <;> rfl

theorem placeholders_rename {cs : List Clue} : placeholders (cs.map (rename π)) = (placeholders cs).map π := by
  simp only [placeholders, List.filterMap_map, List.map_filterMap, Function.comp_def, placeholder?_rename]

theorem holds_rename {o : Ontology} {f : VarName → Concept} : (c.rename π).Holds o f ↔ c.Holds o fun v => f (π v) := by
  cases c <;> rfl

theorem rename_congr (h : ∀ v ∈ c.vars, π v = σ v) : c.rename π = c.rename σ := by
  cases c <;> simp_all [rename, vars]

end Clue

namespace Hint

/-- Two clues for one hint differ in their placeholders only. -/
theorem Gives.eq_rename {h : Hint} {c c' : Clue} (hg : Gives h c) (hg' : Gives h c') {π : VarName → VarName}
    (hvars : ∀ v ∈ h.vars, π v = v)
    (hplaceholder : ∀ a a', c.placeholder? = some a → c'.placeholder? = some a' → π a = a') : c' = c.rename π := by
  cases hg <;> cases hg' <;>
    simp_all [Hint.vars, Clue.rename, Clue.placeholder?, TypeRef.var?]

theorem Gives.placeholder?_isSome {h : Hint} {c c' : Clue} (hg : Gives h c) (hg' : Gives h c') :
    c.placeholder?.isSome = c'.placeholder?.isSome := by
  cases hg <;> cases hg' <;> rfl

/-- A permutation corrected at one name. -/
theorem exists_redirect (π : Equiv.Perm VarName) (a a' : VarName) :
    ∃ ρ : Equiv.Perm VarName, ρ a = a' ∧ ∀ v, v ≠ a → π v ≠ a' → ρ v = π v := by
  refine ⟨π.trans (Equiv.swap (π a) a'), ?_, fun v ha ha' => ?_⟩
  · rw [Equiv.trans_apply, Equiv.swap_apply_left]
  · rw [Equiv.trans_apply, Equiv.swap_apply_of_ne_of_ne (fun heq => ha (π.injective heq)) ha']

/-- Two lists of clues for the same hints differ by a permutation of names that moves none of the names of the hints. -/
theorem Clued.exists_rename {names : List VarName} {hs : List Hint} {cs cs' : List Clue} (h : Clued names hs cs)
    (h' : Clued names hs cs') (hvars : ∀ h ∈ hs, ∀ v ∈ h.vars, v ∈ names) :
    ∃ π : Equiv.Perm VarName, (∀ v ∈ names, π v = v) ∧ cs' = cs.map (Clue.rename π) := by
  induction hs generalizing cs cs' with
  | nil =>
    cases h.gives
    cases h'.gives
    exact ⟨Equiv.refl _, fun _ _ => rfl, rfl⟩
  | cons hint rest ih =>
    obtain ⟨c, ct, rfl, hg, hct, hplace⟩ := h.cons_inv
    obtain ⟨c', ct', rfl, hg', hct', hplace'⟩ := h'.cons_inv
    obtain ⟨π, hfix, rfl⟩ := ih hct hct' fun h hh => hvars h (List.mem_cons_of_mem _ hh)
    have hhead : ∀ v ∈ hint.vars, v ∈ names := hvars hint List.mem_cons_self
    have hsome := hg.placeholder?_isSome hg'
    cases ha : c.placeholder? with
    | none =>
      refine ⟨π, hfix, ?_⟩
      rw [List.map_cons, ← hg.eq_rename hg' (fun v hv => hfix v (hhead v hv)) (by simp [ha])]
    | some a =>
      rw [ha] at hsome
      obtain ⟨a', ha'⟩ := Option.isSome_iff_exists.mp hsome.symm
      obtain ⟨hnew, hother⟩ := hplace a ha
      obtain ⟨hnew', hother'⟩ := hplace' a' ha'
      obtain ⟨ρ, hρ, hkept⟩ := exists_redirect π a a'
      have hnames : ∀ v ∈ names, ρ v = v := by
        intro v hv
        have hne : π v ≠ a' := by
          rw [hfix v hv]
          exact ne_of_mem_of_not_mem hv hnew'
        rw [hkept v (ne_of_mem_of_not_mem hv hnew) hne, hfix v hv]
      refine ⟨ρ, hnames, ?_⟩
      rw [List.map_cons, ← hg.eq_rename hg' (fun v hv => hnames v (hhead v hv))]
      · congr 1
        refine List.map_congr_left fun d hd => Clue.rename_congr fun v hv => ?_
        -- The correction moves no name of the rest: neither the names of its hints nor its placeholders.
        obtain ⟨hint', hh', hgd⟩ := exists_hint hct.gives hd
        rcases hgd.vars_right hv with hv | hv
        · have hname := hvars hint' (List.mem_cons_of_mem _ hh') v hv
          rw [hfix v hname, hnames v hname]
        · have hmem : v ∈ Clue.placeholders ct := List.mem_filterMap.mpr ⟨d, hd, hv⟩
          have hmem' : π v ∈ Clue.placeholders (ct.map (Clue.rename π)) :=
            Clue.placeholders_rename ▸ List.mem_map_of_mem hmem
          exact (hkept v (ne_of_mem_of_not_mem hmem hother) (ne_of_mem_of_not_mem hmem' hother')).symm
      · intro b b' hb hb'
        rw [ha] at hb
        rw [ha'] at hb'
        cases hb
        cases hb'
        exact hρ

/-- The clues of more hints begin with those of the first, under other names. -/
theorem Clued.exists_rename_append {b : Branch} {hs : List Hint} {cs cs' : List Clue} {used used' : List VarName}
    (h : Clued used b.hints cs) (hused : ∀ v ∈ varsOf b, v ∈ used) (h' : Clued used' (b.hints ++ hs) cs')
    (hused' : ∀ v ∈ varsOf b, v ∈ used') :
    ∃ (π : Equiv.Perm VarName) (more : List Clue), (∀ v ∈ varsOf b, π v = v) ∧
      cs' = cs.map (Clue.rename π) ++ more ∧ List.Forall₂ Gives hs more := by
  obtain ⟨cs₁, more, rfl, h₁, hmore⟩ := h'.append_inv
  obtain ⟨π, hfix, rfl⟩ := (h.mono hused).exists_rename (h₁.mono hused') fun _ hh _ hv => Hint.vars_subset hh hv
  exact ⟨π, more, hfix, rfl, hmore⟩

end Hint

/-! ### Renamed queries -/

/-- A model of clues among which there are the given ones, under other names, is a model of these. -/
theorem Evidence.models_of_kept {o : Ontology} {cs cs' : List Clue} {π : VarName → VarName}
    (hkept : ∀ c ∈ cs, c.rename π ∈ cs') {f : VarName → Concept} (hf : o.Models (ofClues cs').query f) :
    o.Models (ofClues cs).query fun v => f (π v) := by
  rw [models_query_iff] at hf ⊢
  intro c hc
  obtain ⟨hdeclared, hholds⟩ := hf _ (hkept c hc)
  exact ⟨fun v hv => hdeclared (π v) (Clue.vars_rename ▸ List.mem_map_of_mem hv), Clue.holds_rename.mp hholds⟩

/-- The second query asks the same as the first under other names. -/
structure Ontology.Renames (o : Ontology) (π : Equiv.Perm VarName) (q q' : Query) : Prop where
  vars : ∀ v, π v ∈ varsOf q' ↔ v ∈ varsOf q
  models : ∀ f, o.Models q' f ↔ o.Models q fun v => f (π v)

namespace Ontology

variable {o : Ontology} {π : Equiv.Perm VarName} {q q' : Query} {answers answers' : List Binding}

theorem Renames.lookup_binding (h : o.Renames π q q') {f : VarName → Concept} {v : VarName} :
    (q'.binding f).lookup (π v) = (q.binding fun v => f (π v)).lookup v := by
  simp only [Query.binding, lookup_tabulate, h.vars]

theorem Renames.exists_answer (h : o.Renames π q q') (wf : o.WellFormed) (hsolve : o.solve q = .ok answers)
    (hsolve' : o.solve q' = .ok answers') {β : Binding} (hβ : β ∈ answers) :
    ∃ β' ∈ answers', ∀ v, β'.lookup (π v) = β.lookup v := by
  obtain ⟨f, hf, rfl⟩ := (wf.mem_answers_iff hsolve).mp hβ
  have hback : (fun v => f (π.symm (π v))) = f := by
    funext v
    rw [Equiv.symm_apply_apply]
  have hf' : o.Models q' fun v => f (π.symm v) := (h.models _).mpr (hback.symm ▸ hf)
  refine ⟨_, (wf.mem_answers_iff hsolve').mpr ⟨_, hf', rfl⟩, fun v => ?_⟩
  rw [h.lookup_binding, hback]

theorem Renames.exists_answer_symm (h : o.Renames π q q') (wf : o.WellFormed) (hsolve : o.solve q = .ok answers)
    (hsolve' : o.solve q' = .ok answers') {β' : Binding} (hβ' : β' ∈ answers') :
    ∃ β ∈ answers, ∀ v, β'.lookup (π v) = β.lookup v := by
  obtain ⟨f, hf, rfl⟩ := (wf.mem_answers_iff hsolve').mp hβ'
  exact ⟨_, (wf.mem_answers_iff hsolve).mpr ⟨_, (h.models f).mp hf, rfl⟩, fun v => h.lookup_binding⟩

theorem isTable_of_mem_answers (wf : o.WellFormed) (hsolve : o.solve q = .ok answers) {β : Binding} (hβ : β ∈ answers) :
    IsTable β := by
  obtain ⟨f, -, rfl⟩ := (wf.mem_answers_iff hsolve).mp hβ
  exact isTable_tabulate

theorem length_le_of_relates {xs ys : List Binding} {R : Binding → Binding → Prop} (hnodup : xs.Nodup)
    (hex : ∀ x ∈ xs, ∃ y ∈ ys, R x y) (hinj : ∀ x ∈ xs, ∀ x' ∈ xs, ∀ y, R x y → R x' y → x = x') :
    xs.length ≤ ys.length := by
  choose! image himage using hex
  have hmap : (xs.map image).Nodup := by
    refine List.Nodup.map_on (fun x hx x' hx' heq => hinj x hx x' hx' (image x) (himage x hx).2 ?_) hnodup
    rw [heq]
    exact (himage x' hx').2
  have hsub : xs.map image ⊆ ys := by
    intro y hy
    obtain ⟨x, hx, rfl⟩ := List.mem_map.mp hy
    exact (himage x hx).1
  simpa using (hmap.subperm hsub).length_le

/-- Under other names a query has as many answers. -/
theorem Renames.length_answers (h : o.Renames π q q') (wf : o.WellFormed) (hsolve : o.solve q = .ok answers)
    (hsolve' : o.solve q' = .ok answers') : answers'.length = answers.length := by
  refine Nat.le_antisymm ?_ ?_
  · refine length_le_of_relates (R := fun β' β => ∀ v, β'.lookup (π v) = β.lookup v) (answers_nodup hsolve')
      (fun β' hβ' => h.exists_answer_symm wf hsolve hsolve' hβ') fun x hx x' hx' y hy hy' => ?_
    refine (isTable_of_mem_answers wf hsolve' hx).ext (isTable_of_mem_answers wf hsolve' hx') fun v => ?_
    rw [← π.apply_symm_apply v, hy, hy']
  · refine length_le_of_relates (R := fun β β' => ∀ v, β'.lookup (π v) = β.lookup v) (answers_nodup hsolve)
      (fun β hβ => h.exists_answer wf hsolve hsolve' hβ) fun x hx x' hx' y hy hy' => ?_
    refine (isTable_of_mem_answers wf hsolve hx).ext (isTable_of_mem_answers wf hsolve hx') fun v => ?_
    rw [← hy, hy']

/-- A variable that keeps its name is given the same concepts. -/
theorem Renames.gives_iff (h : o.Renames π q q') (wf : o.WellFormed) (hsolve : o.solve q = .ok answers)
    (hsolve' : o.solve q' = .ok answers') {v : VarName} (hv : π v = v) {c : ConceptName} :
    (∃ β' ∈ answers', (v, c) ∈ β') ↔ ∃ β ∈ answers, (v, c) ∈ β := by
  constructor
  · rintro ⟨β', hβ', hc⟩
    obtain ⟨β, hβ, hlookup⟩ := h.exists_answer_symm wf hsolve hsolve' hβ'
    refine ⟨β, hβ, ?_⟩
    rw [(isTable_of_mem_answers wf hsolve hβ).mem_iff, ← hlookup, hv]
    exact (isTable_of_mem_answers wf hsolve' hβ').mem_iff.mp hc
  · rintro ⟨β, hβ, hc⟩
    obtain ⟨β', hβ', hlookup⟩ := h.exists_answer wf hsolve hsolve' hβ
    refine ⟨β', hβ', ?_⟩
    rw [(isTable_of_mem_answers wf hsolve' hβ').mem_iff, ← hv, hlookup]
    exact (isTable_of_mem_answers wf hsolve hβ).mem_iff.mp hc

end Ontology

end OntologyTyping
