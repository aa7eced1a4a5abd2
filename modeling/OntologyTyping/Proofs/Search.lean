import OntologyTyping.Proofs.Orders
import OntologyTyping.Proofs.Tables

/-!
The search finds exactly the assignments that satisfy all the constraints.

A constraint is tested at the variable that completes it. The invariant along the search is that every constraint whose
variables are all bound, the last of them on the way, holds; a constraint reads an assignment only at the variables it
mentions, so what was tested early still holds at the end.
-/

namespace OntologyTyping

open Ordered

variable {α γ : Type}

/-! ### Assignments as functions -/

/-- The assignment that gives each of the variables its value under a function. -/
def tabulate (vars : List VarName) (f : VarName → α) : Assignment α :=
  Ordered.tableOf (vars.map fun v => (v, f v))

theorem isTable_tabulate {vars : List VarName} {f : VarName → α} : IsTable (tabulate vars f) :=
  isTable_tableOf

theorem lookup_tabulate {vars : List VarName} {f : VarName → α} {v : VarName} :
    (tabulate vars f).lookup v = if v ∈ vars then some (f v) else none := by
  rw [tabulate, lookup_tableOf, ← List.map_reverse, lookup_map_pair]
  simp

theorem lookup_tabulate_of_mem {vars : List VarName} {f : VarName → α} {v : VarName} (hv : v ∈ vars) :
    (tabulate vars f).lookup v = some (f v) := by
  rw [lookup_tabulate, if_pos hv]

theorem lookup_tabulate_eq_some {vars : List VarName} {f : VarName → α} {v : VarName} {a : α} :
    (tabulate vars f).lookup v = some a ↔ v ∈ vars ∧ f v = a := by
  rw [lookup_tabulate]
  split <;> simp [*]

/-- A table is the tabulation of a function that agrees with its look-ups. -/
theorem eq_tabulate {s : Assignment α} (hs : IsTable s) {vars : List VarName} {f : VarName → α}
    (hin : ∀ v ∈ vars, s.lookup v = some (f v)) (hout : ∀ v, v ∉ vars → s.lookup v = none) : s = tabulate vars f := by
  refine hs.ext isTable_tabulate fun v => ?_
  rw [lookup_tabulate]
  by_cases hv : v ∈ vars
  · rw [if_pos hv, hin v hv]
  · rw [if_neg hv, hout v hv]

theorem tabulate_congr {vars vars' : List VarName} {f g : VarName → α} (hvars : ∀ v, v ∈ vars ↔ v ∈ vars')
    (h : ∀ v ∈ vars, f v = g v) : tabulate vars f = tabulate vars' g := by
  refine eq_tabulate isTable_tabulate (fun v hv => ?_) (fun v hv => ?_)
  · have hv' := (hvars v).mpr hv
    rw [lookup_tabulate_of_mem hv', h v hv']
  · rw [lookup_tabulate, if_neg (fun hv' => hv ((hvars v).mp hv'))]

namespace Search

/-! ### The search -/

/-- The test reads an assignment only at the variables that the constraint mentions. -/
def IsLocal (mentions : γ → List VarName) (holds : Assignment α → γ → Bool) : Prop :=
  ∀ (b b' : Assignment α) (c : γ), (∀ v ∈ mentions c, b.lookup v = b'.lookup v) → holds b c = holds b' c

variable {mentions : γ → List VarName} {domain : VarName → List α} {constraints : List γ}
  {holds : Assignment α → γ → Bool}

theorem mem_completedBy {bound : List VarName} {v : VarName} {c : γ} :
    c ∈ completedBy mentions bound v constraints ↔
      c ∈ constraints ∧ v ∈ mentions c ∧ ∀ w ∈ mentions c, w = v ∨ w ∈ bound := by
  simp [completedBy]

/-- The assignment extends `b` by values for the variables, and satisfies what these complete. -/
structure Extends (mentions : γ → List VarName) (domain : VarName → List α) (constraints : List γ)
    (holds : Assignment α → γ → Bool) (bound vars : List VarName) (b s : Assignment α) : Prop where
  table : IsTable s
  kept : ∀ v, v ∉ vars → s.lookup v = b.lookup v
  values : ∀ v ∈ vars, ∃ a ∈ domain v, s.lookup v = some a
  satisfied : ∀ c ∈ constraints, (∃ v ∈ mentions c, v ∈ vars) → (∀ v ∈ mentions c, v ∈ bound ∨ v ∈ vars) →
    holds s c = true

theorem Extends.tail (hlocal : IsLocal mentions holds) {bound rest : List VarName} {v : VarName} {b s : Assignment α}
    (hv : v ∉ rest) (hrest : ∀ w ∈ rest, w ∉ bound)
    (h : Extends mentions domain constraints holds bound (v :: rest) b s) :
    ∃ a ∈ domain v, (∀ c ∈ completedBy mentions bound v constraints, holds (put v a b) c = true) ∧
      Extends mentions domain constraints holds (v :: bound) rest (put v a b) s := by
  obtain ⟨a, ha, hsa⟩ := h.values v List.mem_cons_self
  have hput : ∀ w, w ∉ rest → s.lookup w = (put v a b).lookup w := by
    intro w hw
    rw [lookup_put]
    by_cases hwv : w = v
    · rw [if_pos hwv, hwv, hsa]
    · rw [if_neg hwv]
      exact h.kept w (by simp [hwv, hw])
  refine ⟨a, ha, fun c hc => ?_, ⟨h.table, hput, fun w hw => h.values w (List.mem_cons_of_mem _ hw), ?_⟩⟩
  · -- What `v` completes mentions nothing of the rest, so it reads `s` as it reads the assignment at hand.
    obtain ⟨hmem, hvc, hall⟩ := mem_completedBy.mp hc
    rw [← hlocal s _ c fun w hw => hput w fun hwr => ?_]
    · refine h.satisfied c hmem ⟨v, hvc, List.mem_cons_self⟩ fun w hw => ?_
      rcases hall w hw with rfl | hb
      · exact Or.inr List.mem_cons_self
      · exact Or.inl hb
    · rcases hall w hw with rfl | hb
      · exact hv hwr
      · exact hrest w hwr hb
  · intro c hc ⟨w, hwc, hwr⟩ hall
    refine h.satisfied c hc ⟨w, hwc, List.mem_cons_of_mem _ hwr⟩ fun u hu => ?_
    rcases hall u hu with hb | hr
    · rcases List.mem_cons.mp hb with rfl | hb
      · exact Or.inr List.mem_cons_self
      · exact Or.inl hb
    · exact Or.inr (List.mem_cons_of_mem _ hr)

theorem Extends.cons (hlocal : IsLocal mentions holds) {bound rest : List VarName} {v : VarName} {b s : Assignment α}
    {a : α} (hv : v ∉ rest) (ha : a ∈ domain v)
    (htests : ∀ c ∈ completedBy mentions bound v constraints, holds (put v a b) c = true)
    (h : Extends mentions domain constraints holds (v :: bound) rest (put v a b) s) :
    Extends mentions domain constraints holds bound (v :: rest) b s := by
  refine ⟨h.table, fun w hw => ?_, fun w hw => ?_, fun c hc hsome hall => ?_⟩
  · simp only [List.mem_cons, not_or] at hw
    obtain ⟨hwv, hwr⟩ := hw
    rw [h.kept w hwr, lookup_put, if_neg hwv]
  · rcases List.mem_cons.mp hw with rfl | hw
    · exact ⟨a, ha, by rw [h.kept w hv, lookup_put, if_pos rfl]⟩
    · exact h.values w hw
  · by_cases hr : ∃ w ∈ mentions c, w ∈ rest
    · refine h.satisfied c hc hr fun u hu => ?_
      rcases hall u hu with hb | hu
      · exact Or.inl (List.mem_cons_of_mem _ hb)
      · rcases List.mem_cons.mp hu with rfl | hu
        · exact Or.inl List.mem_cons_self
        · exact Or.inr hu
    · -- No variable of the constraint is still to come: it was tested at `v`.
      have hnone : ∀ w ∈ mentions c, w ∉ rest := fun w hw hwr => hr ⟨w, hw, hwr⟩
      have hmem : c ∈ completedBy mentions bound v constraints := by
        refine mem_completedBy.mpr ⟨hc, ?_, fun w hw => ?_⟩
        · obtain ⟨w, hw, hwv⟩ := hsome
          rcases List.mem_cons.mp hwv with rfl | hwr
          · exact hw
          · exact absurd hwr (hnone w hw)
        · rcases hall w hw with hb | hwv
          · exact Or.inr hb
          · exact Or.inl ((List.mem_cons.mp hwv).resolve_right (hnone w hw))
      rw [hlocal s _ c fun w hw => h.kept w (hnone w hw)]
      exact htests c hmem

/-- One step of the search: a value for the first variable that passes its tests, then the rest. -/
theorem extends_cons_iff (hlocal : IsLocal mentions holds) {bound rest : List VarName} {v : VarName}
    {b s : Assignment α} (hv : v ∉ rest) (hrest : ∀ w ∈ rest, w ∉ bound) :
    Extends mentions domain constraints holds bound (v :: rest) b s ↔
      ∃ a ∈ domain v, (∀ c ∈ completedBy mentions bound v constraints, holds (put v a b) c = true) ∧
        Extends mentions domain constraints holds (v :: bound) rest (put v a b) s := by
  constructor
  · exact fun h => h.tail hlocal hv hrest
  · rintro ⟨a, ha, htests, h⟩
    exact .cons hlocal hv ha htests h

/-- What the search finds from an assignment on. -/
theorem mem_run_iff (hlocal : IsLocal mentions holds) {vars bound : List VarName} {b s : Assignment α}
    (hb : IsTable b) (hnodup : vars.Nodup) (hnew : ∀ v ∈ vars, v ∉ bound) :
    s ∈ run holds (plan mentions domain constraints bound vars) b ↔
      Extends mentions domain constraints holds bound vars b s := by
  induction vars generalizing bound b with
  | nil =>
    simp only [plan, run, List.mem_singleton]
    constructor
    · rintro rfl
      exact ⟨hb, fun _ _ => rfl, by simp, by simp⟩
    · intro h
      exact h.table.ext hb fun v => h.kept v List.not_mem_nil
  | cons v rest ih =>
    obtain ⟨hv, hrest⟩ := List.nodup_cons.mp hnodup
    have hnew' : ∀ w ∈ rest, w ∉ v :: bound := by
      intro w hw hwb
      rcases List.mem_cons.mp hwb with rfl | hwb
      · exact hv hw
      · exact hnew w (List.mem_cons_of_mem _ hw) hwb
    rw [extends_cons_iff hlocal hv fun w hw => hnew w (List.mem_cons_of_mem _ hw)]
    simp only [plan, run, List.mem_flatMap, List.all_eq_true]
    refine exists_congr fun a => and_congr_right fun _ => ?_
    rw [← ih hb.put hrest hnew']
    by_cases htests : ∀ c ∈ completedBy mentions bound v constraints, holds (put v a b) c = true
    · rw [if_pos htests]
      exact (and_iff_right htests).symm
    · rw [if_neg htests]
      exact iff_of_false List.not_mem_nil fun h => htests h.1

/-- The search finds exactly the assignments of all the variables, each from its domain, that satisfy all the
constraints. -/
theorem mem_solve_iff [Inhabited α] (hlocal : IsLocal mentions holds) {vars : List VarName} (hnodup : vars.Nodup)
    (hsome : ∀ c ∈ constraints, mentions c ≠ []) (hvars : ∀ c ∈ constraints, ∀ v ∈ mentions c, v ∈ vars)
    {s : Assignment α} :
    s ∈ solve vars domain mentions constraints holds ↔
      ∃ f : VarName → α, (∀ v ∈ vars, f v ∈ domain v) ∧ s = tabulate vars f ∧ ∀ c ∈ constraints, holds s c = true := by
  rw [solve, mem_run_iff hlocal isTable_nil hnodup (by simp)]
  constructor
  · intro h
    have hf : ∀ v ∈ vars, s.lookup v = some ((s.lookup v).getD default) := by
      intro v hv
      obtain ⟨a, -, ha⟩ := h.values v hv
      simp [ha]
    refine ⟨fun v => (s.lookup v).getD default, fun v hv => ?_, eq_tabulate h.table hf fun v hv => h.kept v hv, ?_⟩
    · obtain ⟨a, ha, hsa⟩ := h.values v hv
      simpa [hsa] using ha
    · intro c hc
      obtain ⟨v, hv⟩ := List.exists_mem_of_ne_nil _ (hsome c hc)
      exact h.satisfied c hc ⟨v, hv, hvars c hc v hv⟩ fun w hw => Or.inr (hvars c hc w hw)
  · rintro ⟨f, hf, rfl, hholds⟩
    refine ⟨isTable_tabulate, fun v hv => ?_, fun v hv => ⟨f v, hf v hv, lookup_tabulate_of_mem hv⟩,
      fun c hc _ _ => hholds c hc⟩
    rw [lookup_tabulate, if_neg hv]
    rfl

end Search

/-! ### Statements and variables -/

theorem nodup_eraseDups [BEq α] [LawfulBEq α] (l : List α) : l.eraseDups.Nodup := by
  match l with
  | [] => simp
  | a :: rest =>
    rw [List.eraseDups_cons, List.nodup_cons]
    refine ⟨?_, nodup_eraseDups _⟩
    simp
termination_by l.length
decreasing_by exact Nat.lt_succ_of_le (List.length_filter_le _ _)

theorem nodup_varsOf {atoms : List Atom} : (varsOf atoms).Nodup :=
  nodup_eraseDups _

theorem mem_statements {atoms : List Atom} {v : VarName} {p : Property} :
    (v, p) ∈ statements atoms ↔ ∃ a ∈ atoms, a.name = v ∧ p ∈ a.properties := by
  simp only [statements, List.mem_flatMap, List.mem_map, Prod.mk.injEq]
  constructor
  · rintro ⟨a, ha, p, hp, hv, rfl⟩
    exact ⟨a, ha, hv, hp⟩
  · rintro ⟨a, ha, hv, hp⟩
    exact ⟨a, ha, p, hp, hv, rfl⟩

@[simp] theorem statements_append {as bs : List Atom} : statements (as ++ bs) = statements as ++ statements bs :=
  List.flatMap_append

theorem mem_varsOf {atoms : List Atom} {v : VarName} :
    v ∈ varsOf atoms ↔ ∃ a ∈ atoms, v = a.name ∨ ∃ p ∈ a.properties, v ∈ p.vars := by
  simp [varsOf, Atom.vars]

theorem mem_varsOf_append {b b' : List Atom} {v : VarName} : v ∈ varsOf (b ++ b') ↔ v ∈ varsOf b ∨ v ∈ varsOf b' := by
  simp only [mem_varsOf, List.mem_append, or_and_right, exists_or]

/-- Where every atom states something, the variables are those of the statements. -/
theorem mem_varsOf_iff_statements {atoms : List Atom} (h : ∀ a ∈ atoms, a.properties ≠ []) {v : VarName} :
    v ∈ varsOf atoms ↔ ∃ s ∈ statements atoms, v ∈ statementVars s := by
  rw [mem_varsOf]
  constructor
  · rintro ⟨a, ha, rfl | ⟨p, hp, hv⟩⟩
    · obtain ⟨p, hp⟩ := List.exists_mem_of_ne_nil _ (h a ha)
      exact ⟨(a.name, p), mem_statements.mpr ⟨a, ha, rfl, hp⟩, List.mem_cons_self⟩
    · exact ⟨(a.name, p), mem_statements.mpr ⟨a, ha, rfl, hp⟩, List.mem_cons_of_mem _ hv⟩
  · rintro ⟨⟨w, p⟩, hs, hv⟩
    obtain ⟨a, ha, rfl, hp⟩ := mem_statements.mp hs
    rcases List.mem_cons.mp hv with rfl | hv
    · exact ⟨a, ha, Or.inl rfl⟩
    · exact ⟨a, ha, Or.inr ⟨p, hp, hv⟩⟩

theorem statementVars_subset {atoms : List Atom} {s : Statement} (hs : s ∈ statements atoms) {v : VarName}
    (hv : v ∈ statementVars s) : v ∈ varsOf atoms := by
  obtain ⟨a, ha, hname, hp⟩ := mem_statements.mp hs
  rw [mem_varsOf]
  rcases List.mem_cons.mp hv with rfl | hv
  · exact ⟨a, ha, Or.inl hname.symm⟩
  · exact ⟨a, ha, Or.inr ⟨s.2, hp, hv⟩⟩

/-- The search over a list of atoms finds exactly the assignments of its variables, each from its domain, under
which every statement holds. -/
theorem Search.mem_solve_statements [Inhabited α] {atoms : List Atom} {domain : VarName → List α}
    {holds : Assignment α → Statement → Bool} (hlocal : IsLocal statementVars holds) {s : Assignment α} :
    s ∈ solve (varsOf atoms) domain statementVars (statements atoms) holds ↔
      ∃ f : VarName → α, (∀ v ∈ varsOf atoms, f v ∈ domain v) ∧ s = tabulate (varsOf atoms) f ∧
        ∀ st ∈ statements atoms, holds s st = true :=
  mem_solve_iff hlocal nodup_varsOf (fun _ _ => List.cons_ne_nil _ _) fun _ hc _ hv => statementVars_subset hc hv

end OntologyTyping
