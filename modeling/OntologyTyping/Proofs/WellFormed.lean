import OntologyTyping.Ontology.Load
import OntologyTyping.Proofs.Orders
import Mathlib.Tactic.Common

/-!
What loading an ontology establishes.

A loaded ontology lists its concepts in increasing order of labels, so a label finds the one concept that has it.
Supertypes are declared and of the same kind, what is played or related is a declared role, and no label is met
twice on the way up.
-/

namespace OntologyTyping

/-! ### Checks in sequence -/

theorem bind_eq_ok {ε α β : Type} {x : Except ε α} {f : α → Except ε β} {b : β} :
    (x >>= f) = .ok b ↔ ∃ a, x = .ok a ∧ f a = .ok b := by
  cases x with
  | error e => simp [bind, Except.bind]
  | ok a => simp [bind, Except.bind]

theorem then_eq_ok {ε : Type} {x y : Except ε Unit} : (x >>= fun _ => y) = .ok () ↔ x = .ok () ∧ y = .ok () := by
  cases x with
  | error e => simp [bind, Except.bind]
  | ok a => simp [bind, Except.bind]

theorem forM_eq_ok {ε α : Type} {l : List α} {f : α → Except ε Unit} :
    l.forM f = .ok () ↔ ∀ a ∈ l, f a = .ok () := by
  induction l with
  | nil => simp [List.forM, pure, Except.pure]
  | cons a rest ih =>
    rw [show (a :: rest).forM f = (f a >>= fun _ => rest.forM f) from rfl, then_eq_ok, ih, List.forall_mem_cons]

theorem exists_ok_of_any {ε α : Type} {x : Except ε α} {test : α → Bool} (h : x.toOption.any test = true) :
    ∃ a, x = .ok a ∧ test a = true := by
  cases x with
  | error e => cases h
  | ok a => exact ⟨a, rfl, h⟩

/-! ### Well-formed ontologies -/

/-- The concepts increase by label. -/
def SortedConcepts (cs : List Concept) : Prop :=
  cs.Pairwise fun a b => compare a.label b.label = .lt

/-- What every loaded ontology satisfies. -/
structure Ontology.WellFormed (o : Ontology) : Prop where
  sorted : SortedConcepts o.concepts
  parents : ∀ c ∈ o.concepts, ∀ p, c.parent = some p → ∃ d, o.concept? p = some d ∧ d.kind = c.kind
  roles : ∀ c ∈ o.concepts, ∀ r ∈ c.plays ++ c.relates, ∃ d, o.concept? r = some d ∧ d.kind = .role
  acyclic : ∀ c ∈ o.concepts, o.isCyclic c.label = false

theorem mem_enterConcept {c d : Concept} {cs : List Concept} : d ∈ enterConcept c cs ↔ d = c ∨ d ∈ cs := by
  induction cs with
  | nil => simp [enterConcept]
  | cons e rest ih =>
    unfold enterConcept
    split
    · simp
    · simp only [List.mem_cons, ih]
      tauto

theorem SortedConcepts.enterConcept {c : Concept} {cs : List Concept} (hs : SortedConcepts cs)
    (hnew : cs.any (·.label == c.label) = false) : SortedConcepts (enterConcept c cs) := by
  induction cs with
  | nil => exact List.pairwise_singleton _ _
  | cons d rest ih =>
    obtain ⟨hd, hrest⟩ := List.pairwise_cons.mp hs
    simp only [List.any_cons, Bool.or_eq_false_iff, beq_eq_false_iff_ne] at hnew
    unfold OntologyTyping.enterConcept
    split
    · rename_i hlt
      refine List.pairwise_cons.mpr ⟨fun e he => ?_, hs⟩
      rcases List.mem_cons.mp he with rfl | he
      · exact hlt
      · exact Std.TransCmp.lt_trans hlt (hd e he)
    · rename_i hlt
      refine List.pairwise_cons.mpr ⟨fun e he => ?_, ih hrest hnew.2⟩
      rcases mem_enterConcept.mp he with rfl | he
      · cases hc : compare e.label d.label with
        | lt => exact absurd hc hlt
        | eq => exact absurd (Std.LawfulEqOrd.eq_of_compare hc).symm hnew.1
        | gt => exact Std.OrientedCmp.lt_of_gt hc
      · exact hd e he

theorem SortedConcepts.enterDeclared {entered cs out : List Concept} (hs : SortedConcepts entered)
    (h : enterDeclared entered cs = .ok out) : SortedConcepts out := by
  induction cs generalizing entered with
  | nil =>
    cases h
    exact hs
  | cons c rest ih =>
    unfold OntologyTyping.enterDeclared at h
    split at h
    · cases h
    · rename_i hnew
      exact ih (hs.enterConcept (by simpa using hnew)) h

theorem SortedConcepts.enterRoles {entered : List Concept} {roles : List Label} (hs : SortedConcepts entered) :
    SortedConcepts (enterRoles entered roles) := by
  unfold OntologyTyping.enterRoles
  induction roles generalizing entered with
  | nil => exact hs
  | cons r rest ih =>
    rw [List.foldl_cons]
    apply ih
    split
    · exact hs
    · rename_i hnew
      exact hs.enterConcept (by simpa using hnew)

theorem Ontology.checkParent_eq_ok_iff {o : Ontology} {c : Concept} :
    o.checkParent c = .ok () ↔ ∀ p, c.parent = some p → ∃ d, o.concept? p = some d ∧ d.kind = c.kind := by
  unfold Ontology.checkParent
  cases c.parent with
  | none => simp
  | some p =>
    cases hd : o.concept? p with
    | none => simp [hd]
    | some d => by_cases hkind : d.kind = c.kind <;> simp [hd, hkind]

theorem Ontology.checkRole_eq_ok_iff {o : Ontology} {owner role : Label} :
    o.checkRole owner role = .ok () ↔ ∃ d, o.concept? role = some d ∧ d.kind = .role := by
  unfold Ontology.checkRole
  cases o.concept? role with
  | none => simp
  | some d => by_cases hkind : d.kind = .role <;> simp [hkind]

theorem Ontology.checkCycle_eq_ok_iff {o : Ontology} {c : Concept} :
    o.checkCycle c = .ok () ↔ o.isCyclic c.label = false := by
  unfold Ontology.checkCycle
  cases o.isCyclic c.label <;> simp

theorem Ontology.check_eq_ok_iff {o : Ontology} (hs : SortedConcepts o.concepts) : o.check = .ok () ↔ o.WellFormed := by
  simp only [check, checkConcept, then_eq_ok, forM_eq_ok, checkParent_eq_ok_iff, checkRole_eq_ok_iff,
    checkCycle_eq_ok_iff]
  constructor
  · rintro ⟨hconcepts, hcycles⟩
    exact ⟨hs, fun c hc => (hconcepts c hc).1, fun c hc => (hconcepts c hc).2, hcycles⟩
  · intro wf
    exact ⟨fun c hc => ⟨wf.parents c hc, wf.roles c hc⟩, wf.acyclic⟩

/-- A loaded ontology is well formed. -/
theorem Definition.load_wellFormed {d : Definition} {o : Ontology} (h : d.load = .ok o) : o.WellFormed := by
  unfold Definition.load at h
  obtain ⟨entered, hentered, h⟩ := bind_eq_ok.mp h
  obtain ⟨_, hcheck, h⟩ := bind_eq_ok.mp h
  cases h
  have hsorted : SortedConcepts entered := SortedConcepts.enterDeclared List.Pairwise.nil hentered
  exact (Ontology.check_eq_ok_iff hsorted.enterRoles).mp hcheck

namespace Ontology

variable {o : Ontology}

/-! ### Labels and concepts -/

theorem concept?_mem {l : Label} {c : Concept} (h : o.concept? l = some c) : c ∈ o.concepts ∧ c.label = l :=
  ⟨List.mem_of_find?_eq_some h, by simpa using List.find?_some h⟩

theorem SortedConcepts.eq_of_label {cs : List Concept} (hs : SortedConcepts cs) {c d : Concept} (hc : c ∈ cs)
    (hd : d ∈ cs) (h : c.label = d.label) : c = d := by
  induction cs with
  | nil => cases hc
  | cons e rest ih =>
    obtain ⟨he, hrest⟩ := List.pairwise_cons.mp hs
    have hne : ∀ x ∈ rest, e.label ≠ x.label := fun x hx heq => by
      have := he x hx
      rw [heq, Std.ReflOrd.compare_self] at this
      cases this
    rcases List.mem_cons.mp hc with hce | hc
    · rcases List.mem_cons.mp hd with hde | hd
      · rw [hce, hde]
      · exact absurd (hce ▸ h) (hne d hd)
    · rcases List.mem_cons.mp hd with hde | hd
      · exact absurd (hde ▸ h.symm) (hne c hc)
      · exact ih hrest hc hd

theorem concept?_isSome_of_mem {c : Concept} (hc : c ∈ o.concepts) : ∃ d, o.concept? c.label = some d := by
  rw [← Option.isSome_iff_exists, concept?, List.find?_isSome]
  exact ⟨c, hc, beq_self_eq_true _⟩

/-- A label finds the concept that has it. -/
theorem SortedConcepts.concept?_eq_some_iff (hs : SortedConcepts o.concepts) {l : Label} {c : Concept} :
    o.concept? l = some c ↔ c ∈ o.concepts ∧ c.label = l := by
  constructor
  · exact concept?_mem
  · rintro ⟨hc, rfl⟩
    obtain ⟨d, hd⟩ := concept?_isSome_of_mem hc
    obtain ⟨hmem, hlabel⟩ := concept?_mem hd
    rw [hd, SortedConcepts.eq_of_label hs hmem hc hlabel]

theorem WellFormed.concept?_eq_some_iff (wf : o.WellFormed) {l : Label} {c : Concept} :
    o.concept? l = some c ↔ c ∈ o.concepts ∧ c.label = l :=
  SortedConcepts.concept?_eq_some_iff wf.sorted

/-! ### The way up -/

theorem mem_lineage {steps : Nat} {l : Label} {c : Concept} (h : c ∈ o.lineage steps l) : c ∈ o.concepts := by
  induction steps generalizing l with
  | zero => simp [lineage] at h
  | succ steps ih =>
    unfold lineage at h
    split at h
    · simp at h
    · rename_i d hd
      rcases List.mem_cons.mp h with rfl | h
      · exact (concept?_mem hd).1
      · split at h
        · simp at h
        · exact ih h

theorem concept?_of_mem_lineage {steps : Nat} {l : Label} {c : Concept} (h : c ∈ o.lineage steps l) :
    ∃ d, o.concept? l = some d := by
  cases steps with
  | zero => simp [lineage] at h
  | succ steps =>
    unfold lineage at h
    split at h
    · simp at h
    · exact ⟨_, ‹_›⟩

/-- Only declared labels have supertypes. -/
theorem concept?_of_isSubtype {a b : Label} (h : o.isSubtype a b = true) : ∃ c, o.concept? a = some c := by
  simp only [isSubtype, supertypes, List.contains_iff_mem, List.mem_map] at h
  obtain ⟨c, hc, -⟩ := h
  exact concept?_of_mem_lineage hc

/-- Every declared label is among its supertypes. -/
theorem isSubtype_self {c : Concept} {l : Label} (hc : o.concept? l = some c) : o.isSubtype l l = true := by
  obtain ⟨hmem, hlabel⟩ := concept?_mem hc
  have hpos : ∃ n, o.concepts.length = n + 1 := Nat.exists_eq_succ_of_ne_zero (by
    intro h0
    rw [List.length_eq_zero_iff.mp h0] at hmem
    cases hmem)
  obtain ⟨n, hn⟩ := hpos
  simp only [isSubtype, supertypes, List.contains_iff_mem, List.mem_map]
  refine ⟨c, ?_, hlabel⟩
  simp [ancestors, hn, lineage, hc]

/-! ### Roles -/

theorem plays_iff {type role : Label} :
    o.plays type role = true ↔
      ∃ c, o.concept? type = some c ∧ c.kind ≠ .role ∧ ∃ d ∈ o.ancestors type, role ∈ d.plays := by
  cases hc : o.concept? type <;> simp [plays, hc]

theorem relates_iff {type role : Label} :
    o.relates type role = true ↔
      ∃ c, o.concept? type = some c ∧ c.kind = .relation ∧ ∃ d ∈ o.ancestors type, role ∈ d.relates := by
  cases hc : o.concept? type <;> simp [relates, hc]

theorem kind_of_plays {type role : Label} {c : Concept} (h : o.plays type role = true) (hc : o.concept? type = some c) :
    c.kind ≠ .role := by
  obtain ⟨d, hd, hkind, -⟩ := plays_iff.mp h
  rw [hc] at hd
  cases hd
  exact hkind

theorem kind_of_relates {type role : Label} {c : Concept} (h : o.relates type role = true)
    (hc : o.concept? type = some c) : c.kind = .relation := by
  obtain ⟨d, hd, hkind, -⟩ := relates_iff.mp h
  rw [hc] at hd
  cases hd
  exact hkind

/-- Who plays is declared, and what is played is a declared role. -/
theorem WellFormed.plays_declared (wf : o.WellFormed) {type role : Label} (h : o.plays type role = true) :
    (∃ c, o.concept? type = some c) ∧ ∃ d, o.concept? role = some d ∧ d.kind = .role := by
  obtain ⟨c, hc, -, a, ha, hrole⟩ := plays_iff.mp h
  exact ⟨⟨c, hc⟩, wf.roles a (mem_lineage ha) role (List.mem_append_left _ hrole)⟩

/-- Who relates is declared, and what is related is a declared role. -/
theorem WellFormed.relates_declared (wf : o.WellFormed) {type role : Label} (h : o.relates type role = true) :
    (∃ c, o.concept? type = some c) ∧ ∃ d, o.concept? role = some d ∧ d.kind = .role := by
  obtain ⟨c, hc, -, a, ha, hrole⟩ := relates_iff.mp h
  exact ⟨⟨c, hc⟩, wf.roles a (mem_lineage ha) role (List.mem_append_right _ hrole)⟩

end Ontology

end OntologyTyping
