import OntologyTyping.Proofs.WellFormed
import Mathlib.Data.List.Nodup
import Mathlib.Data.List.Perm.Subperm
import Mathlib.Logic.Relation

/-!
Supertypes form a forest.

A label has at most one parent, so the labels above it are a chain. The test for circles visits at most as many
labels as there are concepts and one more, which is enough to come back to a label of every circle: it passes
exactly when no label is above itself. Then the walk up from a label ends by itself before the bound on its steps,
and being a subtype is the reflexive and transitive closure of the step to the parent.
-/

namespace OntologyTyping

namespace Ontology

open Relation

variable {o : Ontology} {a b l p r : Label} {c d : Concept} {seen : List Label} {steps : Nat}

/-- The second label is declared as the supertype of the first. -/
def Parent (o : Ontology) (lower upper : Label) : Prop :=
  ∃ c, o.concept? lower = some c ∧ c.parent = some upper

/-- There is a concept with this label. -/
def HasConcept (o : Ontology) (l : Label) : Prop :=
  ∃ c, o.concept? l = some c

theorem Parent.hasConcept (h : o.Parent l p) : o.HasConcept l := by
  obtain ⟨c, hc, -⟩ := h
  exact ⟨c, hc⟩

theorem parent_rightUnique : Relator.RightUnique o.Parent := by
  rintro l p p' ⟨c, hc, hp⟩ ⟨c', hc', hp'⟩
  rw [hc] at hc'
  cases hc'
  exact Option.some.inj (hp.symm.trans hp')

/-! ### Circles -/

/-- There are no more distinct declared labels than concepts. -/
theorem length_le_of_declared (hseen : seen.Nodup) (hdeclared : ∀ l ∈ seen, o.HasConcept l) :
    seen.length ≤ o.concepts.length := by
  have hsub : seen ⊆ o.concepts.map Concept.label := by
    intro l hl
    obtain ⟨c, hc⟩ := hdeclared l hl
    obtain ⟨hmem, rfl⟩ := concept?_mem hc
    exact List.mem_map_of_mem hmem
  simpa using (hseen.subperm hsub).length_le

theorem revisits_succ_eq_false_iff :
    o.revisits (steps + 1) seen l = false ↔ l ∉ seen ∧ ∀ p, o.Parent l p → o.revisits steps (l :: seen) p = false := by
  simp only [revisits, Bool.or_eq_false_iff, List.contains_eq_mem, decide_eq_false_iff_not, Parent]
  refine and_congr_right fun _ => ?_
  cases hc : o.concept? l with
  | none => simp
  | some c => cases hp : c.parent <;> simp [hp]

theorem revisits_eq_false (hacyclic : ∀ l, ¬TransGen o.Parent l l) (hseen : ∀ s ∈ seen, TransGen o.Parent s l) :
    o.revisits steps seen l = false := by
  induction steps generalizing seen l with
  | zero => rfl
  | succ steps ih =>
    refine revisits_succ_eq_false_iff.mpr ⟨fun hl => hacyclic l (hseen l hl), fun p hp => ih fun s hs => ?_⟩
    rcases List.mem_cons.mp hs with rfl | hs
    · exact .single hp
    · exact (hseen s hs).tail hp

/-- On a circle the walk never ends, so each step that meets no label again needs one more concept. -/
theorem length_le_of_revisits (hcircle : TransGen o.Parent l l) (h : o.revisits steps seen l = false)
    (hseen : seen.Nodup) (hdeclared : ∀ s ∈ seen, o.HasConcept s) : steps + seen.length ≤ o.concepts.length := by
  induction steps generalizing seen l with
  | zero => simpa using length_le_of_declared hseen hdeclared
  | succ steps ih =>
    obtain ⟨hl, hnext⟩ := revisits_succ_eq_false_iff.mp h
    obtain ⟨p, hp, hback⟩ := TransGen.head'_iff.mp hcircle
    have hlen := ih (TransGen.tail' hback hp) (hnext p hp) (List.nodup_cons.mpr ⟨hl, hseen⟩)
      (List.forall_mem_cons.mpr ⟨hp.hasConcept, hdeclared⟩)
    rw [List.length_cons] at hlen
    omega

/-- The test for circles passes exactly when no label is above itself. -/
theorem isCyclic_eq_false_iff :
    (∀ c ∈ o.concepts, o.isCyclic c.label = false) ↔ ∀ l, ¬TransGen o.Parent l l := by
  constructor
  · intro h l hcircle
    obtain ⟨p, hp, -⟩ := TransGen.head'_iff.mp hcircle
    obtain ⟨c, hc⟩ := hp.hasConcept
    obtain ⟨hmem, rfl⟩ := concept?_mem hc
    have hlen := length_le_of_revisits hcircle (h c hmem) List.nodup_nil (by simp)
    exact absurd hlen (by simp)
  · exact fun hacyclic c _ => revisits_eq_false hacyclic (by simp)

theorem WellFormed.not_above_self (wf : o.WellFormed) (l : Label) : ¬TransGen o.Parent l l :=
  isCyclic_eq_false_iff.mp wf.acyclic l

/-! ### The walk up -/

/-- The walk up from a label, with no bound on its steps, ends and meets these concepts. -/
inductive Climbs (o : Ontology) : Label → List Concept → Prop
  | undeclared {l : Label} : o.concept? l = none → Climbs o l []
  | top {l : Label} {c : Concept} : o.concept? l = some c → c.parent = none → Climbs o l [c]
  | up {l p : Label} {c : Concept} {cs : List Concept} :
    o.concept? l = some c → c.parent = some p → Climbs o p cs → Climbs o l (c :: cs)

variable {cs cs' : List Concept}

theorem Climbs.unique (h : o.Climbs l cs) (h' : o.Climbs l cs') : cs = cs' := by
  induction h generalizing cs' with
  | undeclared hl => cases h' <;> simp_all
  | top hl hp => cases h' <;> simp_all
  | up hl hp _ ih =>
    cases h' with
    | undeclared hl' => simp_all
    | top hl' hp' => simp_all
    | up hl' hp' hrest =>
      rw [hl] at hl'
      cases hl'
      rw [hp] at hp'
      cases hp'
      rw [ih hrest]

/-- The walk meets the declared labels at or above its start. -/
theorem Climbs.mem_iff (h : o.Climbs l cs) :
    d ∈ cs ↔ ReflTransGen o.Parent l d.label ∧ o.concept? d.label = some d := by
  induction h with
  | undeclared hl =>
    refine iff_of_false List.not_mem_nil ?_
    rintro ⟨habove, hd⟩
    rcases habove.cases_head with rfl | ⟨p, ⟨c, hc, -⟩, -⟩ <;> simp_all
  | top hl hp =>
    rw [List.mem_singleton]
    constructor
    · rintro rfl
      obtain ⟨-, rfl⟩ := concept?_mem hl
      exact ⟨.refl, hl⟩
    · rintro ⟨habove, hd⟩
      rcases habove.cases_head with rfl | ⟨p, ⟨c, hc, hp'⟩, -⟩ <;> simp_all
  | up hl hp _ ih =>
    rw [List.mem_cons, ih]
    constructor
    · rintro (rfl | ⟨habove, hd⟩)
      · obtain ⟨-, rfl⟩ := concept?_mem hl
        exact ⟨.refl, hl⟩
      · exact ⟨.head ⟨_, hl, hp⟩ habove, hd⟩
    · rintro ⟨habove, hd⟩
      rcases habove.cases_head with rfl | ⟨p, hp', habove⟩
      · exact Or.inl (Option.some.inj (hd.symm.trans hl))
      · cases parent_rightUnique ⟨_, hl, hp⟩ hp'
        exact Or.inr ⟨habove, hd⟩

theorem Climbs.pairwise (h : o.Climbs l cs) : cs.Pairwise fun c d => TransGen o.Parent c.label d.label := by
  induction h with
  | undeclared _ => exact .nil
  | top _ _ => exact List.pairwise_singleton _ _
  | up hl hp hrest ih =>
    obtain ⟨-, rfl⟩ := concept?_mem hl
    exact List.pairwise_cons.mpr ⟨fun d hd => .head' ⟨_, hl, hp⟩ (hrest.mem_iff.mp hd).1, ih⟩

namespace WellFormed

variable (wf : o.WellFormed)
include wf

theorem nodup_passed (hseen : seen.Nodup) (hbelow : ∀ s ∈ seen, TransGen o.Parent s l) : (l :: seen).Nodup :=
  List.nodup_cons.mpr ⟨fun hl => wf.not_above_self l (hbelow l hl), hseen⟩

/-- Having passed `seen`, the walk needs no more steps than there are concepts left. -/
theorem climbs_lineage (hseen : seen.Nodup) (hdeclared : ∀ s ∈ seen, o.HasConcept s)
    (hbelow : ∀ s ∈ seen, TransGen o.Parent s l) (hsteps : steps + seen.length = o.concepts.length) :
    o.Climbs l (o.lineage steps l) := by
  induction steps generalizing seen l with
  | zero =>
    -- Every concept has been passed, so the label at hand, which is new, is not declared.
    cases hc : o.concept? l with
    | none => exact .undeclared hc
    | some c =>
      have hlen := length_le_of_declared (wf.nodup_passed hseen hbelow) (List.forall_mem_cons.mpr ⟨⟨c, hc⟩, hdeclared⟩)
      rw [List.length_cons] at hlen
      omega
  | succ steps ih =>
    unfold lineage
    cases hc : o.concept? l with
    | none => exact .undeclared hc
    | some c =>
      cases hp : c.parent with
      | none => simpa [hp] using .top hc hp
      | some p =>
        have hparent : o.Parent l p := ⟨c, hc, hp⟩
        have hbelow' : ∀ s ∈ l :: seen, TransGen o.Parent s p :=
          List.forall_mem_cons.mpr ⟨.single hparent, fun s hs => (hbelow s hs).tail hparent⟩
        have hrest : o.Climbs p (o.lineage steps p) := by
          refine ih (wf.nodup_passed hseen hbelow) (List.forall_mem_cons.mpr ⟨⟨c, hc⟩, hdeclared⟩) hbelow' ?_
          rw [List.length_cons]
          omega
        simpa [hp] using .up hc hp hrest

theorem climbs_ancestors (l : Label) : o.Climbs l (o.ancestors l) :=
  wf.climbs_lineage List.nodup_nil (by simp) (by simp) (by simp)

theorem mem_ancestors_iff : d ∈ o.ancestors l ↔ ReflTransGen o.Parent l d.label ∧ o.concept? d.label = some d :=
  (wf.climbs_ancestors l).mem_iff

theorem nodup_supertypes (l : Label) : (o.supertypes l).Nodup := by
  refine List.pairwise_map.mpr ((wf.climbs_ancestors l).pairwise.imp fun habove heq => ?_)
  rw [heq] at habove
  exact wf.not_above_self _ habove

theorem length_supertypes_le (l : Label) : (o.supertypes l).length ≤ o.concepts.length := by
  refine length_le_of_declared (wf.nodup_supertypes l) fun s hs => ?_
  obtain ⟨d, hd, rfl⟩ := List.mem_map.mp hs
  exact ⟨d, (wf.mem_ancestors_iff.mp hd).2⟩

/-! ### Subtypes -/

/-- To be a subtype is to be below a declared label, in any number of steps. -/
theorem isSubtype_iff : o.isSubtype a b = true ↔ ReflTransGen o.Parent a b ∧ o.HasConcept b := by
  simp only [isSubtype, supertypes, List.contains_iff_mem, List.mem_map, wf.mem_ancestors_iff]
  constructor
  · rintro ⟨d, ⟨habove, hd⟩, rfl⟩
    exact ⟨habove, d, hd⟩
  · rintro ⟨habove, d, hd⟩
    obtain ⟨-, rfl⟩ := concept?_mem hd
    exact ⟨d, ⟨habove, hd⟩, rfl⟩

theorem kind_of_above (habove : ReflTransGen o.Parent a b) (hc : o.concept? a = some c) :
    ∃ d, o.concept? b = some d ∧ d.kind = c.kind := by
  induction habove with
  | refl => exact ⟨c, hc, rfl⟩
  | tail _ hstep ih =>
    obtain ⟨d, hd, hkind⟩ := ih
    obtain ⟨d', hd', hp⟩ := hstep
    rw [hd] at hd'
    cases hd'
    obtain ⟨e, he, hkind'⟩ := wf.parents d (concept?_mem hd).1 _ hp
    exact ⟨e, he, hkind'.trans hkind⟩

theorem isSubtype_trans (hab : o.isSubtype a b = true) (hbl : o.isSubtype b l = true) : o.isSubtype a l = true := by
  obtain ⟨hab, -⟩ := wf.isSubtype_iff.mp hab
  obtain ⟨hbl, hl⟩ := wf.isSubtype_iff.mp hbl
  exact wf.isSubtype_iff.mpr ⟨hab.trans hbl, hl⟩

theorem isSubtype_antisymm (hab : o.isSubtype a b = true) (hba : o.isSubtype b a = true) : a = b := by
  obtain ⟨hab, -⟩ := wf.isSubtype_iff.mp hab
  obtain ⟨hba, -⟩ := wf.isSubtype_iff.mp hba
  rcases reflTransGen_iff_eq_or_transGen.mp hab with rfl | hab
  · rfl
  · exact absurd (hab.trans_left hba) (wf.not_above_self a)

theorem isSubtype_total (hla : o.isSubtype l a = true) (hlb : o.isSubtype l b = true) :
    o.isSubtype a b = true ∨ o.isSubtype b a = true := by
  obtain ⟨hla, ha⟩ := wf.isSubtype_iff.mp hla
  obtain ⟨hlb, hb⟩ := wf.isSubtype_iff.mp hlb
  rw [wf.isSubtype_iff, wf.isSubtype_iff]
  rcases hla.total_of_right_unique parent_rightUnique hlb with hab | hba
  · exact Or.inl ⟨hab, hb⟩
  · exact Or.inr ⟨hba, ha⟩

/-! ### Inheritance -/

theorem mem_ancestors_of_isSubtype (hab : o.isSubtype a b = true) (hd : d ∈ o.ancestors b) : d ∈ o.ancestors a := by
  obtain ⟨habove, hfound⟩ := wf.mem_ancestors_iff.mp hd
  exact wf.mem_ancestors_iff.mpr ⟨(wf.isSubtype_iff.mp hab).1.trans habove, hfound⟩

theorem kind_of_isSubtype (hab : o.isSubtype a b = true) (hc : o.concept? a = some c) (hd : o.concept? b = some d) :
    c.kind = d.kind := by
  obtain ⟨d', hd', hkind⟩ := wf.kind_of_above (wf.isSubtype_iff.mp hab).1 hc
  rw [hd] at hd'
  cases hd'
  exact hkind.symm

theorem plays_of_isSubtype (hab : o.isSubtype a b = true) (h : o.plays b r = true) : o.plays a r = true := by
  obtain ⟨cb, hb, hkind, d, hd, hr⟩ := plays_iff.mp h
  obtain ⟨ca, ha⟩ := concept?_of_isSubtype hab
  have hsame := wf.kind_of_isSubtype hab ha hb
  exact plays_iff.mpr ⟨ca, ha, hsame ▸ hkind, d, wf.mem_ancestors_of_isSubtype hab hd, hr⟩

theorem relates_of_isSubtype (hab : o.isSubtype a b = true) (h : o.relates b r = true) : o.relates a r = true := by
  obtain ⟨cb, hb, hkind, d, hd, hr⟩ := relates_iff.mp h
  obtain ⟨ca, ha⟩ := concept?_of_isSubtype hab
  have hsame := wf.kind_of_isSubtype hab ha hb
  exact relates_iff.mpr ⟨ca, ha, hsame.trans hkind, d, wf.mem_ancestors_of_isSubtype hab hd, hr⟩

end WellFormed

/-- The concepts form a forest under their supertypes, along which what is played and related is inherited. -/
structure InheritanceForest (o : Ontology) : Prop where
  /-- The walk up ends from every label, though nothing bounds its steps. -/
  ends : ∀ l, ∃ cs, o.Climbs l cs
  supertypes_eq : ∀ l cs, o.Climbs l cs → o.supertypes l = cs.map Concept.label
  supertypes_nodup : ∀ l, (o.supertypes l).Nodup
  supertypes_length : ∀ l, (o.supertypes l).length ≤ o.concepts.length
  refl : ∀ a, o.HasConcept a → o.isSubtype a a = true
  trans : ∀ a b c, o.isSubtype a b = true → o.isSubtype b c = true → o.isSubtype a c = true
  antisymm : ∀ a b, o.isSubtype a b = true → o.isSubtype b a = true → a = b
  undeclared : ∀ a b, ¬o.HasConcept a ∨ ¬o.HasConcept b → o.isSubtype a b = false
  /-- The supertypes of a label are a chain. -/
  total : ∀ l a b, o.isSubtype l a = true → o.isSubtype l b = true → o.isSubtype a b = true ∨ o.isSubtype b a = true
  kind_eq : ∀ a b c d, o.isSubtype a b = true → o.concept? a = some c → o.concept? b = some d → c.kind = d.kind
  plays_inherited : ∀ a b r, o.isSubtype a b = true → o.plays b r = true → o.plays a r = true
  relates_inherited : ∀ a b r, o.isSubtype a b = true → o.relates b r = true → o.relates a r = true
  plays_role : ∀ a r, o.plays a r = true → ∃ d, o.concept? r = some d ∧ d.kind = .role
  relates_role : ∀ a r, o.relates a r = true → ∃ d, o.concept? r = some d ∧ d.kind = .role
  relates_relation : ∀ a r, o.relates a r = true → ∃ c, o.concept? a = some c ∧ c.kind = .relation

end Ontology

/-- The concepts of every loaded ontology form an inheritance forest. -/
theorem Definition.load_inheritanceForest {d : Definition} {o : Ontology} (h : d.load = .ok o) :
    o.InheritanceForest := by
  have wf := d.load_wellFormed h
  refine
    { ends := fun l => ⟨_, wf.climbs_ancestors l⟩
      supertypes_eq := fun l cs hcs => ?_
      supertypes_nodup := wf.nodup_supertypes
      supertypes_length := wf.length_supertypes_le
      refl := fun a ha => ?_
      trans := fun a b c => wf.isSubtype_trans
      antisymm := fun a b => wf.isSubtype_antisymm
      undeclared := fun a b hnot => ?_
      total := fun l a b => wf.isSubtype_total
      kind_eq := fun a b c d => wf.kind_of_isSubtype
      plays_inherited := fun a b r => wf.plays_of_isSubtype
      relates_inherited := fun a b r => wf.relates_of_isSubtype
      plays_role := fun a r hplays => (wf.plays_declared hplays).2
      relates_role := fun a r hrelates => (wf.relates_declared hrelates).2
      relates_relation := fun a r hrelates => ?_ }
  · rw [Ontology.supertypes, (wf.climbs_ancestors l).unique hcs]
  · obtain ⟨c, hc⟩ := ha
    exact Ontology.isSubtype_self hc
  · rw [Bool.eq_false_iff]
    intro hab
    rcases hnot with ha | hb
    · exact ha (Ontology.concept?_of_isSubtype hab)
    · exact hb (wf.isSubtype_iff.mp hab).2
  · obtain ⟨c, hc, hkind, -⟩ := Ontology.relates_iff.mp hrelates
    exact ⟨c, hc, hkind⟩

/-- Three generations of productions, and a relation that inherits its role. -/
def sequelDefinition : Definition where
  name := none
  declarations :=
    { entities := [⟨⟨"sequel"⟩, some ⟨"movie"⟩, []⟩, ⟨⟨"production"⟩, none, [⟨"work"⟩]⟩,
        ⟨⟨"movie"⟩, some ⟨"production"⟩, []⟩]
      relations := [⟨⟨"staging"⟩, none, [⟨"work"⟩], []⟩, ⟨⟨"casting"⟩, some ⟨"staging"⟩, [], []⟩]
      attributes := []
      roles := [] }

def sequelOntology : Ontology where
  name := none
  concepts :=
    [⟨⟨"casting"⟩, .relation, some ⟨"staging"⟩, [], []⟩, ⟨⟨"movie"⟩, .entity, some ⟨"production"⟩, [], []⟩,
      ⟨⟨"production"⟩, .entity, none, [⟨"work"⟩], []⟩, ⟨⟨"sequel"⟩, .entity, some ⟨"movie"⟩, [], []⟩,
      ⟨⟨"staging"⟩, .relation, none, [], [⟨"work"⟩]⟩, ⟨⟨"work"⟩, .role, none, [], []⟩]

theorem load_inheritanceForest_sequelDefinition :
    sequelDefinition.load = .ok sequelOntology ∧ sequelOntology.InheritanceForest ∧
      sequelOntology.plays ⟨"sequel"⟩ ⟨"work"⟩ = true := by
  have hload : sequelDefinition.load = .ok sequelOntology := by decide +kernel
  have hforest := Definition.load_inheritanceForest hload
  refine ⟨hload, hforest, ?_⟩
  exact hforest.plays_inherited ⟨"sequel"⟩ ⟨"production"⟩ ⟨"work"⟩ (by decide +kernel) (by decide +kernel)

end OntologyTyping
