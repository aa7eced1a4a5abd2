import OntologyTyping.Proofs.Hierarchy
import OntologyTyping.Proofs.Tables

/-!
A definition loads exactly when it is sound.

What a definition declares, and the roles that its relations imply, are said here without the loader. The loader
enters the declared concepts one by one, then the implied roles, and checks the result. Nothing of that depends on
the order in which the definition lists its types, since the concepts of an ontology are sorted by label.
-/

namespace OntologyTyping

/-! ### What a definition says -/

namespace Declarations

/-- The concept of a declaration, as it is written. -/
inductive Declares (d : Declarations) : Concept → Prop
  | entity {e : TypeDecl} : e ∈ d.entities → Declares d ⟨e.label, .entity, e.parent, e.plays, []⟩
  | attr {a : TypeDecl} : a ∈ d.attributes → Declares d ⟨a.label, .attr, a.parent, a.plays, []⟩
  | relation {r : RelationDecl} : r ∈ d.relations → Declares d ⟨r.label, .relation, r.parent, r.plays, r.relates⟩
  | role {r : RoleDecl} : r ∈ d.roles → Declares d ⟨r.label, .role, r.parent, [], []⟩

/-- A declared concept, or a role that some relation relates and nothing declares. -/
inductive Defines (d : Declarations) : Concept → Prop
  | declared {c : Concept} : d.Declares c → Defines d c
  | implied {r : RelationDecl} {l : Label} : r ∈ d.relations → l ∈ r.relates → (∀ c, d.Declares c → c.label ≠ l) →
    Defines d ⟨l, .role, none, [], []⟩

/-- The labels of all the declarations. -/
def labels (d : Declarations) : List Label :=
  d.entities.map TypeDecl.label ++ d.attributes.map TypeDecl.label ++ d.relations.map RelationDecl.label ++
    d.roles.map RoleDecl.label

/-- The second label is declared as the supertype of the first. -/
def Sub (d : Declarations) (lower upper : Label) : Prop :=
  ∃ c, d.Declares c ∧ c.label = lower ∧ c.parent = some upper

/-- The declarations fit together. -/
structure Sound (d : Declarations) : Prop where
  distinct : d.labels.Nodup
  parents : ∀ c, d.Declares c → ∀ p, c.parent = some p → ∃ e, d.Defines e ∧ e.label = p ∧ e.kind = c.kind
  roles : ∀ c, d.Declares c → ∀ r ∈ c.plays ++ c.relates, ∃ e, d.Defines e ∧ e.label = r ∧ e.kind = .role
  acyclic : ∀ l, ¬Relation.TransGen d.Sub l l

end Declarations

/-- The same definition with its types listed in another order. -/
structure Definition.Reorders (d d' : Definition) : Prop where
  name : d.name = d'.name
  entities : d.declarations.entities.Perm d'.declarations.entities
  relations : d.declarations.relations.Perm d'.declarations.relations
  attributes : d.declarations.attributes.Perm d'.declarations.attributes
  roles : d.declarations.roles.Perm d'.declarations.roles

/-! ### Entering concepts -/

section Entering
variable {entered cs out : List Concept} {c : Concept} {roles : List Label}

theorem enterDeclared_isOk_iff :
    (∃ out, enterDeclared entered cs = .ok out) ↔
      (cs.map Concept.label).Nodup ∧ ∀ c ∈ cs, ∀ e ∈ entered, e.label ≠ c.label := by
  induction cs generalizing entered with
  | nil => simp [enterDeclared]
  | cons c rest ih =>
    unfold enterDeclared
    by_cases hold : ∃ e ∈ entered, e.label = c.label
    · rw [if_pos (by simpa using hold)]
      obtain ⟨e, he, hlabel⟩ := hold
      refine iff_of_false (by simp) fun h => ?_
      exact h.2 c List.mem_cons_self e he hlabel
    · rw [if_neg (by simpa using hold), ih]
      simp only [List.map_cons, List.nodup_cons, List.mem_map, List.forall_mem_cons, mem_enterConcept, forall_eq_or_imp]
      constructor
      · rintro ⟨hrest, hnew⟩
        refine ⟨⟨?_, hrest⟩, fun e he hlabel => hold ⟨e, he, hlabel⟩, fun d hd => (hnew d hd).2⟩
        rintro ⟨d, hd, hlabel⟩
        exact (hnew d hd).1 hlabel.symm
      · rintro ⟨⟨hc, hrest⟩, -, hnew⟩
        exact ⟨hrest, fun d hd => ⟨fun hlabel => hc ⟨d, hd, hlabel.symm⟩, hnew d hd⟩⟩

theorem mem_enterDeclared (h : enterDeclared entered cs = .ok out) : c ∈ out ↔ c ∈ entered ∨ c ∈ cs := by
  induction cs generalizing entered with
  | nil =>
    cases h
    simp
  | cons d rest ih =>
    unfold enterDeclared at h
    split at h
    · cases h
    · rw [ih h, mem_enterConcept, List.mem_cons]
      tauto

theorem mem_enterRoles :
    c ∈ enterRoles entered roles ↔
      c ∈ entered ∨ ∃ l ∈ roles, (∀ e ∈ entered, e.label ≠ l) ∧ c = ⟨l, .role, none, [], []⟩ := by
  unfold enterRoles
  induction roles generalizing entered with
  | nil => simp
  | cons r rest ih =>
    rw [List.foldl_cons, ih]
    by_cases hold : ∃ e ∈ entered, e.label = r
    · rw [if_pos (by simpa using hold)]
      have hr : ¬∀ e ∈ entered, e.label ≠ r := by simpa using hold
      simp [hr]
    · rw [if_neg (by simpa using hold)]
      simp only [mem_enterConcept, forall_eq_or_imp, List.mem_cons, exists_eq_or_imp]
      constructor
      · rintro ((rfl | hc) | ⟨l, hl, ⟨-, hnew⟩, rfl⟩)
        · exact Or.inr (Or.inl ⟨fun e he hlabel => hold ⟨e, he, hlabel⟩, rfl⟩)
        · exact Or.inl hc
        · exact Or.inr (Or.inr ⟨l, hl, hnew, rfl⟩)
      · rintro (hc | ⟨-, rfl⟩ | ⟨l, hl, hnew, rfl⟩)
        · exact Or.inl (Or.inr hc)
        · exact Or.inl (Or.inl rfl)
        · by_cases hrl : r = l
          · exact Or.inl (Or.inl (by rw [hrl]))
          · exact Or.inr ⟨l, hl, ⟨hrl, hnew⟩, rfl⟩

end Entering

namespace Declarations

variable {d : Declarations} {c : Concept} {entered : List Concept} {o : Ontology}

theorem mem_declared : c ∈ d.declared ↔ d.Declares c := by
  simp only [declared, List.mem_append, List.mem_map]
  constructor
  · rintro (((⟨e, he, rfl⟩ | ⟨a, ha, rfl⟩) | ⟨r, hr, rfl⟩) | ⟨r, hr, rfl⟩)
    · exact .entity he
    · exact .attr ha
    · exact .relation hr
    · exact .role hr
  · rintro (@⟨e, he⟩ | @⟨a, ha⟩ | @⟨r, hr⟩ | @⟨r, hr⟩)
    · exact Or.inl (Or.inl (Or.inl ⟨e, he, rfl⟩))
    · exact Or.inl (Or.inl (Or.inr ⟨a, ha, rfl⟩))
    · exact Or.inl (Or.inr ⟨r, hr, rfl⟩)
    · exact Or.inr ⟨r, hr, rfl⟩

theorem map_label_declared : d.declared.map Concept.label = d.labels := by
  simp [declared, labels, Function.comp_def, ofTypeDecl, ofRelationDecl, ofRoleDecl]

theorem exists_entered_iff : (∃ entered, enterDeclared [] d.declared = .ok entered) ↔ d.labels.Nodup := by
  rw [enterDeclared_isOk_iff, map_label_declared]
  simp

theorem sorted_enterRoles (h : enterDeclared [] d.declared = .ok entered) :
    SortedConcepts (enterRoles entered d.relatedRoles) :=
  (SortedConcepts.enterDeclared .nil h).enterRoles

theorem mem_enterRoles_iff (h : enterDeclared [] d.declared = .ok entered) :
    c ∈ enterRoles entered d.relatedRoles ↔ d.Defines c := by
  have hentered : ∀ {e}, e ∈ entered ↔ d.Declares e := fun {e} => by simp [mem_enterDeclared h, mem_declared]
  simp only [mem_enterRoles, hentered, relatedRoles, List.mem_flatMap]
  constructor
  · rintro (hc | ⟨l, ⟨r, hr, hl⟩, hnew, rfl⟩)
    · exact .declared hc
    · exact .implied hr hl hnew
  · rintro (hc | @⟨r, l, hr, hl, hnew⟩)
    · exact Or.inl hc
    · exact Or.inr ⟨l, ⟨r, hr, hl⟩, hnew, rfl⟩

/-! ### Checking what was entered -/

/-- An implied role has no supertype, plays nothing and relates nothing, so only declared concepts can fail a check. -/
theorem forall_defines_iff {P : Concept → Prop} (hP : ∀ l, P ⟨l, .role, none, [], []⟩) :
    (∀ c, d.Defines c → P c) ↔ ∀ c, d.Declares c → P c := by
  constructor
  · exact fun h c hc => h c (.declared hc)
  · rintro h _ (hc | @⟨r, l, hr, hl, hnew⟩)
    · exact h _ hc
    · exact hP l

theorem wellFormed_iff_sound (hs : SortedConcepts o.concepts) (ho : ∀ c, c ∈ o.concepts ↔ d.Defines c)
    (hdistinct : d.labels.Nodup) : o.WellFormed ↔ d.Sound := by
  have hfind : ∀ {l e}, o.concept? l = some e ↔ d.Defines e ∧ e.label = l := by
    intro l e
    rw [Ontology.SortedConcepts.concept?_eq_some_iff hs, ho]
  have hparent : o.Parent = d.Sub := by
    ext lower upper
    simp only [Ontology.Parent, Sub, hfind]
    constructor
    · rintro ⟨_, ⟨hc | @⟨r, l, hr, hl, hnew⟩, hlabel⟩, hp⟩
      · exact ⟨_, hc, hlabel, hp⟩
      · cases hp
    · rintro ⟨c, hc, hlabel, hp⟩
      exact ⟨c, ⟨.declared hc, hlabel⟩, hp⟩
  have hparents : (∀ c ∈ o.concepts, ∀ p, c.parent = some p → ∃ e, o.concept? p = some e ∧ e.kind = c.kind) ↔
      ∀ c, d.Declares c → ∀ p, c.parent = some p → ∃ e, d.Defines e ∧ e.label = p ∧ e.kind = c.kind := by
    simp only [ho, hfind, and_assoc]
    exact forall_defines_iff (by simp)
  have hroles : (∀ c ∈ o.concepts, ∀ r ∈ c.plays ++ c.relates, ∃ e, o.concept? r = some e ∧ e.kind = .role) ↔
      ∀ c, d.Declares c → ∀ r ∈ c.plays ++ c.relates, ∃ e, d.Defines e ∧ e.label = r ∧ e.kind = .role := by
    simp only [ho, hfind, and_assoc]
    exact forall_defines_iff (by simp)
  have hacyclic : (∀ c ∈ o.concepts, o.isCyclic c.label = false) ↔ ∀ l, ¬Relation.TransGen d.Sub l l := by
    rw [Ontology.isCyclic_eq_false_iff, hparent]
  constructor
  · intro wf
    exact ⟨hdistinct, hparents.mp wf.parents, hroles.mp wf.roles, hacyclic.mp wf.acyclic⟩
  · intro sound
    exact ⟨hs, hparents.mpr sound.parents, hroles.mpr sound.roles, hacyclic.mpr sound.acyclic⟩

end Declarations

theorem SortedConcepts.ext {cs cs' : List Concept} (hs : SortedConcepts cs) (hs' : SortedConcepts cs')
    (h : ∀ c, c ∈ cs ↔ c ∈ cs') : cs = cs' :=
  Ordered.eq_of_pairwise (fun _ _ => Std.OrientedCmp.not_lt_of_lt) hs hs' h

namespace Definition

variable {d d' : Definition} {o : Ontology} {c : Concept}

/-- Loading gives the sorted list of the concepts that a sound definition defines, and nothing else. -/
theorem load_eq_ok_iff :
    d.load = .ok o ↔
      d.declarations.Sound ∧ o.name = d.name ∧ SortedConcepts o.concepts ∧
        ∀ c, c ∈ o.concepts ↔ d.declarations.Defines c := by
  simp only [load, bind_eq_ok]
  constructor
  · rintro ⟨entered, hok, _, hcheck, hreturn⟩
    cases hreturn
    have hs := Declarations.sorted_enterRoles hok
    have hmem : ∀ c, c ∈ enterRoles entered d.declarations.relatedRoles ↔ d.declarations.Defines c :=
      fun c => Declarations.mem_enterRoles_iff hok
    have hdistinct := Declarations.exists_entered_iff.mp ⟨entered, hok⟩
    exact ⟨(Declarations.wellFormed_iff_sound hs hmem hdistinct).mp ((Ontology.check_eq_ok_iff hs).mp hcheck),
      rfl, hs, hmem⟩
  · rintro ⟨hsound, hname, hs, hmem⟩
    obtain ⟨entered, hok⟩ := Declarations.exists_entered_iff.mpr hsound.distinct
    have hconcepts : o.concepts = enterRoles entered d.declarations.relatedRoles :=
      hs.ext (Declarations.sorted_enterRoles hok) fun c => (hmem c).trans (Declarations.mem_enterRoles_iff hok).symm
    have ho : o = ⟨d.name, enterRoles entered d.declarations.relatedRoles⟩ := by rw [← hname, ← hconcepts]
    have hcheck : o.check = .ok () :=
      (Ontology.check_eq_ok_iff hs).mpr ((Declarations.wellFormed_iff_sound hs hmem hsound.distinct).mpr hsound)
    exact ⟨entered, hok, (), ho ▸ hcheck, ho ▸ rfl⟩

theorem exists_load_of_sound (h : d.declarations.Sound) : ∃ o, d.load = .ok o := by
  obtain ⟨entered, hok⟩ := Declarations.exists_entered_iff.mpr h.distinct
  exact ⟨⟨d.name, enterRoles entered d.declarations.relatedRoles⟩, load_eq_ok_iff.mpr
    ⟨h, rfl, Declarations.sorted_enterRoles hok, fun c => Declarations.mem_enterRoles_iff hok⟩⟩

/-! ### The order of the declarations -/

namespace Reorders

theorem symm (h : d.Reorders d') : d'.Reorders d :=
  ⟨h.name.symm, h.entities.symm, h.relations.symm, h.attributes.symm, h.roles.symm⟩

theorem declares (h : d.Reorders d') (hc : d.declarations.Declares c) : d'.declarations.Declares c := by
  cases hc with
  | entity he => exact .entity (h.entities.subset he)
  | attr ha => exact .attr (h.attributes.subset ha)
  | relation hr => exact .relation (h.relations.subset hr)
  | role hr => exact .role (h.roles.subset hr)

theorem defines (h : d.Reorders d') (hc : d.declarations.Defines c) : d'.declarations.Defines c := by
  cases hc with
  | declared hc => exact .declared (h.declares hc)
  | implied hr hl hnew => exact .implied (h.relations.subset hr) hl fun c hc => hnew c (h.symm.declares hc)

theorem labels (h : d.Reorders d') : d.declarations.labels.Perm d'.declarations.labels :=
  (((h.entities.map _).append (h.attributes.map _)).append (h.relations.map _)).append (h.roles.map _)

theorem sound (h : d.Reorders d') (hd : d.declarations.Sound) : d'.declarations.Sound where
  distinct := h.labels.nodup_iff.mp hd.distinct
  parents c hc p hp := by
    obtain ⟨e, he, hfits⟩ := hd.parents c (h.symm.declares hc) p hp
    exact ⟨e, h.defines he, hfits⟩
  roles c hc r hr := by
    obtain ⟨e, he, hfits⟩ := hd.roles c (h.symm.declares hc) r hr
    exact ⟨e, h.defines he, hfits⟩
  acyclic l hcircle := by
    refine hd.acyclic l (Relation.TransGen.mono ?_ l l hcircle)
    rintro lower upper ⟨c, hc, hstep⟩
    exact ⟨c, h.symm.declares hc, hstep⟩

theorem load_eq_ok (h : d.Reorders d') (hload : d.load = .ok o) : d'.load = .ok o := by
  obtain ⟨hsound, hname, hs, hmem⟩ := load_eq_ok_iff.mp hload
  refine load_eq_ok_iff.mpr ⟨h.sound hsound, hname.trans h.name, hs, fun c => (hmem c).trans ?_⟩
  exact ⟨h.defines, h.symm.defines⟩

end Reorders

/-- A definition loads exactly when it is sound. The ontology then has the concepts that the definition defines,
each once and found under its own label, and any other order of the declarations gives the same result. -/
theorem load_exact (d : Definition) :
    ((∃ o, d.load = .ok o) ↔ d.declarations.Sound) ∧
    (∀ o, d.load = .ok o →
      o.name = d.name ∧ SortedConcepts o.concepts ∧ (∀ c, c ∈ o.concepts ↔ d.declarations.Defines c) ∧
        ∀ l c, o.concept? l = some c ↔ d.declarations.Defines c ∧ c.label = l) ∧
    (∀ d', d.Reorders d' → ∀ o, d.load = .ok o ↔ d'.load = .ok o) := by
  refine ⟨⟨?_, exists_load_of_sound⟩, fun o hload => ?_, fun d' h o => ⟨h.load_eq_ok, h.symm.load_eq_ok⟩⟩
  · rintro ⟨o, hload⟩
    exact (load_eq_ok_iff.mp hload).1
  · obtain ⟨-, hname, hs, hmem⟩ := load_eq_ok_iff.mp hload
    refine ⟨hname, hs, hmem, fun l c => ?_⟩
    rw [Ontology.SortedConcepts.concept?_eq_some_iff hs, hmem]

end Definition

/-- The role `actor` is only implied, and yet played, related twice and above another role. -/
def troupeDefinition : Definition where
  name := some "troupe"
  declarations :=
    { entities := [⟨⟨"star"⟩, some ⟨"person"⟩, [⟨"lead"⟩]⟩, ⟨⟨"person"⟩, none, [⟨"actor"⟩]⟩]
      relations := [⟨⟨"remake"⟩, some ⟨"casting"⟩, [⟨"actor"⟩], []⟩, ⟨⟨"casting"⟩, none, [⟨"actor"⟩, ⟨"work"⟩], []⟩]
      attributes := [⟨⟨"title"⟩, none, []⟩]
      roles := [⟨⟨"lead"⟩, some ⟨"actor"⟩⟩] }

def troupeOntology : Ontology where
  name := some "troupe"
  concepts :=
    [⟨⟨"actor"⟩, .role, none, [], []⟩, ⟨⟨"casting"⟩, .relation, none, [], [⟨"actor"⟩, ⟨"work"⟩]⟩,
      ⟨⟨"lead"⟩, .role, some ⟨"actor"⟩, [], []⟩, ⟨⟨"person"⟩, .entity, none, [⟨"actor"⟩], []⟩,
      ⟨⟨"remake"⟩, .relation, some ⟨"casting"⟩, [], [⟨"actor"⟩]⟩, ⟨⟨"star"⟩, .entity, some ⟨"person"⟩, [⟨"lead"⟩], []⟩,
      ⟨⟨"title"⟩, .attr, none, [], []⟩, ⟨⟨"work"⟩, .role, none, [], []⟩]

/-- The same types from the last to the first. -/
def Definition.reversed (d : Definition) : Definition where
  name := d.name
  declarations :=
    { entities := d.declarations.entities.reverse
      relations := d.declarations.relations.reverse
      attributes := d.declarations.attributes.reverse
      roles := d.declarations.roles.reverse }

/-- The supertypes of `cameo` run into a circle that `cameo` is not on. -/
def circleDefinition : Definition where
  name := none
  declarations :=
    { entities := [⟨⟨"cameo"⟩, some ⟨"part"⟩, []⟩, ⟨⟨"part"⟩, some ⟨"role-play"⟩, []⟩,
        ⟨⟨"role-play"⟩, some ⟨"part"⟩, []⟩]
      relations := []
      attributes := []
      roles := [] }

theorem load_exact_troupeDefinition :
    troupeDefinition.declarations.Sound ∧ troupeDefinition.declarations.Defines ⟨⟨"actor"⟩, .role, none, [], []⟩ ∧
      troupeDefinition.reversed.load = .ok troupeOntology ∧ ¬circleDefinition.declarations.Sound := by
  have hload : troupeDefinition.load = .ok troupeOntology := by decide +kernel
  obtain ⟨hsound, hconcepts, hreorder⟩ := Definition.load_exact troupeDefinition
  obtain ⟨-, -, hmem, -⟩ := hconcepts _ hload
  have hreversed : troupeDefinition.Reorders troupeDefinition.reversed :=
    ⟨rfl, (List.reverse_perm _).symm, (List.reverse_perm _).symm, (List.reverse_perm _).symm,
      (List.reverse_perm _).symm⟩
  refine ⟨hsound.mp ⟨_, hload⟩, (hmem _).mp (by decide), (hreorder _ hreversed _).mp hload, fun hcircle => ?_⟩
  obtain ⟨o, ho⟩ := (Definition.load_exact circleDefinition).1.mpr hcircle
  have hrefused : circleDefinition.load = .error (.cyclic ⟨"cameo"⟩) := by decide +kernel
  rw [hrefused] at ho
  cases ho

end OntologyTyping
