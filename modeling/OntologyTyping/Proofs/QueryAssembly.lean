import OntologyTyping.Inference.Evidence
import OntologyTyping.Proofs.Solutions
import Mathlib.Data.List.Induction

/-!
A query asks what its atoms ask.

The query has one atom for each variable of the evidence, with the properties of all its atoms. Properties are
compared by the values they hold, so of the two zeros only the first is kept; without floating-point numbers nothing
is lost. The atoms tied to a label come first. None of that changes the answers, since these depend only on which
variables there are and what is stated.
-/

namespace OntologyTyping

/-! ### Equal properties -/

/-- Whether the property holds a floating-point number. -/
def Property.holdsFloat : Property → Bool
  | .has _ (.float _) => true
  | _ => false

theorem Property.same_iff {p q : Property} (hp : p.holdsFloat = false) : p.same q = true ↔ p = q := by
  cases p with
  | has a v => cases q with
    | has b w => cases v <;> cases w <;> simp_all [Property.same, Literal.sameValue, Property.holdsFloat]
    | _ => simp [Property.same]
  | _ => cases q <;> simp [Property.same]

theorem Property.holdsFloat_of_isSchemaLevel {p : Property} (hp : p.isSchemaLevel = true) : p.holdsFloat = false := by
  cases p with
  | has a v => cases hp
  | _ => rfl

theorem mem_statements_cons {a : Atom} {atoms : List Atom} {v : VarName} {p : Property} :
    (v, p) ∈ statements (a :: atoms) ↔ (a.name = v ∧ p ∈ a.properties) ∨ (v, p) ∈ statements atoms := by
  simp only [mem_statements, List.mem_cons, exists_eq_or_imp]

namespace Evidence

/-! ### Properties of one variable -/

/-- No property equals an earlier one. -/
def Unrepeated (ps : List Property) : Prop :=
  ps.Pairwise fun p q => q.same p = false

/-- The new properties are added to the old ones, unless an equal one is there. -/
structure Collects (old new out : List Property) : Prop where
  mem : ∀ p ∈ out, p ∈ old ∨ p ∈ new
  kept : ∀ p ∈ old, p ∈ out
  found : ∀ p ∈ new, ∃ q ∈ out, p = q ∨ p.same q = true
  unrepeated : Unrepeated old → Unrepeated out

theorem collects_addProperty {ps : List Property} {p : Property} : Collects ps [p] (addProperty ps p) := by
  unfold addProperty
  split
  · rename_i h
    obtain ⟨q, hq, hsame⟩ := List.any_eq_true.mp h
    exact ⟨fun _ => Or.inl, fun _ => id, by simpa using ⟨q, hq, Or.inr hsame⟩, id⟩
  · rename_i h
    refine ⟨by simp, fun q hq => List.mem_append_left _ hq, by simp, fun hps => ?_⟩
    refine List.pairwise_append.mpr ⟨hps, List.pairwise_singleton _ _, fun q hq r hr => ?_⟩
    obtain rfl := List.mem_singleton.mp hr
    simpa using fun hsame => h (List.any_eq_true.mpr ⟨q, hq, hsame⟩)

theorem collects_foldl {ps qs : List Property} : Collects ps qs (qs.foldl addProperty ps) := by
  induction qs generalizing ps with
  | nil => exact ⟨fun _ => Or.inl, fun _ => id, by simp, id⟩
  | cons q rest ih =>
    have hstep : Collects ps [q] (addProperty ps q) := collects_addProperty
    have hrest : Collects (addProperty ps q) rest (rest.foldl addProperty (addProperty ps q)) := ih
    rw [List.foldl_cons]
    refine ⟨fun p hp => ?_, fun p hp => hrest.kept p (hstep.kept p hp),
      fun p hp => ?_, hrest.unrepeated ∘ hstep.unrepeated⟩
    · rcases hrest.mem p hp with hp | hp
      · rcases hstep.mem p hp with hp | hp
        · exact Or.inl hp
        · exact Or.inr (List.mem_singleton.mp hp ▸ List.mem_cons_self)
      · exact Or.inr (List.mem_cons_of_mem _ hp)
    · rcases List.mem_cons.mp hp with rfl | hp
      · obtain ⟨r, hr, hsame⟩ := hstep.found p (List.mem_singleton_self p)
        exact ⟨r, hrest.kept r hr, hsame⟩
      · exact hrest.found p hp

/-! ### Grouped atoms -/

/-- Adding an atom changes the atom of its variable, or one without properties that is put at the end first. -/
theorem addAtom_split (a : Atom) (atoms : List Atom) :
    ∃ before old after, addAtom a atoms = before ++ ⟨a.name, a.properties.foldl addProperty old⟩ :: after ∧
      (atoms = before ++ ⟨a.name, old⟩ :: after ∨
        a.name ∉ atoms.map Atom.name ∧ atoms = before ∧ old = [] ∧ after = []) := by
  induction atoms with
  | nil => exact ⟨[], [], [], rfl, Or.inr ⟨by simp, rfl, rfl, rfl⟩⟩
  | cons b rest ih =>
    unfold addAtom
    split
    · rename_i hname
      exact ⟨[], b.properties, rest, by rw [hname]; rfl, Or.inl (by rw [← hname]; rfl)⟩
    · rename_i hname
      obtain ⟨before, old, after, heq, hcases⟩ := ih
      refine ⟨b :: before, old, after, by rw [heq]; rfl, ?_⟩
      rcases hcases with rfl | ⟨hnew, rfl, rfl, rfl⟩
      · exact Or.inl rfl
      · exact Or.inr ⟨by simpa using ⟨fun h => hname h.symm, by simpa using hnew⟩, rfl, rfl, rfl⟩

theorem names_addAtom {a : Atom} {atoms : List Atom} :
    (addAtom a atoms).map Atom.name =
      if a.name ∈ atoms.map Atom.name then atoms.map Atom.name else atoms.map Atom.name ++ [a.name] := by
  obtain ⟨before, old, after, heq, rfl | ⟨hnew, rfl, rfl, rfl⟩⟩ := addAtom_split a atoms
  · rw [heq, if_pos (by simp)]
    simp
  · rw [heq, if_neg hnew]
    simp

theorem nodup_names_addAtom {a : Atom} {atoms : List Atom} (h : (atoms.map Atom.name).Nodup) :
    ((addAtom a atoms).map Atom.name).Nodup := by
  rw [names_addAtom]
  split
  · exact h
  · rename_i hnew
    refine List.nodup_append.mpr ⟨h, List.nodup_singleton _, ?_⟩
    rintro v hv w hw rfl
    exact hnew (List.mem_singleton.mp hw ▸ hv)

theorem mem_names_addAtom {a : Atom} {atoms : List Atom} {v : VarName} :
    v ∈ (addAtom a atoms).map Atom.name ↔ v ∈ atoms.map Atom.name ∨ v = a.name := by
  rw [names_addAtom]
  split
  · rename_i hold
    exact ⟨Or.inl, fun hv => hv.elim id fun heq => heq ▸ hold⟩
  · rw [List.mem_append, List.mem_singleton]

theorem unrepeated_addAtom {a : Atom} {atoms : List Atom} (h : ∀ b ∈ atoms, Unrepeated b.properties) :
    ∀ b ∈ addAtom a atoms, Unrepeated b.properties := by
  obtain ⟨before, old, after, heq, rfl | ⟨-, rfl, rfl, rfl⟩⟩ := addAtom_split a atoms
  · rw [heq]
    obtain ⟨hbefore, hrest⟩ := List.forall_mem_append.mp h
    obtain ⟨hold, hafter⟩ := List.forall_mem_cons.mp hrest
    exact List.forall_mem_append.mpr ⟨hbefore, List.forall_mem_cons.mpr ⟨collects_foldl.unrepeated hold, hafter⟩⟩
  · rw [heq]
    exact List.forall_mem_append.mpr ⟨h, List.forall_mem_cons.mpr ⟨collects_foldl.unrepeated .nil, by simp⟩⟩

theorem mem_statements_split {before after : List Atom} {v w : VarName} {p : Property} {ps : List Property} :
    (v, p) ∈ statements (before ++ ⟨w, ps⟩ :: after) ↔ (v, p) ∈ statements (before ++ after) ∨ (w = v ∧ p ∈ ps) := by
  simp only [statements_append, List.mem_append, mem_statements_cons]
  tauto

/-- Only what is stated of the variable of the atom changes. -/
theorem statements_addAtom (a : Atom) (atoms : List Atom) :
    ∃ (others : List Atom) (old out : List Property), Collects old a.properties out ∧
      (∀ v p, (v, p) ∈ statements atoms ↔ (v, p) ∈ statements others ∨ (a.name = v ∧ p ∈ old)) ∧
      ∀ v p, (v, p) ∈ statements (addAtom a atoms) ↔ (v, p) ∈ statements others ∨ (a.name = v ∧ p ∈ out) := by
  obtain ⟨before, old, after, heq, hcases⟩ := addAtom_split a atoms
  refine ⟨before ++ after, old, _, collects_foldl, fun v p => ?_, fun v p => by rw [heq, mem_statements_split]⟩
  rw [← mem_statements_split]
  rcases hcases with rfl | ⟨-, rfl, rfl, rfl⟩
  · rfl
  · -- The atom put at the end states nothing yet.
    simp [statements]

/-- Grouping keeps what is stated, up to equality of properties, and gives each variable one atom without
repetitions. -/
structure Groups (atoms grouped : List Atom) : Prop where
  stated : ∀ s ∈ statements grouped, s ∈ statements atoms
  found : ∀ v p, (v, p) ∈ statements atoms → ∃ q, (v, q) ∈ statements grouped ∧ (p = q ∨ p.same q = true)
  unrepeated : ∀ a ∈ grouped, Unrepeated a.properties
  distinct : (grouped.map Atom.name).Nodup
  names : ∀ v, v ∈ grouped.map Atom.name ↔ v ∈ atoms.map Atom.name

theorem Groups.addAtom {a : Atom} {atoms acc : List Atom} (h : Groups atoms acc) :
    Groups (atoms ++ [a]) (Evidence.addAtom a acc) := by
  obtain ⟨others, old, out, hout, hacc, hadded⟩ := statements_addAtom a acc
  have hatoms : ∀ v p,
      (v, p) ∈ statements (atoms ++ [a]) ↔ (v, p) ∈ statements atoms ∨ (a.name = v ∧ p ∈ a.properties) := by
    intro v p
    simp [mem_statements]
  refine ⟨?_, fun v p hs => ?_, unrepeated_addAtom h.unrepeated, nodup_names_addAtom h.distinct, fun v => ?_⟩
  · rintro ⟨v, p⟩ hs
    rw [hatoms]
    rcases (hadded v p).mp hs with hs | ⟨rfl, hp⟩
    · exact Or.inl (h.stated _ ((hacc v p).mpr (Or.inl hs)))
    · rcases hout.mem p hp with hp | hp
      · exact Or.inl (h.stated _ ((hacc _ p).mpr (Or.inr ⟨rfl, hp⟩)))
      · exact Or.inr ⟨rfl, hp⟩
  · simp only [hadded]
    rcases (hatoms v p).mp hs with hs | ⟨rfl, hp⟩
    · obtain ⟨q, hq, hsame⟩ := h.found v p hs
      exact ⟨q, ((hacc v q).mp hq).imp_right fun hq => ⟨hq.1, hout.kept q hq.2⟩, hsame⟩
    · obtain ⟨q, hq, hsame⟩ := hout.found p hp
      exact ⟨q, Or.inr ⟨rfl, hq⟩, hsame⟩
  · rw [mem_names_addAtom, h.names, List.map_append, List.mem_append, List.map_singleton, List.mem_singleton]

theorem groups_grouped {atoms : List Atom} : Groups atoms (grouped atoms) := by
  unfold grouped
  induction atoms using List.reverseRecOn with
  | nil => exact ⟨by simp [statements], by simp [statements], by simp, List.nodup_nil, by simp⟩
  | append_singleton rest a ih =>
    rw [List.foldl_append]
    exact ih.addAtom

theorem Groups.perm {atoms gs gs' : List Atom} (h : Groups atoms gs) (hp : gs'.Perm gs) : Groups atoms gs' := by
  have hstatements : ∀ s, s ∈ statements gs' ↔ s ∈ statements gs := fun s => (hp.flatMap_right _).mem_iff
  refine ⟨fun s hs => h.stated s ((hstatements s).mp hs), fun v p hs => ?_, fun a ha => h.unrepeated a (hp.subset ha),
    (hp.map _).nodup_iff.mpr h.distinct, fun v => ?_⟩
  · obtain ⟨q, hq, hsame⟩ := h.found v p hs
    exact ⟨q, (hstatements _).mpr hq, hsame⟩
  · rw [← h.names]
    exact (hp.map _).mem_iff

/-- Without floating-point numbers, exactly what the atoms state is kept. -/
theorem Groups.mem_statements_iff {atoms gs : List Atom} (h : Groups atoms gs)
    (hfloat : ∀ s ∈ statements atoms, s.2.holdsFloat = false) {s : Statement} :
    s ∈ statements gs ↔ s ∈ statements atoms := by
  obtain ⟨v, p⟩ := s
  refine ⟨h.stated _, fun hs => ?_⟩
  obtain ⟨q, hq, hsame⟩ := h.found v p hs
  rw [Property.same_iff (hfloat _ hs), or_self] at hsame
  exact hsame ▸ hq

theorem Groups.nodup_properties {atoms gs : List Atom} (h : Groups atoms gs)
    (hfloat : ∀ s ∈ statements atoms, s.2.holdsFloat = false) {a : Atom} (ha : a ∈ gs) : a.properties.Nodup := by
  refine (h.unrepeated a ha).imp_of_mem fun {p q} hp hq hsame heq => ?_
  have hstated := h.stated (a.name, q) (mem_statements.mpr ⟨a, ha, rfl, hq⟩)
  have hself : q.same q = true := (Property.same_iff (hfloat _ hstated)).mpr rfl
  rw [heq, hself] at hsame
  cases hsame

theorem Groups.nonempty {atoms gs : List Atom} (h : Groups atoms gs) (hne : ∀ a ∈ atoms, a.properties ≠ []) {a : Atom}
    (ha : a ∈ gs) : a.properties ≠ [] := by
  obtain ⟨b, hb, hname⟩ := List.mem_map.mp ((h.names a.name).mp (List.mem_map_of_mem ha))
  obtain ⟨p, hp⟩ := List.exists_mem_of_ne_nil _ (hne b hb)
  obtain ⟨q, hs, -⟩ := h.found a.name p (mem_statements.mpr ⟨b, hb, hname, hp⟩)
  obtain ⟨c, hc, hsame, hq⟩ := mem_statements.mp hs
  obtain rfl : c = a := List.inj_on_of_nodup_map h.distinct hc ha hsame
  exact List.ne_nil_of_mem hq

/-! ### Order -/

/-- The variables of the atoms follow each other as they first appear. -/
def FirstAppearance (atoms part : List Atom) : Prop :=
  part.Pairwise fun a b => (atoms.map Atom.name).idxOf a.name < (atoms.map Atom.name).idxOf b.name

theorem firstAppearance_grouped {atoms : List Atom} : FirstAppearance atoms (grouped atoms) := by
  suffices hnames : ((grouped atoms).map Atom.name).Pairwise fun v w =>
      (atoms.map Atom.name).idxOf v < (atoms.map Atom.name).idxOf w by
    simpa only [FirstAppearance, List.pairwise_map] using hnames
  induction atoms using List.reverseRecOn with
  | nil => exact .nil
  | append_singleton rest a ih =>
    have hgroups : Groups rest (grouped rest) := groups_grouped
    have hmem : ∀ v ∈ (grouped rest).map Atom.name, v ∈ rest.map Atom.name := fun v hv => (hgroups.names v).mp hv
    have hkept : ((grouped rest).map Atom.name).Pairwise fun v w =>
        (rest.map Atom.name ++ [a.name]).idxOf v < (rest.map Atom.name ++ [a.name]).idxOf w := by
      refine ih.imp_of_mem fun {v w} hv hw hlt => ?_
      rwa [List.idxOf_append_of_mem (hmem v hv), List.idxOf_append_of_mem (hmem w hw)]
    rw [grouped, List.foldl_append, List.map_append]
    change ((addAtom a (grouped rest)).map Atom.name).Pairwise _
    rw [names_addAtom]
    split
    · exact hkept
    · rename_i hnew
      refine List.pairwise_append.mpr ⟨hkept, List.pairwise_singleton _ _, fun v hv w hw => ?_⟩
      obtain rfl := List.mem_singleton.mp hw
      rw [hgroups.names] at hnew
      rw [List.idxOf_append_of_mem (hmem v hv), List.idxOf_append_of_notMem hnew]
      exact Nat.lt_of_lt_of_le (List.idxOf_lt_length_of_mem (hmem v hv)) (Nat.le_add_right _ _)

/-- Putting the atoms that are tied to a label first changes their order only. -/
theorem query_perm {e : Evidence} : e.query.Perm (grouped e.atoms) :=
  List.filter_append_perm _ _

theorem groups_query {e : Evidence} : Groups e.atoms e.query :=
  groups_grouped.perm query_perm

end Evidence

/-! ### Answers -/

theorem mem_varsOf_iff_names {atoms : List Atom} {v : VarName} :
    v ∈ varsOf atoms ↔ v ∈ atoms.map Atom.name ∨ ∃ s ∈ statements atoms, v ∈ s.2.vars := by
  simp only [mem_varsOf, List.mem_map, Prod.exists, mem_statements]
  constructor
  · rintro ⟨a, ha, rfl | ⟨p, hp, hv⟩⟩
    · exact Or.inl ⟨a, ha, rfl⟩
    · exact Or.inr ⟨a.name, p, ⟨a, ha, rfl, hp⟩, hv⟩
  · rintro (⟨a, ha, rfl⟩ | ⟨w, p, ⟨a, ha, rfl, hp⟩, hv⟩)
    · exact ⟨a, ha, Or.inl rfl⟩
    · exact ⟨a, ha, Or.inr ⟨p, hp, hv⟩⟩

/-- The answers depend only on the variables of a query and on what it states. -/
theorem Ontology.WellFormed.solve_congr {o : Ontology} (wf : o.WellFormed) {q q' : Query}
    (hnames : ∀ v, v ∈ q.map Atom.name ↔ v ∈ q'.map Atom.name) (hstatements : ∀ s, s ∈ statements q ↔ s ∈ statements q')
    {answers : List Binding} (h : o.solve q = .ok answers) : o.solve q' = .ok answers := by
  have hvars : ∀ v, v ∈ varsOf q ↔ v ∈ varsOf q' := fun v => by simp only [mem_varsOf_iff_names, hnames, hstatements]
  have hmodels : ∀ f, o.Models q f ↔ o.Models q' f := fun f =>
    ⟨fun hf => ⟨fun v hv => hf.declared v ((hvars v).mpr hv), fun s hs => hf.satisfied s ((hstatements s).mpr hs)⟩,
      fun hf => ⟨fun v hv => hf.declared v ((hvars v).mp hv), fun s hs => hf.satisfied s ((hstatements s).mp hs)⟩⟩
  have hbinding : ∀ f, q.binding f = q'.binding f := fun f => tabulate_congr hvars fun _ _ => rfl
  have hlevel : ∀ s ∈ statements q', s.2.isSchemaLevel = true :=
    fun s hs => (Ontology.solve_eq_ok_iff.mp h).1 s ((hstatements s).mpr hs)
  have h' : o.solve q' = .ok _ := Ontology.solve_eq_ok_iff.mpr ⟨hlevel, rfl⟩
  rw [h']
  refine congrArg Except.ok (Ordered.eq_of_pairwise (fun _ _ => Std.OrientedCmp.not_lt_of_lt)
    (Ontology.answers_increasing h') (Ontology.answers_increasing h) fun b => ?_)
  rw [wf.mem_answers_iff h', wf.mem_answers_iff h]
  simp only [hmodels, hbinding]

/-- The atom carries a label or a literal supertype. -/
def Atom.CarriesLabel (a : Atom) : Prop :=
  ∃ l, .label l ∈ a.properties ∨ .sub (.label l) ∈ a.properties

theorem Evidence.isAnchored_iff {a : Atom} : isAnchored a = true ↔ a.CarriesLabel := by
  simp only [isAnchored, List.any_eq_true, Atom.CarriesLabel]
  constructor
  · rintro ⟨p, hp, hanchors⟩
    unfold anchors at hanchors
    split at hanchors
    · exact ⟨_, Or.inl hp⟩
    · exact ⟨_, Or.inr hp⟩
    · cases hanchors
  · rintro ⟨l, hp | hp⟩
    · exact ⟨_, hp, rfl⟩
    · exact ⟨_, hp, rfl⟩

/-- The query has one atom for each variable that the evidence has atoms of, and states of it what these state, each
property once. The atoms with a label or a literal supertype come first, and those with and those without follow
each other as their variables first appear. An evidence that speaks of concepts only has the same answers to its
query and to its atoms. -/
theorem Evidence.query_asks_atoms (e : Evidence) :
    Groups e.atoms e.query ∧
    (∃ front back, e.query = front ++ back ∧ (∀ a ∈ front, a.CarriesLabel) ∧ (∀ a ∈ back, ¬a.CarriesLabel) ∧
      FirstAppearance e.atoms front ∧ FirstAppearance e.atoms back) ∧
    ((∀ s ∈ statements e.atoms, s.2.holdsFloat = false) →
      (∀ a ∈ e.query, a.properties.Nodup) ∧ ∀ s, s ∈ statements e.query ↔ s ∈ statements e.atoms) ∧
    ((∀ s ∈ statements e.atoms, ¬s.2.OfInstances) → ∀ d o, Definition.load d = .ok o →
      ∃ answers, o.solve e.query = .ok answers ∧ o.solve e.atoms = .ok answers) := by
  have hgroups : Groups e.atoms e.query := groups_query
  have horder : FirstAppearance e.atoms (grouped e.atoms) := firstAppearance_grouped
  refine ⟨hgroups, ⟨_, _, rfl, fun a ha => ?_, fun a ha => ?_, horder.filter _, horder.filter _⟩, fun hfloat => ?_,
    fun hlevel d o hload => ?_⟩
  · exact isAnchored_iff.mp (List.mem_filter.mp ha).2
  · rw [← isAnchored_iff]
    simpa using (List.mem_filter.mp ha).2
  · exact ⟨fun a ha => hgroups.nodup_properties hfloat ha, fun s => hgroups.mem_statements_iff hfloat⟩
  · have hschema : ∀ s ∈ statements e.atoms, s.2.isSchemaLevel = true := by
      intro s hs
      simpa [Property.ofInstances_iff] using hlevel s hs
    have hatoms : o.solve e.atoms = .ok _ := Ontology.solve_eq_ok_iff.mpr ⟨hschema, rfl⟩
    refine ⟨_, (d.load_wellFormed hload).solve_congr (fun v => (hgroups.names v).symm) (fun s => ?_) hatoms, hatoms⟩
    exact (hgroups.mem_statements_iff fun s hs => Property.holdsFloat_of_isSchemaLevel (hschema s hs)).symm

/-- Atoms of one variable far apart, a statement made twice, and a variable of which nothing is stated. -/
def castEvidence : Evidence :=
  ⟨[], [], [],
    [⟨⟨"r"⟩, [.relates (.var ⟨"_0"⟩)]⟩, ⟨⟨"_0"⟩, [.sub (.label ⟨"actor"⟩)]⟩, ⟨⟨"y"⟩, [.plays (.var ⟨"_0"⟩)]⟩,
      ⟨⟨"z"⟩, []⟩, ⟨⟨"y"⟩, [.sub (.label ⟨"person"⟩)]⟩, ⟨⟨"r"⟩, [.relates (.var ⟨"a"⟩), .relates (.var ⟨"_0"⟩)]⟩,
      ⟨⟨"_1"⟩, [.label ⟨"movie"⟩]⟩]⟩

theorem query_asks_atoms_castEvidence :
    castEvidence.query =
      [⟨⟨"_0"⟩, [.sub (.label ⟨"actor"⟩)]⟩, ⟨⟨"y"⟩, [.plays (.var ⟨"_0"⟩), .sub (.label ⟨"person"⟩)]⟩,
        ⟨⟨"_1"⟩, [.label ⟨"movie"⟩]⟩, ⟨⟨"r"⟩, [.relates (.var ⟨"_0"⟩), .relates (.var ⟨"a"⟩)]⟩, ⟨⟨"z"⟩, []⟩] ∧
      (∀ s ∈ statements castEvidence.atoms, s.2.holdsFloat = false ∧ ¬s.2.OfInstances) ∧
      (∀ s, s ∈ statements castEvidence.query ↔ s ∈ statements castEvidence.atoms) ∧
      filmDefinition.load = .ok filmOntology ∧
      ∃ answers, filmOntology.solve castEvidence.query = .ok answers ∧
        filmOntology.solve castEvidence.atoms = .ok answers := by
  have hlevel : ∀ s ∈ statements castEvidence.atoms, s.2.holdsFloat = false ∧ ¬s.2.OfInstances := by decide +kernel
  obtain ⟨-, -, hsame, hanswers⟩ := castEvidence.query_asks_atoms
  exact ⟨by decide +kernel, hlevel, (hsame fun s hs => (hlevel s hs).1).2, load_filmDefinition,
    hanswers (fun s hs => (hlevel s hs).2) _ _ load_filmDefinition⟩

/-- The two zeros are equal, so only the first is kept. -/
example :
    Evidence.grouped [⟨⟨"x"⟩, [.has ⟨"mass"⟩ (.float ⟨0⟩)]⟩, ⟨⟨"x"⟩, [.has ⟨"mass"⟩ (.float ⟨0x8000000000000000⟩)]⟩] =
      [⟨⟨"x"⟩, [.has ⟨"mass"⟩ (.float ⟨0⟩)]⟩] := by
  decide +kernel

end OntologyTyping
