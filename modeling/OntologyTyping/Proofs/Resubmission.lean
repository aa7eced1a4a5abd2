import OntologyTyping.Proofs.Hygiene
import OntologyTyping.Proofs.Kinds
import OntologyTyping.Proofs.RoundTrip

/-!
Whether an inferred pattern can be given back.

Inference adds texts from two sources to a pattern that JSON keeps. New names start with the stem of the settings,
which has no dollar sign in it. Labels come from the ontology as they were declared, and a label of a role is
written as it is. So what comes back depends on the labels that are stated as types.
-/

namespace OntologyTyping

/-! ### New names -/

theorem Settings.stem_plain {s : Settings} (h : s.checked = .ok s) : (VarName.mk s.stem).Plain := by
  unfold checked at h
  split at h
  · rename_i hrules
    have hcharacters : StemRule.characters.allows s.stem = true := by
      simpa using List.filter_eq_nil_iff.mp hrules .characters (by simp)
    intro hhead
    have hdollar := List.all_eq_true.mp hcharacters '$' (List.mem_of_head? hhead)
    simp at hdollar
  · cases h

theorem Supply.candidate_plain {s : Supply} (hstem : (VarName.mk s.stem).Plain) (n : Nat) : (s.candidate n).Plain := by
  have htext : (s.candidate n).text.toList = s.stem.toList ++ (toString n).toList := by
    rw [candidate, ofText_append, VarName.ofText_text_iff.mpr hstem, String.toList_append]
  intro hhead
  rw [htext] at hhead
  cases hs : s.stem.toList with
  | nil =>
    rw [hs, List.nil_append] at hhead
    obtain ⟨rest, hrest⟩ := List.head?_eq_some_iff.mp hhead
    exact toList_ne_dollar_cons hrest
  | cons c rest =>
    rw [hs] at hhead
    exact hstem (by simpa [hs] using hhead)

/-! ### Annotations -/

theorem Atom.readable_isa_iff {v : VarName} {l : Label} :
    (⟨v, [.isa (.label l)]⟩ : Atom).Readable ↔ v.Plain ∧ (TypeRef.label l).Readable := by
  simp [Atom.Readable, Property.Readable, Property.typeRefs, Property.players]

theorem Atom.readable_role_iff {name a : VarName} {l : Label} :
    (⟨name, [.label l, .sub (.var a)]⟩ : Atom).Readable ↔ name.Plain ∧ (TypeRef.var a).Readable := by
  simp [Atom.Readable, Property.Readable, Property.typeRefs, Property.players]

namespace Branch

variable {b : Branch} (hb : ∀ a ∈ b, a.Readable) {v : VarName}
include hb

theorem readable_of_slot {r : VarName} {filling : RolePlayer} (h : Hint.slot r filling ∈ b.hints) :
    r.Plain ∧ filling.player.Plain ∧ ∀ t ∈ filling.role, t.Readable := by
  obtain ⟨players, hs, hf⟩ := slot_mem_hints.mp h
  obtain ⟨a, ha, rfl, hq⟩ := mem_statements.mp hs
  obtain ⟨hname, hproperties⟩ := hb a ha
  obtain ⟨htypes, hplayers⟩ := hproperties _ hq
  exact ⟨hname, hplayers _ (List.mem_map_of_mem hf), fun t ht => htypes t (List.mem_filterMap.mpr ⟨filling, hf, ht⟩)⟩

theorem plain_of_mem_instanceVars (hv : v ∈ b.instanceVars) : v.Plain := by
  obtain ⟨h, hh, hv⟩ := mem_instanceVars_iff.mp hv
  cases h with
  | isa w l =>
    obtain rfl := List.mem_singleton.mp hv
    obtain ⟨a, ha, rfl, -⟩ := mem_statements.mp (isa_mem_hints.mp hh)
    exact (hb a ha).1
  | slot r filling =>
    obtain ⟨hr, hplayer, -⟩ := readable_of_slot hb hh
    simp only [Hint.instanceVars, List.mem_cons, List.not_mem_nil, or_false] at hv
    rcases hv with rfl | rfl
    · exact hr
    · exact hplayer

theorem readable_of_mem_roleVars (hv : v ∈ b.roleVars) : (TypeRef.var v).Readable := by
  obtain ⟨r, p, hh⟩ := mem_roleVars_iff.mp hv
  exact (readable_of_slot hb hh).2.2 _ rfl

end Branch

/-! ### The result -/

namespace Pattern

variable {settings : Settings} {store : Store} {p : Pattern}

/-- The result consists of atoms of the pattern and of atoms that were added. -/
theorem forall_atoms_result_iff (hok : ∀ step ∈ (p.infer settings store).steps, step.2.error? = none) {P : Atom → Prop}
    (hp : ∀ a ∈ p.atoms, P a) :
    (∀ a ∈ (p.infer settings store).result.atoms, P a) ↔
      ∀ step ∈ (p.infer settings store).steps, ∀ a ∈ step.2.extension, P a := by
  cases hchanged : (p.infer settings store).isChanged with
  | true =>
    simp only [Inference.atoms_result_of_changed hchanged, List.mem_flatMap, List.mem_append]
    constructor
    · intro h step hstep a ha
      exact h a ⟨step, hstep, Or.inr ha⟩
    · rintro h a ⟨step, hstep, ha | ha⟩
      · have hmem : step.1 ∈ p.branches := by
          rw [← map_fst_steps hok]
          exact List.mem_map_of_mem hstep
        exact hp a (mem_atoms_of_mem_branches p _ hmem a ha)
      · exact h step hstep a ha
  | false =>
    have hnone := Inference.isChanged_eq_false_iff.mp hchanged
    rw [Inference.result_of_not_changed hchanged]
    refine iff_of_true hp ?_
    intro step hstep a ha
    rw [hnone step hstep] at ha
    cases ha

theorem plain_of_mem_roleNames (hstem : (VarName.mk settings.stem).Plain) {step : Branch × Outcome}
    (hstep : step ∈ (p.infer settings store).steps) {name : VarName} (hname : name ∈ step.2.roleNames) :
    name.Plain := by
  obtain ⟨supply', hissues⟩ := infer_issues settings store p
  obtain ⟨n, rfl⟩ := hissues.numbered name
    (List.mem_flatMap.mpr ⟨step, hstep, List.mem_append_right _ hname⟩)
  exact Supply.candidate_plain hstem n

/-- Of the atoms that are added to a readable pattern, those that state the type of an instance are readable as far
as the label is, and the others always are. -/
theorem readable_extension_iff (hstore : store.BindsAsked) (hstem : (VarName.mk settings.stem).Plain)
    (hok : ∀ step ∈ (p.infer settings store).steps, step.2.error? = none) (hp : ∀ a ∈ p.atoms, a.Readable)
    {step : Branch × Outcome} (hstep : step ∈ (p.infer settings store).steps) :
    (∀ a ∈ step.2.extension, a.Readable) ↔
      ∀ v l, ⟨v, [.isa (.label l)]⟩ ∈ step.2.extension → (TypeRef.label l).Readable := by
  obtain ⟨hmem, hannotates⟩ := annotates_of_steps hstore hok hstep
  have hb : ∀ a ∈ step.1, a.Readable := fun a ha => hp a (mem_atoms_of_mem_branches p _ hmem a ha)
  constructor
  · intro h v l ha
    exact (Atom.readable_isa_iff.mp (h _ ha)).2
  · intro h a ha
    cases hannotates a ha with
    | isa hv => exact Atom.readable_isa_iff.mpr ⟨Branch.plain_of_mem_instanceVars hb hv, h _ _ ha⟩
    | role hv =>
      have hname := plain_of_mem_roleNames hstem hstep (List.mem_filterMap.mpr ⟨_, ha, Atom.roleName?_role _ _ _⟩)
      exact Atom.readable_role_iff.mpr ⟨hname, Branch.readable_of_mem_roleVars hb hv⟩

end Pattern

/-- With a stem that keeps the rules, the result for a pattern that comes back from JSON comes back itself exactly
when every label that is stated as the type of an instance can be read. Where the labels of all the concepts but
roles can be read, it always comes back. -/
theorem Pattern.inferTypes_roundTrip_iff {d : Definition} {o : Ontology} (hload : d.load = .ok o) {settings : Settings}
    (hsettings : settings.checked = .ok settings) {p : Pattern} (hp : ofJson p.toJson = .ok p) {t : Typed}
    (h : p.inferTypes settings o.store = .ok t) :
    (ofJson t.pattern.toJson = .ok t.pattern ↔
      ∀ (k : Nat) (b : Branch) (ext : List Atom), p.branches[k]? = some b → t.pattern.branches[k]? = some (b ++ ext) →
        ∀ v l, ⟨v, [.isa (.label l)]⟩ ∈ ext → (TypeRef.label l).Readable) ∧
    ((∀ c ∈ o.concepts, c.kind ≠ .role → (TypeRef.label c.label).Readable) →
      ofJson t.pattern.toJson = .ok t.pattern) := by
  obtain ⟨hok, rfl⟩ := inferTypes_eq_ok_iff.mp h
  have wf := d.load_wellFormed hload
  have hstem := Settings.stem_plain hsettings
  rw [ofJson_toJson_iff] at hp
  have hiff : ofJson (p.infer settings o.store).result.toJson = .ok (p.infer settings o.store).result ↔
      ∀ step ∈ (p.infer settings o.store).steps, ∀ v l, ⟨v, [.isa (.label l)]⟩ ∈ step.2.extension →
        (TypeRef.label l).Readable := by
    rw [ofJson_toJson_iff, forall_atoms_result_iff hok hp]
    exact forall₂_congr fun step hstep => readable_extension_iff wf.store_bindsAsked hstem hok hp hstep
  constructor
  · refine hiff.trans ⟨?_, ?_⟩
    · intro h k b ext hb hext
      obtain ⟨out, hk, rfl⟩ := exists_step_extending hok hb hext
      exact h (b, out) (List.mem_of_getElem? hk)
    · intro h step hstep
      obtain ⟨k, hk⟩ := List.mem_iff_getElem?.mp hstep
      obtain ⟨hb, hext⟩ := branches_of_step hok hk
      exact h k step.1 step.2.extension hb hext
  · intro hlabels
    refine hiff.mpr ?_
    intro step hstep v l ha
    obtain ⟨-, -, used, -, hinferred⟩ := inferred_of_mem_steps hok hstep
    cases hinferred.statesKind wf ha with
    | isa hc hkind _ => exact hlabels _ (Ontology.concept?_mem hc).1 hkind

theorem inferTypes_roundTrip_iff_namesakesPattern :
    (filmDefinition.load = .ok filmOntology ∧
      Settings.checked { missingRoles := .synthesize } = .ok { missingRoles := .synthesize } ∧
      Pattern.ofJson namesakesPattern.toJson = .ok namesakesPattern) ∧
    ∃ t, namesakesPattern.inferTypes { missingRoles := .synthesize } filmOntology.store = .ok t ∧ t.changed = true ∧
      Pattern.ofJson t.pattern.toJson = .ok t.pattern := by
  have hsettings :
      Settings.checked { missingRoles := .synthesize } = .ok { missingRoles := .synthesize } := by decide +kernel
  have hp : Pattern.ofJson namesakesPattern.toJson = .ok namesakesPattern :=
    (Pattern.ofJson_toJson_iff namesakesPattern).mpr (by decide +kernel)
  have hrun : (namesakesPattern.inferTypes { missingRoles := .synthesize } filmOntology.store).toOption.any
      Typed.changed = true := by decide +kernel
  obtain ⟨t, h, hchanged⟩ := exists_ok_of_any hrun
  have hlabels : ∀ c ∈ filmOntology.concepts, c.kind ≠ .role → (TypeRef.label c.label).Readable := by decide +kernel
  exact ⟨⟨load_filmDefinition, hsettings, hp⟩, t, h, hchanged,
    (Pattern.inferTypes_roundTrip_iff load_filmDefinition hsettings hp h).2 hlabels⟩

/-- Castings of actors, who are of a type with a blank at the end of its label. -/
def paddedDefinition : Definition where
  name := none
  declarations :=
    { entities := [⟨⟨"person "⟩, none, [⟨"actor"⟩]⟩]
      relations := [⟨⟨"casting"⟩, none, [⟨"actor"⟩], []⟩]
      attributes := []
      roles := [] }

def paddedOntology : Ontology where
  name := none
  concepts :=
    [⟨⟨"actor"⟩, .role, none, [], []⟩, ⟨⟨"casting"⟩, .relation, none, [], [⟨"actor"⟩]⟩,
      ⟨⟨"person "⟩, .entity, none, [⟨"actor"⟩], []⟩]

def actorBranch : Branch :=
  [⟨⟨"r"⟩, [.relation [⟨some (.label ⟨"actor"⟩), ⟨"x"⟩⟩]]⟩]

/-- The label is stated with its blank and read without, so another pattern comes back. -/
theorem inferTypes_roundTrip_alters_label :
    paddedDefinition.load = .ok paddedOntology ∧ Settings.checked {} = .ok {} ∧
      Pattern.ofJson (Pattern.ofAtoms actorBranch).toJson = .ok (.ofAtoms actorBranch) ∧
      ∃ t, (Pattern.ofAtoms actorBranch).inferTypes {} paddedOntology.store = .ok t ∧
        ∃ back, Pattern.ofJson t.pattern.toJson = .ok back ∧ back ≠ t.pattern ∧
          ⟨⟨"x"⟩, [.isa (.label ⟨"person "⟩)]⟩ ∈ t.pattern.atoms ∧
          ⟨⟨"x"⟩, [.isa (.label ⟨"person"⟩)]⟩ ∈ back.atoms := by
  have hrun : ((Pattern.ofAtoms actorBranch).inferTypes {} paddedOntology.store).toOption.any
      (fun t => decide (⟨⟨"x"⟩, [.isa (.label ⟨"person "⟩)]⟩ ∈ t.pattern.atoms) &&
        (Pattern.ofJson t.pattern.toJson).toOption.any fun back =>
          decide (back.atoms ≠ t.pattern.atoms) &&
            decide (⟨⟨"x"⟩, [.isa (.label ⟨"person"⟩)]⟩ ∈ back.atoms)) = true := by
    decide +kernel
  obtain ⟨t, h, htest⟩ := exists_ok_of_any hrun
  obtain ⟨hstated, hread⟩ := Bool.and_eq_true_iff.mp htest
  obtain ⟨back, hback, htest⟩ := exists_ok_of_any hread
  obtain ⟨hne, hmem⟩ := Bool.and_eq_true_iff.mp htest
  refine ⟨by decide +kernel, by decide +kernel, (Pattern.ofJson_toJson_iff _).mpr (by decide +kernel),
    t, h, back, hback, ?_, of_decide_eq_true hstated, of_decide_eq_true hmem⟩
  rintro rfl
  exact of_decide_eq_true hne rfl

end OntologyTyping
