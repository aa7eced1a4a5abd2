import OntologyTyping.Proofs.Reclued
import OntologyTyping.Proofs.Runs

/-!
The order of a conjunction has no part in what is inferred.

A conjunction may have its atoms in another order, and each relation its slots. Its hints and its names are then the
same in another order, so it has clues that say the same and takes as many names from the supply. The resolved types
are the same, and the supply goes on to hand out the same names for them.
-/

namespace OntologyTyping

/-! ### Reordered conjunctions -/

/-- The same property, or a relation with its slots in another order. -/
inductive Property.Reordered : Property → Property → Prop
  | same (p : Property) : Reordered p p
  | slots {slots slots' : List RolePlayer} (h : slots.Perm slots') : Reordered (.relation slots) (.relation slots')

structure Atom.Reordered (a a' : Atom) : Prop where
  name : a'.name = a.name
  properties : List.Forall₂ Property.Reordered a.properties a'.properties

/-- The second conjunction has the atoms of the first in another order, each reordered. -/
def Branch.Reordered (b b' : Branch) : Prop :=
  ∃ atoms : List Atom, b.Perm atoms ∧ List.Forall₂ Atom.Reordered atoms b'

theorem flatMap_perm_of_forall₂ {α β : Type} {R : α → α → Prop} {f g : α → List β} {xs ys : List α}
    (h : List.Forall₂ R xs ys) (hfg : ∀ x y, R x y → (f x).Perm (g y)) : (xs.flatMap f).Perm (ys.flatMap g) := by
  induction h with
  | nil => exact .nil
  | cons hxy _ ih =>
    rw [List.flatMap_cons, List.flatMap_cons]
    exact (hfg _ _ hxy).append ih

theorem Property.Reordered.vars_perm {p p' : Property} (h : p.Reordered p') : p.vars.Perm p'.vars := by
  cases h with
  | same p => exact .refl _
  | slots h => exact h.flatMap_right _

theorem Property.Reordered.hints_perm {p p' : Property} (h : p.Reordered p') (v : VarName) :
    (Hint.ofStatement (v, p)).Perm (Hint.ofStatement (v, p')) := by
  cases h with
  | same p => exact .refl _
  | slots h => exact h.map _

namespace Atom.Reordered

variable {a a' : Atom}

theorem vars_perm (h : a.Reordered a') : a.vars.Perm a'.vars := by
  rw [Atom.vars, Atom.vars, h.name]
  exact (flatMap_perm_of_forall₂ h.properties fun _ _ hp => hp.vars_perm).cons _

theorem hints_perm (h : a.Reordered a') : (Branch.hints [a]).Perm (Branch.hints [a']) := by
  have hhints : ∀ a : Atom, Branch.hints [a] = a.properties.flatMap fun p => Hint.ofStatement (a.name, p) := by
    intro a
    simp [Branch.hints, statements, List.flatMap_map]
  rw [hhints, hhints, h.name]
  exact flatMap_perm_of_forall₂ h.properties fun _ _ hp => hp.hints_perm a.name

end Atom.Reordered

/-- Properties other than relations stay as they are. -/
theorem Property.Reordered.eq_iff {p p' q : Property} (h : p.Reordered p') (hq : ∀ slots, q ≠ .relation slots) :
    p' = q ↔ p = q := by
  cases h with
  | same p => exact Iff.rfl
  | slots h => exact iff_of_false (fun heq => hq _ heq.symm) fun heq => hq _ heq.symm

theorem Property.Reordered.list_eq_iff {ps ps' qs : List Property} (h : List.Forall₂ Property.Reordered ps ps')
    (hqs : ∀ q ∈ qs, ∀ slots, q ≠ .relation slots) : ps' = qs ↔ ps = qs := by
  induction h generalizing qs with
  | nil => exact Iff.rfl
  | cons hp _ ih =>
    cases qs with
    | nil => simp
    | cons q rest =>
      obtain ⟨hq, hrest⟩ := List.forall_mem_cons.mp hqs
      rw [List.cons.injEq, List.cons.injEq, hp.eq_iff hq, ih hrest]

namespace Branch.Reordered

variable {b b' : Branch}

theorem flatMap_perm {β : Type} {f : Atom → List β} (h : b.Reordered b')
    (hf : ∀ a a' : Atom, a.Reordered a' → (f a).Perm (f a')) : (b.flatMap f).Perm (b'.flatMap f) := by
  obtain ⟨atoms, hperm, hatoms⟩ := h
  exact (hperm.flatMap_right f).trans (flatMap_perm_of_forall₂ hatoms hf)

theorem mem_varsOf_iff (h : b.Reordered b') {v : VarName} : v ∈ varsOf b' ↔ v ∈ varsOf b := by
  rw [varsOf, varsOf, List.mem_eraseDups, List.mem_eraseDups]
  exact (h.flatMap_perm fun _ _ ha => ha.vars_perm).mem_iff.symm

theorem hints_perm (h : b.Reordered b') : b.hints.Perm b'.hints := by
  have hhints : ∀ b : Branch, b.hints = b.flatMap fun a => Branch.hints [a] := by
    intro b
    simp [Branch.hints, statements, List.flatMap_assoc, List.flatMap_map]
  rw [hhints, hhints]
  exact h.flatMap_perm fun _ _ ha => ha.hints_perm

theorem statesIsa_eq (h : b.Reordered b') (v : VarName) (l : Label) : b'.statesIsa v l = b.statesIsa v l := by
  rw [Bool.eq_iff_iff, statesIsa_iff, statesIsa_iff, ← isa_mem_hints, ← isa_mem_hints]
  exact h.hints_perm.mem_iff.symm

theorem statesRole_eq (h : b.Reordered b') (v : VarName) (l : Label) : b'.statesRole v l = b.statesRole v l := by
  obtain ⟨atoms, hperm, hatoms⟩ := h
  have hatom : ∀ a a' : Atom, a.Reordered a' →
      (a'.properties = [.label l, .sub (.var v)] ↔ a.properties = [.label l, .sub (.var v)]) :=
    fun a a' ha => Property.Reordered.list_eq_iff ha.properties (by simp)
  have hlist : (∃ a ∈ b', a.properties = [.label l, .sub (.var v)]) ↔
      ∃ a ∈ atoms, a.properties = [.label l, .sub (.var v)] := by
    clear hperm
    induction hatoms with
    | nil => exact Iff.rfl
    | cons ha _ ih => simp only [List.exists_mem_cons_iff, hatom _ _ ha, ih]
  rw [Bool.eq_iff_iff, statesRole_iff, statesRole_iff, hlist]
  exact exists_congr fun a => and_congr_left fun _ => hperm.mem_iff.symm

end Branch.Reordered

/-! ### Names from the supply -/

/-- The slot gets a placeholder for its role. -/
def Hint.unnamed : Hint → Bool
  | .slot _ ⟨some (.label _), _⟩ | .slot _ ⟨none, _⟩ => true
  | .slot _ ⟨some (.var _), _⟩ | .isa _ _ => false

/-- Clues take one name for each slot that does not have a role variable. -/
theorem Hint.clues_supply {policy : MissingRoles} {s s' : Supply} {hs : List Hint} {cs : List Clue}
    (h : clues policy s hs = .ok (cs, s')) : s' = (s.freshMany (hs.countP unnamed)).2 := by
  induction hs generalizing s cs with
  | nil =>
    cases h
    rfl
  | cons hint rest ih =>
    obtain ⟨c, s₁, ct, hc, hct, -⟩ := clues_cons_eq_ok.mp h
    rw [ih hct, List.countP_cons]
    unfold clue at hc
    split at hc
    · cases hc
      rfl
    · cases hc
      rfl
    · cases hc
      rfl
    · split at hc
      · cases hc
      · cases hc
        rfl

namespace Branch

variable {b b' : Branch} {e e' : Evidence} {s s' : Supply}

/-- The atom for a resolved type depends on what the branch states, on whether the variable stands for a role and on
the name that comes next. -/
theorem extensionAtom_congr {v : VarName} {l : Label} (hsame : s.Same s') (hroles : v ∈ e'.roles ↔ v ∈ e.roles)
    (hrole : b'.statesRole v l = b.statesRole v l) (hisa : b'.statesIsa v l = b.statesIsa v l) :
    (b'.extensionAtom e' s' v l).1 = (b.extensionAtom e s v l).1 ∧
      (b.extensionAtom e s v l).2.Same (b'.extensionAtom e' s' v l).2 := by
  simp only [extensionAtom, List.contains_iff_mem, hroles, hrole, hisa, hsame.fresh.1]
  split
  · split
    · exact ⟨rfl, hsame⟩
    · exact ⟨rfl, hsame.fresh.2⟩
  · split
    · exact ⟨rfl, hsame⟩
    · exact ⟨rfl, hsame⟩

theorem extension_congr {resolved : List (VarName × ConceptName)} (hsame : s.Same s')
    (hroles : ∀ v c, (v, c) ∈ resolved → (v ∈ e'.roles ↔ v ∈ e.roles))
    (hrole : ∀ v l, b'.statesRole v l = b.statesRole v l) (hisa : ∀ v l, b'.statesIsa v l = b.statesIsa v l) :
    (b'.extension e' s' resolved).1 = (b.extension e s resolved).1 := by
  induction resolved generalizing s s' with
  | nil => rfl
  | cons entry rest ih =>
    obtain ⟨v, c⟩ := entry
    obtain ⟨hatom, hnext⟩ := extensionAtom_congr (l := c.label) hsame (hroles v c List.mem_cons_self)
      (hrole v _) (hisa v _)
    simp only [extension, hatom]
    rw [ih hnext fun v c hc => hroles v c (List.mem_cons_of_mem _ hc)]

end Branch

/-! ### Runs -/

/-- Inferring a reordered branch from a supply of the same names adds the same atoms and reports the same. -/
theorem Branch.Reordered.infers_eq {o : Ontology} (wf : o.WellFormed) {b b' : Branch} (h : b.Reordered b')
    {s s' s₁ s₁' : Supply} (hsame : s.Same s') (hused : ∀ v ∈ varsOf b, v ∈ s.used) {settings : Settings}
    {asked asked' : List Query} {out out' : Outcome}
    (hout : b.Infers settings o.store asked s out s₁) (hnone : out.error? = none)
    (hout' : b'.Infers settings o.store asked' s' out' s₁') (hnone' : out'.error? = none) :
    out'.extension = out.extension ∧ ∀ i, out'.report i = out.report i := by
  have hnil : b'.hints = [] ↔ b.hints = [] := by
    rw [← List.length_eq_zero_iff, ← List.length_eq_zero_iff, h.hints_perm.length_eq]
  cases hout with
  | malformed _ | unanswered _ _ _ => cases hnone
  | skipped hclues =>
    cases hout' with
    | malformed _ | unanswered _ _ _ => cases hnone'
    | skipped _ => exact ⟨rfl, fun _ => rfl⟩
    | answered hclues' hne' _ =>
      exact absurd ((clues_eq_nil_iff hclues').mpr (hnil.mpr ((clues_eq_nil_iff hclues).mp rfl))) hne'
  | @answered cs s₂ answers hclues hne hsolve =>
    cases hout' with
    | malformed _ | unanswered _ _ _ => cases hnone'
    | skipped hclues' => exact absurd ((clues_eq_nil_iff hclues).mpr (hnil.mp ((clues_eq_nil_iff hclues').mp rfl))) hne
    | @answered cs' s₂' answers' hclues' _ hsolve' =>
      have hclued := (Hint.clues_eq_ok hclues).1
      have hclued' := (Hint.clues_eq_ok hclues').1
      obtain ⟨π, hπ⟩ := hclued.exists_reclued hclued' h.hints_perm hused fun v hv => (hsame.used v).mpr (hused v hv)
      refine ⟨?_, fun i => hπ.report_eq wf hclued.gives hsolve hsolve' i⟩
      have hsupply : s₂.Same s₂' := by
        rw [Hint.clues_supply hclues, Hint.clues_supply hclues', ← h.hints_perm.countP_eq]
        exact hsame.freshMany _
      simp only [Outcome.extension, hπ.resolution_eq wf hclued.gives hsolve hsolve']
      refine extension_congr hsupply (fun v c hc => ?_) h.statesRole_eq h.statesIsa_eq
      exact hπ.mem_roles_iff (hπ.names v (mem_varsOf_of_resolved wf hclued.gives hsolve hc))

/-- Two conjunctions that differ in the order of atoms and slots are both refused, or both are typed: with the same
report and the very same atoms added. -/
theorem Pattern.inferTypes_reordered {d : Definition} {o : Ontology} (hload : d.load = .ok o) (settings : Settings)
    {b b' : Branch} (h : b.Reordered b') :
    ((∃ e, (ofAtoms b).inferTypes settings o.store = .error e) ∧
      ∃ e, (ofAtoms b').inferTypes settings o.store = .error e) ∨
    ∃ t t' ext, (ofAtoms b).inferTypes settings o.store = .ok t ∧ (ofAtoms b').inferTypes settings o.store = .ok t' ∧
      t'.report = t.report ∧ t.pattern.branches = [b ++ ext] ∧ t'.pattern.branches = [b' ++ ext] := by
  have hiff : (∃ t, (ofAtoms b').inferTypes settings o.store = .ok t) ↔
      ∃ t, (ofAtoms b).inferTypes settings o.store = .ok t := by
    rw [inferTypes_ofAtoms_isOk_iff, inferTypes_ofAtoms_isOk_iff, Branch.infers.error?_eq_none_iff,
      Branch.infers.error?_eq_none_iff]
    simp only [h.hints_perm.mem_iff]
  cases hb : (ofAtoms b).inferTypes settings o.store with
  | error e =>
    cases hb' : (ofAtoms b').inferTypes settings o.store with
    | error e' => exact Or.inl ⟨⟨e, rfl⟩, e', rfl⟩
    | ok t' =>
      obtain ⟨t, ht⟩ := hiff.mp ⟨t', hb'⟩
      rw [hb] at ht
      cases ht
  | ok t =>
    obtain ⟨t', hb'⟩ := hiff.mpr ⟨t, hb⟩
    obtain ⟨hreport, hbranches⟩ := inferTypes_ofAtoms_eq_ok hb
    obtain ⟨hreport', hbranches'⟩ := inferTypes_ofAtoms_eq_ok hb'
    obtain ⟨hext, hsame⟩ := h.infers_eq (d.load_wellFormed hload) (Supply.same_forAtoms fun v => h.mem_varsOf_iff)
      (fun v hv => Supply.mem_forAtoms_used.mpr hv) Branch.infers (inferTypes_ofAtoms_isOk_iff.mp ⟨t, hb⟩) Branch.infers
      (inferTypes_ofAtoms_isOk_iff.mp ⟨t', hb'⟩)
    refine Or.inr ⟨t, t', _, rfl, hb', ?_, hbranches, ?_⟩
    · exact congrArg Report.mk (by rw [hreport, hreport', hsame])
    · rw [hbranches', hext]

/-- Two slots with role labels and one with a role variable, and the type of its player. -/
def crewBranch : Branch :=
  [⟨⟨"r"⟩, [.relation [⟨some (.label ⟨"performer"⟩), ⟨"y"⟩⟩, ⟨some (.label ⟨"work"⟩), ⟨"x"⟩⟩,
      ⟨some (.var ⟨"a"⟩), ⟨"z"⟩⟩]]⟩,
    ⟨⟨"z"⟩, [.isa (.label ⟨"movie"⟩)]⟩]

/-- The type first, and the labelled slots the other way round. -/
def crewBranchReordered : Branch :=
  [⟨⟨"z"⟩, [.isa (.label ⟨"movie"⟩)]⟩,
    ⟨⟨"r"⟩, [.relation [⟨some (.label ⟨"work"⟩), ⟨"x"⟩⟩, ⟨some (.var ⟨"a"⟩), ⟨"z"⟩⟩,
      ⟨some (.label ⟨"performer"⟩), ⟨"y"⟩⟩]]⟩]

theorem inferTypes_reordered_crewBranch :
    filmDefinition.load = .ok filmOntology ∧ crewBranch.Reordered crewBranchReordered ∧
      ∃ t t' ext, (Pattern.ofAtoms crewBranch).inferTypes {} filmOntology.store = .ok t ∧
        (Pattern.ofAtoms crewBranchReordered).inferTypes {} filmOntology.store = .ok t' ∧ t.changed = true ∧
        t'.report = t.report ∧ t.pattern.branches = [crewBranch ++ ext] ∧
        t'.pattern.branches = [crewBranchReordered ++ ext] := by
  have hreordered : crewBranch.Reordered crewBranchReordered := by
    refine ⟨crewBranch.reverse, by decide, .cons ⟨rfl, .cons (.same _) .nil⟩ (.cons ⟨rfl, .cons (.slots ?_) .nil⟩ .nil)⟩
    decide
  have hrun : ((Pattern.ofAtoms crewBranch).inferTypes {} filmOntology.store).toOption.any Typed.changed = true := by
    decide +kernel
  obtain ⟨t₁, ht₁, hchanged⟩ := exists_ok_of_any hrun
  rcases Pattern.inferTypes_reordered load_filmDefinition {} hreordered with
    ⟨⟨e, he⟩, -⟩ | ⟨t, t', ext, ht, ht', hsame⟩
  · rw [ht₁] at he
    cases he
  · rw [ht₁] at ht
    cases ht
    exact ⟨load_filmDefinition, hreordered, t₁, t', ext, ht₁, ht', hchanged, hsame⟩

end OntologyTyping
