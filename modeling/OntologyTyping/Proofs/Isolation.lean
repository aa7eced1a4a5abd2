import OntologyTyping.Proofs.Reclued
import OntologyTyping.Proofs.Unambiguous
import Mathlib.Data.Set.Finite.Basic

/-!
The branches of a pattern are inferred as if each stood alone.

All that passes from one branch to the next is which names the supply has handed out. A branch taken by itself has
the same hints, so its clues say the same under other names for the placeholders. Its report is the same, and the
atoms that state its types differ in the names that stand for roles, which are new in either run.
-/

namespace OntologyTyping

/-! ### Renamed atoms -/

def TypeRef.rename (π : VarName → VarName) : TypeRef → TypeRef
  | .label l => .label l
  | .var v => .var (π v)

def RolePlayer.rename (π : VarName → VarName) (slot : RolePlayer) : RolePlayer :=
  ⟨slot.role.map (TypeRef.rename π), π slot.player⟩

def Property.rename (π : VarName → VarName) : Property → Property
  | .isa t => .isa (t.rename π)
  | .sub t => .sub (t.rename π)
  | .label l => .label l
  | .plays t => .plays (t.rename π)
  | .relates t => .relates (t.rename π)
  | .relation slots => .relation (slots.map (RolePlayer.rename π))
  | .has a v => .has a v

/-- The atom with other names for its variables. -/
def Atom.rename (π : VarName → VarName) (a : Atom) : Atom :=
  ⟨π a.name, a.properties.map (Property.rename π)⟩

/-- A permutation takes finitely many names to as many others, where neither are among those that it leaves alone. -/
theorem exists_perm_of_injOn (names : List VarName) {ks : Set VarName} (hks : ks.Finite) {f g : VarName → VarName}
    (hf : Set.InjOn f ks) (hg : Set.InjOn g ks) (hfnames : ∀ k ∈ ks, f k ∉ names) (hgnames : ∀ k ∈ ks, g k ∉ names) :
    ∃ π : Equiv.Perm VarName, (∀ v ∈ names, π v = v) ∧ ∀ k ∈ ks, π (f k) = g k := by
  induction ks, hks using Set.Finite.induction_on with
  | empty => exact ⟨Equiv.refl _, fun _ _ => rfl, fun _ hk => hk.elim⟩
  | @insert k rest hk _ ih =>
    have hsub : rest ⊆ insert k rest := Set.subset_insert k rest
    have hmem : k ∈ insert k rest := Set.mem_insert k rest
    obtain ⟨π, hfix, hmaps⟩ := ih (hf.mono hsub) (hg.mono hsub) (fun k' hk' => hfnames k' (hsub hk'))
      fun k' hk' => hgnames k' (hsub hk')
    obtain ⟨ρ, hρ, hkept⟩ := Hint.exists_redirect π (f k) (g k)
    refine ⟨ρ, fun v hv => ?_, fun k' hk' => ?_⟩
    · have hne : π v ≠ g k := by
        rw [hfix v hv]
        exact ne_of_mem_of_not_mem hv (hgnames k hmem)
      rw [hkept v (ne_of_mem_of_not_mem hv (hfnames k hmem)) hne, hfix v hv]
    · rcases hk' with rfl | hrest
      · exact hρ
      · have hne : k' ≠ k := ne_of_mem_of_not_mem hrest hk
        have hfne : f k' ≠ f k := fun h => hne (hf (hsub hrest) hmem h)
        have hgne : π (f k') ≠ g k := by
          rw [hmaps k' hrest]
          exact fun h => hne (hg (hsub hrest) hmem h)
        rw [hkept (f k') hfne hgne, hmaps k' hrest]

namespace Branch

/-- Two extensions by the same types differ in the names that stand for roles. -/
theorem ExtendedBy.exists_rename {b : Branch} {types : List (VarName × Label)} {ext ext' : List Atom}
    (h : b.ExtendedBy (varsOf b) types ext) (h' : b.ExtendedBy (varsOf b) types ext')
    (htypes : ∀ v l, (v, l) ∈ types → v ∈ varsOf b) :
    ∃ π : Equiv.Perm VarName, (∀ v ∈ varsOf b, π v = v) ∧ ext' = ext.map (Atom.rename π) := by
  obtain ⟨fresh, rfl, hnew, hinj⟩ := h
  obtain ⟨fresh', rfl, hnew', hinj'⟩ := h'
  have hfinite : (b.unstated types).Finite := by
    refine (List.finite_toSet (types.map Prod.fst)).subset ?_
    rintro v ⟨-, l, hl, -⟩
    exact List.mem_map.mpr ⟨_, hl, rfl⟩
  obtain ⟨π, hfix, hmaps⟩ := exists_perm_of_injOn (varsOf b) hfinite hinj hinj' hnew hnew'
  refine ⟨π, hfix, ?_⟩
  rw [List.map_flatMap]
  refine List.flatMap_congr ?_
  rintro ⟨v, l⟩ hl
  have hv := hfix v (htypes v l hl)
  by_cases hrole : v ∈ b.roleVars
  · by_cases hstated : ∃ a ∈ b, a.properties = [.label l, .sub (.var v)]
    · simp only [typeAtoms, if_pos hrole, if_pos hstated, List.map_nil]
    · have hname : π (fresh v) = fresh' v := hmaps v ⟨hrole, l, hl, hstated⟩
      simp only [typeAtoms, if_pos hrole, if_neg hstated, List.map_cons, List.map_nil, Atom.rename, Property.rename,
        TypeRef.rename, hname, hv]
  · simp only [typeAtoms, if_neg hrole, List.map_cons, List.map_nil, Atom.rename, Property.rename, TypeRef.rename, hv]

/-- A variable of the extension is one of the branch, or was not in use. -/
theorem Inferred.mem_varsOf_extension {o : Ontology} (wf : o.WellFormed) {b : Branch} {used : List VarName}
    {out : Outcome} (h : b.Inferred o.solve used out) {v : VarName} (hv : v ∈ varsOf out.extension) :
    v ∈ varsOf b ∨ v ∉ used := by
  cases h with
  | skipped _ => cases hv
  | answered _ hclued hsolve hkept hext =>
    rcases hext.mem_varsOf hv with ⟨c, hc⟩ | ⟨hnew, -⟩
    · exact Or.inl (mem_varsOf_of_resolved wf hclued.gives hsolve hc)
    · exact Or.inr fun hmem => hnew (hkept v (Or.inr hmem))

/-- Whatever names are in use, what becomes of a branch is the same up to the names of placeholders. -/
theorem Inferred.same {o : Ontology} (wf : o.WellFormed) {b : Branch} {used used' : List VarName} {out out' : Outcome}
    (h : b.Inferred o.solve used out) (hused : ∀ v ∈ varsOf b, v ∈ used) (h' : b.Inferred o.solve used' out')
    (hused' : ∀ v ∈ varsOf b, v ∈ used') :
    (∀ i, out'.report i = out.report i) ∧
      ∃ π : Equiv.Perm VarName, (∀ v ∈ varsOf b, π v = v) ∧ out'.extension = out.extension.map (Atom.rename π) := by
  cases h with
  | skipped hhints =>
    cases h' with
    | skipped _ => exact ⟨fun _ => rfl, Equiv.refl _, fun _ _ => rfl, rfl⟩
    | answered hhints' _ _ _ _ => exact absurd hhints hhints'
  | @answered cs answers ext used₁ hhints hclued hsolve hkept hext =>
    cases h' with
    | skipped hhints' => exact absurd hhints' hhints
    | @answered cs' answers' ext' used₁' _ hclued' hsolve' hkept' hext' =>
      obtain ⟨ρ, hρ⟩ := hclued.exists_reclued hclued' (List.Perm.refl _) hused hused'
      have hreport : ∀ i, (Outcome.answered cs' answers' ext').report i = (Outcome.answered cs answers ext).report i :=
        hρ.report_eq wf hclued.gives hsolve hsolve'
      have hextended := (hclued.extendedBy (i := 0) hused hext).mono fun v hv => hkept v (Or.inr (hused v hv))
      have hextended' := (hclued'.extendedBy (i := 0) hused' hext').mono fun v hv => hkept' v (Or.inr (hused' v hv))
      rw [hreport] at hextended'
      refine ⟨hreport, hextended.exists_rename hextended' fun v l hl => ?_⟩
      obtain ⟨c, hc, -⟩ := Outcome.mem_report_resolved_iff.mp hl
      exact mem_varsOf_of_resolved wf hclued.gives hsolve hc

end Branch

/-! ### Branches and patterns -/

theorem Outcome.report_with_index (out : Outcome) (i j : Nat) : { out.report i with index := j } = out.report j := by
  cases out <;> rfl

/-- A branch of a pattern that can be typed can be typed by itself. Its report is that of the branch in the pattern,
but for its place, and the atoms added are the same up to the names that are new. -/
theorem Pattern.inferTypes_branch_alone {d : Definition} {o : Ontology} (hload : d.load = .ok o) {settings : Settings}
    {p : Pattern} {t : Typed} (h : p.inferTypes settings o.store = .ok t) {k : Nat} {b : Branch}
    (hb : p.branches[k]? = some b) :
    ∃ (t' : Typed) (r : BranchReport) (ext ext' : List Atom) (π : Equiv.Perm VarName),
      (ofAtoms b).inferTypes settings o.store = .ok t' ∧
      t.report.branches[k]? = some r ∧ t'.report.branches = [{ r with index := 0 }] ∧
      t.pattern.branches[k]? = some (b ++ ext) ∧ t'.pattern.branches = [b ++ ext'] ∧
      ext' = ext.map (Atom.rename π) ∧ (∀ v ∈ varsOf b, π v = v) ∧ ∀ v ∈ varsOf ext, v ∈ varsOf b ∨ v ∉ p.vars := by
  have wf := d.load_wellFormed hload
  obtain ⟨hok, rfl⟩ := inferTypes_eq_ok_iff.mp h
  obtain ⟨out, hk⟩ := exists_step hok hb
  obtain ⟨hmem, hpolicy, used, hused, hinferred⟩ := inferred_of_mem_steps hok (List.mem_of_getElem? hk)
  -- The branch alone fails only where a role is missing, and that would have failed in the pattern.
  have hnone : (b.infer settings o.store [] (.forAtoms settings.stem b)).1.error? = none :=
    Branch.infers.error?_eq_none_iff.mpr hpolicy
  obtain ⟨t', ht'⟩ := inferTypes_ofAtoms_isOk_iff.mpr hnone
  obtain ⟨hreport', hbranches'⟩ := inferTypes_ofAtoms_eq_ok ht'
  obtain ⟨hreport, π, hfix, hext⟩ := hinferred.same wf (fun v hv => hused v (varsOf_subset_vars hmem v hv))
    (Branch.infers.spec.2 hnone) fun v hv => Supply.mem_forAtoms_used.mpr hv
  refine ⟨t', out.report k, out.extension, _, π, ht', ?_, ?_, ?_, hbranches', hext, hfix, fun v hv => ?_⟩
  · rw [Inference.getElem?_report, hk]
    rfl
  · rw [hreport', Outcome.report_with_index, hreport]
  · rw [Inference.branches_result (map_fst_steps hok), List.getElem?_map, hk]
    rfl
  · exact (hinferred.mem_varsOf_extension wf hv).imp_right fun hnew hvars => hnew (hused v hvars)

/-- The same branch twice. -/
def twicePattern : Pattern :=
  .any [.ofAtoms castingBranch, .ofAtoms castingBranch]

theorem inferTypes_branch_alone_twicePattern :
    filmDefinition.load = .ok filmOntology ∧ twicePattern.branches[1]? = some castingBranch ∧
      ∃ t, twicePattern.inferTypes {} filmOntology.store = .ok t ∧ t.changed = true ∧
        ∃ (t' : Typed) (r : BranchReport) (ext ext' : List Atom) (π : Equiv.Perm VarName),
          (Pattern.ofAtoms castingBranch).inferTypes {} filmOntology.store = .ok t' ∧
          t.report.branches[1]? = some r ∧ t'.report.branches = [{ r with index := 0 }] ∧
          t.pattern.branches[1]? = some (castingBranch ++ ext) ∧ t'.pattern.branches = [castingBranch ++ ext'] ∧
          ext' = ext.map (Atom.rename π) ∧ (∀ v ∈ varsOf castingBranch, π v = v) ∧
          ∀ v ∈ varsOf ext, v ∈ varsOf castingBranch ∨ v ∉ twicePattern.vars := by
  have hbranch : twicePattern.branches[1]? = some castingBranch := by decide +kernel
  have hrun : (twicePattern.inferTypes {} filmOntology.store).toOption.any Typed.changed = true := by decide +kernel
  obtain ⟨t, ht, hchanged⟩ := exists_ok_of_any hrun
  exact ⟨load_filmDefinition, hbranch, t, ht, hchanged, Pattern.inferTypes_branch_alone load_filmDefinition ht hbranch⟩

end OntologyTyping
