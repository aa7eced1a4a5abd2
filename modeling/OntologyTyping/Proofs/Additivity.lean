import OntologyTyping.Proofs.Runs

/-!
Type inference only adds atoms.

Whatever answers the queries, the branches of the result are the given ones, in order and unmodified, each followed
by atoms that state a type. How the added atoms are grouped with the given ones has no part in it: the branches, the
report and whether anything is changed are the same.
-/

namespace OntologyTyping

/-- An atom that states a type and nothing else: a literal type, or a label below a variable. -/
inductive Atom.StatesType : Atom → Prop
  | isa (v : VarName) (l : Label) : StatesType ⟨v, [.isa (.label l)]⟩
  | role (name : VarName) (l : Label) (v : VarName) : StatesType ⟨name, [.label l, .sub (.var v)]⟩

theorem Branch.Inferred.statesType {reply : Query → Except QueryError (List Binding)} {used : List VarName} {b : Branch}
    {out : Outcome} (h : b.Inferred reply used out) {a : Atom} (ha : a ∈ out.extension) : a.StatesType := by
  cases h with
  | skipped _ => cases ha
  | answered _ _ _ _ hext =>
    cases hext.adds ha with
    | isa _ _ => exact .isa _ _
    | role _ _ _ => exact .role _ _ _

theorem Inference.isChanged_eq_true_iff {i : Inference} :
    i.isChanged = true ↔ ∃ ext ∈ i.steps.map (·.2.extension), ext ≠ [] := by
  rw [← Bool.not_eq_false, isChanged_eq_false_iff]
  simp

/-! ### Settings that make no difference -/

section Settings
variable {settings settings' : Settings} {store : Store}

theorem inferBranches_congr (hpolicy : settings'.missingRoles = settings.missingRoles) {asked : List Query}
    {supply : Supply} {bs : List Branch} :
    inferBranches settings' store asked supply bs = inferBranches settings store asked supply bs := by
  have hinfer : ∀ asked supply b,
      Branch.infer settings' store asked supply b = b.infer settings store asked supply := by
    intro asked supply b
    rw [Branch.infer, Branch.infer, hpolicy]
  induction bs generalizing asked supply with
  | nil => rfl
  | cons b rest ih => simp only [inferBranches, hinfer, ih]

theorem Pattern.steps_congr (hpolicy : settings'.missingRoles = settings.missingRoles)
    (hstem : settings'.stem = settings.stem) {p : Pattern} :
    (p.infer settings' store).steps = (p.infer settings store).steps := by
  rw [infer, infer, hstem]
  exact inferBranches_congr hpolicy

theorem Inference.isChanged_congr {i i' : Inference} (hsteps : i'.steps = i.steps) : i'.isChanged = i.isChanged := by
  rw [Bool.eq_iff_iff, isChanged_eq_true_iff, isChanged_eq_true_iff, hsteps]

/-- Where the rule for missing roles and the stem of names are the same, so are the errors, the reports, the flags
and the branches. -/
theorem Pattern.inferTypes_congr (hpolicy : settings'.missingRoles = settings.missingRoles)
    (hstem : settings'.stem = settings.stem) {p : Pattern} :
    (p.inferTypes settings' store).map (fun t => (t.report, t.changed, t.pattern.branches)) =
      (p.inferTypes settings store).map fun t => (t.report, t.changed, t.pattern.branches) := by
  have hsteps : (p.infer settings' store).steps = (p.infer settings store).steps := steps_congr hpolicy hstem
  have herror : (p.infer settings' store).error? = (p.infer settings store).error? := by
    rw [Inference.error?, Inference.error?, hsteps]
  have hreport : (p.infer settings' store).report = (p.infer settings store).report := by
    rw [Inference.report, Inference.report, hsteps]
  rw [inferTypes, inferTypes, Inference.outcome, Inference.outcome, herror]
  split
  · rfl
  · rename_i hnone
    have hfst := map_fst_steps (Inference.error?_eq_none_iff.mp hnone)
    have hfst' := map_fst_steps (Inference.error?_eq_none_iff.mp (herror.trans hnone))
    simp only [Except.map, hreport, Inference.isChanged_congr hsteps, Inference.branches_result hfst,
      Inference.branches_result hfst', hsteps]

end Settings

/-! ### What a run adds -/

/-- The branches of a result are the given ones, each with atoms that state types after its own. The pattern counts
as changed when there is such an atom, and is left as it stands when there is none. Grouping has no part in it. -/
theorem Pattern.inferTypes_additive (settings : Settings) (store : Store) (p : Pattern) :
    (∀ t, p.inferTypes settings store = .ok t →
      ∃ exts : List (List Atom), exts.length = p.branches.length ∧
        t.pattern.branches = List.zipWith (· ++ ·) p.branches exts ∧
        (∀ ext ∈ exts, ∀ a ∈ ext, a.StatesType) ∧
        (t.changed = true ↔ ∃ ext ∈ exts, ext ≠ []) ∧ (t.changed = false → t.pattern = p)) ∧
    (p.inferTypes { settings with keepGroups := true } store).map (fun t => (t.report, t.changed, t.pattern.branches)) =
      (p.inferTypes { settings with keepGroups := false } store).map fun t =>
        (t.report, t.changed, t.pattern.branches) := by
  constructor
  · intro t h
    obtain ⟨hok, rfl⟩ := inferTypes_eq_ok_iff.mp h
    have hsteps := map_fst_steps hok
    refine ⟨(p.infer settings store).steps.map (·.2.extension), ?_, ?_, ?_, Inference.isChanged_eq_true_iff,
      Inference.result_of_not_changed⟩
    · rw [← hsteps, List.length_map, List.length_map]
    · rw [Inference.branches_result hsteps, ← hsteps, List.zipWith_map, List.zipWith_self]
    · rw [List.forall_mem_map]
      intro step hstep a ha
      obtain ⟨k, hk⟩ := List.mem_iff_getElem?.mp hstep
      obtain ⟨-, used, -, hinferred⟩ := inferred_of_steps hok hk
      exact hinferred.statesType ha
  · apply inferTypes_congr <;> rfl

/-- Someone in a casting, together with nothing else or with anything else. -/
def someonePattern : Pattern :=
  .all [.atom ⟨⟨"r"⟩, [.relation [⟨some (.label ⟨"actor"⟩), ⟨"y"⟩⟩]]⟩, .any [.all [], .atom ⟨⟨"z"⟩, []⟩]]

/-- The first query has one answer, and later ones have none. -/
def oneAnswerStore : Store :=
  .ofReplies [.ok [[(⟨"r"⟩, ⟨⟨"casting"⟩, .relation⟩), (⟨"y"⟩, ⟨⟨"person"⟩, .entity⟩)]]]

theorem inferTypes_additive_someonePattern :
    ∃ t, someonePattern.inferTypes {} oneAnswerStore = .ok t ∧ t.changed = true ∧
      ∃ exts : List (List Atom), exts.length = someonePattern.branches.length ∧
        t.pattern.branches = List.zipWith (· ++ ·) someonePattern.branches exts ∧
        (∀ ext ∈ exts, ∀ a ∈ ext, a.StatesType) ∧
        (t.changed = true ↔ ∃ ext ∈ exts, ext ≠ []) ∧ (t.changed = false → t.pattern = someonePattern) := by
  have hrun : (someonePattern.inferTypes {} oneAnswerStore).toOption.any Typed.changed = true := by decide +kernel
  obtain ⟨t, h, hchanged⟩ := exists_ok_of_any hrun
  exact ⟨t, h, hchanged, (Pattern.inferTypes_additive {} oneAnswerStore someonePattern).1 t h⟩

end OntologyTyping
