import OntologyTyping.Proofs.Conformance
import OntologyTyping.Proofs.Runs

/-!
The names that inference makes up.

Placeholders of queries and names below role variables come from one supply, so in a whole run they differ from each
other and from the names of the pattern. What is found out about a branch concerns variables of the branch. So a new
name stands in the result once, below a role variable, and the placeholders of the queries stay inside.
-/

namespace OntologyTyping

/-! ### Names handed out -/

namespace Supply

/-- Between two states of a supply these names were handed out, each of them once. -/
structure Issues (s : Supply) (names : List VarName) (s' : Supply) : Prop where
  distinct : names.Nodup
  fresh : ∀ v ∈ names, v ∉ s.used
  numbered : ∀ v ∈ names, ∃ n, v = s.candidate n
  used : ∀ v, v ∈ s'.used ↔ v ∈ names ∨ v ∈ s.used
  stem : s'.stem = s.stem

variable {s s' s'' : Supply} {names names' : List VarName}

theorem Issues.refl (s : Supply) : s.Issues [] s :=
  ⟨List.nodup_nil, by simp, by simp, by simp, rfl⟩

theorem issues_fresh : s.Issues [s.fresh.1] s.fresh.2 := by
  refine ⟨List.nodup_singleton _, ?_, ?_, by simp, rfl⟩
  · intro v hv
    rw [List.mem_singleton.mp hv]
    exact fresh_not_used
  · intro v hv
    exact ⟨_, List.mem_singleton.mp hv⟩

theorem Issues.trans (h : s.Issues names s') (h' : s'.Issues names' s'') : s.Issues (names ++ names') s'' where
  distinct := by
    refine List.nodup_append.mpr ⟨h.distinct, h'.distinct, ?_⟩
    rintro v hv w hw rfl
    exact h'.fresh v hw ((h.used v).mpr (Or.inl hv))
  fresh := by
    intro v hv hused
    rcases List.mem_append.mp hv with hv | hv
    · exact h.fresh v hv hused
    · exact h'.fresh v hv ((h.used v).mpr (Or.inr hused))
  numbered := by
    intro v hv
    rcases List.mem_append.mp hv with hv | hv
    · exact h.numbered v hv
    · obtain ⟨n, rfl⟩ := h'.numbered v hv
      exact ⟨n, by rw [candidate, candidate, h.stem]⟩
  used := by
    intro v
    rw [h'.used, h.used, List.mem_append]
    tauto
  stem := h'.stem.trans h.stem

end Supply

/-- The name that an atom puts below a role variable. -/
def Atom.roleName? : Atom → Option VarName
  | ⟨name, [.label _, .sub (.var _)]⟩ => some name
  | _ => none

@[simp] theorem Atom.roleName?_isa (v : VarName) (l : Label) : Atom.roleName? ⟨v, [.isa (.label l)]⟩ = none := rfl

@[simp] theorem Atom.roleName?_role (name a : VarName) (l : Label) :
    Atom.roleName? ⟨name, [.label l, .sub (.var a)]⟩ = some name := rfl

namespace Outcome

/-- The new names in the extension. -/
def roleNames (out : Outcome) : List VarName :=
  out.extension.filterMap Atom.roleName?

/-- All the names that were handed out for the branch. -/
def issued (out : Outcome) : List VarName :=
  Clue.placeholders out.clues ++ out.roleNames

end Outcome

namespace Hint

variable {policy : MissingRoles} {s s' : Supply}

theorem clue_issues {h : Hint} {c : Clue} (hc : h.clue policy s = .ok (c, s')) : s.Issues c.placeholder?.toList s' := by
  unfold clue at hc
  split at hc
  · cases hc
    exact .refl s
  · cases hc
    exact .refl s
  · cases hc
    exact Supply.issues_fresh
  · split at hc
    · cases hc
    · cases hc
      exact Supply.issues_fresh

theorem clues_issues {hs : List Hint} {cs : List Clue} (h : clues policy s hs = .ok (cs, s')) :
    s.Issues (Clue.placeholders cs) s' := by
  induction hs generalizing s cs with
  | nil =>
    cases h
    exact .refl _
  | cons hint rest ih =>
    obtain ⟨c, s₁, ct, hc, hct, rfl⟩ := clues_cons_eq_ok.mp h
    have hnames : Clue.placeholders (c :: ct) = c.placeholder?.toList ++ Clue.placeholders ct := by
      cases hp : c.placeholder? <;> simp [Clue.placeholders, hp]
    rw [hnames]
    exact (clue_issues hc).trans (ih hct)

end Hint

namespace Branch

variable {b : Branch} {e : Evidence}

theorem extensionAtom_issues (supply : Supply) (v : VarName) (l : Label) :
    supply.Issues ((b.extensionAtom e supply v l).1.toList.filterMap Atom.roleName?)
      (b.extensionAtom e supply v l).2 := by
  unfold extensionAtom
  split
  · split
    · exact .refl supply
    · exact Supply.issues_fresh
  · split
    · exact .refl supply
    · exact .refl supply

theorem extension_issues (supply : Supply) (resolved : List (VarName × ConceptName)) :
    supply.Issues ((b.extension e supply resolved).1.filterMap Atom.roleName?) (b.extension e supply resolved).2 := by
  induction resolved generalizing supply with
  | nil => exact .refl supply
  | cons entry rest ih =>
    obtain ⟨v, c⟩ := entry
    simp only [extension, List.filterMap_append]
    exact (extensionAtom_issues supply v c.label).trans (ih _)

variable {settings : Settings} {store : Store} {asked : List Query} {supply supply' : Supply} {out : Outcome}

theorem Infers.issues (h : b.Infers settings store asked supply out supply') : supply.Issues out.issued supply' := by
  cases h with
  | malformed _ => exact .refl supply
  | skipped hclues => exact Hint.clues_issues hclues
  | @unanswered cs _ cause hclues _ _ =>
    have hnames : (Outcome.unanswered cs cause).issued = Clue.placeholders cs := List.append_nil _
    rw [hnames]
    exact Hint.clues_issues hclues
  | answered hclues _ _ => exact (Hint.clues_issues hclues).trans (extension_issues _ _)

end Branch

/-- All the names that a run hands out come from the supply that it starts with. -/
theorem inferBranches_issues {settings : Settings} {store : Store} {asked : List Query} {supply : Supply}
    {bs : List Branch} :
    ∃ supply', supply.Issues ((inferBranches settings store asked supply bs).flatMap (·.2.issued)) supply' := by
  induction bs generalizing asked supply with
  | nil => exact ⟨supply, .refl supply⟩
  | cons b rest ih =>
    have hinfers : b.Infers settings store asked supply _ _ := Branch.infers
    have hstep := hinfers.issues
    simp only [inferBranches, List.flatMap_cons]
    split
    · rw [List.flatMap_nil, List.append_nil]
      exact ⟨_, hstep⟩
    · obtain ⟨supply', hrest⟩ := ih
      exact ⟨supply', hstep.trans hrest⟩

/-! ### Variables of a branch -/

/-- The store binds only variables of the query that it answers. -/
def Store.BindsAsked (store : Store) : Prop :=
  ∀ asked q answers, store asked q = .ok answers → ∀ β ∈ answers, ∀ e ∈ β, e.1 ∈ varsOf q

theorem Ontology.WellFormed.store_bindsAsked {o : Ontology} (wf : o.WellFormed) : o.store.BindsAsked := by
  intro asked q answers hsolve β hβ e he
  exact (wf.mem_answer hsolve hβ he).1

namespace Branch

/-- The atom states the type of a variable of the branch: the literal type of an instance, or a label below a role
variable. -/
inductive Annotates (b : Branch) : Atom → Prop
  | isa {v : VarName} {l : Label} (hv : v ∈ b.instanceVars) : Annotates b ⟨v, [.isa (.label l)]⟩
  | role {name a : VarName} {l : Label} (ha : a ∈ b.roleVars) : Annotates b ⟨name, [.label l, .sub (.var a)]⟩

variable {b : Branch} {reply : Query → Except QueryError (List Binding)} {used : List VarName} {out : Outcome}

section Within
variable (hinferred : b.Inferred reply used out)
  (hreply : ∀ q answers, reply q = .ok answers → ∀ β ∈ answers, ∀ e ∈ β, e.1 ∈ varsOf q)
include hinferred hreply

theorem Inferred.annotates {a : Atom} (ha : a ∈ out.extension) : b.Annotates a := by
  cases hinferred with
  | skipped _ => cases ha
  | @answered cs answers _ _ _ hclued hanswers _ hext =>
    have hkind : ∀ v c, (v, c) ∈ (Resolution.ofAnswers (.ofClues cs) answers).resolved →
        (v ∈ (Evidence.ofClues cs).roles ∧ v ∈ b.roleVars) ∨
          (v ∉ (Evidence.ofClues cs).roles ∧ v ∈ b.instanceVars) := by
      intro v c hc
      obtain ⟨hopen, ⟨β, hβ, he⟩, -⟩ := Resolution.resolved_spec hc
      exact kind_of_open hclued.gives hopen (hreply _ _ hanswers β hβ _ he)
    cases hext.adds ha with
    | isa hc hv =>
      rcases hkind _ _ hc with ⟨hrole, -⟩ | ⟨-, hinstance⟩
      · exact absurd hrole hv
      · exact .isa hinstance
    | role hc hv _ =>
      rcases hkind _ _ hc with ⟨-, hrole⟩ | ⟨hnot, -⟩
      · exact .role hrole
      · exact absurd hv hnot

theorem Inferred.mem_varsOf_of_reported {i : Nat} {v : VarName}
    (hv : (∃ l, (v, l) ∈ (out.report i).resolved) ∨ ∃ ls, (v, ls) ∈ (out.report i).ambiguous) : v ∈ varsOf b := by
  cases hinferred with
  | skipped _ => rcases hv with ⟨l, hl⟩ | ⟨ls, hls⟩ <;> contradiction
  | @answered cs answers ext _ _ hclued hanswers _ _ =>
    have hnoted : ∃ labels, (v, labels) ∈ Candidates.ofAnswers (.ofClues cs) answers := by
      rcases hv with ⟨l, hl⟩ | ⟨ls, hls⟩
      · obtain ⟨c, hc, -⟩ := Outcome.mem_report_resolved_iff.mp hl
        exact ⟨_, (Resolution.mem_resolved_iff.mp hc).1⟩
      · obtain ⟨labels, hlabels, -⟩ := Resolution.mem_ambiguous_iff.mp hls
        exact ⟨labels, hlabels⟩
    obtain ⟨labels, hlabels⟩ := hnoted
    obtain ⟨hopen, ⟨c, β, hβ, he⟩, -⟩ := Candidates.mem_ofAnswers_iff.mp hlabels
    exact mem_varsOf_of_open hclued.gives hopen (hreply _ _ hanswers β hβ _ he)

end Within

/-- A variable that the branch does not have stands in atoms that annotate it only as a name below a role variable. -/
theorem count_vars_of_annotates {ext : List Atom} (h : ∀ a ∈ ext, b.Annotates a) {f : VarName} (hf : f ∉ varsOf b) :
    (ext.flatMap Atom.vars).count f = (ext.filterMap Atom.roleName?).count f := by
  induction ext with
  | nil => rfl
  | cons a rest ih =>
    have hrest := ih fun x hx => h x (List.mem_cons_of_mem _ hx)
    rw [List.flatMap_cons, List.count_append, hrest]
    cases h a List.mem_cons_self with
    | @isa v l hv =>
      have hne : v ≠ f := fun heq => hf (heq ▸ mem_varsOf_of_mem_instanceVars hv)
      have hvars : Atom.vars ⟨v, [.isa (.label l)]⟩ = [v] := rfl
      rw [hvars, List.filterMap_cons_none (Atom.roleName?_isa v l)]
      simp [hne]
    | @role name v l hv =>
      have hne : v ≠ f := fun heq => hf (heq ▸ mem_varsOf_of_mem_roleVars hv)
      have hvars : Atom.vars ⟨name, [.label l, .sub (.var v)]⟩ = [name, v] := rfl
      have hname : [name, v].count f = [name].count f := by simp [List.count_cons, hne]
      rw [hvars, hname, List.filterMap_cons_some (Atom.roleName?_role name v l), ← List.count_append]
      rfl

end Branch

/-! ### New names in the result -/

/-- How often a variable stands in a pattern. -/
def Pattern.occurrences (p : Pattern) (v : VarName) : Nat :=
  (p.atoms.flatMap Atom.vars).count v

theorem mem_varsOf_iff_flatMap {atoms : List Atom} {v : VarName} : v ∈ varsOf atoms ↔ v ∈ atoms.flatMap Atom.vars := by
  simp [varsOf]

namespace Pattern

variable {settings : Settings} {store : Store} {p : Pattern} {v : VarName}

theorem mem_vars_iff : v ∈ p.vars ↔ 0 < p.occurrences v := by
  rw [occurrences, List.count_pos_iff, vars, mem_varsOf_iff_flatMap]

section Run
variable (hstore : store.BindsAsked) (hok : ∀ step ∈ (p.infer settings store).steps, step.2.error? = none)

include hstore hok in
theorem annotates_of_steps {step : Branch × Outcome} (hstep : step ∈ (p.infer settings store).steps) :
    step.1 ∈ p.branches ∧ ∀ a ∈ step.2.extension, step.1.Annotates a := by
  obtain ⟨k, hk⟩ := List.mem_iff_getElem?.mp hstep
  obtain ⟨hmem, used, -, hinferred⟩ := inferred_of_steps hok hk
  exact ⟨hmem, fun a ha => hinferred.annotates (hstore _) ha⟩

include hstore hok in
/-- A new name stands in the result as often as it was handed out for an extension. -/
theorem occurrences_result (hnew : v ∉ p.vars) :
    (p.infer settings store).result.occurrences v =
      ((p.infer settings store).steps.flatMap (·.2.roleNames)).count v := by
  have hstep : ∀ step ∈ (p.infer settings store).steps,
      ((step.1 ++ step.2.extension).flatMap Atom.vars).count v = step.2.roleNames.count v := by
    intro step hstep
    obtain ⟨hmem, hannotates⟩ := annotates_of_steps hstore hok hstep
    have hvb : v ∉ varsOf step.1 := fun hv => hnew (varsOf_subset_vars hmem v hv)
    have hzero : (step.1.flatMap Atom.vars).count v = 0 := by
      rw [List.count_eq_zero, ← mem_varsOf_iff_flatMap]
      exact hvb
    -- The branch itself does not have the name, so only the extension counts.
    rw [List.flatMap_append, List.count_append, hzero, Nat.zero_add]
    exact Branch.count_vars_of_annotates hannotates hvb
  cases hchanged : (p.infer settings store).isChanged with
  | true =>
    rw [occurrences, Inference.atoms_result_of_changed hchanged, List.flatMap_assoc,
      List.count_flatMap, List.count_flatMap]
    exact congrArg List.sum (List.map_congr_left hstep)
  | false =>
    have hnone : (p.infer settings store).steps.flatMap (·.2.roleNames) = [] := by
      rw [List.flatMap_eq_nil_iff]
      intro step hmem
      rw [Outcome.roleNames, Inference.isChanged_eq_false_iff.mp hchanged step hmem]
      rfl
    rw [Inference.result_of_not_changed hchanged, hnone]
    exact Nat.eq_zero_of_not_pos fun hpos => hnew (mem_vars_iff.mpr hpos)

end Run

theorem infer_issues (settings : Settings) (store : Store) (p : Pattern) :
    ∃ supply', (Supply.forAtoms settings.stem p.atoms).Issues
      ((p.infer settings store).steps.flatMap (·.2.issued)) supply' :=
  inferBranches_issues

/-- In a run the placeholders of the queries, the new names of the extensions and the names of the pattern are
apart, and each new name is handed out once. -/
theorem issued_apart (settings : Settings) (store : Store) (p : Pattern) :
    ((p.infer settings store).steps.flatMap (·.2.roleNames)).Nodup ∧
      ∀ step ∈ (p.infer settings store).steps, ∀ v ∈ Clue.placeholders step.2.clues,
        v ∉ p.vars ∧ v ∉ (p.infer settings store).steps.flatMap (·.2.roleNames) := by
  obtain ⟨supply', hissues⟩ := infer_issues settings store p
  -- The run hands out placeholders and new names in turn; up to order all the placeholders come first.
  have hperm := List.flatMap_append_perm (p.infer settings store).steps (fun step => Clue.placeholders step.2.clues)
    (·.2.roleNames)
  obtain ⟨-, hnames, hapart⟩ := List.nodup_append.mp (hperm.nodup_iff.mpr hissues.distinct)
  refine ⟨hnames, fun step hstep v hv => ⟨fun hp => ?_, fun hname => ?_⟩⟩
  · refine hissues.fresh v ?_ (Supply.mem_forAtoms_used.mpr hp)
    exact List.mem_flatMap.mpr ⟨step, hstep, List.mem_append_left _ hv⟩
  · exact hapart v (List.mem_flatMap.mpr ⟨step, hstep, hv⟩) v hname rfl

end Pattern

/-- Inference is hygienic: a variable that the pattern does not have stands once in the result, in an added atom
that gives a label to it and puts it below a role variable of the branch. The placeholders for the roles of slots
are neither in the result nor in the report. -/
theorem Pattern.inferTypes_hygienic {settings : Settings} {store : Store} (hstore : store.BindsAsked) {p : Pattern}
    {t : Typed} (h : p.inferTypes settings store = .ok t) :
    (∀ f ∈ t.pattern.vars, f ∉ p.vars →
      t.pattern.occurrences f = 1 ∧
        ∃ (k : Nat) (b : Branch) (ext : List Atom) (l : Label) (a : VarName), p.branches[k]? = some b ∧
          t.pattern.branches[k]? = some (b ++ ext) ∧ ⟨f, [.label l, .sub (.var a)]⟩ ∈ ext ∧ a ∈ b.roleVars) ∧
    ∀ step ∈ (p.infer settings store).steps, ∀ v ∈ Clue.placeholders step.2.clues,
      v ∉ t.pattern.vars ∧ ∀ r ∈ t.report.branches, (∀ l, (v, l) ∉ r.resolved) ∧ ∀ ls, (v, ls) ∉ r.ambiguous := by
  obtain ⟨hok, rfl⟩ := inferTypes_eq_ok_iff.mp h
  obtain ⟨hdistinct, hapart⟩ := issued_apart settings store p
  constructor
  · intro f hf hnew
    have hcount := occurrences_result hstore hok hnew
    have hissued : f ∈ (p.infer settings store).steps.flatMap (·.2.roleNames) := by
      rw [← List.count_pos_iff, ← hcount]
      exact mem_vars_iff.mp hf
    refine ⟨hcount.trans (List.count_eq_one_of_mem hdistinct hissued), ?_⟩
    obtain ⟨step, hstep, hname⟩ := List.mem_flatMap.mp hissued
    obtain ⟨a, ha, hname⟩ := List.mem_filterMap.mp hname
    obtain ⟨k, hk⟩ := List.mem_iff_getElem?.mp hstep
    obtain ⟨hb, hbranch⟩ := branches_of_step hok hk
    cases (annotates_of_steps hstore hok hstep).2 a ha with
    | isa _ => cases hname
    | role hv =>
      cases hname
      exact ⟨k, step.1, step.2.extension, _, _, hb, hbranch, ha, hv⟩
  · intro step hstep v hv
    obtain ⟨hnew, hname⟩ := hapart step hstep v hv
    refine ⟨fun hmem => ?_, fun r hr => ?_⟩
    · rw [mem_vars_iff, occurrences_result hstore hok hnew, List.count_pos_iff] at hmem
      exact hname hmem
    · obtain ⟨k, hk⟩ := List.mem_iff_getElem?.mp hr
      rw [Inference.getElem?_report, Option.map_eq_some_iff] at hk
      obtain ⟨step', hk, rfl⟩ := hk
      obtain ⟨hmem, used, -, hinferred⟩ := inferred_of_steps hok hk
      have hnot : v ∉ varsOf step'.1 := fun hvb => hnew (varsOf_subset_vars hmem v hvb)
      exact ⟨fun l hl => hnot (hinferred.mem_varsOf_of_reported (hstore _) (Or.inl ⟨l, hl⟩)),
        fun ls hls => hnot (hinferred.mem_varsOf_of_reported (hstore _) (Or.inr ⟨ls, hls⟩))⟩

/-- A casting in which one role has a label, one a variable and one is left out. Its variable has the name that the
first placeholder would get. -/
def namesakeCasting : Branch :=
  [⟨⟨"x"⟩, [.isa (.label ⟨"movie"⟩)]⟩,
    ⟨⟨"_0"⟩, [.relation [⟨some (.label ⟨"performer"⟩), ⟨"y"⟩⟩, ⟨some (.var ⟨"a"⟩), ⟨"x"⟩⟩, ⟨none, ⟨"x"⟩⟩]]⟩]

def namesakesPattern : Pattern :=
  .any [.ofAtoms namesakeCasting, .ofAtoms namesakeCasting]

theorem inferTypes_hygienic_namesakesPattern :
    filmOntology.store.BindsAsked ∧
      ∃ t, namesakesPattern.inferTypes { missingRoles := .synthesize } filmOntology.store = .ok t ∧
        (⟨"_6"⟩ ∈ t.pattern.vars ∧ ⟨"_6"⟩ ∉ namesakesPattern.vars ∧ t.pattern.occurrences ⟨"_6"⟩ = 1) ∧
        ∃ step ∈ (namesakesPattern.infer { missingRoles := .synthesize } filmOntology.store).steps,
          ⟨"_2"⟩ ∈ Clue.placeholders step.2.clues ∧ ⟨"_2"⟩ ∉ t.pattern.vars := by
  have hstore : filmOntology.store.BindsAsked := (filmDefinition.load_wellFormed load_filmDefinition).store_bindsAsked
  have hrun : (namesakesPattern.inferTypes { missingRoles := .synthesize } filmOntology.store).toOption.any
      (fun t => decide (⟨"_6"⟩ ∈ t.pattern.vars)) = true := by decide +kernel
  have hstep : ∃ step ∈ (namesakesPattern.infer { missingRoles := .synthesize } filmOntology.store).steps,
      ⟨"_2"⟩ ∈ Clue.placeholders step.2.clues := by decide +kernel
  have hnew : (⟨"_6"⟩ : VarName) ∉ namesakesPattern.vars := by decide +kernel
  obtain ⟨t, h, hname⟩ := exists_ok_of_any hrun
  have hname := of_decide_eq_true hname
  obtain ⟨hnames, hplaceholders⟩ := Pattern.inferTypes_hygienic hstore h
  obtain ⟨step, hmem, hplaceholder⟩ := hstep
  exact ⟨hstore, t, h, ⟨hname, hnew, (hnames _ hname hnew).1⟩, step, hmem, hplaceholder,
    (hplaceholders step hmem _ hplaceholder).1⟩

end OntologyTyping
