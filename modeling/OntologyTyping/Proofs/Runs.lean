import OntologyTyping.Inference.Basic
import OntologyTyping.Proofs.Candidates
import OntologyTyping.Proofs.NormalForm

/-!
What a run of type inference does.

The branches of a pattern are inferred one after the other, from a supply in which the names of the pattern stay in
use. A run without error has an outcome for every branch, and the branches of its result are the given ones with
their extensions.
-/

namespace OntologyTyping

namespace Branch

/-! ### The extension of a branch -/

/-- The extension states the resolved types, one after the other, as far as the branch does not. What stands for a
role gets a name that is not in use. -/
inductive Extends (b : Branch) (e : Evidence) : List VarName → List (VarName × ConceptName) → List Atom → Prop
  | nil {used : List VarName} : Extends b e used [] []
  | roleStated {used : List VarName} {v : VarName} {c : ConceptName} {rest : List (VarName × ConceptName)}
      {ext : List Atom} (hv : v ∈ e.roles) (hstates : b.statesRole v c.label = true) (h : Extends b e used rest ext) :
      Extends b e used ((v, c) :: rest) ext
  | role {used : List VarName} {v : VarName} {c : ConceptName} {rest : List (VarName × ConceptName)} {ext : List Atom}
      {name : VarName} (hv : v ∈ e.roles) (hlacks : b.statesRole v c.label = false) (hname : name ∉ used)
      (h : Extends b e (name :: used) rest ext) :
      Extends b e used ((v, c) :: rest) (⟨name, [.label c.label, .sub (.var v)]⟩ :: ext)
  | isaStated {used : List VarName} {v : VarName} {c : ConceptName} {rest : List (VarName × ConceptName)}
      {ext : List Atom} (hv : v ∉ e.roles) (hstates : b.statesIsa v c.label = true) (h : Extends b e used rest ext) :
      Extends b e used ((v, c) :: rest) ext
  | isa {used : List VarName} {v : VarName} {c : ConceptName} {rest : List (VarName × ConceptName)} {ext : List Atom}
      (hv : v ∉ e.roles) (hlacks : b.statesIsa v c.label = false) (h : Extends b e used rest ext) :
      Extends b e used ((v, c) :: rest) (⟨v, [.isa (.label c.label)]⟩ :: ext)

variable {b : Branch} {e : Evidence}

theorem extension_extends (supply : Supply) (resolved : List (VarName × ConceptName)) :
    Extends b e supply.used resolved (b.extension e supply resolved).1 ∧
      ∀ v ∈ supply.used, v ∈ (b.extension e supply resolved).2.used := by
  induction resolved generalizing supply with
  | nil => exact ⟨.nil, fun _ hv => hv⟩
  | cons entry rest ih =>
    obtain ⟨v, c⟩ := entry
    simp only [extension, extensionAtom]
    by_cases hrole : v ∈ e.roles
    · cases hstates : b.statesRole v c.label with
      | true =>
        simp only [List.contains_iff_mem, hrole, if_true, Option.toList_none, List.nil_append]
        exact ⟨.roleStated hrole hstates (ih supply).1, (ih supply).2⟩
      | false =>
        simp only [List.contains_iff_mem, hrole, if_true, Bool.false_eq_true, if_false, Option.toList_some,
          List.singleton_append]
        obtain ⟨hext, hused⟩ := ih supply.fresh.2
        rw [Supply.fresh_used] at hext hused
        exact ⟨.role hrole hstates Supply.fresh_not_used hext, fun w hw => hused w (List.mem_cons_of_mem _ hw)⟩
    · cases hstates : b.statesIsa v c.label with
      | true =>
        simp only [List.contains_iff_mem, hrole, if_true, if_false, Option.toList_none, List.nil_append]
        exact ⟨.isaStated hrole hstates (ih supply).1, (ih supply).2⟩
      | false =>
        simp only [List.contains_iff_mem, hrole, Bool.false_eq_true, if_false, Option.toList_some,
          List.singleton_append]
        exact ⟨.isa hrole hstates (ih supply).1, (ih supply).2⟩

/-- An atom that an extension adds: a literal type, or a placeholder with the label of a role, below the role
variable. -/
inductive Adds (e : Evidence) (used : List VarName) (resolved : List (VarName × ConceptName)) : Atom → Prop
  | isa {v : VarName} {c : ConceptName} (hc : (v, c) ∈ resolved) (hv : v ∉ e.roles) :
      Adds e used resolved ⟨v, [.isa (.label c.label)]⟩
  | role {v : VarName} {c : ConceptName} {name : VarName} (hc : (v, c) ∈ resolved) (hv : v ∈ e.roles)
      (hname : name ∉ used) : Adds e used resolved ⟨name, [.label c.label, .sub (.var v)]⟩

variable {used used' : List VarName} {resolved resolved' : List (VarName × ConceptName)} {ext : List Atom}

theorem Adds.mono {a : Atom} (h : Adds e used' resolved a) (hused : ∀ v ∈ used, v ∈ used')
    (hresolved : ∀ r ∈ resolved, r ∈ resolved') : Adds e used resolved' a := by
  cases h with
  | isa hc hv => exact .isa (hresolved _ hc) hv
  | role hc hv hname => exact .role (hresolved _ hc) hv fun hmem => hname (hused _ hmem)

theorem Extends.adds (h : Extends b e used resolved ext) {a : Atom} (ha : a ∈ ext) : Adds e used resolved a := by
  induction h with
  | nil => cases ha
  | roleStated _ _ _ ih | isaStated _ _ _ ih => exact (ih ha).mono (fun _ => id) fun _ => List.mem_cons_of_mem _
  | role hv _ hname _ ih =>
    rcases List.mem_cons.mp ha with rfl | ha
    · exact .role List.mem_cons_self hv hname
    · exact (ih ha).mono (fun _ => List.mem_cons_of_mem _) fun _ => List.mem_cons_of_mem _
  | isa hv _ _ ih =>
    rcases List.mem_cons.mp ha with rfl | ha
    · exact .isa List.mem_cons_self hv
    · exact (ih ha).mono (fun _ => id) fun _ => List.mem_cons_of_mem _

/-- The variables of an extension are resolved, or name a placeholder and were not in use. -/
theorem Extends.mem_varsOf (h : Extends b e used resolved ext) {v : VarName} (hv : v ∈ varsOf ext) :
    (∃ c, (v, c) ∈ resolved) ∨
      v ∉ used ∧ ∃ w c, (w, c) ∈ resolved ∧ ⟨v, [.label c.label, .sub (.var w)]⟩ ∈ ext := by
  obtain ⟨a, ha, hv⟩ := OntologyTyping.mem_varsOf.mp hv
  cases h.adds ha with
  | isa hc _ =>
    obtain rfl : v = _ := by simpa [Property.vars, TypeRef.var?] using hv
    exact Or.inl ⟨_, hc⟩
  | role hc _ hname =>
    simp only [List.mem_cons, List.not_mem_nil, or_false, exists_eq_or_imp, exists_eq_left, Property.vars, TypeRef.var?,
      Option.toList_some, false_or] at hv
    rcases hv with rfl | rfl
    · exact Or.inr ⟨hname, _, _, hc, ha⟩
    · exact Or.inl ⟨_, hc⟩

theorem statesIsa_iff {v : VarName} {l : Label} : b.statesIsa v l = true ↔ (v, .isa (.label l)) ∈ statements b := by
  simp [statesIsa, mem_statements]

theorem statesRole_iff {v : VarName} {l : Label} :
    b.statesRole v l = true ↔ ∃ a ∈ b, a.properties = [.label l, .sub (.var v)] := by
  simp [statesRole]

/-- The branch states the label for what stands for a role, or as the literal type of an instance. -/
def States (b : Branch) (e : Evidence) (v : VarName) (l : Label) : Prop :=
  (v ∈ e.roles → b.statesRole v l = true) ∧ (v ∉ e.roles → b.statesIsa v l = true)

theorem States.mono {b' : Branch} {v : VarName} {l : Label} (h : b.States e v l) (hsub : ∀ a ∈ b, a ∈ b') :
    b'.States e v l := by
  refine ⟨fun hv => ?_, fun hv => ?_⟩
  · obtain ⟨a, ha, hprops⟩ := statesRole_iff.mp (h.1 hv)
    exact statesRole_iff.mpr ⟨a, hsub a ha, hprops⟩
  · obtain ⟨a, ha, hname, hp⟩ := mem_statements.mp (statesIsa_iff.mp (h.2 hv))
    exact statesIsa_iff.mpr (mem_statements.mpr ⟨a, hsub a ha, hname, hp⟩)

theorem States.append_cons {v : VarName} {l : Label} (h : States (b ++ ext) e v l) (a : Atom) :
    States (b ++ a :: ext) e v l :=
  h.mono fun _ hx => List.mem_append.mpr ((List.mem_append.mp hx).imp_right (List.mem_cons_of_mem _))

/-- With its extension a branch states all the resolved types. -/
theorem Extends.states (h : Extends b e used resolved ext) {v : VarName} {c : ConceptName} (hc : (v, c) ∈ resolved) :
    States (b ++ ext) e v c.label := by
  induction h with
  | nil => cases hc
  | roleStated hv hstates _ ih =>
    rcases List.mem_cons.mp hc with heq | hc
    · cases heq
      exact States.mono ⟨fun _ => hstates, fun hnot => absurd hv hnot⟩ fun _ => List.mem_append_left _
    · exact ih hc
  | isaStated hv hstates _ ih =>
    rcases List.mem_cons.mp hc with heq | hc
    · cases heq
      exact States.mono ⟨fun hrole => absurd hrole hv, fun _ => hstates⟩ fun _ => List.mem_append_left _
    · exact ih hc
  | role hv _ _ _ ih =>
    rcases List.mem_cons.mp hc with heq | hc
    · cases heq
      exact ⟨fun _ => statesRole_iff.mpr ⟨_, List.mem_append_right _ List.mem_cons_self, rfl⟩,
        fun hnot => absurd hv hnot⟩
    · exact (ih hc).append_cons _
  | isa hv _ _ ih =>
    rcases List.mem_cons.mp hc with heq | hc
    · cases heq
      refine ⟨fun hrole => absurd hrole hv, fun _ => statesIsa_iff.mpr (mem_statements.mpr ?_)⟩
      exact ⟨_, List.mem_append_right _ List.mem_cons_self, rfl, List.mem_cons_self⟩
    · exact (ih hc).append_cons _

/-- Nothing is added where everything is stated. -/
theorem Extends.eq_nil (h : Extends b e used resolved ext)
    (hstates : ∀ v c, (v, c) ∈ resolved → v ∈ e.roles ∧ b.statesRole v c.label = true) : ext = [] := by
  induction h with
  | nil => rfl
  | roleStated _ _ _ ih | isaStated _ _ _ ih => exact ih fun v c hc => hstates v c (List.mem_cons_of_mem _ hc)
  | role _ hlacks _ _ _ =>
    have := (hstates _ _ List.mem_cons_self).2
    rw [hlacks] at this
    cases this
  | isa hv _ _ _ => exact absurd (hstates _ _ List.mem_cons_self).1 hv

/-! ### Inferring one branch -/

/-- What becomes of a branch without error, from a supply with these names in use, where queries get these replies. -/
inductive Inferred (reply : Query → Except QueryError (List Binding)) (used : List VarName) (b : Branch) :
    Outcome → Prop
  | skipped (hhints : b.hints = []) : Inferred reply used b .skipped
  | answered {clues : List Clue} {answers : List Binding} {ext : List Atom} {used' : List VarName}
      (hhints : b.hints ≠ []) (hclued : Hint.Clued used b.hints clues)
      (hreply : reply (Evidence.ofClues clues).query = .ok answers)
      (hused : ∀ v, v ∈ Clue.placeholders clues ∨ v ∈ used → v ∈ used')
      (hext : b.Extends (.ofClues clues) used' (Resolution.ofAnswers (.ofClues clues) answers).resolved ext) :
      Inferred reply used b (.answered clues answers ext)

theorem query_eq_nil_iff {cs : List Clue} : (Evidence.ofClues cs).query = [] ↔ cs = [] := by
  constructor
  · intro h
    by_contra hne
    obtain ⟨c, hc⟩ := List.exists_mem_of_ne_nil _ hne
    obtain ⟨v, hv⟩ : ∃ v, v ∈ c.subjects := by
      rcases c with ⟨v, l⟩ | ⟨r, p, a, l | _ | _⟩
      · exact ⟨v, List.mem_cons_self⟩
      all_goals exact ⟨r, by simp [Clue.subjects]⟩
    have hname := Evidence.mem_names_query.mpr ⟨c, hc, hv⟩
    rw [h] at hname
    cases hname
  · rintro rfl
    rfl

variable {settings : Settings} {store : Store} {o : Ontology} {asked : List Query} {supply : Supply}

theorem clues_eq_nil_iff {policy : MissingRoles} {cs : List Clue} {supply' : Supply}
    (hclues : b.clues policy supply = .ok (cs, supply')) : cs = [] ↔ b.hints = [] := by
  rw [← List.length_eq_zero_iff, ← List.length_eq_zero_iff, (Hint.clues_eq_ok hclues).1.gives.length_eq]

/-- An ontology replies to the query of clues. -/
theorem store_query_ne_error {cs : List Clue} {cause : QueryError} :
    o.store asked (Evidence.ofClues cs).query ≠ .error cause := by
  obtain ⟨answers, hsolve⟩ : ∃ answers, o.solve (Evidence.ofClues cs).query = .ok answers := Evidence.solve_query_isOk o
  rw [Ontology.store, hsolve]
  exact fun h => nomatch h

/-- What inferring a branch can come to, with what is left of the supply. -/
inductive Infers (settings : Settings) (store : Store) (asked : List Query) (supply : Supply) (b : Branch) :
    Outcome → Supply → Prop
  | malformed {slot : MissingRole} (hclues : b.clues settings.missingRoles supply = .error slot) :
      Infers settings store asked supply b (.malformed slot) supply
  | skipped {supply' : Supply} (hclues : b.clues settings.missingRoles supply = .ok ([], supply')) :
      Infers settings store asked supply b .skipped supply'
  | unanswered {cs : List Clue} {supply' : Supply} {cause : QueryError}
      (hclues : b.clues settings.missingRoles supply = .ok (cs, supply')) (hne : cs ≠ [])
      (hreply : store asked (Evidence.ofClues cs).query = .error cause) :
      Infers settings store asked supply b (.unanswered cs cause) supply'
  | answered {cs : List Clue} {supply' : Supply} {answers : List Binding}
      (hclues : b.clues settings.missingRoles supply = .ok (cs, supply')) (hne : cs ≠ [])
      (hreply : store asked (Evidence.ofClues cs).query = .ok answers) :
      Infers settings store asked supply b
        (.answered cs answers (b.extension (.ofClues cs) supply'
          (Resolution.ofAnswers (.ofClues cs) answers).resolved).1)
        (b.extension (.ofClues cs) supply' (Resolution.ofAnswers (.ofClues cs) answers).resolved).2

theorem infers :
    b.Infers settings store asked supply (b.infer settings store asked supply).1
      (b.infer settings store asked supply).2 := by
  unfold infer
  cases hclues : b.clues settings.missingRoles supply with
  | error slot => exact .malformed hclues
  | ok result =>
    obtain ⟨clues, supply'⟩ := result
    dsimp only
    split
    · rename_i hempty
      obtain rfl := query_eq_nil_iff.mp (List.isEmpty_iff.mp hempty)
      exact .skipped hclues
    · rename_i hempty
      have hne : clues ≠ [] := fun hnil => hempty (List.isEmpty_iff.mpr (query_eq_nil_iff.mpr hnil))
      cases hreply : store asked (Evidence.ofClues clues).query with
      | error cause => exact .unanswered hclues hne hreply
      | ok answers => exact .answered hclues hne hreply

/-- Inferring a branch keeps the names in use, and a branch without error is inferred from its clues. -/
theorem Infers.spec {out : Outcome} {supply' : Supply} (h : b.Infers settings store asked supply out supply') :
    (∀ v ∈ supply.used, v ∈ supply'.used) ∧ (out.error? = none → Inferred (store asked) supply.used b out) := by
  cases h with
  | malformed _ => exact ⟨fun v hv => hv, by simp [Outcome.error?]⟩
  | skipped hclues =>
    obtain ⟨-, hused⟩ := Hint.clues_eq_ok hclues
    exact ⟨fun v hv => (hused v).mpr (Or.inr hv), fun _ => .skipped ((clues_eq_nil_iff hclues).mp rfl)⟩
  | unanswered hclues _ _ =>
    obtain ⟨-, hused⟩ := Hint.clues_eq_ok hclues
    exact ⟨fun v hv => (hused v).mpr (Or.inr hv), by simp [Outcome.error?]⟩
  | @answered cs supply₁ answers hclues hne hreply =>
    obtain ⟨hclued, hused⟩ := Hint.clues_eq_ok hclues
    obtain ⟨hext, hused'⟩ := extension_extends (b := b) (e := .ofClues cs) supply₁
      (Resolution.ofAnswers (.ofClues cs) answers).resolved
    have hhints : b.hints ≠ [] := fun hnil => hne ((clues_eq_nil_iff hclues).mpr hnil)
    exact ⟨fun v hv => hused' v ((hused v).mpr (Or.inr hv)),
      fun _ => .answered hhints hclued hreply (fun v hv => (hused v).mpr hv) hext⟩

/-- Before an ontology only a slot without a role can make a branch fail, and only where roles must be named. -/
theorem Infers.error?_eq_none_iff {out : Outcome} {supply' : Supply}
    (h : b.Infers settings o.store asked supply out supply') :
    out.error? = none ↔ settings.missingRoles = .synthesize ∨ ∀ r p, Hint.slot r ⟨none, p⟩ ∉ b.hints := by
  rw [← Hint.clues_isOk_iff (s := supply)]
  cases h with
  | malformed hclues =>
    refine iff_of_false (by simp [Outcome.error?]) ?_
    rintro ⟨r, hr⟩
    rw [clues, hr] at hclues
    cases hclues
  | skipped hclues => exact iff_of_true rfl ⟨_, hclues⟩
  | unanswered _ _ hreply => exact absurd hreply store_query_ne_error
  | answered hclues _ _ => exact iff_of_true rfl ⟨_, hclues⟩

end Branch

/-! ### Inferring branches in turn -/

section Run
variable {settings : Settings} {store : Store}

/-- Every step of a run infers the branch that comes next, from a supply in which the names stay in use, and with
the queries of the steps before it asked. -/
theorem inferBranches_eq_append_cons {asked : List Query} {supply : Supply} {bs : List Branch}
    {before after : List (Branch × Outcome)} {step : Branch × Outcome}
    (h : inferBranches settings store asked supply bs = before ++ step :: after) :
    (∃ later, bs = before.map Prod.fst ++ step.1 :: later) ∧
      ∃ supply', (∀ v ∈ supply.used, v ∈ supply'.used) ∧
        step.2 = (step.1.infer settings store (asked ++ before.filterMap (·.2.query?)) supply').1 := by
  induction bs generalizing asked supply before with
  | nil => simp [inferBranches] at h
  | cons b rest ih =>
    simp only [inferBranches] at h
    cases before with
    | nil =>
      obtain ⟨rfl, -⟩ := List.cons.inj h
      exact ⟨⟨rest, rfl⟩, supply, fun _ hv => hv, by simp⟩
    | cons first before =>
      obtain ⟨rfl, hrest⟩ := List.cons.inj h
      split at hrest
      · simp at hrest
      · obtain ⟨⟨later, hlater⟩, supply', hused, hstep⟩ := ih hrest
        refine ⟨⟨later, congrArg (b :: ·) hlater⟩, supply', fun v hv => hused v (Branch.infers.spec.1 v hv), ?_⟩
        rw [hstep, List.append_assoc]
        congr 3
        cases hquery : (b.infer settings store asked supply).1.query? <;> simp [hquery]

/-- A run without error gets to every branch. -/
theorem inferBranches_branches {asked : List Query} {supply : Supply} {bs : List Branch}
    (h : ∀ step ∈ inferBranches settings store asked supply bs, step.2.error? = none) :
    (inferBranches settings store asked supply bs).map Prod.fst = bs := by
  induction bs generalizing asked supply with
  | nil => rfl
  | cons b rest ih =>
    simp only [inferBranches, List.mem_cons] at h
    have hb : (b.infer settings store asked supply).1.error? = none := h _ (Or.inl rfl)
    simp only [inferBranches, hb, Option.isSome_none, Bool.false_eq_true, if_false, List.map_cons]
    rw [ih]
    intro step hstep
    refine h step (Or.inr ?_)
    simpa [hb] using hstep

end Run

/-! ### Branches and atoms of a pattern -/

namespace Pattern

theorem varsOf_subset_vars {p : Pattern} {b : Branch} (hb : b ∈ p.branches) : ∀ v ∈ varsOf b, v ∈ p.vars := by
  intro v hv
  obtain ⟨a, ha, hv⟩ := mem_varsOf.mp hv
  exact mem_varsOf.mpr ⟨a, mem_atoms_of_mem_branches p b hb a ha, hv⟩

theorem branches_ofAtoms {atoms : List Atom} : (ofAtoms atoms).branches = [atoms] := by
  rw [ofAtoms, branches]
  induction atoms with
  | nil => rfl
  | cons a rest ih =>
    rw [List.map_cons, branchesOfAll, ih, branches]
    rfl

theorem branches_ofBranches {ps : List Pattern} : (ofBranches ps).branches = ps.flatMap branches := by
  unfold ofBranches
  split
  · simp
  · rw [branches, branchesOfAny_eq_flatMap]

theorem atomsOf_eq_flatMap {ps : List Pattern} : atomsOf ps = ps.flatMap atoms := by
  induction ps with
  | nil => rfl
  | cons p rest ih => rw [atomsOf, ih, List.flatMap_cons]

theorem atoms_ofAtoms {b : Branch} : (ofAtoms b).atoms = b := by
  rw [ofAtoms, atoms]
  induction b with
  | nil => rfl
  | cons a rest ih => rw [List.map_cons, atomsOf, ih, atoms, List.singleton_append]

theorem atoms_ofBranches {ps : List Pattern} : (ofBranches ps).atoms = ps.flatMap atoms := by
  unfold ofBranches
  split
  · simp
  · rw [atoms, atomsOf_eq_flatMap]

end Pattern

theorem Branch.atoms_revise {b : Branch} {ext : List Atom} {keepGroups : Bool} :
    (b.revise ext keepGroups).value.atoms = b ++ ext := by
  unfold revise
  split
  · rename_i hempty
    rw [Revision.value, Pattern.atoms_ofAtoms, List.isEmpty_iff.mp hempty, List.append_nil]
  · unfold extend
    split
    · simp [Revision.value, Pattern.atoms, Pattern.atomsOf, Pattern.atoms_ofAtoms]
    · exact Pattern.atoms_ofAtoms

theorem Branch.branches_revise {b : Branch} {ext : List Atom} {keepGroups : Bool} :
    (b.revise ext keepGroups).value.branches = [b ++ ext] := by
  unfold revise
  split
  · rename_i hempty
    rw [Revision.value, Pattern.branches_ofAtoms, List.isEmpty_iff.mp hempty, List.append_nil]
  · unfold extend
    split
    · simp [Revision.value, Pattern.branches, Pattern.branchesOfAll, Pattern.branches_ofAtoms]
    · exact Pattern.branches_ofAtoms

/-! ### The result of a run -/

theorem Outcome.mem_report_resolved_iff {clues : List Clue} {answers : List Binding} {ext : List Atom} {i : Nat}
    {v : VarName} {l : Label} :
    (v, l) ∈ ((Outcome.answered clues answers ext).report i).resolved ↔
      ∃ c, (v, c) ∈ (Resolution.ofAnswers (.ofClues clues) answers).resolved ∧ c.label = l := by
  simp [Outcome.report]

namespace Inference

theorem error?_eq_none_iff {i : Inference} : i.error? = none ↔ ∀ step ∈ i.steps, step.2.error? = none := by
  simp [error?, List.findSome?_eq_none_iff]

theorem isChanged_eq_false_iff {i : Inference} : i.isChanged = false ↔ ∀ step ∈ i.steps, step.2.extension = [] := by
  have hrevise : ∀ (b : Branch) (ext : List Atom) (keep : Bool), (b.revise ext keep).isChanged = false ↔ ext = [] := by
    intro b ext keep
    cases ext <;> simp [Branch.revise, Revision.isChanged]
  simp [isChanged, revisions, hrevise]

theorem result_of_not_changed {i : Inference} (h : i.isChanged = false) : i.result = i.pattern := by
  simp [result, h]

theorem getElem?_report {i : Inference} {k : Nat} :
    i.report.branches[k]? = i.steps[k]?.map fun step => step.2.report k := by
  simp [report, List.getElem?_mapIdx, Function.comp_def]

theorem atoms_result_of_changed {i : Inference} (h : i.isChanged = true) :
    i.result.atoms = i.steps.flatMap fun step => step.1 ++ step.2.extension := by
  rw [result, if_pos h, Pattern.atoms_ofBranches, revisions, List.map_map, List.flatMap_map]
  simp only [Function.comp_apply, Branch.atoms_revise]

theorem branches_result {i : Inference} (hsteps : i.steps.map Prod.fst = i.pattern.branches) :
    i.result.branches = i.steps.map fun step => step.1 ++ step.2.extension := by
  unfold result
  split
  · rw [Pattern.branches_ofBranches, revisions, List.map_map, List.flatMap_map]
    simp only [Function.comp_apply, Branch.branches_revise]
    exact List.map_eq_flatMap.symm
  · rename_i hchanged
    rw [← hsteps]
    refine List.map_congr_left fun step hstep => ?_
    rw [isChanged_eq_false_iff.mp (by simpa using hchanged) step hstep, List.append_nil]

end Inference

namespace Pattern

variable {settings : Settings} {o : Ontology} {p : Pattern}

theorem inferTypes_eq_ok_iff {store : Store} {t : Typed} :
    p.inferTypes settings store = .ok t ↔
      (∀ step ∈ (p.infer settings store).steps, step.2.error? = none) ∧
        t = ⟨(p.infer settings store).result, (p.infer settings store).isChanged, (p.infer settings store).report⟩ := by
  rw [← Inference.error?_eq_none_iff, inferTypes, Inference.outcome]
  split
  · rename_i e he
    simp [he]
  · rename_i hnone
    simp [hnone, eq_comm]

/-- A conjunction of atoms has one branch, and its run one step. -/
theorem steps_ofAtoms {store : Store} {b : Branch} :
    ((ofAtoms b).infer settings store).steps = [(b, (b.infer settings store [] (.forAtoms settings.stem b)).1)] := by
  rw [infer, atoms_ofAtoms, branches_ofAtoms]
  simp [inferBranches]

theorem inferTypes_ofAtoms_isOk_iff {store : Store} {b : Branch} :
    (∃ t, (ofAtoms b).inferTypes settings store = .ok t) ↔
      (b.infer settings store [] (.forAtoms settings.stem b)).1.error? = none := by
  simp [inferTypes_eq_ok_iff, steps_ofAtoms]

theorem inferTypes_ofAtoms_eq_ok {store : Store} {b : Branch} {t : Typed}
    (h : (ofAtoms b).inferTypes settings store = .ok t) :
    t.report.branches = [(b.infer settings store [] (.forAtoms settings.stem b)).1.report 0] ∧
      t.pattern.branches = [b ++ (b.infer settings store [] (.forAtoms settings.stem b)).1.extension] := by
  obtain ⟨hok, rfl⟩ := inferTypes_eq_ok_iff.mp h
  refine ⟨?_, ?_⟩
  · simp [Inference.report, steps_ofAtoms]
  · rw [Inference.branches_result (inferBranches_branches hok), steps_ofAtoms, List.map_singleton]

/-- Every step of a run infers a branch of the pattern from a supply in which the names of the pattern are in use,
and with the queries of the steps before it asked. -/
theorem exists_infer {store : Store} {k : Nat} {step : Branch × Outcome}
    (hstep : (p.infer settings store).steps[k]? = some step) :
    step.1 ∈ p.branches ∧ ∃ supply : Supply, (∀ v ∈ p.vars, v ∈ supply.used) ∧
      step.2 =
        (step.1.infer settings store (((p.infer settings store).steps.take k).filterMap (·.2.query?)) supply).1 := by
  have hsplit : (p.infer settings store).steps =
      (p.infer settings store).steps.take k ++ step :: (p.infer settings store).steps.drop (k + 1) := by
    obtain ⟨hlt, hget⟩ := List.getElem?_eq_some_iff.mp hstep
    rw [← hget, List.getElem_cons_drop, List.take_append_drop]
  obtain ⟨⟨later, hlater⟩, supply, hused, hinfer⟩ := inferBranches_eq_append_cons hsplit
  refine ⟨by simp [hlater], supply, fun v hv => hused v (Supply.mem_forAtoms_used.mpr hv), ?_⟩
  rwa [List.nil_append] at hinfer

/-- A step of a run without error. -/
theorem inferred_of_steps {store : Store} (hok : ∀ step ∈ (p.infer settings store).steps, step.2.error? = none)
    {k : Nat} {step : Branch × Outcome} (hstep : (p.infer settings store).steps[k]? = some step) :
    step.1 ∈ p.branches ∧ ∃ used, (∀ v ∈ p.vars, v ∈ used) ∧
      step.1.Inferred (store (((p.infer settings store).steps.take k).filterMap (·.2.query?))) used step.2 := by
  obtain ⟨hmem, supply, hused, hinfer⟩ := exists_infer hstep
  refine ⟨hmem, supply.used, hused, ?_⟩
  have hnone := hok step (List.mem_of_getElem? hstep)
  rw [hinfer] at hnone ⊢
  exact Branch.infers.spec.2 hnone

/-- A step of a run without error before an ontology. -/
theorem inferred_of_mem_steps (hok : ∀ step ∈ (p.infer settings o.store).steps, step.2.error? = none)
    {step : Branch × Outcome} (hstep : step ∈ (p.infer settings o.store).steps) :
    step.1 ∈ p.branches ∧
      (settings.missingRoles = .synthesize ∨ ∀ r p, Hint.slot r ⟨none, p⟩ ∉ step.1.hints) ∧
      ∃ used, (∀ v ∈ p.vars, v ∈ used) ∧ step.1.Inferred o.solve used step.2 := by
  obtain ⟨k, hk⟩ := List.mem_iff_getElem?.mp hstep
  obtain ⟨hmem, supply, -, hinfer⟩ := exists_infer hk
  have hnone := hok step hstep
  rw [hinfer] at hnone
  exact ⟨hmem, Branch.infers.error?_eq_none_iff.mp hnone, (inferred_of_steps hok hk).2⟩

theorem map_fst_steps {store : Store} (hok : ∀ step ∈ (p.infer settings store).steps, step.2.error? = none) :
    (p.infer settings store).steps.map Prod.fst = p.branches :=
  inferBranches_branches hok

/-- In a run without error every branch has its step. -/
theorem exists_step {store : Store} (hok : ∀ step ∈ (p.infer settings store).steps, step.2.error? = none) {k : Nat}
    {b : Branch} (hb : p.branches[k]? = some b) : ∃ out, (p.infer settings store).steps[k]? = some (b, out) := by
  rw [← map_fst_steps hok, List.getElem?_map, Option.map_eq_some_iff] at hb
  obtain ⟨⟨b, out⟩, hstep, rfl⟩ := hb
  exact ⟨out, hstep⟩

/-- A step of a run without error belongs to a branch of the pattern, and the result has the branch with its
extension. -/
theorem branches_of_step {store : Store} (hok : ∀ step ∈ (p.infer settings store).steps, step.2.error? = none) {k : Nat}
    {step : Branch × Outcome} (hk : (p.infer settings store).steps[k]? = some step) :
    p.branches[k]? = some step.1 ∧
      (p.infer settings store).result.branches[k]? = some (step.1 ++ step.2.extension) := by
  constructor
  · rw [← map_fst_steps hok, List.getElem?_map, hk]
    rfl
  · rw [Inference.branches_result (map_fst_steps hok), List.getElem?_map, hk]
    rfl

/-- What the result adds to a branch is the extension of its step. -/
theorem exists_step_extending {store : Store} (hok : ∀ step ∈ (p.infer settings store).steps, step.2.error? = none)
    {k : Nat} {b : Branch} {ext : List Atom} (hb : p.branches[k]? = some b)
    (hext : (p.infer settings store).result.branches[k]? = some (b ++ ext)) :
    ∃ out, (p.infer settings store).steps[k]? = some (b, out) ∧ out.extension = ext := by
  obtain ⟨out, hstep⟩ := exists_step hok hb
  refine ⟨out, hstep, ?_⟩
  rw [(branches_of_step hok hstep).2, Option.some.injEq] at hext
  exact List.append_cancel_left hext

end Pattern

end OntologyTyping
