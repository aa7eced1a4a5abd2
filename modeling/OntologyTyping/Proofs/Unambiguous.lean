import OntologyTyping.Proofs.Conformance
import OntologyTyping.Proofs.Runs
import Mathlib.Data.Set.Function
import Mathlib.Logic.Function.Basic

/-!
Exactly the types that the answers leave no choice about are reported and stated.

Whatever answers the queries, a variable without a literal type is resolved when all the answers that bind it give
it one label, and ambiguous when they give it several. Each resolved variable has one atom in the extension of its
branch. So nothing is learned about the query of a branch in which all the types are given.
-/

namespace OntologyTyping

open Ordered

/-! ### What is asked and answered -/

/-- Nothing is known of the variable: it has no literal type in the branch, and is no placeholder of the query. -/
def Branch.Unknown (b : Branch) (q : Query) (v : VarName) : Prop :=
  (∀ l, (v, .isa (.label l)) ∉ statements b) ∧ (v ∈ varsOf q → v ∈ varsOf b)

/-- Relations and players have literal types, and all slots have role labels. -/
def Branch.FullyTyped (b : Branch) : Prop :=
  ∀ r slots, (r, .relation slots) ∈ statements b →
    (∃ l, (r, .isa (.label l)) ∈ statements b) ∧
      ∀ slot ∈ slots, (∃ l, (slot.player, .isa (.label l)) ∈ statements b) ∧ ∃ l, slot.role = some (.label l)

section Clues
variable {b : Branch} {used : List VarName} {cs : List Clue} {v : VarName}

theorem Clue.mem_placeholders_iff :
    v ∈ placeholders cs ↔ (∃ r p l, .slot r p v (.label l) ∈ cs) ∨ ∃ r p, .slot r p v .missing ∈ cs := by
  rw [placeholders, List.mem_filterMap]
  constructor
  · rintro ⟨⟨w, l⟩ | ⟨r, p, a, l | _ | _⟩, hc, hv⟩ <;> cases hv
    · exact Or.inl ⟨r, p, l, hc⟩
    · exact Or.inr ⟨r, p, hc⟩
  · rintro (⟨r, p, l, hc⟩ | ⟨r, p, hc⟩)
    · exact ⟨_, hc, rfl⟩
    · exact ⟨_, hc, rfl⟩

variable (hclued : Hint.Clued used b.hints cs) (hused : ∀ v ∈ varsOf b, v ∈ used)
include hclued hused

/-- The placeholders are the variables of the query that the branch does not have. -/
theorem Hint.Clued.mem_placeholders_iff :
    v ∈ Clue.placeholders cs ↔ v ∈ varsOf (Evidence.ofClues cs).query ∧ v ∉ varsOf b := by
  rw [Evidence.mem_varsOf_query]
  constructor
  · intro hv
    refine ⟨?_, fun hvb => hclued.fresh v hv (hused v hvb)⟩
    rcases Clue.mem_placeholders_iff.mp hv with ⟨r, p, l, hc⟩ | ⟨r, p, hc⟩
    · exact ⟨_, hc, by simp [Clue.vars]⟩
    · exact ⟨_, hc, by simp [Clue.vars]⟩
  · rintro ⟨⟨c, hc, hv⟩, hvb⟩
    obtain ⟨h, hh, hg⟩ := Hint.exists_hint hclued.gives hc
    rcases hg.vars_right hv with hvar | hplaceholder
    · exact absurd (Hint.vars_subset hh hvar) hvb
    · exact List.mem_filterMap.mpr ⟨c, hc, hplaceholder⟩

/-- What is open is what is unknown. -/
theorem Hint.Clued.isOpen_iff :
    (Evidence.ofClues cs).isOpen v = true ↔ b.Unknown (Evidence.ofClues cs).query v := by
  have hopen : (Evidence.ofClues cs).isOpen v = true ↔ (¬∃ l, Clue.isa v l ∈ cs) ∧ v ∉ Clue.placeholders cs := by
    rw [Evidence.isOpen_iff, Evidence.mem_known_iff, Evidence.mem_synthesized_iff, Clue.mem_placeholders_iff,
      not_or, not_or, and_assoc]
  rw [hopen, hclued.mem_placeholders_iff hused, Branch.Unknown]
  simp only [hclued.isa_mem_iff, not_exists, not_and, not_not]

/-- Where all the types are given, the query has no unknown variable. -/
theorem Branch.FullyTyped.not_mem_query (h : b.FullyTyped) (hunknown : b.Unknown (Evidence.ofClues cs).query v) :
    v ∉ varsOf (Evidence.ofClues cs).query := by
  intro hquery
  obtain ⟨hisa, hvar⟩ := hunknown
  obtain ⟨c, hc, hv⟩ := Evidence.mem_varsOf_query.mp hquery
  obtain ⟨hint, hh, hg⟩ := Hint.exists_hint hclued.gives hc
  have hplaceholder : c.placeholder? ≠ some v := by
    intro hplaceholder
    have hmem : v ∈ Clue.placeholders cs := List.mem_filterMap.mpr ⟨c, hc, hplaceholder⟩
    exact hclued.fresh v hmem (hused v (hvar hquery))
  have hv := (hg.vars_right hv).resolve_right hplaceholder
  cases hint with
  | isa w l =>
    obtain rfl := List.mem_singleton.mp hv
    exact hisa l (isa_mem_hints.mp hh)
  | slot r slot =>
    obtain ⟨slots, hs, hslot⟩ := slot_mem_hints.mp hh
    obtain ⟨⟨l, hl⟩, hslots⟩ := h r slots hs
    obtain ⟨⟨l', hl'⟩, l'', hrole⟩ := hslots slot hslot
    simp only [Hint.vars, hrole, Option.bind_some, TypeRef.var?, Option.toList_none, List.mem_cons, List.not_mem_nil,
      or_false] at hv
    rcases hv with rfl | rfl
    · exact hisa l hl
    · exact hisa l' hl'

end Clues

/-! ### What is reported -/

/-- The report has exactly the unknown variables with one label as resolved, and those with several as ambiguous. -/
structure BranchReport.Tells (r : BranchReport) (b : Branch) (q : Query) (answers : List Binding) : Prop where
  resolved_iff : ∀ v l, (v, l) ∈ r.resolved ↔
    b.Unknown q v ∧ (∃ c, Bound answers v c) ∧ (∀ c, Bound answers v c → c.label = l) ∧
      (v ∈ b.roleVars → ∀ c, Bound answers v c → c.kind = .role)
  resolved_increasing : r.resolved.Pairwise fun e e' => compare e.1 e'.1 = .lt
  ambiguous_iff : ∀ v ls, (v, ls) ∈ r.ambiguous ↔
    b.Unknown q v ∧ 2 ≤ ls.length ∧ (ls.Pairwise fun l l' => compare l l' = .lt) ∧
      ∀ l, l ∈ ls ↔ ∃ k, Bound answers v ⟨l, k⟩
  ambiguous_increasing : r.ambiguous.Pairwise fun e e' => compare e.1 e'.1 = .lt

section Report
variable {b : Branch} {used : List VarName} {cs : List Clue} {answers : List Binding} {ext : List Atom}

/-- The one concept that all the answers give is the one candidate. -/
theorem UniformKinds.candidates_eq_iff (h : UniformKinds answers) {v : VarName} {c : ConceptName} :
    tableOf (Candidates.given answers.flatten v) = [(c.label, c.kind)] ↔ ∀ c', Bound answers v c' ↔ c' = c := by
  rw [h.functional_given.tableOf_eq_singleton_iff]
  constructor
  · intro hall c'
    rw [Bound, ← Candidates.mem_given_flatten, hall]
    cases c
    cases c'
    simp
  · rintro hall ⟨l, k⟩
    rw [Candidates.mem_given_flatten]
    refine (hall ⟨l, k⟩).trans ?_
    cases c
    simp

/-- The candidates of a variable are the labels that the answers give it. -/
theorem mem_labels_iff {v : VarName} {l : Label} :
    l ∈ (tableOf (Candidates.given answers.flatten v)).map Prod.fst ↔ ∃ k, Bound answers v ⟨l, k⟩ := by
  rw [mem_keys_tableOf]
  exact exists_congr fun k => Candidates.mem_given_flatten

variable (hclued : Hint.Clued used b.hints cs) (hused : ∀ v ∈ varsOf b, v ∈ used)
include hclued hused

theorem Hint.Clued.mem_report_resolved_iff (hkinds : UniformKinds answers) {i : Nat} {v : VarName} {l : Label} :
    (v, l) ∈ ((Outcome.answered cs answers ext).report i).resolved ↔
      b.Unknown (Evidence.ofClues cs).query v ∧ (∃ c, Bound answers v c) ∧ (∀ c, Bound answers v c → c.label = l) ∧
        (v ∈ b.roleVars → ∀ c, Bound answers v c → c.kind = .role) := by
  simp only [Outcome.mem_report_resolved_iff, Resolution.mem_resolved_iff, Candidates.mem_ofAnswers_iff]
  constructor
  · rintro ⟨c, ⟨⟨hopen, hbound, hlabels⟩, hkind⟩, rfl⟩
    have hall := hkinds.candidates_eq_iff.mp hlabels.symm
    have hrole := Branch.mem_roles_iff_of_open hclued.gives hopen
    refine ⟨(hclued.isOpen_iff hused).mp hopen, hbound, fun c' hc' => ?_, fun hv c' hc' => ?_⟩
    · rw [(hall c').mp hc']
    · rw [(hall c').mp hc']
      exact hkind (hrole.mpr hv)
  · rintro ⟨hunknown, ⟨c, hc⟩, hlabel, hkind⟩
    have hopen := (hclued.isOpen_iff hused).mpr hunknown
    have hall : ∀ c', Bound answers v c' ↔ c' = c := by
      refine fun c' => ⟨fun hc' => hkinds.eq_of_label hc' hc ((hlabel c' hc').trans (hlabel c hc).symm), ?_⟩
      rintro rfl
      exact hc
    have hrole := Branch.mem_roles_iff_of_open hclued.gives hopen
    exact ⟨c, ⟨⟨hopen, ⟨c, hc⟩, (hkinds.candidates_eq_iff.mpr hall).symm⟩, fun hv => hkind (hrole.mp hv) c hc⟩,
      hlabel c hc⟩

theorem Hint.Clued.mem_report_ambiguous_iff {i : Nat} {v : VarName} {ls : List Label} :
    (v, ls) ∈ ((Outcome.answered cs answers ext).report i).ambiguous ↔
      b.Unknown (Evidence.ofClues cs).query v ∧ 2 ≤ ls.length ∧ (ls.Pairwise fun l l' => compare l l' = .lt) ∧
        ∀ l, l ∈ ls ↔ ∃ k, Bound answers v ⟨l, k⟩ := by
  have hincreasing :
      ((tableOf (Candidates.given answers.flatten v)).map Prod.fst).Pairwise fun l l' => compare l l' = .lt :=
    List.pairwise_map.mpr isTable_tableOf
  change (v, ls) ∈ (Resolution.ofAnswers (.ofClues cs) answers).ambiguous ↔ _
  simp only [Resolution.mem_ambiguous_iff, Candidates.mem_ofAnswers_iff]
  constructor
  · rintro ⟨_, ⟨hopen, -, rfl⟩, hlength, rfl⟩
    exact ⟨(hclued.isOpen_iff hused).mp hopen, by simpa using hlength, hincreasing, fun l => mem_labels_iff⟩
  · rintro ⟨hunknown, hlength, hls, hmem⟩
    obtain ⟨l, hl⟩ := List.exists_mem_of_length_pos (Nat.lt_of_lt_of_le Nat.zero_lt_two hlength)
    obtain ⟨k, hk⟩ := (hmem l).mp hl
    obtain rfl := eq_of_pairwise (fun _ _ => Std.OrientedCmp.not_lt_of_lt) hls hincreasing
      fun l => (hmem l).trans mem_labels_iff.symm
    exact ⟨_, ⟨(hclued.isOpen_iff hused).mpr hunknown, ⟨_, hk⟩, rfl⟩, by simpa using hlength, rfl⟩

theorem Hint.Clued.report_tells (hkinds : UniformKinds answers) {i : Nat} :
    ((Outcome.answered cs answers ext).report i).Tells b (Evidence.ofClues cs).query answers where
  resolved_iff _ _ := hclued.mem_report_resolved_iff hused hkinds
  resolved_increasing := List.pairwise_map.mpr Resolution.isTable_resolved
  ambiguous_iff _ _ := hclued.mem_report_ambiguous_iff hused
  ambiguous_increasing := Resolution.isTable_ambiguous

end Report

/-! ### What is stated -/

namespace Branch

/-- The atom that states a type: of an instance as its literal type, and of a role variable, unless an atom of the
branch says just this, by a name below the variable. -/
def typeAtoms (b : Branch) (fresh : VarName → VarName) (e : VarName × Label) : List Atom :=
  if e.1 ∈ b.roleVars then
    if ∃ a ∈ b, a.properties = [.label e.2, .sub (.var e.1)] then [] else [⟨fresh e.1, [.label e.2, .sub (.var e.1)]⟩]
  else [⟨e.1, [.isa (.label e.2)]⟩]

/-- The role variables whose types are to be stated by a name below them. -/
def unstated (b : Branch) (types : List (VarName × Label)) : Set VarName :=
  {v | v ∈ b.roleVars ∧ ∃ l, (v, l) ∈ types ∧ ¬∃ a ∈ b, a.properties = [.label l, .sub (.var v)]}

/-- The extension states these types in turn, with names that are not in use and differ from each other. -/
def ExtendedBy (b : Branch) (used : List VarName) (types : List (VarName × Label)) (ext : List Atom) : Prop :=
  ∃ fresh : VarName → VarName, ext = types.flatMap (b.typeAtoms fresh) ∧ (∀ v ∈ b.unstated types, fresh v ∉ used) ∧
    Set.InjOn fresh (b.unstated types)

variable {b : Branch} {e : Evidence} {used used' : List VarName} {types : List (VarName × Label)} {ext : List Atom}

theorem ExtendedBy.mono (h : b.ExtendedBy used' types ext) (hused : ∀ v ∈ used, v ∈ used') :
    b.ExtendedBy used types ext := by
  obtain ⟨fresh, hext, hfresh, hinj⟩ := h
  exact ⟨fresh, hext, fun v hv hmem => hfresh v hv (hused _ hmem), hinj⟩

theorem mem_unstated_cons {v w : VarName} {l : Label} :
    w ∈ b.unstated ((v, l) :: types) ↔
      (w = v ∧ v ∈ b.roleVars ∧ ¬∃ a ∈ b, a.properties = [.label l, .sub (.var v)]) ∨ w ∈ b.unstated types := by
  simp only [unstated, Set.mem_ofPred_eq, List.mem_cons, Prod.mk.injEq]
  constructor
  · rintro ⟨hrole, l', ⟨rfl, rfl⟩ | hl', hnot⟩
    · exact Or.inl ⟨rfl, hrole, hnot⟩
    · exact Or.inr ⟨hrole, l', hl', hnot⟩
  · rintro (⟨rfl, hrole, hnot⟩ | ⟨hrole, l', hl', hnot⟩)
    · exact ⟨hrole, l, Or.inl ⟨rfl, rfl⟩, hnot⟩
    · exact ⟨hrole, l', Or.inr hl', hnot⟩

/-- A type that needs no name. -/
theorem ExtendedBy.cons {v : VarName} {l : Label} (h : b.ExtendedBy used types ext) (atoms : List Atom)
    (hstated : v ∈ b.roleVars → ∃ a ∈ b, a.properties = [.label l, .sub (.var v)])
    (hatoms : ∀ fresh, b.typeAtoms fresh (v, l) = atoms) : b.ExtendedBy used ((v, l) :: types) (atoms ++ ext) := by
  obtain ⟨fresh, rfl, hfresh, hinj⟩ := h
  have hsame : b.unstated ((v, l) :: types) = b.unstated types := by
    ext w
    rw [mem_unstated_cons, or_iff_right]
    rintro ⟨-, hrole, hnot⟩
    exact hnot (hstated hrole)
  refine ⟨fresh, ?_, ?_, ?_⟩
  · rw [List.flatMap_cons, hatoms]
  · rwa [hsame]
  · rwa [hsame]

/-- A type that is stated by a new name. -/
theorem ExtendedBy.cons_role {v name : VarName} {l : Label} (h : b.ExtendedBy (name :: used) types ext)
    (hv : v ∉ types.map Prod.fst) (hrole : v ∈ b.roleVars) (hnot : ¬∃ a ∈ b, a.properties = [.label l, .sub (.var v)])
    (hname : name ∉ used) :
    b.ExtendedBy used ((v, l) :: types) (⟨name, [.label l, .sub (.var v)]⟩ :: ext) := by
  obtain ⟨fresh, rfl, hfresh, hinj⟩ := h
  have hne : ∀ w ∈ b.unstated types, w ≠ v := by
    rintro w ⟨-, l', hl', -⟩ rfl
    exact hv (List.mem_map.mpr ⟨_, hl', rfl⟩)
  refine ⟨Function.update fresh v name, ?_, fun w hw => ?_, fun w hw w' hw' heq => ?_⟩
  · have hrest : ∀ e ∈ types, b.typeAtoms fresh e = b.typeAtoms (Function.update fresh v name) e := by
      intro e he
      have hev : e.1 ≠ v := by
        rintro rfl
        exact hv (List.mem_map.mpr ⟨e, he, rfl⟩)
      rw [typeAtoms, typeAtoms, Function.update_of_ne hev]
    rw [List.flatMap_cons, List.flatMap_congr hrest, typeAtoms, if_pos hrole, if_neg hnot, Function.update_self]
    rfl
  · rcases mem_unstated_cons.mp hw with ⟨rfl, -⟩ | hw
    · rwa [Function.update_self]
    · rw [Function.update_of_ne (hne w hw)]
      exact fun hmem => hfresh w hw (List.mem_cons_of_mem _ hmem)
  · have hother : ∀ u ∈ b.unstated types, fresh u ≠ name := by
      rintro u hu rfl
      exact hfresh u hu List.mem_cons_self
    rcases mem_unstated_cons.mp hw with ⟨rfl, -⟩ | hold
    · rcases mem_unstated_cons.mp hw' with ⟨rfl, -⟩ | hold'
      · rfl
      · rw [Function.update_self, Function.update_of_ne (hne w' hold')] at heq
        exact absurd heq.symm (hother w' hold')
    · rcases mem_unstated_cons.mp hw' with ⟨rfl, -⟩ | hold'
      · rw [Function.update_self, Function.update_of_ne (hne w hold)] at heq
        exact absurd heq (hother w hold)
      · rw [Function.update_of_ne (hne w hold), Function.update_of_ne (hne w' hold')] at heq
        exact hinj hold hold' heq

theorem forall_entry_cons {κ ν : Type} {p : κ → ν → Prop} {k : κ} {v : ν} {rest : List (κ × ν)} :
    (∀ k' v', (k', v') ∈ (k, v) :: rest → p k' v') ↔ p k v ∧ ∀ k' v', (k', v') ∈ rest → p k' v' := by
  simp only [← Prod.forall', List.forall_mem_cons]

/-- The extension of a branch states the resolved types, where what stands for a role is known and no other variable
has a literal type. -/
theorem Extends.extendedBy {resolved : List (VarName × ConceptName)} (h : b.Extends e used resolved ext)
    (hnodup : (resolved.map Prod.fst).Nodup)
    (hresolved : ∀ v c, (v, c) ∈ resolved →
      (v ∈ e.roles ↔ v ∈ b.roleVars) ∧ ∀ l, (v, .isa (.label l)) ∉ statements b) :
    b.ExtendedBy used (resolved.map fun r => (r.1, r.2.label)) ext := by
  induction h with
  | nil =>
    have hnone : b.unstated [] = ∅ := by simp [unstated]
    exact ⟨id, rfl, by simp [hnone], by simp [hnone]⟩
  | @roleStated used v c rest ext hv hstates _ ih =>
    obtain ⟨⟨hrole, -⟩, hrest⟩ := forall_entry_cons.mp hresolved
    have hstated := statesRole_iff.mp hstates
    refine (ih (List.nodup_cons.mp hnodup).2 hrest).cons [] (fun _ => hstated) fun fresh => ?_
    rw [typeAtoms, if_pos (hrole.mp hv), if_pos hstated]
  | @role used v c rest ext name hv hlacks hname _ ih =>
    obtain ⟨⟨hrole, -⟩, hrest⟩ := forall_entry_cons.mp hresolved
    obtain ⟨hnew, hnodup⟩ := List.nodup_cons.mp hnodup
    refine (ih hnodup hrest).cons_role ?_ (hrole.mp hv) ?_ hname
    · simpa using hnew
    · rw [← statesRole_iff, hlacks]
      exact Bool.false_ne_true
  | @isaStated used v c rest ext hv hstates _ ih =>
    exact absurd (statesIsa_iff.mp hstates) ((forall_entry_cons.mp hresolved).1.2 _)
  | @isa used v c rest ext hv _ _ ih =>
    obtain ⟨⟨hrole, -⟩, hrest⟩ := forall_entry_cons.mp hresolved
    have hnot : v ∉ b.roleVars := fun hmem => hv (hrole.mpr hmem)
    refine (ih (List.nodup_cons.mp hnodup).2 hrest).cons [_] (fun hmem => absurd hmem hnot) fun fresh => ?_
    rw [typeAtoms, if_neg hnot]

end Branch

/-! ### Runs -/

section Answered
variable {b : Branch} {used used' : List VarName} {cs : List Clue} {answers : List Binding} {ext : List Atom} {i : Nat}

variable (hclued : Hint.Clued used b.hints cs) (hused : ∀ v ∈ varsOf b, v ∈ used)
include hclued hused

/-- A variable that is reported as resolved is unknown, and an answer binds it. -/
theorem Hint.Clued.unknown_of_resolved {v : VarName} {l : Label}
    (hv : (v, l) ∈ ((Outcome.answered cs answers ext).report i).resolved) :
    b.Unknown (Evidence.ofClues cs).query v ∧ ∃ c, Bound answers v c := by
  obtain ⟨c, hc, -⟩ := Outcome.mem_report_resolved_iff.mp hv
  obtain ⟨hopen, hbound, -⟩ := Resolution.resolved_spec hc
  exact ⟨(hclued.isOpen_iff hused).mp hopen, c, hbound⟩

theorem Hint.Clued.extendedBy
    (hext : b.Extends (.ofClues cs) used' (Resolution.ofAnswers (.ofClues cs) answers).resolved ext) :
    b.ExtendedBy used' ((Outcome.answered cs answers ext).report i).resolved ext := by
  refine hext.extendedBy Resolution.isTable_resolved.nodup_keys fun v c hc => ?_
  have hopen := (Resolution.resolved_spec hc).1
  exact ⟨Branch.mem_roles_iff_of_open hclued.gives hopen, ((hclued.isOpen_iff hused).mp hopen).1⟩

/-- Answers that bind only variables of the query add nothing where all the types are given. -/
theorem Branch.FullyTyped.eq_nil (h : b.FullyTyped)
    (hext : b.ExtendedBy used' ((Outcome.answered cs answers ext).report i).resolved ext)
    (hanswers : ∀ β ∈ answers, ∀ e ∈ β, e.1 ∈ varsOf (Evidence.ofClues cs).query) : ext = [] := by
  have hnone : ((Outcome.answered cs answers ext).report i).resolved = [] := by
    refine List.eq_nil_iff_forall_not_mem.mpr ?_
    rintro ⟨v, l⟩ hv
    obtain ⟨hunknown, c, β, hβ, hc⟩ := hclued.unknown_of_resolved hused hv
    exact h.not_mem_query hclued hused hunknown (hanswers β hβ _ hc)
  obtain ⟨fresh, hext, -⟩ := hext
  rw [hext, hnone, List.flatMap_nil]

end Answered

/-- Exactly the unambiguous types are stated. Where a branch is asked about, the report tells which unknown
variables have one label in the answers and which have several, and the branch is extended by the resolved types.
Where all its types are given, nothing is resolved about its query. -/
theorem Pattern.inferTypes_states_unambiguous {settings : Settings} {store : Store} {p : Pattern} {t : Typed}
    (h : p.inferTypes settings store = .ok t) {k : Nat} {b : Branch} {r : BranchReport} (hb : p.branches[k]? = some b)
    (hr : t.report.branches[k]? = some r) (hasked : r.skipped = false) :
    ∃ (clues : List Clue) (answers : List Binding) (ext : List Atom) (q : Query),
      (p.infer settings store).steps[k]? = some (b, .answered clues answers ext) ∧ q = (Evidence.ofClues clues).query ∧
      store (((p.infer settings store).steps.take k).filterMap (·.2.query?)) q = .ok answers ∧
      t.pattern.branches[k]? = some (b ++ ext) ∧
      (UniformKinds answers → r.Tells b q answers) ∧ b.ExtendedBy (p.vars ++ varsOf q) r.resolved ext ∧
      (b.FullyTyped →
        (∀ v l, (v, l) ∈ r.resolved → v ∉ varsOf q) ∧
        ((∀ β ∈ answers, ∀ e ∈ β, e.1 ∈ varsOf q) → ext = []) ∧
        ∀ (d : Definition) (o : Ontology), d.load = .ok o → store = o.store → ext = []) := by
  obtain ⟨hok, rfl⟩ := inferTypes_eq_ok_iff.mp h
  obtain ⟨out, hk⟩ := exists_step hok hb
  rw [Inference.getElem?_report, hk] at hr
  obtain rfl := Option.some.inj hr
  obtain ⟨hmem, used, hused, hinferred⟩ := inferred_of_steps hok hk
  have hvars : ∀ v ∈ varsOf b, v ∈ used := fun v hv => hused v (varsOf_subset_vars hmem v hv)
  cases hinferred with
  | skipped _ => cases hasked
  | @answered clues answers ext used' _ hclued hreply hkept hext =>
    have hextended := hclued.extendedBy (i := k) hvars hext
    refine ⟨clues, answers, ext, _, hk, rfl, hreply, ?_, fun hkinds => hclued.report_tells hvars hkinds,
      hextended.mono fun v hv => ?_, fun htyped => ⟨fun v l hv => ?_, htyped.eq_nil hclued hvars hextended, ?_⟩⟩
    · rw [Inference.branches_result (map_fst_steps hok), List.getElem?_map, hk]
      rfl
    · refine hkept v ((List.mem_append.mp hv).elim (fun hv => Or.inr (hused v hv)) fun hv => ?_)
      by_cases hvb : v ∈ varsOf b
      · exact Or.inr (hvars v hvb)
      · exact Or.inl ((hclued.mem_placeholders_iff hvars).mpr ⟨hv, hvb⟩)
    · exact htyped.not_mem_query hclued hvars (hclued.unknown_of_resolved hvars hv).1
    · rintro d o hload rfl
      refine htyped.eq_nil hclued hvars hextended fun β hβ e he => ?_
      exact ((d.load_wellFormed hload).mem_answer hreply hβ he).1

/-- What two answers say of a movie in a casting: they differ in one variable. -/
def guestAnswers : List Binding :=
  [[(⟨"a"⟩, ⟨⟨"work"⟩, .role⟩), (⟨"r"⟩, ⟨⟨"casting"⟩, .relation⟩), (⟨"y"⟩, ⟨⟨"person"⟩, .entity⟩)],
    [(⟨"a"⟩, ⟨⟨"work"⟩, .role⟩), (⟨"x"⟩, ⟨⟨"movie"⟩, .entity⟩), (⟨"y"⟩, ⟨⟨"dog"⟩, .entity⟩)]]

def guestReport : BranchReport where
  index := 0
  querySize := 4
  answerCount := 2
  resolved := [(⟨"a"⟩, ⟨"work"⟩), (⟨"r"⟩, ⟨"casting"⟩)]
  ambiguous := [(⟨"y"⟩, [⟨"dog"⟩, ⟨"person"⟩])]

theorem inferTypes_states_unambiguous_castingBranch :
    ∃ t, (Pattern.ofAtoms castingBranch).inferTypes {} (.ofReplies [.ok guestAnswers]) = .ok t ∧
      (Pattern.ofAtoms castingBranch).branches[0]? = some castingBranch ∧ t.report.branches[0]? = some guestReport ∧
      ∃ ext q, t.pattern.branches[0]? = some (castingBranch ++ ext) ∧ UniformKinds guestAnswers ∧
        guestReport.Tells castingBranch q guestAnswers ∧
        castingBranch.ExtendedBy ((Pattern.ofAtoms castingBranch).vars ++ varsOf q) guestReport.resolved ext := by
  have hkinds : UniformKinds guestAnswers := by decide +kernel
  have hrun : ((Pattern.ofAtoms castingBranch).inferTypes {} (.ofReplies [.ok guestAnswers])).toOption.any
      (fun t => decide (t.report.branches[0]? = some guestReport)) = true := by decide +kernel
  obtain ⟨t, h, hreport⟩ := exists_ok_of_any hrun
  have hreport := of_decide_eq_true hreport
  have hbranch : (Pattern.ofAtoms castingBranch).branches[0]? = some castingBranch := by decide +kernel
  obtain ⟨clues, answers, ext, q, -, -, hreply, hpattern, htells, hextended, -⟩ :=
    Pattern.inferTypes_states_unambiguous h hbranch hreport rfl
  obtain rfl : guestAnswers = answers := Except.ok.inj hreply
  exact ⟨t, h, hbranch, hreport, ext, q, hpattern, hkinds, htells hkinds, hextended⟩

end OntologyTyping
