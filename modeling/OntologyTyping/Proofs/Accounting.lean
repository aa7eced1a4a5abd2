import OntologyTyping.Proofs.Evidence
import Mathlib.Algebra.GroupWithZero.Nat
import Mathlib.Data.List.NodupEquivFin

/-!
The evidence of a branch accounts for each literal type and each slot once.

A literal type gives one atom. A slot gives two, which tie its player and its relation to one role variable, and one
more for a role label. The variable is the slot's own or a placeholder of its own, so slots share a variable only
where both name it.
-/

namespace OntologyTyping

/-! ### Literal types and slots of a branch -/

structure Slot extends RolePlayer where
  relation : VarName
deriving DecidableEq

namespace Slot

def label? (slot : Slot) : Option Label :=
  slot.role.bind TypeRef.label?

/-- The atoms of the slot, with this variable for its role. -/
def atoms (slot : Slot) (a : VarName) : List Atom :=
  (slot.label?.map fun l => ⟨a, [.sub (.label l)]⟩).toList ++
    [⟨slot.player, [.plays (.var a)]⟩, ⟨slot.relation, [.relates (.var a)]⟩]

theorem length_atoms {slot : Slot} {a : VarName} :
    (slot.atoms a).length = if slot.label?.isSome then 3 else 2 := by
  unfold atoms
  cases slot.label? <;> rfl

end Slot

def Property.literalTypes (subject : VarName) : Property → List (VarName × Label)
  | .isa (.label l) => [(subject, l)]
  | _ => []

def Property.slots (relation : VarName) : Property → List Slot
  | .relation players => players.map (⟨·, relation⟩)
  | _ => []

namespace Branch

/-- The literal types that a branch states, one for each property. -/
def literalTypes (b : Branch) : List (VarName × Label) :=
  (statements b).flatMap fun s => s.2.literalTypes s.1

/-- The slots of a branch: by atom, by property, and by slot. -/
def slots (b : Branch) : List Slot :=
  (statements b).flatMap fun s => s.2.slots s.1

end Branch

/-! ### Hints and clues -/

def Hint.literalType? : Hint → Option (VarName × Label)
  | .isa v l => some (v, l)
  | .slot _ _ => none

def Hint.slot? : Hint → Option Slot
  | .isa _ _ => none
  | .slot r filling => some ⟨filling, r⟩

theorem Branch.literalTypes_eq_hints {b : Branch} : b.literalTypes = b.hints.filterMap Hint.literalType? := by
  have hprop : ∀ s : Statement, s.2.literalTypes s.1 = (Hint.ofStatement s).filterMap Hint.literalType? := by
    rintro ⟨v, p⟩
    cases p with
    | isa t => cases t <;> rfl
    | relation players => simp [Property.literalTypes, Hint.ofStatement, Hint.literalType?]
    | _ => rfl
  simp only [literalTypes, hints, hprop, List.filterMap_flatMap]

theorem Branch.slots_eq_hints {b : Branch} : b.slots = b.hints.filterMap Hint.slot? := by
  have hprop : ∀ s : Statement, s.2.slots s.1 = (Hint.ofStatement s).filterMap Hint.slot? := by
    rintro ⟨v, p⟩
    cases p with
    | isa t => cases t <;> rfl
    | relation players =>
      rw [Hint.ofStatement, List.filterMap_map]
      exact congrFun List.filterMap_eq_map.symm players
    | _ => rfl
  simp only [slots, hints, hprop, List.filterMap_flatMap]

theorem Branch.mem_literalTypes {b : Branch} {v : VarName} {l : Label} :
    (v, l) ∈ b.literalTypes ↔ (v, .isa (.label l)) ∈ statements b := by
  rw [literalTypes_eq_hints, List.mem_filterMap, ← isa_mem_hints]
  constructor
  · rintro ⟨h, hh, heq⟩
    cases h with
    | isa w l' =>
      cases heq
      exact hh
    | slot r filling => cases heq
  · intro hh
    exact ⟨_, hh, rfl⟩

theorem Branch.mem_slots {b : Branch} {slot : Slot} :
    slot ∈ b.slots ↔ ∃ players, (slot.relation, .relation players) ∈ statements b ∧ slot.toRolePlayer ∈ players := by
  rw [slots_eq_hints, List.mem_filterMap, ← slot_mem_hints]
  constructor
  · rintro ⟨h, hh, heq⟩
    cases h with
    | isa v l => cases heq
    | slot r filling =>
      cases heq
      exact hh
  · intro hh
    exact ⟨_, hh, rfl⟩

/-- The role that a slot has in the branch, when this variable stands for it. -/
def RoleSource.role (a : VarName) : RoleSource → Option TypeRef
  | .label l => some (.label l)
  | .var => some (.var a)
  | .missing => none

theorem RoleSource.role_inj {a : VarName} {source source' : RoleSource} (h : source.role a = source'.role a) :
    source = source' := by
  cases source <;> cases source' <;> simp_all [role]

namespace Clue

def literalType? : Clue → Option (VarName × Label)
  | .isa v l => some (v, l)
  | .slot _ _ _ _ => none

/-- The slot that a clue is about, with the variable for its role. -/
def namedSlot? : Clue → Option (Slot × VarName)
  | .isa _ _ => none
  | .slot r p a source => some (⟨⟨source.role a, p⟩, r⟩, a)

def namedSlots (cs : List Clue) : List (Slot × VarName) :=
  cs.filterMap namedSlot?

theorem isa_or_namedSlot (c : Clue) : (∃ v l, c = .isa v l) ∨ ∃ n, c.namedSlot? = some n ∧ c.literalType? = none := by
  cases c with
  | isa v l => exact Or.inl ⟨v, l, rfl⟩
  | slot r p a source => exact Or.inr ⟨_, rfl, rfl⟩

theorem atoms_of_namedSlot {c : Clue} {n : Slot × VarName} (h : c.namedSlot? = some n) :
    (Evidence.ofClue c).atoms = n.1.atoms n.2 := by
  rcases c with ⟨v, l⟩ | ⟨r, p, a, l | _ | _⟩ <;> cases h <;> rfl

theorem placeholder?_or_named {c : Clue} {n : Slot × VarName} (h : c.namedSlot? = some n) :
    c.placeholder? = some n.2 ∧ (∀ a, n.1.role ≠ some (.var a)) ∨ n.1.role = some (.var n.2) := by
  rcases c with ⟨v, l⟩ | ⟨r, p, a, l | _ | _⟩ <;> cases h
  · exact Or.inl ⟨rfl, by simp [RoleSource.role]⟩
  · exact Or.inr rfl
  · exact Or.inl ⟨rfl, by simp [RoleSource.role]⟩

theorem eq_of_role_eq_var {cs : List Clue} {slot : Slot} {a v : VarName} (h : (slot, a) ∈ namedSlots cs)
    (hrole : slot.role = some (.var v)) : a = v := by
  obtain ⟨c, -, hc⟩ := List.mem_filterMap.mp h
  rcases placeholder?_or_named hc with ⟨-, hnot⟩ | hown
  · exact absurd hrole (hnot v)
  · cases hown.symm.trans hrole
    rfl

theorem exists_namedSlot_iff {cs : List Clue} {a : VarName} (source : RoleSource) :
    (∃ slot, (slot, a) ∈ namedSlots cs ∧ slot.role = source.role a) ↔ ∃ r p, .slot r p a source ∈ cs := by
  simp only [namedSlots, List.mem_filterMap]
  constructor
  · rintro ⟨slot, ⟨c, hc, heq⟩, hrole⟩
    cases c with
    | isa v l => cases heq
    | slot r p x source' =>
      cases heq
      obtain rfl := RoleSource.role_inj hrole
      exact ⟨r, p, hc⟩
  · rintro ⟨r, p, hc⟩
    exact ⟨_, ⟨_, hc, rfl⟩, rfl⟩

end Clue

theorem filterMap_eq_of_forall₂ {α β γ : Type} {f : α → Option γ} {g : β → Option γ} {xs : List α} {ys : List β}
    (h : List.Forall₂ (fun x y => f x = g y) xs ys) : xs.filterMap f = ys.filterMap g := by
  induction h with
  | nil => rfl
  | cons hxy _ ih => rw [List.filterMap_cons, List.filterMap_cons, hxy, ih]

namespace Evidence

variable {cs : List Clue}

/-- Up to their order, the atoms are those of the literal types and those of the slots. -/
theorem atoms_perm :
    (ofClues cs).atoms.Perm
      ((cs.filterMap Clue.literalType?).map (fun t => ⟨t.1, [.sub (.label t.2)]⟩) ++
        (Clue.namedSlots cs).flatMap fun n => n.1.atoms n.2) := by
  rw [atoms_ofClues, Clue.namedSlots]
  induction cs with
  | nil => exact .refl _
  | cons c rest ih =>
    rcases c.isa_or_namedSlot with ⟨v, l, rfl⟩ | ⟨n, hslot, htype⟩
    · exact ih.cons _
    · -- The atoms of the slot move behind those of the literal types that come after it.
      rw [List.filterMap_cons_none htype, List.filterMap_cons_some hslot, List.flatMap_cons, List.flatMap_cons,
        Clue.atoms_of_namedSlot hslot]
      exact (ih.append_left _).trans (List.perm_append_comm_assoc _ _ _)

theorem sublist_atoms {f : Slot × VarName → Atom} (hf : ∀ n, f n ∈ n.1.atoms n.2) :
    ((Clue.namedSlots cs).map f).Sublist (ofClues cs).atoms := by
  rw [atoms_ofClues, Clue.namedSlots]
  induction cs with
  | nil => exact .slnil
  | cons c rest ih =>
    rw [List.flatMap_cons]
    rcases c.isa_or_namedSlot with ⟨v, l, rfl⟩ | ⟨n, hslot, -⟩
    · exact List.sublist_append_of_sublist_right ih
    · rw [List.filterMap_cons_some hslot, Clue.atoms_of_namedSlot hslot, List.map_cons]
      exact (List.singleton_sublist.mpr (hf n)).append ih

/-- An atom of every slot has a place of its own. -/
theorem exists_places (cs : List Clue) {f : Slot × VarName → Atom} (hf : ∀ n, f n ∈ n.1.atoms n.2) :
    ∃ place : Fin (Clue.namedSlots cs).length → Fin (ofClues cs).atoms.length,
      Function.Injective place ∧ ∀ k, (ofClues cs).atoms.get (place k) = f ((Clue.namedSlots cs).get k) := by
  have hsub : ((Clue.namedSlots cs).map f).Sublist (ofClues cs).atoms := sublist_atoms hf
  obtain ⟨place, hplace⟩ := List.sublist_iff_exists_fin_orderEmbedding_get_eq.mp hsub
  refine ⟨fun k => place (k.cast (List.length_map f).symm), fun j k hjk => ?_, fun k => ?_⟩
  · exact Fin.cast_injective _ (place.injective hjk)
  · rw [← hplace]
    simp

end Evidence

/-! ### Placeholders -/

theorem Clue.mem_vars_of_mem_atoms {c : Clue} {x : Atom} {v : VarName} (hx : x ∈ (Evidence.ofClue c).atoms)
    (hv : v ∈ x.vars) : v ∈ c.vars := by
  rw [mem_vars_iff, ← mem_varsOf_iff_statements fun _ ha => (atoms_schemaLevel ha).1, varsOf, List.mem_eraseDups,
    List.mem_flatMap]
  exact ⟨x, hx, hv⟩

theorem Clue.placeholder_mem_vars {c : Clue} {a : VarName} (ha : c.placeholder? = some a) {x : Atom}
    (hx : x ∈ (Evidence.ofClue c).atoms) : a ∈ x.vars := by
  rcases c with ⟨v, l⟩ | ⟨r, p, y, l | _ | _⟩ <;> cases ha <;>
    simp only [Evidence.ofClue, Evidence.slotAtoms, List.mem_cons, List.not_mem_nil, or_false] at hx
  · rcases hx with rfl | rfl | rfl <;> simp [Atom.vars, Property.vars, TypeRef.var?]
  · rcases hx with rfl | rfl <;> simp [Atom.vars, Property.vars, TypeRef.var?]

namespace Hint

variable {b : Branch} {used : List VarName} {cs : List Clue} (hclued : Clued used b.hints cs)
  (hused : ∀ v ∈ varsOf b, v ∈ used)

include hclued in
theorem Clued.role_mem_varsOf {c : Clue} (hc : c ∈ cs) {n : Slot × VarName} (hn : c.namedSlot? = some n)
    (hrole : n.1.role = some (.var n.2)) : n.2 ∈ varsOf b := by
  obtain ⟨h, hh, hg⟩ := exists_hint hclued.gives hc
  cases hg with
  | isa v l => cases hn
  | named r p a =>
    cases hn
    exact vars_subset hh (by simp [vars, TypeRef.var?])
  | labelled r p a l | missing r p a =>
    cases hn
    cases hrole

include hclued hused

theorem Clued.placeholder_notMem_varsOf {c : Clue} (hc : c ∈ cs) {a : VarName} (ha : c.placeholder? = some a) :
    a ∉ varsOf b :=
  fun hmem => hclued.fresh a (List.mem_filterMap.mpr ⟨c, hc, ha⟩) (hused a hmem)

/-- Slots share a variable only where both name it. -/
theorem Clued.pairwise_namedSlots :
    (Clue.namedSlots cs).Pairwise fun m n => m.2 = n.2 → m.1.role = some (.var m.2) ∧ n.1.role = some (.var n.2) := by
  have hdistinct := hclued.distinct
  rw [Clue.placeholders, List.Nodup, List.pairwise_filterMap] at hdistinct
  rw [Clue.namedSlots, List.pairwise_filterMap]
  refine hdistinct.imp_of_mem fun {c c'} hc hc' hne m hm n hn heq => ?_
  -- Two placeholders differ, and a placeholder differs from every variable that the branch has.
  rcases Clue.placeholder?_or_named hm with ⟨hp, -⟩ | hrole <;>
    rcases Clue.placeholder?_or_named hn with ⟨hp', -⟩ | hrole'
  · exact absurd heq (hne _ hp _ hp')
  · exact absurd (heq ▸ hclued.role_mem_varsOf hc' hn hrole') (hclued.placeholder_notMem_varsOf hused hc hp)
  · exact absurd (heq ▸ hclued.role_mem_varsOf hc hm hrole) (hclued.placeholder_notMem_varsOf hused hc' hp')
  · exact ⟨hrole, hrole'⟩

theorem Clued.notMem_vars_of_ne {before after : List Clue} {c : Clue} (hcs : cs = before ++ c :: after) {a : VarName}
    (ha : c.placeholder? = some a) : ∀ c' ∈ before ++ after, a ∉ c'.vars := by
  subst hcs
  intro c' hc' hv
  have hdistinct := hclued.distinct
  rw [Clue.placeholders, List.filterMap_append, List.filterMap_cons_some ha, List.nodup_middle, List.nodup_cons,
    ← List.filterMap_append] at hdistinct
  have hmem : c' ∈ before ++ c :: after := by
    simp only [List.mem_append, List.mem_cons] at hc' ⊢
    tauto
  obtain ⟨h, hh, hg⟩ := exists_hint hclued.gives hmem
  rcases hg.vars_right hv with hv | hp
  · exact hclued.placeholder_notMem_varsOf hused (by simp) ha (vars_subset hh hv)
  · exact hdistinct.1 (List.mem_filterMap.mpr ⟨c', hc', hp⟩)

/-- A placeholder stands in the atoms of its own clue only. -/
theorem Clued.filter_atoms {c : Clue} (hc : c ∈ cs) {a : VarName} (ha : c.placeholder? = some a) :
    (Evidence.ofClues cs).atoms.filter (a ∈ ·.vars) = (Evidence.ofClue c).atoms := by
  obtain ⟨before, after, hcs⟩ := List.append_of_mem hc
  have hothers := hclued.notMem_vars_of_ne hused hcs ha
  have hnone : ∀ part : List Clue, part ⊆ before ++ after →
      (part.flatMap fun c' => (Evidence.ofClue c').atoms).filter (a ∈ ·.vars) = [] := by
    intro part hpart
    rw [List.filter_eq_nil_iff]
    intro x hx
    obtain ⟨c', hc', hx⟩ := List.mem_flatMap.mp hx
    simpa using fun hv => hothers c' (hpart hc') (Clue.mem_vars_of_mem_atoms hx hv)
  have hown : (Evidence.ofClue c).atoms.filter (a ∈ ·.vars) = (Evidence.ofClue c).atoms := by
    rw [List.filter_eq_self]
    exact fun x hx => decide_eq_true (Clue.placeholder_mem_vars ha hx)
  rw [Evidence.atoms_ofClues, hcs, List.flatMap_append, List.flatMap_cons, List.filter_append, List.filter_append, hown,
    hnone before (List.subset_append_left _ _), hnone after (List.subset_append_right _ _),
    List.nil_append, List.append_nil]

end Hint

/-! ### The account -/

/-- The evidence accounts for the branch, whose slots are listed with the variables that stand for their roles. -/
structure Evidence.Accounts (e : Evidence) (b : Branch) (named : List (Slot × VarName)) : Prop where
  slots : named.map Prod.fst = b.slots
  /-- The atoms come from the literal types and the slots, each of which has its own. -/
  atoms : e.atoms.Perm
    (b.literalTypes.map (fun t => ⟨t.1, [.sub (.label t.2)]⟩) ++ named.flatMap fun n => n.1.atoms n.2)
  length : e.atoms.length = b.literalTypes.length + (b.slots.map fun slot => if slot.label?.isSome then 3 else 2).sum
  pairs : ∃ plays relates : Fin named.length → Fin e.atoms.length,
    Function.Injective plays ∧ Function.Injective relates ∧
    ∀ k, e.atoms.get (plays k) = ⟨(named.get k).1.player, [.plays (.var (named.get k).2)]⟩ ∧
      e.atoms.get (relates k) = ⟨(named.get k).1.relation, [.relates (.var (named.get k).2)]⟩
  role : ∀ slot a v, (slot, a) ∈ named → slot.role = some (.var v) → a = v
  shared : named.Pairwise fun m n => m.2 = n.2 → m.1.role = some (.var m.2) ∧ n.1.role = some (.var n.2)
  /-- A placeholder is new, and its slot's atoms are the only ones that mention it. -/
  placeholder : ∀ slot a, (slot, a) ∈ named → (∀ v, slot.role ≠ some (.var v)) →
    a ∉ varsOf b ∧ e.atoms.filter (a ∈ ·.vars) = slot.atoms a
  known : ∀ v, v ∈ e.known ↔
    (∃ l, (v, l) ∈ b.literalTypes) ∨ ∃ slot l, (slot, v) ∈ named ∧ slot.role = some (.label l)
  roles : ∀ v, v ∈ e.roles ↔
    (∃ slot ∈ b.slots, slot.role = some (.var v)) ∨ ∃ slot, (slot, v) ∈ named ∧ slot.role = none
  synthesized : ∀ v, v ∈ e.synthesized ↔ ∃ slot, (slot, v) ∈ named ∧ slot.role = none
  disjoint : ∀ v ∈ e.synthesized, v ∉ e.known
  empty_iff : e.atoms = [] ↔ (∀ v l, (v, .isa (.label l)) ∉ statements b) ∧
    ∀ r players, (r, .relation players) ∈ statements b → players = []

section Account
variable {b : Branch} {used : List VarName} {cs : List Clue} (hclued : Hint.Clued used b.hints cs)
include hclued

theorem Hint.Clued.literalTypes_eq : cs.filterMap Clue.literalType? = b.literalTypes := by
  rw [Branch.literalTypes_eq_hints]
  refine (filterMap_eq_of_forall₂ (hclued.gives.imp fun h c hg => ?_)).symm
  cases hg <;> rfl

theorem Hint.Clued.slots_eq : (Clue.namedSlots cs).map Prod.fst = b.slots := by
  rw [Branch.slots_eq_hints, Clue.namedSlots, List.map_filterMap]
  refine (filterMap_eq_of_forall₂ (hclued.gives.imp fun h c hg => ?_)).symm
  cases hg <;> rfl

theorem Hint.Clued.length_atoms :
    (Evidence.ofClues cs).atoms.length =
      b.literalTypes.length + (b.slots.map fun slot => if slot.label?.isSome then 3 else 2).sum := by
  rw [Evidence.atoms_perm.length_eq, List.length_append, List.length_map, List.length_flatMap, hclued.literalTypes_eq,
    ← hclued.slots_eq, List.map_map]
  simp only [Slot.length_atoms]
  rfl

theorem Hint.Clued.atoms_eq_nil_iff :
    (Evidence.ofClues cs).atoms = [] ↔ (∀ v l, (v, .isa (.label l)) ∉ statements b) ∧
      ∀ r players, (r, .relation players) ∈ statements b → players = [] := by
  have htypes : b.literalTypes.length = 0 ↔ ∀ v l, (v, .isa (.label l)) ∉ statements b := by
    simp only [List.length_eq_zero_iff, List.eq_nil_iff_forall_not_mem, Prod.forall, Branch.mem_literalTypes]
  have hslots : b.slots.length = 0 ↔ ∀ r players, (r, .relation players) ∈ statements b → players = [] := by
    simp only [List.length_eq_zero_iff, List.eq_nil_iff_forall_not_mem, Branch.mem_slots]
    constructor
    · intro h r players hs filling hf
      exact h ⟨filling, r⟩ ⟨players, hs, hf⟩
    · rintro h slot ⟨players, hs, hf⟩
      exact h _ players hs _ hf
  have hsum : (b.slots.map fun slot => if slot.label?.isSome then 3 else 2).sum = 0 ↔ b.slots.length = 0 := by
    cases b.slots with
    | nil => simp
    | cons slot rest =>
      rw [List.map_cons, List.sum_cons, List.length_cons]
      split <;> omega
  rw [← List.length_eq_zero_iff, hclued.length_atoms, Nat.add_eq_zero_iff, hsum, htypes, hslots]

theorem Hint.Clued.mem_known_iff {v : VarName} :
    v ∈ (Evidence.ofClues cs).known ↔ (∃ l, (v, l) ∈ b.literalTypes) ∨
      ∃ slot l, (slot, v) ∈ Clue.namedSlots cs ∧ slot.role = some (.label l) := by
  rw [Evidence.mem_known_iff]
  refine or_congr (exists_congr fun l => ?_) ⟨?_, ?_⟩
  · rw [hclued.isa_mem_iff, Branch.mem_literalTypes]
  · rintro ⟨r, p, l, hc⟩
    obtain ⟨slot, hslot⟩ := (Clue.exists_namedSlot_iff (.label l)).mpr ⟨r, p, hc⟩
    exact ⟨slot, l, hslot⟩
  · rintro ⟨slot, l, hslot⟩
    obtain ⟨r, p, hc⟩ := (Clue.exists_namedSlot_iff (.label l)).mp ⟨slot, hslot⟩
    exact ⟨r, p, l, hc⟩

theorem Hint.Clued.mem_roles_iff {v : VarName} :
    v ∈ (Evidence.ofClues cs).roles ↔ (∃ slot ∈ b.slots, slot.role = some (.var v)) ∨
      ∃ slot, (slot, v) ∈ Clue.namedSlots cs ∧ slot.role = none := by
  have hown : (∃ slot ∈ b.slots, slot.role = some (.var v)) ↔ ∃ r p, .slot r p v .var ∈ cs := by
    rw [← Clue.exists_namedSlot_iff .var, ← hclued.slots_eq]
    constructor
    · rintro ⟨slot, hslot, hrole⟩
      obtain ⟨⟨slot, a⟩, hmem, rfl⟩ := List.mem_map.mp hslot
      exact ⟨slot, Clue.eq_of_role_eq_var hmem hrole ▸ hmem, hrole⟩
    · rintro ⟨slot, hmem, hrole⟩
      exact ⟨slot, List.mem_map_of_mem hmem, hrole⟩
  rw [Evidence.mem_roles_iff, hown, ← RoleSource.role, Clue.exists_namedSlot_iff .missing]
  simp only [exists_or]

variable (hused : ∀ v ∈ varsOf b, v ∈ used)
include hused

theorem Hint.Clued.placeholder {slot : Slot} {a : VarName} (hmem : (slot, a) ∈ Clue.namedSlots cs)
    (hnot : ∀ v, slot.role ≠ some (.var v)) :
    a ∉ varsOf b ∧ (Evidence.ofClues cs).atoms.filter (a ∈ ·.vars) = slot.atoms a := by
  obtain ⟨c, hc, hn⟩ := List.mem_filterMap.mp hmem
  rcases Clue.placeholder?_or_named hn with ⟨hp, -⟩ | hrole
  · rw [hclued.filter_atoms hused hc hp, Clue.atoms_of_namedSlot hn]
    exact ⟨hclued.placeholder_notMem_varsOf hused hc hp, rfl⟩
  · exact absurd hrole (hnot a)

theorem Hint.Clued.disjoint {v : VarName} (hv : v ∈ (Evidence.ofClues cs).synthesized) :
    v ∉ (Evidence.ofClues cs).known := by
  obtain ⟨slot, hmem, hrole⟩ := (Clue.exists_namedSlot_iff .missing).mpr (Evidence.mem_synthesized_iff.mp hv)
  obtain ⟨hvars, hatoms⟩ := hclued.placeholder hused hmem (by simp [hrole, RoleSource.role])
  rw [hclued.mem_known_iff]
  rintro (⟨l, hl⟩ | ⟨slot', l, hmem', hrole'⟩)
  · exact hvars (statementVars_subset (Branch.mem_literalTypes.mp hl) List.mem_cons_self)
  · -- The same variable would have the two atoms of one slot and the three of the other.
    have hatoms' := (hclued.placeholder hused hmem' (by simp [hrole'])).2
    have hlength := congrArg List.length (hatoms.symm.trans hatoms')
    simp [Slot.length_atoms, Slot.label?, hrole, hrole', RoleSource.role, TypeRef.label?] at hlength

theorem Hint.Clued.accounts : (Evidence.ofClues cs).Accounts b (Clue.namedSlots cs) where
  slots := hclued.slots_eq
  atoms := hclued.literalTypes_eq ▸ Evidence.atoms_perm
  length := hclued.length_atoms
  pairs := by
    obtain ⟨plays, hplays, hatPlays⟩ :=
      Evidence.exists_places cs (f := fun n => ⟨n.1.player, [.plays (.var n.2)]⟩) (by simp [Slot.atoms])
    obtain ⟨relates, hrelates, hatRelates⟩ :=
      Evidence.exists_places cs (f := fun n => ⟨n.1.relation, [.relates (.var n.2)]⟩) (by simp [Slot.atoms])
    exact ⟨plays, relates, hplays, hrelates, fun k => ⟨hatPlays k, hatRelates k⟩⟩
  role slot a v := Clue.eq_of_role_eq_var
  shared := hclued.pairwise_namedSlots hused
  placeholder slot a := hclued.placeholder hused
  known v := hclued.mem_known_iff
  roles v := hclued.mem_roles_iff
  synthesized v := by
    rw [Evidence.mem_synthesized_iff]
    exact (Clue.exists_namedSlot_iff .missing).symm
  disjoint v := hclued.disjoint hused
  empty_iff := hclued.atoms_eq_nil_iff

end Account

/-- Where the names of the branch are in use, its evidence accounts for every literal type and every slot. -/
theorem Branch.clues_accounted {b : Branch} {policy : MissingRoles} {supply supply' : Supply} {cs : List Clue}
    (hused : ∀ v ∈ varsOf b, v ∈ supply.used) (h : b.clues policy supply = .ok (cs, supply')) :
    ∃ named, (Evidence.ofClues cs).Accounts b named :=
  ⟨_, (Hint.clues_eq_ok h).1.accounts hused⟩

/-- A slot of each form, a role variable of two slots that is a player too, and a variable with the name of a
placeholder. -/
def ensembleBranch : Branch :=
  [⟨⟨"x"⟩, [.isa (.label ⟨"person"⟩)]⟩,
    ⟨⟨"r"⟩, [.relation [⟨some (.label ⟨"actor"⟩), ⟨"x"⟩⟩, ⟨some (.var ⟨"a"⟩), ⟨"y"⟩⟩,
      ⟨some (.var ⟨"a"⟩), ⟨"a"⟩⟩, ⟨none, ⟨"y"⟩⟩]]⟩,
    ⟨⟨"_0"⟩, [.isa (.label ⟨"movie"⟩)]⟩]

theorem clues_accounted_ensembleBranch :
    (∀ v ∈ varsOf ensembleBranch, v ∈ (Supply.forAtoms "_" ensembleBranch).used) ∧
    ∃ cs supply, ensembleBranch.clues .synthesize (.forAtoms "_" ensembleBranch) = .ok (cs, supply) ∧
      Clue.placeholders cs = [⟨"_1"⟩, ⟨"_2"⟩] ∧ (Evidence.ofClues cs).atoms.length = 2 + (3 + 2 + 2 + 2) ∧
      ∃ named, (Evidence.ofClues cs).Accounts ensembleBranch named := by
  have hused : ∀ v ∈ varsOf ensembleBranch, v ∈ (Supply.forAtoms "_" ensembleBranch).used :=
    fun v hv => Supply.mem_forAtoms_used.mpr hv
  have hrun : (ensembleBranch.clues .synthesize (.forAtoms "_" ensembleBranch)).toOption.any
      (fun r => Clue.placeholders r.1 = [⟨"_1"⟩, ⟨"_2"⟩]) = true := by
    decide +kernel
  obtain ⟨⟨cs, supply⟩, hclues, hplaceholders⟩ := exists_ok_of_any hrun
  obtain ⟨named, hnamed⟩ := Branch.clues_accounted hused hclues
  exact ⟨hused, cs, supply, hclues, of_decide_eq_true hplaceholders, hnamed.length, named, hnamed⟩

end OntologyTyping
