import OntologyTyping.Pattern.Branch
import Mathlib.Algebra.BigOperators.Group.List.Basic
import Mathlib.Algebra.GroupWithZero.Nat

/-!
The branches of a pattern say what the pattern says.

A pattern is true under a valuation of atoms exactly when all the atoms of one of its branches are. A branch takes
its atoms from the pattern in their order and changes none. Disjunctions add up the branches of their parts,
conjunctions multiply them.
-/

namespace OntologyTyping.Pattern

/-! ### Truth of a pattern -/

mutual

/-- Whether a pattern is true when its atoms have these truth values. -/
def eval (t : Atom → Bool) : Pattern → Bool
  | .atom a => t a
  | .all parts => evalAll t parts
  | .any parts => evalAny t parts

def evalAll (t : Atom → Bool) : List Pattern → Bool
  | [] => true
  | p :: rest => p.eval t && evalAll t rest

def evalAny (t : Atom → Bool) : List Pattern → Bool
  | [] => false
  | p :: rest => p.eval t || evalAny t rest

end

theorem mem_branchesOfAll_cons {p : Pattern} {rest : List Pattern} {b : Branch} :
    b ∈ branchesOfAll (p :: rest) ↔ ∃ b₁ ∈ p.branches, ∃ b₂ ∈ branchesOfAll rest, b = b₁ ++ b₂ := by
  simp only [branchesOfAll, List.mem_flatMap, List.mem_map, eq_comm]

theorem branchesOfAny_eq_flatMap {ps : List Pattern} : branchesOfAny ps = ps.flatMap branches := by
  induction ps with
  | nil => rfl
  | cons p rest ih => rw [branchesOfAny, ih, List.flatMap_cons]

section Truth
variable {t : Atom → Bool}

mutual

theorem eval_iff : (p : Pattern) → (p.eval t = true ↔ ∃ b ∈ p.branches, ∀ a ∈ b, t a = true)
  | .atom a => by simp [eval, branches]
  | .all parts => evalAll_iff parts
  | .any parts => evalAny_iff parts

theorem evalAll_iff : (ps : List Pattern) → (evalAll t ps = true ↔ ∃ b ∈ branchesOfAll ps, ∀ a ∈ b, t a = true)
  | [] => by simp [evalAll, branchesOfAll]
  | p :: rest => by
    rw [evalAll, Bool.and_eq_true, eval_iff p, evalAll_iff rest]
    constructor
    · rintro ⟨⟨b₁, hb₁, h₁⟩, b₂, hb₂, h₂⟩
      exact ⟨b₁ ++ b₂, mem_branchesOfAll_cons.mpr ⟨b₁, hb₁, b₂, hb₂, rfl⟩, List.forall_mem_append.mpr ⟨h₁, h₂⟩⟩
    · rintro ⟨b, hb, h⟩
      obtain ⟨b₁, hb₁, b₂, hb₂, rfl⟩ := mem_branchesOfAll_cons.mp hb
      rw [List.forall_mem_append] at h
      exact ⟨⟨b₁, hb₁, h.1⟩, b₂, hb₂, h.2⟩

theorem evalAny_iff : (ps : List Pattern) → (evalAny t ps = true ↔ ∃ b ∈ branchesOfAny ps, ∀ a ∈ b, t a = true)
  | [] => by simp [evalAny, branchesOfAny]
  | p :: rest => by
    rw [evalAny, Bool.or_eq_true, eval_iff p, evalAny_iff rest, branchesOfAny]
    simp only [List.mem_append, or_and_right, exists_or]

end

end Truth

/-! ### Where the atoms of a branch come from -/

mutual

/-- A branch lists atoms of the pattern in their order. -/
theorem sublist_atoms : (p : Pattern) → ∀ b ∈ p.branches, b.Sublist p.atoms
  | .atom a => fun b hb => by
    obtain rfl := List.mem_singleton.mp hb
    exact List.Sublist.refl _
  | .all parts => sublist_atomsOf_of_all parts
  | .any parts => sublist_atomsOf_of_any parts

theorem sublist_atomsOf_of_all : (ps : List Pattern) → ∀ b ∈ branchesOfAll ps, b.Sublist (atomsOf ps)
  | [] => fun b hb => by
    obtain rfl := List.mem_singleton.mp hb
    exact List.Sublist.refl _
  | p :: rest => fun b hb => by
    obtain ⟨b₁, hb₁, b₂, hb₂, rfl⟩ := mem_branchesOfAll_cons.mp hb
    exact (sublist_atoms p b₁ hb₁).append (sublist_atomsOf_of_all rest b₂ hb₂)

theorem sublist_atomsOf_of_any : (ps : List Pattern) → ∀ b ∈ branchesOfAny ps, b.Sublist (atomsOf ps)
  | [] => by simp [branchesOfAny]
  | p :: rest => fun b hb => by
    rw [branchesOfAny, List.mem_append] at hb
    rw [atomsOf]
    rcases hb with hb | hb
    · exact List.sublist_append_of_sublist_left (sublist_atoms p b hb)
    · exact List.sublist_append_of_sublist_right (sublist_atomsOf_of_any rest b hb)

end

theorem mem_atoms_of_mem_branches (p : Pattern) (b : Branch) (hb : b ∈ p.branches) (a : Atom) (ha : a ∈ b) :
    a ∈ p.atoms :=
  (sublist_atoms p b hb).subset ha

/-! ### How many branches there are -/

theorem length_branchesOfAny {ps : List Pattern} :
    (branchesOfAny ps).length = (ps.map fun p => p.branches.length).sum := by
  rw [branchesOfAny_eq_flatMap, List.length_flatMap]

theorem length_branchesOfAll {ps : List Pattern} :
    (branchesOfAll ps).length = (ps.map fun p => p.branches.length).prod := by
  induction ps with
  | nil => rfl
  | cons p rest ih =>
    have hconst : (p.branches.map fun b => ((branchesOfAll rest).map (b ++ ·)).length).sum =
        p.branches.length * (branchesOfAll rest).length := by
      simp only [List.length_map, List.map_const', List.sum_replicate_nat]
    rw [branchesOfAll, List.length_flatMap, hconst, List.map_cons, List.prod_cons, ih]

/-- The branches of a pattern are its disjunctive normal form. Some branch is true exactly when the pattern is,
every branch lists atoms of the pattern in their order, and the numbers of branches add up over the parts of a
disjunction and multiply over those of a conjunction. -/
theorem branches_normalForm (p : Pattern) :
    (∀ t : Atom → Bool, p.eval t = true ↔ ∃ b ∈ p.branches, ∀ a ∈ b, t a = true) ∧
    (∀ b ∈ p.branches, b.Sublist p.atoms) ∧
    (∀ a, p = .atom a → p.branches.length = 1) ∧
    (∀ parts, p = .any parts → p.branches.length = (parts.map fun q => q.branches.length).sum) ∧
    (∀ parts, p = .all parts → p.branches.length = (parts.map fun q => q.branches.length).prod) := by
  refine ⟨fun t => eval_iff p, sublist_atoms p, ?_, ?_, ?_⟩
  · rintro a rfl
    rfl
  · rintro parts rfl
    exact length_branchesOfAny
  · rintro parts rfl
    exact length_branchesOfAll

/-- An atom that occurs twice, a part that is always true, and a disjunction below a disjunction. -/
def rerunPattern : Pattern :=
  .all [.atom ⟨⟨"x"⟩, [.isa (.label ⟨"movie"⟩)]⟩, .any [.atom ⟨⟨"y"⟩, []⟩, .all []],
    .any [.atom ⟨⟨"x"⟩, [.isa (.label ⟨"movie"⟩)]⟩,
      .any [.atom ⟨⟨"z"⟩, []⟩, .all [.atom ⟨⟨"y"⟩, []⟩, .atom ⟨⟨"z"⟩, []⟩]]]]

theorem branches_normalForm_rerunPattern :
    [⟨⟨"x"⟩, [.isa (.label ⟨"movie"⟩)]⟩, ⟨⟨"y"⟩, []⟩, ⟨⟨"z"⟩, []⟩] ∈ rerunPattern.branches ∧
      List.Sublist [⟨⟨"x"⟩, [.isa (.label ⟨"movie"⟩)]⟩, ⟨⟨"y"⟩, []⟩, ⟨⟨"z"⟩, []⟩] rerunPattern.atoms ∧
      rerunPattern.branches.length = 1 * (2 * 3) := by
  have hmem : [⟨⟨"x"⟩, [.isa (.label ⟨"movie"⟩)]⟩, ⟨⟨"y"⟩, []⟩, ⟨⟨"z"⟩, []⟩] ∈ rerunPattern.branches := by decide
  obtain ⟨-, hsub, -, -, hcount⟩ := branches_normalForm rerunPattern
  exact ⟨hmem, hsub _ hmem, hcount _ rfl⟩

end OntologyTyping.Pattern
