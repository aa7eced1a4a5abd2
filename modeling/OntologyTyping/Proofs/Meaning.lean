import OntologyTyping.Proofs.Matches
import Mathlib.Data.List.Forall2
import Mathlib.Data.List.Pairwise
import Mathlib.Data.Set.Insert

/-!
The answers of a pattern are what it denotes.

An atom denotes the assignments of any values to its variables under which its properties hold, a disjunction the
union of what its parts denote, and a conjunction their natural join. The answers are found branch by branch. A
branch that is joined from one branch of each part is matched by the joins of compatible matches, since compatible
matches are parts of one assignment.
-/

namespace OntologyTyping

open Ordered

namespace Answer

/-- The answers agree where both have a value. -/
def Compatible (s s' : Answer) : Prop :=
  ∀ v a a', s.lookup v = some a → s'.lookup v = some a' → a = a'

/-- All that the answers say. -/
def join (ss : List Answer) : Answer :=
  tableOf ss.flatten

instance : Std.Symm Compatible where
  symm _ _ h v a a' ha ha' := (h v a' a ha' ha).symm

/-- What a join of compatible answers says is what one of them says. -/
theorem lookup_join {ss : List Answer} (htable : ∀ s ∈ ss, IsTable s) (hcompat : ss.Pairwise Compatible) {v : VarName}
    {a : Value} : (join ss).lookup v = some a ↔ ∃ s ∈ ss, s.lookup v = some a := by
  have hself : ∀ s ∈ ss, Compatible s s := fun _ _ _ _ _ ha ha' => Option.some.inj (ha.symm.trans ha')
  have hmem : ∀ {v : VarName} {a : Value}, (v, a) ∈ ss.flatten ↔ ∃ s ∈ ss, s.lookup v = some a := by
    intro v a
    rw [List.mem_flatten]
    exact exists_congr fun s => and_congr_right fun hs => (htable s hs).mem_iff
  have hfunctional : Functional ss.flatten := by
    intro v a a' ha ha'
    obtain ⟨s, hs, ha⟩ := hmem.mp ha
    obtain ⟨s', hs', ha'⟩ := hmem.mp ha'
    exact hcompat.forall_of_forall hself hs hs' v a a' ha ha'
  rw [join, ← isTable_tableOf.mem_iff, hfunctional.mem_tableOf_iff, hmem]

theorem compatible_tabulate {vars vars' : List VarName} {F : VarName → Value} :
    Compatible (tabulate vars F) (tabulate vars' F) := by
  intro v a a' ha ha'
  rw [← (lookup_tabulate_eq_some.mp ha).2, ← (lookup_tabulate_eq_some.mp ha').2]

end Answer

namespace Graph

open Answer

/-! ### What a pattern denotes -/

mutual

/-- The answers that a pattern denotes. -/
def meaning (g : Graph) : Pattern → Set Answer
  | .atom a =>
    {s | ∃ F : VarName → Value, s = tabulate (varsOf [a]) F ∧ (∀ v ∈ varsOf [a], F v ∈ g.individuals ++ g.concepts) ∧
      ∀ p ∈ a.properties, g.holds s (a.name, p) = true}
  | .all parts => {s | ∃ ss ∈ g.meaningOfEach parts, ss.Pairwise Compatible ∧ s = join ss}
  | .any parts => g.meaningOfSome parts

/-- One answer of every part. -/
def meaningOfEach (g : Graph) : List Pattern → Set (List Answer)
  | [] => {[]}
  | p :: rest => {ss | ∃ s ∈ g.meaning p, ∃ ss' ∈ g.meaningOfEach rest, ss = s :: ss'}

/-- The answers of some part. -/
def meaningOfSome (g : Graph) : List Pattern → Set Answer
  | [] => ∅
  | p :: rest => g.meaning p ∪ g.meaningOfSome rest

end

variable {g : Graph}

/-! ### Matches of joined branches -/

theorem exists_mem_flatten {α : Type} {xss : List (List α)} {p : α → Prop} :
    (∃ x ∈ xss.flatten, p x) ↔ ∃ xs ∈ xss, ∃ x ∈ xs, p x := by
  simp only [List.mem_flatten]
  constructor
  · rintro ⟨x, ⟨xs, hxs, hx⟩, hp⟩
    exact ⟨xs, hxs, x, hx, hp⟩
  · rintro ⟨xs, hxs, x, hx, hp⟩
    exact ⟨x, ⟨xs, hxs, hx⟩, hp⟩

theorem mem_varsOf_flatten {bs : List Branch} {v : VarName} : v ∈ varsOf bs.flatten ↔ ∃ b ∈ bs, v ∈ varsOf b := by
  simp only [mem_varsOf, exists_mem_flatten]

theorem mem_statements_flatten {bs : List Branch} {st : Statement} :
    st ∈ statements bs.flatten ↔ ∃ b ∈ bs, st ∈ statements b := by
  obtain ⟨v, p⟩ := st
  simp only [mem_statements, exists_mem_flatten]

theorem matches_flatten_iff {bs : List Branch} {F : VarName → Value} :
    g.Matches bs.flatten F ↔ ∀ b ∈ bs, g.Matches b F := by
  have hsame : ∀ b ∈ bs, ∀ st ∈ statements b,
      g.holds (tabulate (varsOf bs.flatten) F) st = g.holds (tabulate (varsOf b) F) st := by
    intro b hb st hst
    refine holds_tabulate_congr (fun v hv => ?_) fun _ _ => rfl
    have hvb := statementVars_subset hst hv
    exact ⟨mem_varsOf_flatten.mpr ⟨b, hb, hvb⟩, hvb⟩
  constructor
  · intro h b hb
    refine ⟨fun v hv => h.values v (mem_varsOf_flatten.mpr ⟨b, hb, hv⟩), fun st hst => ?_⟩
    rw [← hsame b hb st hst]
    exact h.holds st (mem_statements_flatten.mpr ⟨b, hb, hst⟩)
  · refine fun h => ⟨fun v hv => ?_, fun st hst => ?_⟩
    · obtain ⟨b, hb, hv⟩ := mem_varsOf_flatten.mp hv
      exact (h b hb).values v hv
    · obtain ⟨b, hb, hst⟩ := mem_statements_flatten.mp hst
      rw [hsame b hb st hst]
      exact (h b hb).holds st hst

theorem pairwise_compatible_tabulate {bs : List Branch} {F : VarName → Value} :
    (bs.map fun b => tabulate (varsOf b) F).Pairwise Compatible := by
  rw [List.pairwise_map]
  exact List.pairwise_of_forall fun _ _ => compatible_tabulate

theorem join_tabulate {bs : List Branch} {F : VarName → Value} :
    join (bs.map fun b => tabulate (varsOf b) F) = tabulate (varsOf bs.flatten) F := by
  have htable : ∀ s ∈ bs.map fun b => tabulate (varsOf b) F, IsTable s := by
    rw [List.forall_mem_map]
    exact fun _ _ => isTable_tabulate
  refine isTable_tableOf.ext isTable_tabulate fun v => Option.ext fun a => ?_
  rw [← join, lookup_join htable pairwise_compatible_tabulate]
  simp only [List.mem_map, exists_exists_and_eq_and, lookup_tabulate_eq_some, mem_varsOf_flatten]
  tauto

theorem eq_map_of_forall₂ {α β : Type} {f : β → α} {P : β → Prop} {xs : List α} {ys : List β}
    (h : List.Forall₂ (fun x y => x = f y ∧ P y) xs ys) : xs = ys.map f ∧ ∀ y ∈ ys, P y := by
  induction h with
  | nil => simp
  | cons hxy _ ih =>
    obtain ⟨rfl, hy⟩ := hxy
    obtain ⟨rfl, hys⟩ := ih
    exact ⟨rfl, List.forall_mem_cons.mpr ⟨hy, hys⟩⟩

/-- Compatible matches of several branches are parts of one choice that matches all of them. -/
theorem exists_matches_of_compatible {ss : List Answer} {bs : List Branch}
    (hss : List.Forall₂ (fun s b => s ∈ g.matchBranch b) ss bs) (hcompat : ss.Pairwise Compatible) :
    ∃ F, ss = bs.map (fun b => tabulate (varsOf b) F) ∧ ∀ b ∈ bs, g.Matches b F := by
  have htable : ∀ s ∈ ss, IsTable s := by
    refine ((List.forall₂_and_left ss bs).mp (hss.imp fun s b hs => ⟨?_, hs⟩)).1
    obtain ⟨F, -, rfl⟩ := mem_matchBranch_iff.mp hs
    exact isTable_tabulate
  -- What the join says is the choice.
  refine ⟨fun v => ((join ss).lookup v).getD default, eq_map_of_forall₂ ?_⟩
  refine ((List.forall₂_and_left ss bs).mpr ⟨fun s (hs : s ∈ ss) => hs, hss⟩).imp ?_
  rintro s b ⟨hs, hmatch⟩
  obtain ⟨F, hF, rfl⟩ := mem_matchBranch_iff.mp hmatch
  have hsame : ∀ v ∈ varsOf b, F v = ((join ss).lookup v).getD default := by
    intro v hv
    rw [(lookup_join htable hcompat).mpr ⟨_, hs, lookup_tabulate_of_mem hv⟩, Option.getD_some]
  exact ⟨tabulate_congr (fun _ => Iff.rfl) hsame, hF.congr hsame⟩

/-- Joining branches joins their matches. -/
theorem mem_matchBranch_flatten_iff {bs : List Branch} {s : Answer} :
    s ∈ g.matchBranch bs.flatten ↔
      ∃ ss, List.Forall₂ (fun s b => s ∈ g.matchBranch b) ss bs ∧ ss.Pairwise Compatible ∧ s = join ss := by
  rw [mem_matchBranch_iff]
  constructor
  · rintro ⟨F, hF, rfl⟩
    refine ⟨bs.map fun b => tabulate (varsOf b) F, ?_, pairwise_compatible_tabulate, join_tabulate.symm⟩
    rw [List.forall₂_map_left_iff, List.forall₂_same]
    exact fun b hb => mem_matchBranch_iff.mpr ⟨F, matches_flatten_iff.mp hF b hb, rfl⟩
  · rintro ⟨ss, hss, hcompat, rfl⟩
    obtain ⟨F, rfl, hF⟩ := exists_matches_of_compatible hss hcompat
    exact ⟨F, matches_flatten_iff.mpr hF, join_tabulate⟩

end Graph

/-- A branch of a conjunction is joined from one branch of each part. -/
theorem Pattern.mem_branchesOfAll_iff {ps : List Pattern} {b : Branch} :
    b ∈ branchesOfAll ps ↔ ∃ bs, List.Forall₂ (fun b p => b ∈ p.branches) bs ps ∧ b = bs.flatten := by
  induction ps generalizing b with
  | nil => simp [branchesOfAll]
  | cons p rest ih =>
    simp only [branchesOfAll, List.mem_flatMap, List.mem_map, ih, List.forall₂_cons_right_iff]
    constructor
    · rintro ⟨b, hb, _, ⟨bs, hbs, rfl⟩, rfl⟩
      exact ⟨b :: bs, ⟨b, bs, hb, hbs, rfl⟩, rfl⟩
    · rintro ⟨_, ⟨b, bs, hb, hbs, rfl⟩, rfl⟩
      exact ⟨b, hb, _, ⟨bs, hbs, rfl⟩, rfl⟩

/-! ### Answers and meanings -/

namespace Graph

variable {g : Graph}

theorem mem_meaning_atom_iff {a : Atom} {s : Answer} : s ∈ g.meaning (.atom a) ↔ s ∈ g.matchBranch [a] := by
  rw [mem_matchBranch_iff, meaning]
  constructor
  · rintro ⟨F, rfl, hvalues, hholds⟩
    refine ⟨F, ⟨hvalues, ?_⟩, rfl⟩
    rintro ⟨v, p⟩ hst
    obtain ⟨a', ha', rfl, hp⟩ := mem_statements.mp hst
    obtain rfl := List.mem_singleton.mp ha'
    exact hholds p hp
  · rintro ⟨F, hF, rfl⟩
    exact ⟨F, rfl, hF.values, fun p hp => hF.holds _ (mem_statements.mpr ⟨a, List.mem_singleton_self a, rfl, hp⟩)⟩

mutual

/-- A pattern denotes the matches of its branches. -/
theorem mem_meaning_iff : (p : Pattern) → ∀ s, s ∈ g.meaning p ↔ ∃ b ∈ p.branches, s ∈ g.matchBranch b
  | .atom a => fun s => by simp [mem_meaning_atom_iff, Pattern.branches]
  | .all parts => fun s => by
    rw [meaning, Pattern.branches]
    constructor
    · rintro ⟨ss, hss, hcompat, rfl⟩
      obtain ⟨bs, hbs, hmatch⟩ := (mem_meaningOfEach_iff parts ss).mp hss
      exact ⟨bs.flatten, Pattern.mem_branchesOfAll_iff.mpr ⟨bs, hbs, rfl⟩,
        mem_matchBranch_flatten_iff.mpr ⟨ss, hmatch, hcompat, rfl⟩⟩
    · rintro ⟨b, hb, hs⟩
      obtain ⟨bs, hbs, rfl⟩ := Pattern.mem_branchesOfAll_iff.mp hb
      obtain ⟨ss, hmatch, hcompat, rfl⟩ := mem_matchBranch_flatten_iff.mp hs
      exact ⟨ss, (mem_meaningOfEach_iff parts ss).mpr ⟨bs, hbs, hmatch⟩, hcompat, rfl⟩
  | .any parts => mem_meaningOfSome_iff parts

theorem mem_meaningOfEach_iff : (ps : List Pattern) → ∀ ss, ss ∈ g.meaningOfEach ps ↔
    ∃ bs, List.Forall₂ (fun b p => b ∈ p.branches) bs ps ∧ List.Forall₂ (fun s b => s ∈ g.matchBranch b) ss bs
  | [] => fun ss => by simp [meaningOfEach]
  | p :: rest => fun ss => by
    constructor
    · rintro ⟨s, hs, ss, hss, rfl⟩
      obtain ⟨b, hb, hs⟩ := (mem_meaning_iff p s).mp hs
      obtain ⟨bs, hbs, hss⟩ := (mem_meaningOfEach_iff rest ss).mp hss
      exact ⟨b :: bs, .cons hb hbs, .cons hs hss⟩
    · rintro ⟨_, hbs, hss⟩
      cases hbs with
      | cons hb hbs =>
        cases hss with
        | cons hs hss =>
          exact ⟨_, (mem_meaning_iff p _).mpr ⟨_, hb, hs⟩, _, (mem_meaningOfEach_iff rest _).mpr ⟨_, hbs, hss⟩, rfl⟩

theorem mem_meaningOfSome_iff : (ps : List Pattern) → ∀ s, s ∈ g.meaningOfSome ps ↔
    ∃ b ∈ Pattern.branchesOfAny ps, s ∈ g.matchBranch b
  | [] => fun s => by simp [meaningOfSome, Pattern.branchesOfAny]
  | p :: rest => fun s => by
    rw [meaningOfSome, Set.mem_union, mem_meaning_iff p, mem_meaningOfSome_iff rest, Pattern.branchesOfAny]
    simp only [List.mem_append, or_and_right, exists_or]

end

/-- The answers of a pattern, in increasing order, are what it denotes. -/
theorem answers_eq_meaning (g : Graph) (p : Pattern) :
    (g.answers p).Pairwise (fun s s' => compareTables s s' = .lt) ∧ {s | s ∈ g.answers p} = g.meaning p := by
  refine ⟨pairwise_sortDistinct, Set.ext fun s => ?_⟩
  rw [Set.mem_ofPred_eq, mem_answers_iff, mem_meaning_iff]

end Graph

end OntologyTyping
