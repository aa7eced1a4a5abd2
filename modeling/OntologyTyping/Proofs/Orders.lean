import OntologyTyping.Graph.Basic
import OntologyTyping.Ontology.Solve

/-!
Every order in use is total, and compares as equal only what is equal.

Names and labels are ordered by their texts, kinds by their ranks, concepts in answers by label and kind, and values
by sort and then by name. Tables are ordered by their entries, so an answer list in increasing order holds every
answer once.
-/

namespace OntologyTyping

instance : Std.TransOrd VarName :=
  inferInstanceAs (Std.TransCmp (compareOn VarName.text))

instance : Std.LawfulEqOrd VarName where
  eq_of_compare {a b} h := by
    cases a
    cases b
    exact congrArg VarName.mk (Std.LawfulEqOrd.eq_of_compare h)

instance : Std.TransOrd Label :=
  inferInstanceAs (Std.TransCmp (compareOn Label.text))

instance : Std.LawfulEqOrd Label where
  eq_of_compare {a b} h := by
    cases a
    cases b
    exact congrArg Label.mk (Std.LawfulEqOrd.eq_of_compare h)

theorem Kind.eq_of_rank {a b : Kind} (h : a.rank = b.rank) : a = b := by
  cases a <;> cases b <;> simp [Kind.rank] at h <;> rfl

instance : Std.TransOrd Kind :=
  inferInstanceAs (Std.TransCmp (compareOn Kind.rank))

instance : Std.LawfulEqOrd Kind where
  eq_of_compare h := Kind.eq_of_rank (Std.LawfulEqOrd.eq_of_compare h)

instance : Std.TransOrd ConceptName :=
  inferInstanceAs (Std.TransCmp (compareLex (compareOn ConceptName.label) (compareOn ConceptName.kind)))

instance : Std.LawfulEqOrd ConceptName where
  eq_of_compare {a b} h := by
    obtain ⟨hl, hk⟩ := Ordering.then_eq_eq.mp h
    have hl' : a.label = b.label := Std.LawfulEqOrd.eq_of_compare hl
    have hk' : a.kind = b.kind := Std.LawfulEqOrd.eq_of_compare hk
    cases a
    cases b
    simp_all

instance : Std.OrientedOrd Value where
  eq_swap {a b} := by
    cases a with
    | individual a => cases b with
      | individual b => exact Std.OrientedOrd.eq_swap (a := a) (b := b)
      | concept b => rfl
    | concept a => cases b with
      | individual b => rfl
      | concept b => exact Std.OrientedOrd.eq_swap (a := a) (b := b)

instance : Std.TransOrd Value where
  isLE_trans {a b c} hab hbc := by
    cases a with
    | individual a => cases b with
      | individual b => cases c with
        | individual c => exact Std.TransOrd.isLE_trans (a := a) (b := b) hab hbc
        | concept c => rfl
      | concept b => cases c with
        | individual c => cases hbc
        | concept c => rfl
    | concept a => cases b with
      | individual b => cases hab
      | concept b => cases c with
        | individual c => cases hbc
        | concept c => exact Std.TransOrd.isLE_trans (a := a) (b := b) hab hbc

instance : Std.LawfulEqOrd Value where
  eq_of_compare {a b} h := by
    cases a <;> cases b
    · exact congrArg Value.individual (Std.LawfulEqOrd.eq_of_compare h)
    · cases h
    · cases h
    · exact congrArg Value.concept (Std.LawfulEqOrd.eq_of_compare h)

namespace Ordered

variable {κ ν : Type} [Ord κ] [Ord ν]

instance [Std.TransOrd κ] [Std.TransOrd ν] : Std.TransCmp (compareEntries (κ := κ) (ν := ν)) :=
  inferInstanceAs (Std.TransCmp (compareLex (compareOn Prod.fst) (compareOn Prod.snd)))

instance [Std.LawfulEqOrd κ] [Std.LawfulEqOrd ν] : Std.LawfulEqCmp (compareEntries (κ := κ) (ν := ν)) where
  compare_self := Ordering.then_eq_eq.mpr ⟨Std.ReflOrd.compare_self, Std.ReflOrd.compare_self⟩
  eq_of_compare h := by
    obtain ⟨hk, hv⟩ := Ordering.then_eq_eq.mp h
    exact Prod.ext (Std.LawfulEqOrd.eq_of_compare hk) (Std.LawfulEqOrd.eq_of_compare hv)

instance [Std.TransOrd κ] [Std.TransOrd ν] : Std.TransCmp (compareTables (κ := κ) (ν := ν)) :=
  inferInstanceAs (Std.TransCmp (List.compareLex compareEntries))

instance [Std.LawfulEqOrd κ] [Std.LawfulEqOrd ν] : Std.LawfulEqCmp (compareTables (κ := κ) (ν := ν)) :=
  inferInstanceAs (Std.LawfulEqCmp (List.compareLex compareEntries))

end Ordered

end OntologyTyping
