import OntologyTyping.Supply
import Mathlib.Data.List.Nodup
import Mathlib.Data.List.Perm.Subperm
import Mathlib.Order.Bounds.Basic

/-!
A supply hands out a name that is not in use.

Different numbers give different names, whatever the stem is, so among one more number than there are names in use
one is free. The first such number is taken, so the names that are handed out depend on which names are in use, and
not on their order.
-/

namespace OntologyTyping.Supply

variable {s : Supply}

theorem toList_ne_dollar_cons {n : Nat} {rest : List Char} : (toString n).toList ≠ '$' :: rest := by
  intro h
  have hmem : '$' ∈ Nat.toDigits 10 n := by
    rw [← Nat.toList_repr, ← Nat.toString_eq_repr, h]
    exact List.mem_cons_self
  have := Nat.isDigit_of_mem_toDigits (by decide) (by decide) hmem
  simp at this

/-- A leading dollar sign of a name belongs to the stem. -/
theorem ofText_append {stem : String} {n : Nat} :
    (VarName.ofText (stem ++ toString n)).text = (VarName.ofText stem).text ++ toString n := by
  unfold VarName.ofText
  rw [String.toList_append]
  cases hstem : stem.toList with
  | nil =>
    obtain rfl : stem = "" := by simpa using hstem
    split
    · rename_i rest h
      exact absurd h toList_ne_dollar_cons
    · rfl
  | cons c rest =>
    by_cases hc : c = '$'
    · subst hc
      simp [Nat.repr_eq_ofList_toDigits]
    · split
      · rename_i rest' h
        exact absurd (List.cons.inj h).1 hc
      · split
        · rename_i rest' h
          exact absurd (List.cons.inj h).1 hc
        · rfl

theorem candidate_inj {m n : Nat} (h : s.candidate m = s.candidate n) : m = n := by
  have htext := congrArg VarName.text h
  rw [candidate, candidate, ofText_append, ofText_append, String.append_right_inj] at htext
  have hdigits : Nat.toDigits 10 m = Nat.toDigits 10 n := by
    rw [← Nat.toList_repr, ← Nat.toList_repr]
    exact congrArg String.toList htext
  simpa using congrArg (fun ds => Nat.ofDigitChars 10 ds 0) hdigits

theorem firstFree_used {tries n : Nat} (h : s.candidate (s.firstFree tries n) ∈ s.used) :
    ∀ i ≤ tries, s.candidate (n + i) ∈ s.used := by
  induction tries generalizing n with
  | zero =>
    intro i hi
    obtain rfl : i = 0 := by omega
    simpa [firstFree] using h
  | succ tries ih =>
    unfold firstFree at h
    split at h
    · rename_i hused
      intro i hi
      cases i with
      | zero => simpa using hused
      | succ i =>
        have := ih h i (by omega)
        rwa [show n + (i + 1) = n + 1 + i by omega]
    · rename_i hfree
      exact absurd (by simpa using h) hfree

theorem fresh_not_used : s.fresh.1 ∉ s.used := by
  intro h
  have hall := firstFree_used h
  have hnodup : ((List.range (s.used.length + 1)).map fun i => s.candidate (s.next + i)).Nodup := by
    refine List.Nodup.map_on (fun i _ j _ hij => ?_) List.nodup_range
    have := candidate_inj hij
    omega
  have hsub : ((List.range (s.used.length + 1)).map fun i => s.candidate (s.next + i)) ⊆ s.used := by
    intro v hv
    obtain ⟨i, hi, rfl⟩ := List.mem_map.mp hv
    exact hall i (by simpa [Nat.lt_succ_iff] using hi)
  have hlen := (hnodup.subperm hsub).length_le
  simp only [List.length_map, List.length_range] at hlen
  omega

@[simp] theorem fresh_used : s.fresh.2.used = s.fresh.1 :: s.used := rfl

@[simp] theorem mem_forAtoms_used {stem : String} {atoms : List Atom} {v : VarName} :
    v ∈ (forAtoms stem atoms).used ↔ v ∈ varsOf atoms := by
  simp [forAtoms, reserve, ofStem]

/-! ### The least number -/

theorem firstFree_least {tries n : Nat} :
    n ≤ s.firstFree tries n ∧ ∀ m, n ≤ m → m < s.firstFree tries n → s.candidate m ∈ s.used := by
  induction tries generalizing n with
  | zero => exact ⟨Nat.le_refl n, fun m hle hlt => absurd hlt (Nat.not_lt.mpr hle)⟩
  | succ tries ih =>
    unfold firstFree
    split
    · rename_i hused
      obtain ⟨hle, hall⟩ := ih (n := n + 1)
      refine ⟨Nat.le_of_succ_le hle, fun m hm hlt => ?_⟩
      rcases Nat.eq_or_lt_of_le hm with rfl | hm
      · simpa using hused
      · exact hall m hm hlt
    · exact ⟨Nat.le_refl n, fun m hle hlt => absurd hlt (Nat.not_lt.mpr hle)⟩

theorem isLeast_firstFree :
    IsLeast {m | s.next ≤ m ∧ s.candidate m ∉ s.used} (s.firstFree s.used.length s.next) := by
  refine ⟨⟨firstFree_least.1, fresh_not_used⟩, fun m hm => ?_⟩
  by_contra hlt
  exact hm.2 (firstFree_least.2 m hm.1 (Nat.not_le.mp hlt))

/-! ### Supplies that hand out the same names -/

/-- The same stem and number, and the same names in use. -/
structure Same (s s' : Supply) : Prop where
  stem : s'.stem = s.stem
  next : s'.next = s.next
  used : ∀ v, v ∈ s'.used ↔ v ∈ s.used

theorem Same.candidate {s' : Supply} (h : s.Same s') (n : Nat) : s'.candidate n = s.candidate n := by
  rw [Supply.candidate, Supply.candidate, h.stem]

theorem Same.fresh {s' : Supply} (h : s.Same s') : s'.fresh.1 = s.fresh.1 ∧ s.fresh.2.Same s'.fresh.2 := by
  have hnumber : s'.firstFree s'.used.length s'.next = s.firstFree s.used.length s.next := by
    have hleast := isLeast_firstFree (s := s')
    simp only [h.next, h.candidate, h.used] at hleast
    rw [h.next]
    exact hleast.unique isLeast_firstFree
  have hname : s'.fresh.1 = s.fresh.1 := by
    simp only [Supply.fresh, hnumber, h.candidate]
  refine ⟨hname, h.stem, congrArg (· + 1) hnumber, fun v => ?_⟩
  rw [fresh_used, fresh_used, hname, List.mem_cons, List.mem_cons, h.used]

theorem Same.freshMany {s' : Supply} (h : s.Same s') (n : Nat) : (s.freshMany n).2.Same (s'.freshMany n).2 := by
  induction n generalizing s s' with
  | zero => exact h
  | succ n ih => exact ih h.fresh.2

theorem same_forAtoms {stem : String} {atoms atoms' : List Atom} (h : ∀ v, v ∈ varsOf atoms' ↔ v ∈ varsOf atoms) :
    (forAtoms stem atoms).Same (forAtoms stem atoms') :=
  ⟨rfl, rfl, fun v => by rw [mem_forAtoms_used, mem_forAtoms_used, h]⟩

end OntologyTyping.Supply
