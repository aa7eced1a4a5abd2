import OntologyTyping.Ordered
import Mathlib.Data.List.Nodup
import Mathlib.Data.List.Perm.Basic

/-!
Tables are determined by their look-ups.

A list of entries is a table when its keys increase. Two tables with the same look-ups are the same list. Every way
to build a table keeps it one, and what is looked up in it is what was last written under the key. Entries with one
value under each key make a table of these entries. Sorting a list without repetitions keeps its elements.
-/

namespace OntologyTyping.Ordered

variable {α κ ν : Type}

/-! ### Sets -/

section Sets
variable [Ord α] [Std.LawfulEqOrd α]

@[simp] theorem mem_insert {a x : α} {s : List α} : x ∈ insert a s ↔ x = a ∨ x ∈ s := by
  induction s with
  | nil => simp [insert]
  | cons b rest ih =>
    unfold insert
    cases h : compare a b with
    | lt => simp
    | eq =>
      obtain rfl := Std.LawfulEqOrd.eq_of_compare h
      simp
    | gt =>
      simp only [List.mem_cons, ih]
      tauto

@[simp] theorem mem_union {s t : List α} {x : α} : x ∈ union s t ↔ x ∈ s ∨ x ∈ t := by
  unfold union
  induction t generalizing s with
  | nil => simp
  | cons a rest ih =>
    rw [List.foldl_cons, ih, mem_insert, List.mem_cons]
    tauto

end Sets

/-- Lists in increasing order with the same elements are the same. -/
theorem eq_of_pairwise {r : α → α → Prop} (hr : ∀ a b, r a b → ¬r b a) {s t : List α} (hs : s.Pairwise r)
    (ht : t.Pairwise r) (h : ∀ a, a ∈ s ↔ a ∈ t) : s = t := by
  have hne : ∀ {a b : α}, r a b → a ≠ b := by
    rintro a _ hab rfl
    exact hr a a hab hab
  have hperm : s.Perm t := (List.perm_ext_iff_of_nodup (hs.imp hne) (ht.imp hne)).mpr h
  exact hperm.eq_of_pairwise (fun a b _ _ hab hba => absurd hba (hr a b hab)) hs ht

/-! ### Look-ups -/

theorem lookup_cons_ite [BEq κ] [LawfulBEq κ] [DecidableEq κ] {k : κ} {e : κ × ν} {t : List (κ × ν)} :
    (e :: t).lookup k = if k = e.1 then some e.2 else t.lookup k := by
  by_cases h : k = e.1
  · obtain ⟨k', v⟩ := e
    obtain rfl := h
    simp
  · have hne : (k == e.1) = false := by simpa using h
    rw [List.lookup_cons, hne, if_neg h]

/-- A key of the list has the value that the function gives it. -/
theorem lookup_map_pair [BEq κ] [LawfulBEq κ] [DecidableEq κ] {keys : List κ} {f : κ → ν} {k : κ} :
    (keys.map fun k => (k, f k)).lookup k = if k ∈ keys then some (f k) else none := by
  induction keys with
  | nil => simp
  | cons a rest ih =>
    rw [List.map_cons, lookup_cons_ite, ih]
    by_cases h : k = a
    · simp [h]
    · simp [h]

theorem lookup_filter [BEq κ] [LawfulBEq κ] [DecidableEq κ] (keep : κ → Bool) {t : List (κ × ν)} {k : κ} :
    (t.filter fun e => keep e.1).lookup k = if keep k then t.lookup k else none := by
  induction t with
  | nil => simp
  | cons e rest ih =>
    rw [List.filter_cons]
    by_cases hk : k = e.1
    · subst hk
      cases he : keep e.1 with
      | true => simp [lookup_cons_ite]
      | false => simpa [he] using ih
    · split <;> simp [lookup_cons_ite, hk, ih]

/-! ### Tables -/

/-- The keys increase. -/
def IsTable [Ord κ] (t : List (κ × ν)) : Prop :=
  t.Pairwise fun a b => compare a.1 b.1 = .lt

section Tables
variable [Ord κ]

theorem isTable_nil : IsTable ([] : List (κ × ν)) :=
  List.Pairwise.nil

theorem IsTable.filter {p : κ × ν → Bool} {t : List (κ × ν)} (ht : IsTable t) : IsTable (t.filter p) :=
  List.Pairwise.filter p ht

theorem IsTable.flatMap {μ : Type} {t : List (κ × ν)} (ht : IsTable t) {f : κ × ν → List (κ × μ)}
    (hone : ∀ e ∈ t, (f e).length ≤ 1) (hkey : ∀ e ∈ t, ∀ d ∈ f e, d.1 = e.1) : IsTable (t.flatMap f) := by
  refine List.pairwise_flatMap.mpr ⟨fun e he => ?_, ?_⟩
  · rcases hfe : f e with _ | ⟨d, _ | ⟨d', rest⟩⟩
    · exact .nil
    · exact List.pairwise_singleton _ _
    · have hle := hone e he
      simp [hfe] at hle
  · refine ht.imp_of_mem fun {e e'} he he' hlt d hd d' hd' => ?_
    rw [hkey e he d hd, hkey e' he' d' hd']
    exact hlt

theorem fst_of_mem_put {k : κ} {v : ν} {t : List (κ × ν)} {e : κ × ν} (he : e ∈ put k v t) :
    e.1 = k ∨ e ∈ t := by
  induction t with
  | nil =>
    rw [put, List.mem_singleton] at he
    exact Or.inl (congrArg Prod.fst he)
  | cons d rest ih =>
    unfold put at he
    split at he
    · rcases List.mem_cons.mp he with rfl | he
      · exact Or.inl rfl
      · exact Or.inr he
    · rcases List.mem_cons.mp he with rfl | he
      · exact Or.inl rfl
      · exact Or.inr (List.mem_cons_of_mem _ he)
    · rcases List.mem_cons.mp he with rfl | he
      · exact Or.inr List.mem_cons_self
      · exact (ih he).imp_right (List.mem_cons_of_mem _)

variable [Std.LawfulEqOrd κ]

theorem IsTable.nodup_keys {t : List (κ × ν)} (ht : IsTable t) : (t.map Prod.fst).Nodup := by
  refine List.pairwise_map.mpr (ht.imp fun {a b} hlt heq => ?_)
  rw [heq, Std.ReflOrd.compare_self] at hlt
  cases hlt

section Lookup
variable [BEq κ] [LawfulBEq κ] [DecidableEq κ]

theorem lookup_put {k k' : κ} {v : ν} {t : List (κ × ν)} :
    (put k v t).lookup k' = if k' = k then some v else t.lookup k' := by
  induction t with
  | nil => rw [put, lookup_cons_ite]
  | cons e rest ih =>
    unfold put
    cases h : compare k e.1 with
    | lt => exact lookup_cons_ite
    | eq =>
      have hk : k = e.1 := Std.LawfulEqOrd.eq_of_compare h
      rw [lookup_cons_ite, lookup_cons_ite, hk]
      by_cases hk' : k' = e.1 <;> simp [hk']
    | gt =>
      have hk : k ≠ e.1 := by
        rintro rfl
        rw [Std.ReflOrd.compare_self] at h
        cases h
      rw [lookup_cons_ite, lookup_cons_ite, ih]
      by_cases hk' : k' = e.1
      · rw [if_pos hk', if_pos hk', if_neg (fun h' => hk (h'.symm.trans hk'))]
      · rw [if_neg hk', if_neg hk']

/-- Of two entries under one key the later stays. -/
theorem lookup_foldl_put {entries t : List (κ × ν)} {k : κ} :
    (entries.foldl (fun table e => put e.1 e.2 table) t).lookup k = (entries.reverse ++ t).lookup k := by
  induction entries generalizing t with
  | nil => rfl
  | cons e rest ih =>
    rw [List.foldl_cons, ih, List.reverse_cons, List.append_assoc, List.lookup_append, List.lookup_append,
      List.singleton_append, lookup_put, lookup_cons_ite]

theorem lookup_tableOf {entries : List (κ × ν)} {k : κ} : (tableOf entries).lookup k = entries.reverse.lookup k := by
  rw [tableOf, lookup_foldl_put, List.append_nil]

/-- In a table every entry is found under its key. -/
theorem IsTable.mem_iff {t : List (κ × ν)} (ht : IsTable t) {k : κ} {v : ν} : (k, v) ∈ t ↔ t.lookup k = some v := by
  induction t with
  | nil => simp
  | cons e rest ih =>
    have he := List.pairwise_cons.mp ht
    rw [lookup_cons_ite, List.mem_cons]
    by_cases h : k = e.1
    · rw [if_pos h]
      constructor
      · rintro (rfl | hmem)
        · rfl
        · have hlt := he.1 _ hmem
          rw [← h, Std.ReflOrd.compare_self] at hlt
          cases hlt
      · intro hv
        exact Or.inl (Prod.ext h (Option.some.inj hv).symm)
    · rw [if_neg h, ← ih he.2]
      constructor
      · rintro (rfl | hmem)
        · exact absurd rfl h
        · exact hmem
      · exact Or.inr

end Lookup

variable [Std.TransOrd κ]

theorem IsTable.put {k : κ} {v : ν} {t : List (κ × ν)} (ht : IsTable t) : IsTable (Ordered.put k v t) := by
  induction t with
  | nil => exact List.pairwise_singleton _ _
  | cons e rest ih =>
    have he := List.pairwise_cons.mp ht
    unfold Ordered.put
    cases h : compare k e.1 with
    | lt =>
      refine List.pairwise_cons.mpr ⟨fun d hd => ?_, ht⟩
      rcases List.mem_cons.mp hd with rfl | hd
      · exact h
      · exact Std.TransCmp.lt_trans h (he.1 d hd)
    | eq =>
      have hk : k = e.1 := Std.LawfulEqOrd.eq_of_compare h
      exact List.pairwise_cons.mpr ⟨fun d hd => hk ▸ he.1 d hd, he.2⟩
    | gt =>
      refine List.pairwise_cons.mpr ⟨fun d hd => ?_, ih he.2⟩
      rcases fst_of_mem_put hd with hd | hd
      · rw [hd]
        exact Std.OrientedCmp.lt_of_gt h
      · exact he.1 d hd

theorem IsTable.foldl_put {entries t : List (κ × ν)} (ht : IsTable t) :
    IsTable (entries.foldl (fun table e => Ordered.put e.1 e.2 table) t) := by
  induction entries generalizing t with
  | nil => exact ht
  | cons e rest ih => exact ih ht.put

theorem isTable_tableOf {entries : List (κ × ν)} : IsTable (tableOf entries) :=
  isTable_nil.foldl_put

/-- A table is determined by its look-ups. -/
theorem IsTable.ext [BEq κ] [LawfulBEq κ] {s t : List (κ × ν)} (hs : IsTable s) (ht : IsTable t)
    (h : ∀ k, s.lookup k = t.lookup k) : s = t := by
  classical
  refine eq_of_pairwise (fun _ _ => Std.OrientedCmp.not_lt_of_lt) hs ht fun e => ?_
  rw [hs.mem_iff, ht.mem_iff, h]

end Tables

/-! ### Entries that determine a table -/

section Entries
variable [BEq κ] [LawfulBEq κ]

theorem mem_of_lookup_eq_some {es : List (κ × ν)} {k : κ} {v : ν} (h : es.lookup k = some v) : (k, v) ∈ es := by
  obtain ⟨before, after, rfl, -⟩ := List.lookup_eq_some_iff.mp h
  simp

variable [DecidableEq κ] [Ord κ] [Std.LawfulEqOrd κ] [Std.TransOrd κ]

theorem mem_of_mem_tableOf {es : List (κ × ν)} {e : κ × ν} (h : e ∈ tableOf es) : e ∈ es := by
  have hlookup := isTable_tableOf.mem_iff.mp h
  rw [lookup_tableOf] at hlookup
  simpa using mem_of_lookup_eq_some hlookup

theorem exists_mem_tableOf {es : List (κ × ν)} {e : κ × ν} (h : e ∈ es) : ∃ v, (e.1, v) ∈ tableOf es := by
  have hsome : (es.reverse.lookup e.1).isSome := by
    rw [List.lookup_isSome_iff]
    exact ⟨e, by simpa using h, by simp⟩
  obtain ⟨v, hv⟩ := Option.isSome_iff_exists.mp hsome
  exact ⟨v, isTable_tableOf.mem_iff.mpr (lookup_tableOf.trans hv)⟩

theorem mem_keys_tableOf {es : List (κ × ν)} {k : κ} : k ∈ (tableOf es).map Prod.fst ↔ ∃ v, (k, v) ∈ es := by
  simp only [List.mem_map, Prod.exists, exists_and_right, exists_eq_right]
  exact ⟨fun ⟨v, hv⟩ => ⟨v, mem_of_mem_tableOf hv⟩, fun ⟨v, hv⟩ => exists_mem_tableOf hv⟩

/-- Under each key there is one value. -/
def Functional (es : List (κ × ν)) : Prop :=
  ∀ k v v', (k, v) ∈ es → (k, v') ∈ es → v = v'

theorem Functional.mem_tableOf_iff {es : List (κ × ν)} (hes : Functional es) {e : κ × ν} :
    e ∈ tableOf es ↔ e ∈ es := by
  refine ⟨mem_of_mem_tableOf, fun h => ?_⟩
  obtain ⟨v, hv⟩ := exists_mem_tableOf h
  obtain rfl : e.2 = v := hes e.1 e.2 v h (mem_of_mem_tableOf hv)
  exact hv

theorem Functional.tableOf_congr {es es' : List (κ × ν)} (hes : Functional es) (h : ∀ e, e ∈ es ↔ e ∈ es') :
    tableOf es = tableOf es' := by
  have hes' : Functional es' := fun k v v' hv hv' => hes k v v' ((h _).mpr hv) ((h _).mpr hv')
  refine isTable_tableOf.ext isTable_tableOf fun k => ?_
  cases hk : (tableOf es).lookup k with
  | some v =>
    symm
    rwa [← isTable_tableOf.mem_iff, hes'.mem_tableOf_iff, ← h, ← hes.mem_tableOf_iff, isTable_tableOf.mem_iff]
  | none =>
    cases hk' : (tableOf es').lookup k with
    | none => rfl
    | some v =>
      rw [← isTable_tableOf.mem_iff, hes'.mem_tableOf_iff, ← h, ← hes.mem_tableOf_iff, isTable_tableOf.mem_iff,
        hk] at hk'
      cases hk'

theorem Functional.tableOf_eq_singleton_iff {es : List (κ × ν)} (hes : Functional es) {e : κ × ν} :
    tableOf es = [e] ↔ ∀ d, d ∈ es ↔ d = e := by
  constructor
  · intro h d
    rw [← hes.mem_tableOf_iff, h, List.mem_singleton]
  · intro h
    exact hes.tableOf_congr fun d => (h d).trans List.mem_singleton.symm

end Entries

/-! ### Sorting -/

section Sorting
variable {cmp : α → α → Ordering} [Std.LawfulEqCmp cmp]

theorem mem_dropRepeats {l : List α} {x : α} : x ∈ dropRepeats cmp l ↔ x ∈ l := by
  induction l using dropRepeats.induct cmp with
  | case1 => simp [dropRepeats]
  | case2 a => simp [dropRepeats]
  | case3 a b rest h ih =>
    obtain rfl := Std.LawfulEqCmp.eq_of_compare h
    rw [dropRepeats, if_pos h, ih]
    simp
  | case4 a b rest h ih => simp only [dropRepeats, if_neg h, List.mem_cons, ih]

theorem mem_sortDistinct {l : List α} {x : α} : x ∈ sortDistinct cmp l ↔ x ∈ l := by
  rw [sortDistinct, mem_dropRepeats, List.mem_mergeSort]

variable [Std.TransCmp cmp]

theorem pairwise_dropRepeats {l : List α} (hl : l.Pairwise fun a b => (cmp a b).isLE) :
    (dropRepeats cmp l).Pairwise fun a b => cmp a b = .lt := by
  induction l using dropRepeats.induct cmp with
  | case1 => simp [dropRepeats]
  | case2 a => simp [dropRepeats]
  | case3 a b rest h ih =>
    rw [dropRepeats, if_pos h]
    exact ih (List.pairwise_cons.mp hl).2
  | case4 a b rest h ih =>
    obtain ⟨ha, hrest⟩ := List.pairwise_cons.mp hl
    have hab : cmp a b = .lt := by
      have hle := ha b List.mem_cons_self
      cases hc : cmp a b with
      | lt => rfl
      | eq => exact absurd hc h
      | gt => simp [hc] at hle
    rw [dropRepeats, if_neg h]
    refine List.pairwise_cons.mpr ⟨fun x hx => ?_, ih hrest⟩
    rcases List.mem_cons.mp (mem_dropRepeats.mp hx) with rfl | hx
    · exact hab
    · exact Std.TransCmp.lt_of_lt_of_isLE hab ((List.pairwise_cons.mp hrest).1 x hx)

theorem pairwise_sortDistinct {l : List α} : (sortDistinct cmp l).Pairwise fun a b => cmp a b = .lt := by
  refine pairwise_dropRepeats (List.pairwise_mergeSort (fun a b c => Std.TransCmp.isLE_trans) (fun a b => ?_) l)
  cases hc : cmp a b with
  | lt => rfl
  | eq => rfl
  | gt => simp [Std.OrientedCmp.lt_of_gt hc]

theorem nodup_sortDistinct {l : List α} : (sortDistinct cmp l).Nodup := by
  have hlt : (sortDistinct cmp l).Pairwise fun a b => cmp a b = .lt := pairwise_sortDistinct
  refine hlt.imp ?_
  rintro a _ h rfl
  simp [Std.ReflCmp.compare_self] at h

end Sorting

end OntologyTyping.Ordered
