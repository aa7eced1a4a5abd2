import OntologyTyping.Graph.Match
import Mathlib.Data.Fin.Tuple.Basic

/-!
Filling the slots of a relation is matching slots with castings.

The search marks a casting while it fills the slots that are left, and takes the mark away again, whatever came of
them. So every try finds the marks that the first one found, no choice is final, and the slots can be filled exactly
when distinct castings without a mark fit them.
-/

namespace OntologyTyping.Graph

variable {g : Graph} {b : Answer} {castings : List Casting} {slots : List RolePlayer} {used : List Bool}

theorem fits_eq_true_iff {s : Answer} {slot : RolePlayer} {c : Casting} :
    g.fits s slot c = true ↔
      s.lookup slot.player = some (.individual c.player) ∧
        ∀ t, slot.role = some t → ∃ l, conceptUnder s t = some l ∧ g.ontology.isSubtype c.role l = true := by
  unfold fits
  rw [Bool.and_eq_true, beq_iff_eq]
  refine and_congr_right fun _ => ?_
  split
  · rename_i hrole
    simp [hrole]
  · rename_i t hrole
    simp [hrole, Option.any_eq_true]

/-! ### Marks -/

theorem anyM_eq_any {σ α : Type} {test : α → StateM σ Bool} {p : α → Bool} {xs : List α} {st : σ}
    (h : ∀ x ∈ xs, test x st = (p x, st)) : xs.anyM test st = (xs.any p, st) := by
  induction xs with
  | nil => rfl
  | cons x rest ih =>
    have hrest : rest.anyM test st = (rest.any p, st) := ih fun y hy => h y (List.mem_cons_of_mem _ hy)
    simp only [List.anyM_cons, bind, StateT.bind, h x List.mem_cons_self, List.any_cons]
    cases p x with
    | true => rfl
    | false => exact hrest

theorem getD_eq_false_iff {i : Nat} : used.getD i true = false ↔ used[i]? = some false := by
  rw [List.getD_eq_getElem?_getD]
  cases used[i]? <;> simp

theorem set_set_of_unmarked {i : Nat} (h : used[i]? = some false) : (used.set i true).set i false = used := by
  obtain ⟨hlt, hget⟩ := List.getElem?_eq_some_iff.mp h
  rw [List.set_set, ← hget, List.set_getElem_self]

/-- A casting with its index serves for a slot: it is unmarked and fits, and the other slots can be filled without
it. -/
def serves (g : Graph) (b : Answer) (castings : List Casting) (slot : RolePlayer) (rest : List RolePlayer)
    (used : List Bool) (e : Casting × Nat) : Bool :=
  !used.getD e.2 true && g.fits b slot e.1 && (g.fill b castings rest (used.set e.2 true)).1

/-- One slot: where the other slots leave the marks alone, so does each try, and the slots are filled when a casting
serves. -/
theorem fill_cons {slot : RolePlayer} {rest : List RolePlayer}
    (hrest : ∀ marks, (g.fill b castings rest marks).2 = marks) :
    g.fill b castings (slot :: rest) used = (castings.zipIdx.any (g.serves b castings slot rest used), used) := by
  refine anyM_eq_any fun e _ => ?_
  change (if (used.getD e.2 true || !g.fits b slot e.1) = true then _ else _ : StateM (List Bool) Bool) used = _
  cases hmark : used.getD e.2 true with
  | true =>
    simp only [serves, hmark]
    rfl
  | false =>
    cases hfits : g.fits b slot e.1 with
    | false =>
      simp only [serves, hmark, hfits]
      rfl
    | true =>
      change ((g.fill b castings rest (used.set e.2 true)).1,
        (g.fill b castings rest (used.set e.2 true)).2.set e.2 false) = _
      rw [hrest, set_set_of_unmarked (getD_eq_false_iff.mp hmark)]
      simp only [serves, hmark, hfits]
      rfl

theorem fill_marks : (g.fill b castings slots used).2 = used := by
  induction slots generalizing used with
  | nil => rfl
  | cons slot rest ih => rw [fill_cons fun _ => ih]

/-! ### Fillings -/

/-- Distinct castings without a mark, one for each slot: of the instance that the slot's player stands for, and in
the role that the slot names or one below it, if it names one. -/
structure Filling (g : Graph) (b : Answer) (castings : List Casting) (slots : List RolePlayer) (used : List Bool)
    (place : Fin slots.length → Fin castings.length) : Prop where
  distinct : Function.Injective place
  unmarked : ∀ k, used[(place k).val]? = some false
  player : ∀ k, b.lookup (slots.get k).player = some (.individual (castings.get (place k)).player)
  role : ∀ k t, (slots.get k).role = some t →
    ∃ l, conceptUnder b t = some l ∧ g.ontology.isSubtype (castings.get (place k)).role l = true

theorem Filling.fits {place : Fin slots.length → Fin castings.length} (h : g.Filling b castings slots used place)
    (k : Fin slots.length) : g.fits b (slots.get k) (castings.get (place k)) = true :=
  fits_eq_true_iff.mpr ⟨h.player k, h.role k⟩

theorem Filling.tail {slot : RolePlayer} {rest : List RolePlayer}
    {place : Fin (rest.length + 1) → Fin castings.length} (h : g.Filling b castings (slot :: rest) used place) :
    g.Filling b castings rest (used.set (place 0) true) (place ∘ Fin.succ) where
  distinct := h.distinct.comp (Fin.succ_injective _)
  unmarked k := by
    have hne : (place 0).val ≠ (place k.succ).val := fun heq => Fin.succ_ne_zero k (h.distinct (Fin.ext heq)).symm
    rw [Function.comp_apply, List.getElem?_set_ne hne]
    exact h.unmarked k.succ
  player k := h.player k.succ
  role k := h.role k.succ

theorem Filling.cons {slot : RolePlayer} {rest : List RolePlayer} {i : Fin castings.length}
    {place : Fin rest.length → Fin castings.length} (hfree : used[i.val]? = some false)
    (hfits : g.fits b slot (castings.get i) = true) (h : g.Filling b castings rest (used.set i true) place) :
    g.Filling b castings (slot :: rest) used (Fin.cons i place) := by
  have hne : ∀ k, i.val ≠ (place k).val := by
    intro k heq
    have hmark := h.unmarked k
    rw [← heq, List.getElem?_set_self (List.getElem?_eq_some_iff.mp hfree).1] at hmark
    cases hmark
  obtain ⟨hplayer, hrole⟩ := fits_eq_true_iff.mp hfits
  refine ⟨Fin.cons_injective_iff.mpr ⟨?_, h.distinct⟩, Fin.cases hfree fun k => ?_, Fin.cases hplayer h.player,
    Fin.cases hrole h.role⟩
  · rintro ⟨k, hk⟩
    exact hne k (congrArg Fin.val hk.symm)
  · have hmark := h.unmarked k
    rwa [List.getElem?_set_ne (hne k)] at hmark

theorem fill_eq_true_iff :
    (g.fill b castings slots used).1 = true ↔ ∃ place, g.Filling b castings slots used place := by
  induction slots generalizing used with
  | nil =>
    refine iff_of_true rfl ⟨Fin.elim0, ?_, ?_, ?_, ?_⟩
    all_goals exact fun k => k.elim0
  | cons slot rest ih =>
    rw [fill_cons fun _ => fill_marks, List.any_eq_true]
    constructor
    · rintro ⟨⟨c, i⟩, he, hserves⟩
      have hget : castings[i]? = some c := List.mem_zipIdx_iff_getElem?.mp he
      obtain ⟨hi, rfl⟩ := List.getElem?_eq_some_iff.mp hget
      simp only [serves, Bool.and_eq_true, Bool.not_eq_true'] at hserves
      obtain ⟨⟨hmark, hfits⟩, hrest⟩ := hserves
      obtain ⟨place, h⟩ := ih.mp hrest
      exact ⟨Fin.cons ⟨i, hi⟩ place, .cons (getD_eq_false_iff.mp hmark) hfits h⟩
    · -- The place that a filling gives the first slot serves: every try before it gave the marks back.
      rintro ⟨place, h⟩
      have hmark : used.getD (place 0).val true = false := getD_eq_false_iff.mpr (h.unmarked 0)
      have hfits : g.fits b slot (castings.get (place 0)) = true := h.fits 0
      have hrest : (g.fill b castings rest (used.set (place 0) true)).1 = true := ih.mpr ⟨_, h.tail⟩
      refine ⟨(castings.get (place 0), (place 0).val), ?_, ?_⟩
      · exact List.mem_zipIdx_iff_getElem?.mpr (List.getElem?_eq_getElem (place 0).isLt)
      · simp only [serves, hmark, hfits, hrest, Bool.not_false, Bool.and_self]

/-- The slots can be filled exactly when they have a filling, and filled or not, the marks are as they were. -/
theorem fill_iff_filling (g : Graph) (b : Answer) (castings : List Casting) (slots : List RolePlayer)
    (used : List Bool) :
    ((g.fill b castings slots used).1 = true ↔ ∃ place, g.Filling b castings slots used place) ∧
      (g.fill b castings slots used).2 = used :=
  ⟨fill_eq_true_iff, fill_marks⟩

/-- Of two castings of one player both fit the first slot and only one the second, so the first choice has to be
given up. -/
example :
    [[false, false], [false, true], [true, false]].map (fun used =>
      (fill ⟨⟨none, [⟨⟨"lead"⟩, .role, some ⟨"maker"⟩, [], []⟩, ⟨⟨"maker"⟩, .role, none, [], []⟩]⟩, []⟩
        [(⟨"x"⟩, .individual "ann")] [⟨⟨"lead"⟩, "ann"⟩, ⟨⟨"maker"⟩, "ann"⟩]
        [⟨some (.label ⟨"maker"⟩), ⟨"x"⟩⟩, ⟨some (.label ⟨"lead"⟩), ⟨"x"⟩⟩] used).1) = [true, false, false] := by
  decide +kernel

end OntologyTyping.Graph
