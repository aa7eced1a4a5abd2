import OntologyTyping.Inference.Clue
import OntologyTyping.Proofs.Fresh
import OntologyTyping.Proofs.Search
import OntologyTyping.Proofs.WellFormed
import Mathlib.Data.List.Forall2

/-!
The clues of a branch are its hints with a variable for every role.

Each hint gives one clue, in order. The placeholders among the role variables are all different, and none of them
was in use.
-/

namespace OntologyTyping

/-! ### Hints -/

theorem Branch.isa_mem_hints {b : Branch} {v : VarName} {l : Label} :
    Hint.isa v l ∈ b.hints ↔ (v, .isa (.label l)) ∈ statements b := by
  simp only [Branch.hints, List.mem_flatMap]
  constructor
  · rintro ⟨⟨w, p⟩, hs, h⟩
    unfold Hint.ofStatement at h
    split at h
    · rename_i heq
      obtain ⟨rfl, rfl⟩ := Prod.mk.inj heq
      cases List.mem_singleton.mp h
      exact hs
    · simp at h
    · simp at h
  · intro hs
    exact ⟨_, hs, List.mem_singleton.mpr rfl⟩

theorem Branch.slot_mem_hints {b : Branch} {r : VarName} {filling : RolePlayer} :
    Hint.slot r filling ∈ b.hints ↔ ∃ players, (r, .relation players) ∈ statements b ∧ filling ∈ players := by
  simp only [Branch.hints, List.mem_flatMap]
  constructor
  · rintro ⟨⟨w, p⟩, hs, h⟩
    unfold Hint.ofStatement at h
    split at h
    · simp at h
    · rename_i heq
      obtain ⟨rfl, rfl⟩ := Prod.mk.inj heq
      obtain ⟨f, hf, heq⟩ := List.mem_map.mp h
      cases heq
      exact ⟨_, hs, hf⟩
    · simp at h
  · rintro ⟨players, hs, hf⟩
    exact ⟨_, hs, List.mem_map_of_mem hf⟩

@[simp] theorem Branch.hints_append {b b' : Branch} : Branch.hints (b ++ b') = b.hints ++ Branch.hints b' := by
  simp [Branch.hints]

namespace Hint

/-- The variables that a hint mentions. -/
def vars : Hint → List VarName
  | .isa v _ => [v]
  | .slot r filling => r :: filling.player :: (filling.role.bind TypeRef.var?).toList

theorem vars_subset {b : Branch} {h : Hint} (hh : h ∈ b.hints) {v : VarName} (hv : v ∈ h.vars) : v ∈ varsOf b := by
  cases h with
  | isa w l =>
    obtain rfl := List.mem_singleton.mp hv
    exact statementVars_subset (Branch.isa_mem_hints.mp hh) List.mem_cons_self
  | slot r filling =>
    obtain ⟨players, hs, hf⟩ := Branch.slot_mem_hints.mp hh
    refine statementVars_subset hs ?_
    simp only [vars, List.mem_cons] at hv
    simp only [statementVars, Property.vars, List.mem_cons, List.mem_flatMap, List.mem_append]
    rcases hv with rfl | rfl | hv
    · exact Or.inl rfl
    · exact Or.inr ⟨filling, hf, Or.inr (Or.inl rfl)⟩
    · exact Or.inr ⟨filling, hf, Or.inl hv⟩

end Hint

namespace Clue

/-- The variables that a clue mentions. -/
def vars : Clue → List VarName
  | .isa v _ => [v]
  | .slot r p a _ => [r, p, a]

/-- The placeholder that stands for the role of a slot without a role variable. -/
def placeholder? : Clue → Option VarName
  | .isa _ _ | .slot _ _ _ .var => none
  | .slot _ _ a (.label _) | .slot _ _ a .missing => some a

/-- The placeholders of a list of clues. -/
def placeholders (cs : List Clue) : List VarName :=
  cs.filterMap placeholder?

end Clue

namespace Hint

/-- The clue says what the hint says. -/
inductive Gives : Hint → Clue → Prop
  | isa (v : VarName) (l : Label) : Gives (.isa v l) (.isa v l)
  | named (r p a : VarName) : Gives (.slot r ⟨some (.var a), p⟩) (.slot r p a .var)
  | labelled (r p a : VarName) (l : Label) : Gives (.slot r ⟨some (.label l), p⟩) (.slot r p a (.label l))
  | missing (r p a : VarName) : Gives (.slot r ⟨none, p⟩) (.slot r p a .missing)

theorem Gives.vars_left {h : Hint} {c : Clue} (hg : Gives h c) {v : VarName} (hv : v ∈ h.vars) : v ∈ c.vars := by
  cases hg <;> simp [Hint.vars, Clue.vars, TypeRef.var?] at hv ⊢ <;> tauto

theorem Gives.vars_right {h : Hint} {c : Clue} (hg : Gives h c) {v : VarName} (hv : v ∈ c.vars) :
    v ∈ h.vars ∨ c.placeholder? = some v := by
  cases hg <;> simp [Hint.vars, Clue.vars, TypeRef.var?, Clue.placeholder?] at hv ⊢ <;> tauto

theorem exists_hint {hs : List Hint} {cs : List Clue} (hgives : List.Forall₂ Gives hs cs) {c : Clue} (hc : c ∈ cs) :
    ∃ h ∈ hs, Gives h c := by
  induction hgives with
  | nil => cases hc
  | cons hg _ ih =>
    rcases List.mem_cons.mp hc with rfl | hc
    · exact ⟨_, List.mem_cons_self, hg⟩
    · obtain ⟨h, hh, hg⟩ := ih hc
      exact ⟨h, List.mem_cons_of_mem _ hh, hg⟩

theorem exists_clue {hs : List Hint} {cs : List Clue} (hgives : List.Forall₂ Gives hs cs) {h : Hint} (hh : h ∈ hs) :
    ∃ c ∈ cs, Gives h c := by
  induction hgives with
  | nil => cases hh
  | cons hg _ ih =>
    rcases List.mem_cons.mp hh with rfl | hh
    · exact ⟨_, List.mem_cons_self, hg⟩
    · obtain ⟨c, hc, hg⟩ := ih hh
      exact ⟨c, List.mem_cons_of_mem _ hc, hg⟩

/-- The clues say what the hints say, through placeholders that are different and not in use. -/
structure Clued (used : List VarName) (hs : List Hint) (cs : List Clue) : Prop where
  gives : List.Forall₂ Gives hs cs
  distinct : (Clue.placeholders cs).Nodup
  fresh : ∀ v ∈ Clue.placeholders cs, v ∉ used

theorem mem_placeholders_cons {c : Clue} {cs : List Clue} {v : VarName} :
    v ∈ Clue.placeholders (c :: cs) ↔ c.placeholder? = some v ∨ v ∈ Clue.placeholders cs := by
  simp [Clue.placeholders]

theorem Clued.cons_inv {used : List VarName} {h : Hint} {rest : List Hint} {cs : List Clue}
    (hc : Clued used (h :: rest) cs) :
    ∃ c ct, cs = c :: ct ∧ Gives h c ∧ Clued used rest ct ∧
      ∀ a, c.placeholder? = some a → a ∉ used ∧ a ∉ Clue.placeholders ct := by
  obtain ⟨hgives, hdistinct, hfresh⟩ := hc
  cases hgives with
  | @cons _ c _ ct hg hrest =>
    refine ⟨c, ct, rfl, hg, ⟨hrest, ?_, fun v hv => hfresh v (mem_placeholders_cons.mpr (Or.inr hv))⟩, fun a ha => ?_⟩
    · exact hdistinct.sublist ((List.sublist_cons_self _ _).filterMap _)
    · refine ⟨hfresh a (mem_placeholders_cons.mpr (Or.inl ha)), ?_⟩
      rw [Clue.placeholders, List.filterMap_cons_some ha] at hdistinct
      exact (List.nodup_cons.mp hdistinct).1

theorem Clued.mono {used names : List VarName} {hs : List Hint} {cs : List Clue} (h : Clued used hs cs)
    (hnames : ∀ v ∈ names, v ∈ used) : Clued names hs cs :=
  ⟨h.gives, h.distinct, fun v hv hmem => h.fresh v hv (hnames v hmem)⟩

theorem Clued.isa_mem_iff {b : Branch} {used : List VarName} {cs : List Clue} (hclued : Clued used b.hints cs)
    {v : VarName} {l : Label} : Clue.isa v l ∈ cs ↔ (v, .isa (.label l)) ∈ statements b := by
  rw [← Branch.isa_mem_hints]
  constructor
  · intro hc
    obtain ⟨h, hh, hg⟩ := exists_hint hclued.gives hc
    cases hg
    exact hh
  · intro hh
    obtain ⟨c, hc, hg⟩ := exists_clue hclued.gives hh
    cases hg
    exact hc

theorem Clued.append_inv {used : List VarName} {hs hs' : List Hint} {cs : List Clue}
    (h : Clued used (hs ++ hs') cs) :
    ∃ cs₁ cs₂, cs = cs₁ ++ cs₂ ∧ Clued used hs cs₁ ∧ List.Forall₂ Gives hs' cs₂ := by
  have hsub : (Clue.placeholders (cs.take hs.length)).Sublist (Clue.placeholders cs) :=
    (List.take_sublist _ _).filterMap _
  refine ⟨cs.take hs.length, cs.drop hs.length, (List.take_append_drop _ _).symm, ⟨?_, ?_, ?_⟩, ?_⟩
  · exact (List.forall₂_take_append _ _ _ h.gives.flip).flip
  · exact h.distinct.sublist hsub
  · exact fun v hv => h.fresh v (hsub.subset hv)
  · exact (List.forall₂_drop_append _ _ _ h.gives.flip).flip

/-- One step: a hint gives a clue, and the supply loses the placeholder of the clue and nothing else. -/
theorem clue_eq_ok {policy : MissingRoles} {s s' : Supply} {h : Hint} {c : Clue}
    (hc : h.clue policy s = .ok (c, s')) :
    Gives h c ∧ (∀ v, c.placeholder? = some v → v ∉ s.used) ∧
      ∀ v, v ∈ s'.used ↔ c.placeholder? = some v ∨ v ∈ s.used := by
  unfold clue at hc
  split at hc
  · cases hc
    exact ⟨.isa _ _, by simp [Clue.placeholder?], by simp [Clue.placeholder?]⟩
  · cases hc
    exact ⟨.named _ _ _, by simp [Clue.placeholder?], by simp [Clue.placeholder?]⟩
  · cases hc
    refine ⟨.labelled _ _ _ _, fun v hv => ?_, fun v => ?_⟩
    · cases hv
      exact Supply.fresh_not_used
    · simp [Clue.placeholder?, eq_comm]
  · split at hc
    · cases hc
    · cases hc
      refine ⟨.missing _ _ _, fun v hv => ?_, fun v => ?_⟩
      · cases hv
        exact Supply.fresh_not_used
      · simp [Clue.placeholder?, eq_comm]

theorem clues_cons_eq_ok {policy : MissingRoles} {s s' : Supply} {h : Hint} {rest : List Hint} {cs : List Clue} :
    clues policy s (h :: rest) = .ok (cs, s') ↔
      ∃ c s₁ ct, h.clue policy s = .ok (c, s₁) ∧ clues policy s₁ rest = .ok (ct, s') ∧ cs = c :: ct := by
  rw [clues]
  constructor
  · intro h
    obtain ⟨⟨c, s₁⟩, hc, h⟩ := bind_eq_ok.mp h
    obtain ⟨⟨ct, s₂⟩, hct, h⟩ := bind_eq_ok.mp h
    cases h
    exact ⟨c, s₁, ct, hc, hct, rfl⟩
  · rintro ⟨c, s₁, ct, hc, hct, rfl⟩
    exact bind_eq_ok.mpr ⟨(c, s₁), hc, bind_eq_ok.mpr ⟨(ct, s'), hct, rfl⟩⟩

theorem clues_eq_ok {policy : MissingRoles} {s s' : Supply} {hs : List Hint} {cs : List Clue}
    (h : clues policy s hs = .ok (cs, s')) :
    Clued s.used hs cs ∧ ∀ v, v ∈ s'.used ↔ v ∈ Clue.placeholders cs ∨ v ∈ s.used := by
  induction hs generalizing s cs with
  | nil =>
    cases h
    exact ⟨⟨.nil, List.nodup_nil, by simp [Clue.placeholders]⟩, by simp [Clue.placeholders]⟩
  | cons hint rest ih =>
    obtain ⟨c, s₁, ct, hc, hct, rfl⟩ := clues_cons_eq_ok.mp h
    obtain ⟨hg, hfresh, hused⟩ := clue_eq_ok hc
    obtain ⟨⟨hgives, hdistinct, hfresh'⟩, hused'⟩ := ih hct
    refine ⟨⟨.cons hg hgives, ?_, fun v hv => ?_⟩, fun v => ?_⟩
    · unfold Clue.placeholders
      cases hp : c.placeholder? with
      | none =>
        rw [List.filterMap_cons_none hp]
        exact hdistinct
      | some a =>
        rw [List.filterMap_cons_some hp, List.nodup_cons]
        exact ⟨fun ha => hfresh' a ha ((hused a).mpr (Or.inl hp)), hdistinct⟩
    · rcases mem_placeholders_cons.mp hv with hp | hv
      · exact hfresh v hp
      · exact fun hmem => hfresh' v hv ((hused v).mpr (Or.inr hmem))
    · rw [hused', hused, mem_placeholders_cons]
      tauto

/-- Whether there are clues depends on the policy and the hints only. -/
theorem clues_isOk_iff {policy : MissingRoles} {s : Supply} {hs : List Hint} :
    (∃ r, clues policy s hs = .ok r) ↔ policy = .synthesize ∨ ∀ r p, Hint.slot r ⟨none, p⟩ ∉ hs := by
  induction hs generalizing s with
  | nil => simp [clues]
  | cons hint rest ih =>
    have hcons : (∃ r, clues policy s (hint :: rest) = .ok r) ↔ ∃ c, hint.clue policy s = .ok c ∧
        ∃ r, clues policy c.2 rest = .ok r := by
      constructor
      · rintro ⟨⟨cs, s'⟩, h⟩
        obtain ⟨c, s₁, ct, hc, hct, -⟩ := clues_cons_eq_ok.mp h
        exact ⟨(c, s₁), hc, (ct, s'), hct⟩
      · rintro ⟨⟨c, s₁⟩, hc, ⟨ct, s'⟩, hct⟩
        exact ⟨(c :: ct, s'), clues_cons_eq_ok.mpr ⟨c, s₁, ct, hc, hct, rfl⟩⟩
    rw [hcons]
    simp only [ih]
    rcases hint with ⟨v, l⟩ | ⟨r, ⟨_ | ⟨l | a⟩, p⟩⟩
    · simp [clue]
    · cases policy with
      | reject =>
        refine iff_of_false (by simp [clue]) ?_
        rintro (h | h)
        · cases h
        · exact h r p List.mem_cons_self
      | synthesize => simp [clue]
    · simp [clue]
    · simp [clue]

end Hint

/-! ### What a branch says of its variables -/

/-- The role variables of the slots of a relation, slot by slot. -/
def Property.roleVars : Property → List VarName
  | .relation players => players.filterMap fun p => p.role.bind TypeRef.var?
  | _ => []

/-- The role variables of a branch, each as often as it fills a slot. -/
def Branch.roleVars (b : Branch) : List VarName :=
  (statements b).flatMap fun s => s.2.roleVars

/-- The variables that a property of `subject` makes instances: the subject of a literal type, and a relation that
has slots together with its players. -/
def Property.instanceVars (subject : VarName) : Property → List VarName
  | .isa (.label _) => [subject]
  | .relation (p :: rest) => subject :: (p :: rest).map RolePlayer.player
  | _ => []

def Branch.instanceVars (b : Branch) : List VarName :=
  (statements b).flatMap fun s => s.2.instanceVars s.1

/-- The role variable of the slot. -/
def Hint.roleVar? : Hint → Option VarName
  | .isa _ _ => none
  | .slot _ filling => filling.role.bind TypeRef.var?

/-- The variables that a hint makes instances. -/
def Hint.instanceVars : Hint → List VarName
  | .isa v _ => [v]
  | .slot r filling => [r, filling.player]

/-- The variable that stands for the role of the slot. -/
def Clue.role? : Clue → Option VarName
  | .isa _ _ => none
  | .slot _ _ a _ => some a

theorem Branch.roleVars_eq_hints {b : Branch} : b.roleVars = b.hints.filterMap Hint.roleVar? := by
  have hprop : ∀ s : Statement, s.2.roleVars = (Hint.ofStatement s).filterMap Hint.roleVar? := by
    rintro ⟨v, p⟩
    unfold Hint.ofStatement
    split
    · simp_all [Property.roleVars, Hint.roleVar?]
    · rename_i players heq
      obtain ⟨rfl, rfl⟩ := Prod.mk.inj heq
      simp only [Property.roleVars, List.filterMap_map]
      rfl
    · rename_i hisa hrel
      cases p with
      | relation players => exact absurd rfl (hrel v players)
      | _ => rfl
  simp only [roleVars, hints, hprop, List.filterMap_flatMap]

theorem Branch.mem_roleVars_iff {b : Branch} {a : VarName} :
    a ∈ b.roleVars ↔ ∃ r p, Hint.slot r ⟨some (.var a), p⟩ ∈ b.hints := by
  rw [roleVars_eq_hints, List.mem_filterMap]
  constructor
  · rintro ⟨⟨v, l⟩ | ⟨r, ⟨_ | ⟨l | a'⟩, p⟩⟩, hh, ha⟩ <;> simp [Hint.roleVar?, TypeRef.var?] at ha
    subst ha
    exact ⟨r, p, hh⟩
  · rintro ⟨r, p, hh⟩
    exact ⟨_, hh, rfl⟩

theorem Branch.mem_instanceVars_iff {b : Branch} {v : VarName} :
    v ∈ b.instanceVars ↔ ∃ h ∈ b.hints, v ∈ h.instanceVars := by
  have hprop : ∀ s : Statement, v ∈ s.2.instanceVars s.1 ↔ ∃ h ∈ Hint.ofStatement s, v ∈ h.instanceVars := by
    rintro ⟨w, p⟩
    unfold Hint.ofStatement
    split
    · rename_i heq
      obtain ⟨rfl, rfl⟩ := Prod.mk.inj heq
      simp [Property.instanceVars, Hint.instanceVars]
    · rename_i players heq
      obtain ⟨rfl, rfl⟩ := Prod.mk.inj heq
      cases players with
      | nil => simp [Property.instanceVars]
      | cons p rest =>
        simp only [Property.instanceVars, List.mem_cons, List.mem_map, List.map_cons, Hint.instanceVars]
        grind
    · rename_i hisa hrel
      cases p with
      | relation players => exact absurd rfl (hrel w players)
      | isa t =>
        cases t with
        | label l => exact absurd rfl (hisa w l)
        | var u => simp [Property.instanceVars]
      | _ => simp [Property.instanceVars]
  simp only [instanceVars, hints, List.mem_flatMap, hprop]
  grind

end OntologyTyping
