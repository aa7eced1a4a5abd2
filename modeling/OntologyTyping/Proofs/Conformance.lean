import OntologyTyping.Inference.Basic
import OntologyTyping.Proofs.Candidates
import OntologyTyping.Proofs.Matches
import Mathlib.Data.List.Pairwise

/-!
The query of a branch over-approximates the data.

In a graph whose castings conform to its ontology, every match of a branch is lifted to a model of the query of the
branch. An instance is lifted to its type, and a role to the role of a casting that fills the slot. A role variable
that fills two slots needs one role for both, which it has when every role variable fills one slot only.
-/

namespace OntologyTyping

namespace Hint

theorem Gives.role? {h : Hint} {c : Clue} (hg : Gives h c) {a : VarName} :
    c.role? = some a ↔ h.roleVar? = some a ∨ c.placeholder? = some a := by
  cases hg <;> simp [Hint.roleVar?, Clue.role?, Clue.placeholder?, TypeRef.var?]

theorem Gives.left_unique {h h' : Hint} {c : Clue} (hg : Gives h c) (hg' : Gives h' c) : h = h' := by
  cases hg <;> cases hg' <;> rfl

/-- The role variables of clues are those of the hints and the placeholders. -/
theorem mem_roles_iff {hs : List Hint} {cs : List Clue} (hgives : List.Forall₂ Gives hs cs) {a : VarName} :
    a ∈ cs.filterMap Clue.role? ↔ a ∈ hs.filterMap roleVar? ∨ a ∈ Clue.placeholders cs := by
  induction hgives with
  | nil => simp [Clue.placeholders]
  | cons hg _ ih =>
    simp only [List.mem_filterMap, List.mem_cons, exists_eq_or_imp, mem_placeholders_cons, hg.role?] at ih ⊢
    rw [ih, or_or_or_comm]

end Hint

theorem eq_of_nodup_filterMap {α β : Type} {f : α → Option β} {xs : List α} (hnodup : (xs.filterMap f).Nodup) {x y : α}
    (hx : x ∈ xs) (hy : y ∈ xs) {b : β} (hfx : f x = some b) (hfy : f y = some b) : x = y := by
  by_contra hne
  have hpair := List.pairwise_filterMap.mp hnodup
  have : Std.Symm fun x y : α => ∀ b, f x = some b → ∀ b', f y = some b' → b ≠ b' :=
    ⟨fun x y h b hb b' hb' => (h b' hb' b hb).symm⟩
  exact hpair.forall hx hy hne b hfx b hfy rfl

/-! ### Lifting a match -/

namespace Graph

/-- Each casting has a role that the relation's type relates and the player's type plays. -/
def Conforms (g : Graph) : Prop :=
  ∀ e ∈ g.instances, ∀ c ∈ e.2.castings, ∀ player ∈ g.instance? c.player,
    g.ontology.relates e.2.type c.role = true ∧ g.ontology.plays player.type c.role = true

instance (g : Graph) : Decidable g.Conforms := by
  unfold Conforms
  infer_instance

/-- The type of the instance that an answer gives to a variable. -/
def typeOf? (g : Graph) (s : Answer) (v : VarName) : Option Label :=
  match s.lookup v with
  | some (.individual id) => (g.instance? id).map Instance.type
  | _ => none

variable {g : Graph}

theorem typeOf?_eq_some_iff {s : Answer} {v : VarName} {t : Label} :
    g.typeOf? s v = some t ↔ ∃ id i, s.lookup v = some (.individual id) ∧ g.instance? id = some i ∧ i.type = t := by
  unfold typeOf?
  split
  · rename_i id hid
    simp [hid, Option.map_eq_some_iff]
  · rename_i hnot
    refine iff_of_false (by simp) ?_
    rintro ⟨id, i, hid, -⟩
    exact hnot id hid

/-- A casting in this role fills the slot of the relation. -/
structure CastAs (g : Graph) (s : Answer) (r : VarName) (slot : RolePlayer) (role : Label) : Prop where
  relation : ∃ t, g.typeOf? s r = some t ∧ g.ontology.relates t role = true
  player : ∃ t, g.typeOf? s slot.player = some t ∧ g.ontology.plays t role = true
  below : ∀ t, slot.role = some t → ∃ l, conceptUnder s t = some l ∧ g.ontology.isSubtype role l = true

theorem Matches.type_isa {b : Branch} {F : VarName → Value} (hF : g.Matches b F) {v : VarName} {l : Label}
    (hh : Hint.isa v l ∈ b.hints) :
    ∃ t, g.typeOf? (tabulate (varsOf b) F) v = some t ∧ g.ontology.isSubtype t l = true := by
  obtain ⟨id, i, l', hv, hi, hl, hsub⟩ := holds_isa_iff.mp (hF.holds _ (Branch.isa_mem_hints.mp hh))
  obtain rfl := Option.some.inj hl
  exact ⟨i.type, typeOf?_eq_some_iff.mpr ⟨id, i, hv, hi, rfl⟩, hsub⟩

theorem mem_instances_of_instance? {id : String} {i : Instance} (h : g.instance? id = some i) : (id, i) ∈ g.instances :=
  Ordered.mem_of_lookup_eq_some h

theorem Matches.exists_castAs (hconf : g.Conforms) {b : Branch} {F : VarName → Value} (hF : g.Matches b F) {r : VarName}
    {slot : RolePlayer} (hh : Hint.slot r slot ∈ b.hints) : ∃ role, g.CastAs (tabulate (varsOf b) F) r slot role := by
  obtain ⟨slots, hs, hslot⟩ := Branch.slot_mem_hints.mp hh
  obtain ⟨id, i, hr, hi, hslots⟩ := exists_fits_of_holds (hF.holds _ hs)
  obtain ⟨c, hc, hfits⟩ := hslots slot hslot
  obtain ⟨hplayer, hbelow⟩ := fits_eq_true_iff.mp hfits
  obtain ⟨hmem, hvalue⟩ := lookup_tabulate_eq_some.mp hplayer
  obtain ⟨j, hj⟩ : ∃ j, g.instance? c.player = some j := by
    have hin := hF.values _ hmem
    rw [hvalue, List.mem_append] at hin
    rcases hin with hin | hin
    · obtain ⟨e, he, hid⟩ := List.mem_map.mp hin
      have hsome : (g.instances.lookup c.player).isSome :=
        List.lookup_isSome_iff.mpr ⟨e, he, beq_iff_eq.mpr (Value.individual.inj hid).symm⟩
      exact Option.isSome_iff_exists.mp hsome
    · simp [concepts] at hin
  obtain ⟨hrelates, hplays⟩ := hconf (id, i) (mem_instances_of_instance? hi) c hc j hj
  exact ⟨c.role, ⟨i.type, typeOf?_eq_some_iff.mpr ⟨id, i, hr, hi, rfl⟩, hrelates⟩,
    ⟨j.type, typeOf?_eq_some_iff.mpr ⟨c.player, j, hplayer, hj, rfl⟩, hplays⟩, hbelow⟩

/-- The choice of concepts that a match is lifted to: for each of the given role variables the given role, and for
every other variable the type of its instance. -/
def lift (g : Graph) (s : Answer) (roles : List VarName) (role : VarName → Label) (v : VarName) : Concept :=
  (g.ontology.concept? (if v ∈ roles then role v else (g.typeOf? s v).getD default)).getD default

section Lift
variable {s : Answer} {roles : List VarName} {role : VarName → Label} {r : VarName} {slot : RolePlayer} {v a : VarName}

theorem lift_role {k : Concept} (ha : a ∈ roles) (hk : g.ontology.concept? (role a) = some k) :
    g.lift s roles role a = k := by
  simp [lift, ha, hk]

theorem lift_type {t : Label} {k : Concept} (hroles : ∀ a ∈ roles, g.typeOf? s a = none) (ht : g.typeOf? s v = some t)
    (hk : g.ontology.concept? t = some k) : g.lift s roles role v = k := by
  have hv : v ∉ roles := fun hv => by simp [hroles v hv] at ht
  simp [lift, hv, ht, hk]

/-- A casting is lifted to a role that the lifted relation relates and the lifted player plays. -/
theorem CastAs.lift (wf : g.ontology.WellFormed) (h : g.CastAs s r slot (role a)) (ha : a ∈ roles)
    (hroles : ∀ a ∈ roles, g.typeOf? s a = none) :
    (∀ v ∈ [r, slot.player, a], g.lift s roles role v ∈ g.ontology.concepts) ∧
      (∀ v ∈ [r, slot.player], g.typeOf? s v = some (g.lift s roles role v).label) ∧
      (g.lift s roles role a).label = role a ∧ (g.lift s roles role a).kind = .role ∧
      g.ontology.plays (g.lift s roles role slot.player).label (role a) = true ∧
      g.ontology.relates (g.lift s roles role r).label (role a) = true := by
  obtain ⟨⟨tr, htr, hrelates⟩, ⟨tp, htp, hplays⟩, -⟩ := h
  obtain ⟨⟨kr, hkr⟩, ka, hka, hkind⟩ := wf.relates_declared hrelates
  obtain ⟨⟨kp, hkp⟩, -⟩ := wf.plays_declared hplays
  rw [lift_role ha hka, lift_type hroles htr hkr, lift_type hroles htp hkp]
  have hlabel := fun {l : Label} {k : Concept} (hk : g.ontology.concept? l = some k) => Ontology.concept?_mem hk
  refine ⟨?_, ?_, (hlabel hka).2, hkind, (hlabel hkp).2 ▸ hplays, (hlabel hkr).2 ▸ hrelates⟩
  · simp only [List.forall_mem_cons]
    rw [lift_role ha hka, lift_type hroles htr hkr, lift_type hroles htp hkp]
    exact ⟨(hlabel hkr).1, (hlabel hkp).1, (hlabel hka).1, by simp⟩
  · simp only [List.forall_mem_cons]
    rw [lift_type hroles htr hkr, lift_type hroles htp hkp, (hlabel hkr).2, (hlabel hkp).2]
    exact ⟨htr, htp, by simp⟩

end Lift

/-- The concepts are the types of the instances, and roles below what the role variables stand for. -/
structure Lifts (g : Graph) (b : Branch) (s : Answer) (f : VarName → Concept) : Prop where
  instances : ∀ v ∈ b.instanceVars, g.typeOf? s v = some (f v).label
  roles : ∀ a ∈ b.roleVars, (f a).kind = .role ∧
    ∃ l, s.lookup a = some (.concept l) ∧ g.ontology.isSubtype (f a).label l = true

variable {b : Branch} {F : VarName → Value} {used : List VarName} {cs : List Clue}

/-- What stands for a role is no instance: a role variable is a concept, and a placeholder has no value. -/
theorem Matches.typeOf?_role (hconf : g.Conforms) (hF : g.Matches b F) (hclued : Hint.Clued used b.hints cs)
    (hused : ∀ v ∈ varsOf b, v ∈ used) {a : VarName} (ha : a ∈ cs.filterMap Clue.role?) :
    g.typeOf? (tabulate (varsOf b) F) a = none := by
  rcases (Hint.mem_roles_iff hclued.gives).mp ha with ha | ha
  · rw [← Branch.roleVars_eq_hints, Branch.mem_roleVars_iff] at ha
    obtain ⟨r, p, hh⟩ := ha
    obtain ⟨role, hcast⟩ := hF.exists_castAs hconf hh
    obtain ⟨l, hl, -⟩ := hcast.below _ rfl
    simp [typeOf?, conceptUnder_var_eq_some.mp hl]
  · have hnone : a ∉ varsOf b := fun hmem => hclued.fresh a ha (hused a hmem)
    simp [typeOf?, lookup_tabulate, hnone]

/-- The answer gives instances to what the hints make instances, and each slot is cast in the role of its clue. -/
structure Casts (g : Graph) (b : Branch) (cs : List Clue) (s : Answer) (role : VarName → Label) : Prop where
  isa : ∀ v l, Hint.isa v l ∈ b.hints → ∃ t, g.typeOf? s v = some t ∧ g.ontology.isSubtype t l = true
  slot : ∀ r slot c, Hint.slot r slot ∈ b.hints → c ∈ cs → Hint.Gives (.slot r slot) c →
    ∃ a ∈ cs.filterMap Clue.role?, c.role? = some a ∧ g.CastAs s r slot (role a)
  roles : ∀ a ∈ cs.filterMap Clue.role?, g.typeOf? s a = none

/-- One role serves all the slots that a role variable fills: it lies below what the variable stands for, the types
of the relations relate it, and the types of the players play it. -/
def UniformlyCast (g : Graph) (b : Branch) (s : Answer) : Prop :=
  ∀ a ∈ b.roleVars, ∃ role, ∀ r slots, (r, .relation slots) ∈ statements b → ∀ slot ∈ slots, slot.role = some (.var a) →
    g.CastAs s r slot role

theorem Matches.uniformlyCast (hconf : g.Conforms) (hF : g.Matches b F) (hshare : b.roleVars.Nodup) :
    g.UniformlyCast b (tabulate (varsOf b) F) := by
  intro a ha
  obtain ⟨r, p, hh⟩ := Branch.mem_roleVars_iff.mp ha
  obtain ⟨role, hcast⟩ := hF.exists_castAs hconf hh
  refine ⟨role, fun r' slots hs slot hslot hrole => ?_⟩
  have hh' : Hint.slot r' slot ∈ b.hints := Branch.slot_mem_hints.mpr ⟨slots, hs, hslot⟩
  rw [Branch.roleVars_eq_hints] at hshare
  cases eq_of_nodup_filterMap hshare hh hh' rfl (by simp [Hint.roleVar?, hrole, TypeRef.var?])
  exact hcast

/-- One role can be chosen for each role variable of the clues. -/
theorem Matches.exists_casts (hconf : g.Conforms) (hF : g.Matches b F) (hclued : Hint.Clued used b.hints cs)
    (hused : ∀ v ∈ varsOf b, v ∈ used) (huniform : g.UniformlyCast b (tabulate (varsOf b) F)) :
    ∃ role, g.Casts b cs (tabulate (varsOf b) F) role := by
  have hrole : ∀ a, ∃ role, ∀ r slot c, Hint.slot r slot ∈ b.hints → c ∈ cs → Hint.Gives (.slot r slot) c →
      c.role? = some a → g.CastAs (tabulate (varsOf b) F) r slot role := by
    intro a
    by_cases ha : a ∈ b.roleVars
    · obtain ⟨role, hcast⟩ := huniform a ha
      refine ⟨role, fun r slot c hh hc hg hca => ?_⟩
      obtain ⟨slots, hs, hslot⟩ := Branch.slot_mem_hints.mp hh
      cases hg with
      | named r p a' =>
        obtain rfl := Option.some.inj hca
        exact hcast r slots hs _ hslot rfl
      | labelled r p a' l | missing r p a' =>
        -- A placeholder is not a variable of the branch.
        obtain rfl := Option.some.inj hca
        have hplaceholder : a' ∈ Clue.placeholders cs := List.mem_filterMap.mpr ⟨_, hc, rfl⟩
        exact absurd (hused a' (Branch.mem_varsOf_of_mem_roleVars ha)) (hclued.fresh a' hplaceholder)
    · by_cases hex : ∃ r slot c, Hint.slot r slot ∈ b.hints ∧ c ∈ cs ∧ Hint.Gives (.slot r slot) c ∧ c.role? = some a
      · obtain ⟨r, slot, c, hh, hc, hg, hca⟩ := hex
        obtain ⟨role, hcast⟩ := hF.exists_castAs hconf hh
        have hplace : ∀ {h : Hint} {c : Clue},
            h ∈ b.hints → h.Gives c → c.role? = some a → c.placeholder? = some a := by
          intro h c hh hg hca
          refine (hg.role?.mp hca).resolve_left fun hvar => ha ?_
          rw [Branch.roleVars_eq_hints]
          exact List.mem_filterMap.mpr ⟨h, hh, hvar⟩
        refine ⟨role, fun r' slot' c' hh' hc' hg' hca' => ?_⟩
        -- The placeholder stands in this clue only, so the casting of one slot decides its role.
        obtain rfl := eq_of_nodup_filterMap hclued.distinct hc hc' (hplace hh hg hca) (hplace hh' hg' hca')
        cases hg.left_unique hg'
        exact hcast
      · exact ⟨default, fun r slot c hh hc hg hca => absurd ⟨r, slot, c, hh, hc, hg, hca⟩ hex⟩
  choose role hcast using hrole
  refine ⟨role, fun v l hh => hF.type_isa hh, fun r slot c hh hc hg => ?_,
    fun a ha => hF.typeOf?_role hconf hclued hused ha⟩
  obtain ⟨a, ha⟩ : ∃ a, c.role? = some a := by cases hg <;> exact ⟨_, rfl⟩
  exact ⟨a, List.mem_filterMap.mpr ⟨c, hc, ha⟩, ha, hcast a r slot c hh hc hg ha⟩

section Casts
variable {s : Answer} {role : VarName → Label}

theorem Casts.lift_isa (h : g.Casts b cs s role) {v : VarName} {l : Label} (hh : Hint.isa v l ∈ b.hints) :
    g.lift s (cs.filterMap Clue.role?) role v ∈ g.ontology.concepts ∧
      g.typeOf? s v = some (g.lift s (cs.filterMap Clue.role?) role v).label ∧
      g.ontology.isSubtype (g.lift s (cs.filterMap Clue.role?) role v).label l = true := by
  obtain ⟨t, ht, hsub⟩ := h.isa v l hh
  obtain ⟨k, hk⟩ := Ontology.concept?_of_isSubtype hsub
  obtain ⟨hmem, rfl⟩ := Ontology.concept?_mem hk
  rw [lift_type h.roles ht hk]
  exact ⟨hmem, ht, hsub⟩

theorem Casts.models (h : g.Casts b cs s role) (wf : g.ontology.WellFormed)
    (hgives : List.Forall₂ Hint.Gives b.hints cs) :
    g.ontology.Models (Evidence.ofClues cs).query (g.lift s (cs.filterMap Clue.role?) role) := by
  rw [Evidence.models_query_iff]
  intro c hc
  obtain ⟨hint, hh, hg⟩ := Hint.exists_hint hgives hc
  cases hint with
  | isa v l =>
    obtain ⟨hmem, -, hsub⟩ := h.lift_isa hh
    cases hg
    exact ⟨by simpa [Clue.vars] using hmem, hsub⟩
  | slot r slot =>
    obtain ⟨a, ha, hca, hcast⟩ := h.slot r slot c hh hc hg
    obtain ⟨hmem, -, hlabel, -, hplays, hrelates⟩ := hcast.lift wf ha h.roles
    cases hg with
    | named r p a' | missing r p a' =>
      obtain rfl := Option.some.inj hca
      exact ⟨hmem, hlabel ▸ hplays, hlabel ▸ hrelates, by simp⟩
    | labelled r p a' l =>
      obtain rfl := Option.some.inj hca
      refine ⟨hmem, hlabel ▸ hplays, hlabel ▸ hrelates, ?_⟩
      rintro l' ⟨⟩
      obtain ⟨l', hl, hsub⟩ := hcast.below _ rfl
      obtain rfl := Option.some.inj hl
      exact hlabel ▸ hsub

theorem Casts.lifts (h : g.Casts b cs s role) (wf : g.ontology.WellFormed)
    (hgives : List.Forall₂ Hint.Gives b.hints cs) : g.Lifts b s (g.lift s (cs.filterMap Clue.role?) role) where
  instances v hv := by
    obtain ⟨hint, hh, hv⟩ := Branch.mem_instanceVars_iff.mp hv
    cases hint with
    | isa w l =>
      obtain rfl := List.mem_singleton.mp hv
      exact (h.lift_isa hh).2.1
    | slot r slot =>
      obtain ⟨c, hc, hg⟩ := Hint.exists_clue hgives hh
      obtain ⟨a, ha, -, hcast⟩ := h.slot r slot c hh hc hg
      exact (hcast.lift wf ha h.roles).2.1 v hv
  roles a ha := by
    obtain ⟨r, p, hh⟩ := Branch.mem_roleVars_iff.mp ha
    obtain ⟨c, hc, hg⟩ := Hint.exists_clue hgives hh
    obtain ⟨a', ha', hca, hcast⟩ := h.slot r _ c hh hc hg
    cases hg
    obtain rfl := Option.some.inj hca
    obtain ⟨-, -, hlabel, hkind, -, -⟩ := hcast.lift wf ha' h.roles
    obtain ⟨l, hl, hsub⟩ := hcast.below _ rfl
    exact ⟨hkind, l, conceptUnder_var_eq_some.mp hl, hlabel ▸ hsub⟩

end Casts

/-- A match with one role for each role variable is lifted to a model of the query. -/
theorem Matches.exists_model_of_uniformlyCast (wf : g.ontology.WellFormed) (hconf : g.Conforms) (hF : g.Matches b F)
    (hclued : Hint.Clued used b.hints cs) (hused : ∀ v ∈ varsOf b, v ∈ used)
    (huniform : g.UniformlyCast b (tabulate (varsOf b) F)) :
    ∃ f, g.ontology.Models (Evidence.ofClues cs).query f ∧ g.Lifts b (tabulate (varsOf b) F) f := by
  obtain ⟨role, hcasts⟩ := hF.exists_casts hconf hclued hused huniform
  exact ⟨_, hcasts.models wf hclued.gives, hcasts.lifts wf hclued.gives⟩

/-- Every match of a branch is lifted to a model of its query. -/
theorem Matches.exists_model (wf : g.ontology.WellFormed) (hconf : g.Conforms) (hF : g.Matches b F)
    (hclued : Hint.Clued used b.hints cs) (hused : ∀ v ∈ varsOf b, v ∈ used) (hshare : b.roleVars.Nodup) :
    ∃ f, g.ontology.Models (Evidence.ofClues cs).query f ∧ g.Lifts b (tabulate (varsOf b) F) f :=
  hF.exists_model_of_uniformlyCast wf hconf hclued hused (hF.uniformlyCast hconf hshare)

end Graph

/-! ### What the answers say of a match -/

theorem mismatchWarning_ne_noAnswers (entry : VarName × ConceptName) : mismatchWarning entry ≠ noAnswersWarning := by
  -- The texts differ in their first letter, which no entry reaches.
  have hmismatch : (mismatchWarning entry).toList.head? = some 'r' := by
    have hstart : "role variable ".toList.head? = some 'r' := by decide +kernel
    unfold mismatchWarning
    simp only [String.toList_append, List.head?_append, hstart, Option.some_or]
  have hnone : noAnswersWarning.toList.head? = some 'o' := by decide +kernel
  intro h
  rw [h, hnone] at hmismatch
  cases hmismatch

/-- The report warns that there are no answers exactly when it counts none. -/
theorem Outcome.noAnswersWarning_mem_iff {clues : List Clue} {answers : List Binding} {ext : List Atom} {i : Nat} :
    noAnswersWarning ∈ ((Outcome.answered clues answers ext).report i).warnings ↔
      ((Outcome.answered clues answers ext).report i).answerCount = 0 := by
  simp only [Outcome.report, List.mem_append, List.mem_map, List.length_eq_zero_iff]
  constructor
  · rintro (h | ⟨entry, -, h⟩)
    · split at h
      · rename_i hempty
        exact List.isEmpty_iff.mp hempty
      · cases h
    · exact absurd h (mismatchWarning_ne_noAnswers entry)
  · rintro rfl
    simp

namespace Graph

variable {g : Graph} {b : Branch} {s : Answer} {cs : List Clue} {answers : List Binding}

/-- A model that a match is lifted to, as an answer of the query. -/
theorem Lifts.binding {f : VarName → Concept} (h : g.Lifts b s f) (hgives : List.Forall₂ Hint.Gives b.hints cs) :
    (∀ v ∈ b.instanceVars, ∃ c, ((Evidence.ofClues cs).query.binding f).lookup v = some c ∧
        g.typeOf? s v = some c.label) ∧
      ∀ a ∈ b.roleVars, ∃ c l, ((Evidence.ofClues cs).query.binding f).lookup a = some c ∧ c.kind = .role ∧
        s.lookup a = some (.concept l) ∧ g.ontology.isSubtype c.label l = true := by
  have hvars : ∀ {hint : Hint}, hint ∈ b.hints → ∀ v ∈ hint.vars, v ∈ varsOf (Evidence.ofClues cs).query := by
    intro hint hh v hv
    obtain ⟨c, hc, hg⟩ := Hint.exists_clue hgives hh
    exact Evidence.mem_varsOf_query.mpr ⟨c, hc, hg.vars_left hv⟩
  constructor
  · intro v hv
    obtain ⟨hint, hh, hmem⟩ := Branch.mem_instanceVars_iff.mp hv
    have hquery : v ∈ varsOf (Evidence.ofClues cs).query := by
      refine hvars hh v ?_
      cases hint with
      | isa w l => exact hmem
      | slot r slot => exact List.mem_append_left _ hmem
    exact ⟨_, lookup_tabulate_of_mem hquery, h.instances v hv⟩
  · intro a ha
    obtain ⟨r, p, hh⟩ := Branch.mem_roleVars_iff.mp ha
    have hquery : a ∈ varsOf (Evidence.ofClues cs).query := hvars hh a (by simp [Hint.vars, TypeRef.var?])
    obtain ⟨hkind, l, hl, hsub⟩ := h.roles a ha
    exact ⟨_, l, lookup_tabulate_of_mem hquery, hkind, hl, hsub⟩

/-- Every candidate set holds the type of the matched instance. -/
theorem Lifts.type_mem_candidates {f : VarName → Concept} (h : g.Lifts b s f) (wf : g.ontology.WellFormed)
    (hgives : List.Forall₂ Hint.Gives b.hints cs) (hroles : ∀ a ∈ cs.filterMap Clue.role?, g.typeOf? s a = none)
    (hsolve : g.ontology.solve (Evidence.ofClues cs).query = .ok answers)
    (hmodel : g.ontology.Models (Evidence.ofClues cs).query f) {v : VarName} {t : Label} (ht : g.typeOf? s v = some t)
    {labels : List (Label × Kind)} (hlabels : (v, labels) ∈ Candidates.ofAnswers (.ofClues cs) answers) :
    t ∈ labels.map Prod.fst := by
  obtain ⟨hopen, ⟨c, β, hβ, hc⟩, rfl⟩ := Candidates.mem_ofAnswers_iff.mp hlabels
  have hquery : v ∈ varsOf (Evidence.ofClues cs).query := (wf.mem_answer hsolve hβ hc).1
  have hinstance : v ∈ b.instanceVars := by
    refine (Branch.mem_varsOf_query hgives hquery).resolve_right fun hrole => ?_
    rw [hroles v hrole] at ht
    cases ht
  obtain ⟨c', hc', ht'⟩ := (h.binding hgives).1 v hinstance
  obtain rfl : t = c'.label := Option.some.inj (ht.symm.trans ht')
  obtain ⟨labels', hmem', hlabel⟩ := Candidates.exists_candidate hopen
    ((wf.mem_answers_iff hsolve).mpr ⟨f, hmodel, rfl⟩) (isTable_tabulate.mem_iff.mpr hc')
  obtain ⟨-, -, rfl⟩ := Candidates.mem_ofAnswers_iff.mp hmem'
  exact hlabel

end Graph

/-- The query of a branch over-approximates the data. Each match of the branch, on any conforming graph, has an
answer of the query that gives every instance its type and every role variable a role below what it stands for. So
the candidates of a variable contain the types of all its instances, and a branch whose query has no answers has no
match. -/
theorem Branch.query_overapproximates {d : Definition} {o : Ontology} (hload : d.load = .ok o) {policy : MissingRoles}
    {b : Branch} {supply supply' : Supply} {clues : List Clue} (hused : ∀ v ∈ varsOf b, v ∈ supply.used)
    (hshare : b.roleVars.Nodup) (hclues : b.clues policy supply = .ok (clues, supply')) :
    ∃ answers, o.solve (Evidence.ofClues clues).query = .ok answers ∧
      ∀ g : Graph, g.ontology = o → g.Conforms →
        (∀ s ∈ g.matchBranch b,
          (∃ β ∈ answers,
            (∀ v ∈ b.instanceVars, ∃ c, β.lookup v = some c ∧ g.typeOf? s v = some c.label) ∧
            ∀ a ∈ b.roleVars, ∃ c l, β.lookup a = some c ∧ c.kind = .role ∧ s.lookup a = some (.concept l) ∧
              o.isSubtype c.label l = true) ∧
          ∀ v t, g.typeOf? s v = some t →
            (∀ labels, (v, labels) ∈ Candidates.ofAnswers (.ofClues clues) answers → t ∈ labels.map Prod.fst) ∧
            ∀ i ext,
              (∀ l, (v, l) ∈ ((Outcome.answered clues answers ext).report i).resolved → l = t) ∧
              ∀ ls, (v, ls) ∈ ((Outcome.answered clues answers ext).report i).ambiguous → t ∈ ls) ∧
        ∀ i ext,
          (((Outcome.answered clues answers ext).report i).answerCount = 0 ↔
            noAnswersWarning ∈ ((Outcome.answered clues answers ext).report i).warnings) ∧
          (((Outcome.answered clues answers ext).report i).answerCount = 0 → g.matchBranch b = []) := by
  obtain ⟨answers, hsolve⟩ : ∃ answers, o.solve (Evidence.ofClues clues).query = .ok answers :=
    Evidence.solve_query_isOk o
  obtain ⟨hclued, -⟩ := Hint.clues_eq_ok hclues
  refine ⟨answers, hsolve, ?_⟩
  rintro g rfl hconf
  have wf := d.load_wellFormed hload
  have hlift : ∀ s ∈ g.matchBranch b, (∀ a ∈ clues.filterMap Clue.role?, g.typeOf? s a = none) ∧
      ∃ f, g.ontology.Models (Evidence.ofClues clues).query f ∧ g.Lifts b s f := by
    intro s hs
    obtain ⟨F, hF, rfl⟩ := Graph.mem_matchBranch_iff.mp hs
    exact ⟨fun a ha => hF.typeOf?_role hconf hclued hused ha, hF.exists_model wf hconf hclued hused hshare⟩
  refine ⟨fun s hs => ?_, fun i ext => ⟨Outcome.noAnswersWarning_mem_iff.symm, fun hcount => ?_⟩⟩
  · obtain ⟨hroles, f, hmodel, hlifts⟩ := hlift s hs
    refine ⟨⟨_, (wf.mem_answers_iff hsolve).mpr ⟨f, hmodel, rfl⟩, hlifts.binding hclued.gives⟩, fun v t ht => ?_⟩
    have hcandidates : ∀ labels, (v, labels) ∈ Candidates.ofAnswers (.ofClues clues) answers →
        t ∈ labels.map Prod.fst :=
      fun labels => hlifts.type_mem_candidates wf hclued.gives hroles hsolve hmodel ht
    refine ⟨hcandidates, fun i ext => ⟨fun l hl => ?_, fun ls hls => ?_⟩⟩
    · obtain ⟨⟨v', c⟩, hc, heq⟩ := List.mem_map.mp hl
      obtain ⟨rfl, rfl⟩ := Prod.mk.inj heq
      have := hcandidates _ (Resolution.mem_resolved_iff.mp hc).1
      simpa [eq_comm] using this
    · obtain ⟨labels, hmem, -, rfl⟩ := Resolution.mem_ambiguous_iff.mp hls
      exact hcandidates labels hmem
  · refine List.eq_nil_iff_forall_not_mem.mpr fun s hs => ?_
    obtain ⟨-, f, hmodel, -⟩ := hlift s hs
    have hnil : answers = [] := List.length_eq_zero_iff.mp hcount
    have hmem := (wf.mem_answers_iff hsolve).mpr ⟨f, hmodel, rfl⟩
    rw [hnil] at hmem
    cases hmem

/-- Two actors and a movie in one casting. -/
def filmGraph : Graph where
  ontology := filmOntology
  instances :=
    [("ann", ⟨⟨"person"⟩, [], []⟩), ("bob", ⟨⟨"person"⟩, [], []⟩),
      ("c", ⟨⟨"casting"⟩, [], [⟨⟨"actor"⟩, "ann"⟩, ⟨⟨"work"⟩, "heat"⟩, ⟨⟨"actor"⟩, "bob"⟩]⟩),
      ("heat", ⟨⟨"movie"⟩, [], []⟩)]

/-- A movie in some role together with a performer. -/
def castingBranch : Branch :=
  [⟨⟨"x"⟩, [.isa (.label ⟨"movie"⟩)]⟩,
    ⟨⟨"r"⟩, [.relation [⟨some (.label ⟨"performer"⟩), ⟨"y"⟩⟩, ⟨some (.var ⟨"a"⟩), ⟨"x"⟩⟩]]⟩]

def castingClues : List Clue :=
  [.isa ⟨"x"⟩ ⟨"movie"⟩, .slot ⟨"r"⟩ ⟨"y"⟩ ⟨"_0"⟩ (.label ⟨"performer"⟩), .slot ⟨"r"⟩ ⟨"x"⟩ ⟨"a"⟩ .var]

theorem query_overapproximates_castingBranch :
    (filmDefinition.load = .ok filmOntology ∧ filmGraph.Conforms ∧ filmGraph.matchBranch castingBranch ≠ [] ∧
      (∀ v ∈ varsOf castingBranch, v ∈ (Supply.forAtoms "_" castingBranch).used) ∧ castingBranch.roleVars.Nodup ∧
      castingBranch.clues .reject (.forAtoms "_" castingBranch) =
        .ok (castingClues, (Supply.forAtoms "_" castingBranch).fresh.2)) ∧
    ∃ answers, filmOntology.solve (Evidence.ofClues castingClues).query = .ok answers ∧
      ∀ s ∈ filmGraph.matchBranch castingBranch, ∃ β ∈ answers,
        (∀ v ∈ castingBranch.instanceVars, ∃ c, β.lookup v = some c ∧ filmGraph.typeOf? s v = some c.label) ∧
        ∀ a ∈ castingBranch.roleVars, ∃ c l, β.lookup a = some c ∧ c.kind = .role ∧ s.lookup a = some (.concept l) ∧
          filmOntology.isSubtype c.label l = true := by
  have hconf : filmGraph.Conforms := by decide +kernel
  have hused : ∀ v ∈ varsOf castingBranch, v ∈ (Supply.forAtoms "_" castingBranch).used := by decide +kernel
  have hshare : castingBranch.roleVars.Nodup := by decide +kernel
  have hclues : castingBranch.clues .reject (.forAtoms "_" castingBranch) =
      .ok (castingClues, (Supply.forAtoms "_" castingBranch).fresh.2) := by decide +kernel
  refine ⟨⟨load_filmDefinition, hconf, by decide +kernel, hused, hshare, hclues⟩, ?_⟩
  obtain ⟨answers, hsolve, h⟩ := Branch.query_overapproximates load_filmDefinition hused hshare hclues
  exact ⟨answers, hsolve, fun s hs => ((h filmGraph rfl hconf).1 s hs).1⟩

end OntologyTyping
