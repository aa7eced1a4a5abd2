import OntologyTyping.Proofs.Castings
import OntologyTyping.Proofs.Search
import OntologyTyping.Proofs.WellFormed

/-!
What it means for an assignment to match a branch.

A branch is matched by the assignments of instances and concepts to its variables under which every statement holds.
The narrowed domains lose none of them: where a statement asks a variable to be an instance, it holds of instances
only, and so for concepts. A relation whose slots can be filled has a fitting casting for every slot.
-/

namespace OntologyTyping

namespace Graph

variable {g : Graph}

/-! ### A statement reads the variables that it mentions -/

theorem conceptUnder_congr {s s' : Answer} {t : TypeRef} (h : ∀ v ∈ t.var?.toList, s.lookup v = s'.lookup v) :
    conceptUnder s t = conceptUnder s' t := by
  cases t with
  | label l => rfl
  | var v => simp only [conceptUnder, h v (by simp [TypeRef.var?])]

theorem fits_congr {s s' : Answer} {slot : RolePlayer} (hplayer : s.lookup slot.player = s'.lookup slot.player)
    (hrole : ∀ v ∈ (slot.role.bind TypeRef.var?).toList, s.lookup v = s'.lookup v) :
    g.fits s slot = g.fits s' slot := by
  funext c
  unfold fits
  rw [hplayer]
  congr 1
  split
  · rfl
  · rename_i t ht
    rw [conceptUnder_congr fun v hv => hrole v (by simpa [ht] using hv)]

theorem fill_congr {s s' : Answer} {castings : List Casting} {slots : List RolePlayer}
    (h : ∀ slot ∈ slots, g.fits s slot = g.fits s' slot) : g.fill s castings slots = g.fill s' castings slots := by
  induction slots with
  | nil => rfl
  | cons slot rest ih =>
    simp only [fill, h slot List.mem_cons_self, ih fun slot hslot => h slot (List.mem_cons_of_mem _ hslot)]

theorem holds_isLocal : Search.IsLocal statementVars g.holds := by
  rintro s s' ⟨v, p⟩ h
  have hv : s.lookup v = s'.lookup v := h v List.mem_cons_self
  have hp : ∀ w ∈ p.vars, s.lookup w = s'.lookup w := fun w hw => h w (List.mem_cons_of_mem _ hw)
  simp only [holds, hv]
  congr 1
  funext value
  cases p with
  | label l | has a l => cases value <;> rfl
  | sub t | plays t | relates t | isa t => cases value <;> simp only [hasProperty, conceptUnder_congr hp]
  | relation slots =>
    cases value with
    | concept l => rfl
    | individual id =>
      have hfits : ∀ slot ∈ slots, g.fits s slot = g.fits s' slot := by
        intro slot hslot
        refine fits_congr (hp _ ?_) fun w hw => hp w ?_
        all_goals
          simp only [Property.vars, List.mem_flatMap, List.mem_append]
          exact ⟨slot, hslot, by simp_all⟩
      simp only [hasProperty, fillsSlots, fill_congr hfits]

/-! ### Filled slots -/

/-- Slots that can be filled have a fitting casting each. -/
theorem exists_fits_of_fill {s : Answer} {castings : List Casting} {slots : List RolePlayer} {used : List Bool}
    (h : (g.fill s castings slots used).1 = true) : ∀ slot ∈ slots, ∃ c ∈ castings, g.fits s slot c = true := by
  obtain ⟨place, hplace⟩ := fill_eq_true_iff.mp h
  intro slot hslot
  obtain ⟨k, rfl⟩ := List.mem_iff_get.mp hslot
  exact ⟨_, List.get_mem _ _, hplace.fits k⟩

/-! ### What a statement that holds says of its variables -/

theorem holds_iff {s : Answer} {v : VarName} {p : Property} :
    g.holds s (v, p) = true ↔ ∃ value, s.lookup v = some value ∧ g.hasProperty s value p = true := by
  simp [holds, Option.any_eq_true]

theorem holds_isa_iff {s : Answer} {v : VarName} {t : TypeRef} :
    g.holds s (v, .isa t) = true ↔
      ∃ id i l, s.lookup v = some (.individual id) ∧ g.instance? id = some i ∧ conceptUnder s t = some l ∧
        g.ontology.isSubtype i.type l = true := by
  rw [holds_iff]
  constructor
  · rintro ⟨value, hv, h⟩
    cases value with
    | concept l => cases h
    | individual id =>
      simp only [hasProperty, Option.any_eq_true] at h
      obtain ⟨i, hi, l, hl, hsub⟩ := h
      exact ⟨id, i, l, hv, hi, hl, hsub⟩
  · rintro ⟨id, i, l, hv, hi, hl, hsub⟩
    refine ⟨_, hv, ?_⟩
    simp only [hasProperty, hi, hl, Option.any_some, hsub]

theorem holds_sub_iff {s : Answer} {v : VarName} {t : TypeRef} :
    g.holds s (v, .sub t) = true ↔
      ∃ l upper, s.lookup v = some (.concept l) ∧ conceptUnder s t = some upper ∧
        g.ontology.isSubtype l upper = true := by
  rw [holds_iff]
  constructor
  · rintro ⟨value, hv, h⟩
    cases value with
    | individual id => cases h
    | concept l =>
      simp only [hasProperty, Option.any_eq_true] at h
      obtain ⟨upper, hupper, hsub⟩ := h
      exact ⟨l, upper, hv, hupper, hsub⟩
  · rintro ⟨l, upper, hv, hupper, hsub⟩
    refine ⟨_, hv, ?_⟩
    simp only [hasProperty, hupper, Option.any_some, hsub]

/-- The subject of a relation that holds is an instance, and every slot has a fitting casting of it. -/
theorem exists_fits_of_holds {s : Answer} {r : VarName} {slots : List RolePlayer}
    (h : g.holds s (r, .relation slots) = true) :
    ∃ id i, s.lookup r = some (.individual id) ∧ g.instance? id = some i ∧
      ∀ slot ∈ slots, ∃ c ∈ i.castings, g.fits s slot c = true := by
  obtain ⟨value, hv, h⟩ := holds_iff.mp h
  cases value with
  | concept l => cases h
  | individual id =>
    simp only [hasProperty, Option.any_eq_true] at h
    obtain ⟨i, hi, hfills⟩ := h
    exact ⟨id, i, hv, hi, exists_fits_of_fill hfills⟩

theorem conceptUnder_var_eq_some {s : Answer} {v : VarName} {l : Label} :
    conceptUnder s (.var v) = some l ↔ s.lookup v = some (.concept l) := by
  simp only [conceptUnder]
  split
  · rename_i l' hl
    simp [hl]
  · rename_i hnot
    exact iff_of_false (by simp) fun h => hnot l h

/-! ### Domains -/

theorem exists_individual {s : Answer} {v w : VarName} {p : Property} (h : g.holds s (w, p) = true)
    (hwants : p.wantsInstance v w = true) : ∃ id, s.lookup v = some (.individual id) := by
  cases p with
  | isa t =>
    obtain rfl := beq_iff_eq.mp hwants
    obtain ⟨id, -, -, hv, -⟩ := holds_isa_iff.mp h
    exact ⟨id, hv⟩
  | has a l =>
    obtain rfl := beq_iff_eq.mp hwants
    obtain ⟨value, hv, h⟩ := holds_iff.mp h
    cases value with
    | individual id => exact ⟨id, hv⟩
    | concept l => cases h
  | relation slots =>
    obtain ⟨id, i, hw, -, hslots⟩ := exists_fits_of_holds h
    simp only [Property.wantsInstance, Bool.or_eq_true, beq_iff_eq, List.any_eq_true] at hwants
    rcases hwants with rfl | ⟨slot, hslot, rfl⟩
    · exact ⟨id, hw⟩
    · obtain ⟨c, -, hfits⟩ := hslots slot hslot
      exact ⟨_, (fits_eq_true_iff.mp hfits).1⟩
  | label l | sub t | plays t | relates t => cases hwants

theorem lookup_of_conceptUnder {s : Answer} {t : TypeRef} {v : VarName} {l : Label} (ht : t.var? = some v)
    (hl : conceptUnder s t = some l) : s.lookup v = some (.concept l) := by
  cases t with
  | label l' => cases ht
  | var u =>
    obtain rfl := Option.some.inj ht
    exact conceptUnder_var_eq_some.mp hl

theorem exists_concept {s : Answer} {v w : VarName} {p : Property} (h : g.holds s (w, p) = true)
    (hwants : p.wantsConcept v w = true) : ∃ l, s.lookup v = some (.concept l) := by
  cases p with
  | isa t =>
    obtain ⟨-, -, l, -, -, hl, -⟩ := holds_isa_iff.mp h
    exact ⟨l, lookup_of_conceptUnder (beq_iff_eq.mp hwants) hl⟩
  | has a l => cases hwants
  | relation slots =>
    obtain ⟨-, i, -, -, hslots⟩ := exists_fits_of_holds h
    simp only [Property.wantsConcept, List.any_eq_true, beq_iff_eq] at hwants
    obtain ⟨slot, hslot, hrole⟩ := hwants
    obtain ⟨t, ht, hvar⟩ := Option.bind_eq_some_iff.mp hrole
    obtain ⟨c, -, hfits⟩ := hslots slot hslot
    obtain ⟨l, hl, -⟩ := (fits_eq_true_iff.mp hfits).2 t ht
    exact ⟨l, lookup_of_conceptUnder hvar hl⟩
  | label l =>
    obtain rfl := beq_iff_eq.mp hwants
    obtain ⟨value, hv, h⟩ := holds_iff.mp h
    cases value with
    | individual id => cases h
    | concept l => exact ⟨l, hv⟩
  | sub t | plays t | relates t =>
    obtain ⟨value, hv, h⟩ := holds_iff.mp h
    cases value with
    | individual id => cases h
    | concept l =>
      simp only [Property.wantsConcept, Bool.or_eq_true, beq_iff_eq] at hwants
      rcases hwants with rfl | ht
      · exact ⟨l, hv⟩
      · obtain ⟨upper, hupper, -⟩ := (Option.any_eq_true _ _).mp h
        exact ⟨upper, lookup_of_conceptUnder ht hupper⟩

theorem holds_tabulate_congr {vars vars' : List VarName} {F F' : VarName → Value} {st : Statement}
    (hvars : ∀ v ∈ statementVars st, v ∈ vars ∧ v ∈ vars') (hF : ∀ v ∈ statementVars st, F v = F' v) :
    g.holds (tabulate vars F) st = g.holds (tabulate vars' F') st := by
  refine holds_isLocal _ _ st fun v hv => ?_
  rw [lookup_tabulate_of_mem (hvars v hv).1, lookup_tabulate_of_mem (hvars v hv).2, hF v hv]

/-- A choice of an instance or a concept for each variable of a branch under which every statement holds. -/
structure Matches (g : Graph) (b : Branch) (F : VarName → Value) : Prop where
  values : ∀ v ∈ varsOf b, F v ∈ g.individuals ++ g.concepts
  holds : ∀ st ∈ statements b, g.holds (tabulate (varsOf b) F) st = true

theorem Matches.congr {b : Branch} {F F' : VarName → Value} (h : g.Matches b F)
    (hF : ∀ v ∈ varsOf b, F v = F' v) : g.Matches b F' := by
  refine ⟨fun v hv => hF v hv ▸ h.values v hv, fun st hst => ?_⟩
  rw [← tabulate_congr (fun _ => Iff.rfl) hF]
  exact h.holds st hst

/-- Narrowing the domain of a variable loses no choice under which the statements hold. -/
theorem Matches.mem_domain {b : Branch} {F : VarName → Value} (h : g.Matches b F) {v : VarName} (hv : v ∈ varsOf b) :
    F v ∈ g.domain b v := by
  have hlookup : (tabulate (varsOf b) F).lookup v = some (F v) := lookup_tabulate_of_mem hv
  have hvalue := List.mem_append.mp (h.values v hv)
  simp only [domain]
  split
  · rename_i hinstance _
    obtain ⟨⟨w, p⟩, hs, hwants⟩ := List.any_eq_true.mp hinstance
    obtain ⟨id, hid⟩ := exists_individual (h.holds _ hs) hwants
    have hF : F v = .individual id := Option.some.inj (hlookup.symm.trans hid)
    refine hvalue.resolve_right fun hc => ?_
    simp [concepts, hF] at hc
  · rename_i _ hconcept
    obtain ⟨⟨w, p⟩, hs, hwants⟩ := List.any_eq_true.mp hconcept
    obtain ⟨l, hl⟩ := exists_concept (h.holds _ hs) hwants
    have hF : F v = .concept l := Option.some.inj (hlookup.symm.trans hl)
    refine hvalue.resolve_left fun hc => ?_
    simp [individuals, hF] at hc
  · exact List.mem_append.mpr hvalue

theorem domain_subset {b : Branch} {v : VarName} {value : Value} (h : value ∈ g.domain b v) :
    value ∈ g.individuals ++ g.concepts := by
  simp only [domain] at h
  split at h
  · exact List.mem_append_left _ h
  · exact List.mem_append_right _ h
  · exact h

/-- The search finds exactly the tables of the choices that match. -/
theorem mem_matchBranch_iff {b : Branch} {s : Answer} :
    s ∈ g.matchBranch b ↔ ∃ F, g.Matches b F ∧ s = tabulate (varsOf b) F := by
  rw [matchBranch, Search.mem_solve_statements holds_isLocal]
  constructor
  · rintro ⟨F, hF, rfl, hholds⟩
    exact ⟨F, ⟨fun v hv => domain_subset (hF v hv), hholds⟩, rfl⟩
  · rintro ⟨F, hF, rfl⟩
    exact ⟨F, fun v hv => hF.mem_domain hv, rfl, hF.holds⟩

theorem mem_answers_iff {p : Pattern} {s : Answer} : s ∈ g.answers p ↔ ∃ b ∈ p.branches, s ∈ g.matchBranch b := by
  rw [answers, Ordered.mem_sortDistinct, List.mem_flatMap]

/-- A choice matches a longer branch when it matches the first part and the rest holds too. -/
theorem matches_append_iff {b ext : Branch} {F : VarName → Value} :
    g.Matches (b ++ ext) F ↔
      g.Matches b F ∧ (∀ v ∈ varsOf ext, F v ∈ g.individuals ++ g.concepts) ∧
        ∀ st ∈ statements ext, g.holds (tabulate (varsOf (b ++ ext)) F) st = true := by
  have hvars : ∀ v, v ∈ varsOf (b ++ ext) ↔ v ∈ varsOf b ∨ v ∈ varsOf ext := by
    intro v
    simp only [mem_varsOf, List.mem_append, or_and_right, exists_or]
  have hsame : ∀ st ∈ statements b,
      g.holds (tabulate (varsOf (b ++ ext)) F) st = g.holds (tabulate (varsOf b) F) st := by
    intro st hst
    refine holds_tabulate_congr (fun v hv => ?_) fun _ _ => rfl
    have := statementVars_subset hst hv
    exact ⟨(hvars v).mpr (Or.inl this), this⟩
  constructor
  · intro h
    refine ⟨⟨fun v hv => h.values v ((hvars v).mpr (Or.inl hv)), fun st hst => ?_⟩,
      fun v hv => h.values v ((hvars v).mpr (Or.inr hv)), fun st hst => h.holds st (by simp [hst])⟩
    rw [← hsame st hst]
    exact h.holds st (by simp [hst])
  · rintro ⟨hb, hvalues, hholds⟩
    refine ⟨fun v hv => ((hvars v).mp hv).elim (hb.values v) (hvalues v), fun st hst => ?_⟩
    rw [statements_append, List.mem_append] at hst
    rcases hst with hst | hst
    · rw [hsame st hst]
      exact hb.holds st hst
    · exact hholds st hst

end Graph

end OntologyTyping
