import OntologyTyping.Proofs.Runs
import Mathlib.Order.Nat

/-!
When inference fails, and why.

A branch fails in one of two ways: a slot has no role where roles must be named, or its query gets no reply.
Inference fails with the error of the first branch that fails, and succeeds where none does. An ontology replies to
every query that is asked.
-/

namespace OntologyTyping

/-! ### Slots without a role -/

/-- The slots without a role among the slots of a relation. -/
def Property.rolelessSlots (relation : VarName) : Property → List MissingRole
  | .relation slots => (slots.filter (·.role.isNone)).map fun slot => ⟨relation, slot.player⟩
  | _ => []

/-- The slots without a role: by atom, by property, and by slot. -/
def Branch.rolelessSlots (b : Branch) : List MissingRole :=
  b.flatMap fun a => a.properties.flatMap (Property.rolelessSlots a.name)

namespace Hint

def roleless? : Hint → Option MissingRole
  | .slot r ⟨none, p⟩ => some ⟨r, p⟩
  | _ => none

theorem clues_cons_eq_error {policy : MissingRoles} {s : Supply} {h : Hint} {rest : List Hint} {slot : MissingRole} :
    clues policy s (h :: rest) = .error slot ↔
      h.clue policy s = .error slot ∨ ∃ c s₁, h.clue policy s = .ok (c, s₁) ∧ clues policy s₁ rest = .error slot := by
  rw [clues]
  cases hclue : h.clue policy s with
  | error slot' => simp [bind, Except.bind]
  | ok r =>
    obtain ⟨c, s₁⟩ := r
    cases hclues : clues policy s₁ rest <;> simp [bind, Except.bind, pure, Except.pure, hclues]

/-- Clues fail at the first slot without a role, where roles must be named. -/
theorem clues_eq_error_iff {policy : MissingRoles} {s : Supply} {hs : List Hint} {slot : MissingRole} :
    clues policy s hs = .error slot ↔ policy = .reject ∧ hs.findSome? roleless? = some slot := by
  induction hs generalizing s with
  | nil => simp [clues]
  | cons h rest ih =>
    rw [clues_cons_eq_error]
    rcases h with ⟨v, l⟩ | ⟨r, ⟨_ | ⟨l | a⟩, p⟩⟩
    · simp [clue, List.findSome?_cons, roleless?, ih]
    · cases policy <;> simp [clue, List.findSome?_cons, roleless?, ih]
    · simp [clue, List.findSome?_cons, roleless?, ih]
    · simp [clue, List.findSome?_cons, roleless?, ih]

end Hint

theorem Branch.rolelessSlots_eq_hints {b : Branch} : b.rolelessSlots = b.hints.filterMap Hint.roleless? := by
  have hslots : ∀ (r : VarName) (slots : List RolePlayer), (slots.map (Hint.slot r)).filterMap Hint.roleless? =
      (slots.filter (·.role.isNone)).map fun slot => ⟨r, slot.player⟩ := by
    intro r slots
    induction slots with
    | nil => rfl
    | cons slot rest ih =>
      obtain ⟨_ | role, p⟩ := slot
      · simpa [List.filterMap_cons, Hint.roleless?] using ih
      · simpa [List.filterMap_cons, Hint.roleless?] using ih
  have hprop : ∀ s : Statement, s.2.rolelessSlots s.1 = (Hint.ofStatement s).filterMap Hint.roleless? := by
    rintro ⟨v, p⟩
    unfold Hint.ofStatement
    split
    · rename_i heq
      obtain ⟨rfl, rfl⟩ := Prod.mk.inj heq
      rfl
    · rename_i heq
      obtain ⟨rfl, rfl⟩ := Prod.mk.inj heq
      exact (hslots _ _).symm
    · rename_i hnot
      cases p with
      | relation slots => exact absurd rfl (hnot v slots)
      | _ => rfl
  simp only [rolelessSlots, hints, statements, List.filterMap_flatMap, List.flatMap_assoc, List.flatMap_map, ← hprop]

/-! ### Progress of a run -/

/-- How far a run has come: the queries that it has asked, and what is left of its supply. -/
structure Progress where
  asked : List Query
  supply : Supply

namespace Progress

def start (settings : Settings) (p : Pattern) : Progress :=
  ⟨[], .forAtoms settings.stem p.atoms⟩

/-- The progress when one more branch is inferred. -/
def next (settings : Settings) (store : Store) (s : Progress) (b : Branch) : Progress :=
  ⟨s.asked ++ (b.infer settings store s.asked s.supply).1.query?.toList, (b.infer settings store s.asked s.supply).2⟩

end Progress

/-- The error with which a branch fails. Where roles must be named, this is the first slot without one; where there
are clues, what the store says instead of a reply to their query. -/
inductive Branch.Fails (settings : Settings) (store : Store) (s : Progress) (b : Branch) : InferenceError → Prop
  | malformedRelation {slot : MissingRole} (hpolicy : settings.missingRoles = .reject)
      (hfirst : b.rolelessSlots.head? = some slot) : Fails settings store s b (.malformedRelation slot)
  | queryFailed {cs : List Clue} {supply : Supply} {cause : QueryError}
      (hclues : b.clues settings.missingRoles s.supply = .ok (cs, supply)) (hquery : (Evidence.ofClues cs).query ≠ [])
      (hreply : store s.asked (Evidence.ofClues cs).query = .error cause) :
      Fails settings store s b (.queryFailed cause)

/-- The branch with this index fails, in a run that has come that far. -/
def FailsAt (settings : Settings) (store : Store) (s : Progress) (bs : List Branch) (k : Nat)
    (e : InferenceError) : Prop :=
  ∃ b, bs[k]? = some b ∧ b.Fails settings store ((bs.take k).foldl (Progress.next settings store) s) e

section Run
variable {settings : Settings} {store : Store} {s : Progress} {b : Branch} {bs : List Branch} {e : InferenceError}

theorem Branch.clues_eq_error_iff {policy : MissingRoles} {supply : Supply} {slot : MissingRole} :
    b.clues policy supply = .error slot ↔ policy = .reject ∧ b.rolelessSlots.head? = some slot := by
  rw [clues, Hint.clues_eq_error_iff, rolelessSlots_eq_hints, List.head?_filterMap]

/-- One step: a branch fails when inferring it gives an error. -/
theorem Branch.fails_iff :
    b.Fails settings store s e ↔ (b.infer settings store s.asked s.supply).1.error? = some e := by
  constructor
  · intro h
    cases h with
    | malformedRelation hpolicy hfirst =>
      have hclues : b.clues settings.missingRoles s.supply = .error _ := clues_eq_error_iff.mpr ⟨hpolicy, hfirst⟩
      simp [infer, hclues, Outcome.error?]
    | queryFailed hclues hquery hreply => simp [infer, hclues, hquery, hreply, Outcome.error?]
  · have hinfers : b.Infers settings store s.asked s.supply _ _ := infers
    generalize b.infer settings store s.asked s.supply = result at hinfers ⊢
    obtain ⟨out, supply'⟩ := result
    intro h
    cases hinfers with
    | malformed hclues =>
      obtain rfl := Option.some.inj h
      obtain ⟨hpolicy, hfirst⟩ := clues_eq_error_iff.mp hclues
      exact .malformedRelation hpolicy hfirst
    | skipped _ | answered _ _ _ => cases h
    | unanswered hclues hne hreply =>
      obtain rfl := Option.some.inj h
      exact .queryFailed hclues (fun hquery => hne (query_eq_nil_iff.mp hquery)) hreply

theorem failsAt_zero : FailsAt settings store s (b :: bs) 0 e ↔ b.Fails settings store s e := by
  simp [FailsAt]

theorem failsAt_succ {k : Nat} :
    FailsAt settings store s (b :: bs) (k + 1) e ↔ FailsAt settings store (s.next settings store b) bs k e := by
  simp [FailsAt]

/-- The error of a run is that of the first branch that fails. -/
theorem error?_inferBranches :
    (inferBranches settings store s.asked s.supply bs).findSome? (·.2.error?) = some e ↔
      ∃ k, FailsAt settings store s bs k e ∧ ∀ j < k, ∀ e', ¬FailsAt settings store s bs j e' := by
  induction bs generalizing s with
  | nil => simp [inferBranches, FailsAt]
  | cons b rest ih =>
    rw [inferBranches, List.findSome?_cons]
    -- Where the first branch fails, no later one is first; else the run goes on with the progress it made.
    cases herror : (b.infer settings store s.asked s.supply).1.error? with
    | some e₀ =>
      have hfails : FailsAt settings store s (b :: rest) 0 e₀ := failsAt_zero.mpr (Branch.fails_iff.mpr herror)
      constructor
      · intro h
        obtain rfl := Option.some.inj h
        exact ⟨0, hfails, by simp⟩
      · rintro ⟨k, hk, hfirst⟩
        cases k with
        | zero =>
          have := Branch.fails_iff.mp (failsAt_zero.mp hk)
          rwa [herror] at this
        | succ k => exact absurd hfails (hfirst 0 (Nat.succ_pos k) e₀)
    | none =>
      have hpasses : ∀ e', ¬FailsAt settings store s (b :: rest) 0 e' := by
        intro e' hfails
        have := Branch.fails_iff.mp (failsAt_zero.mp hfails)
        rw [herror] at this
        cases this
      have hrest := ih (s := s.next settings store b)
      simp only [Option.isSome_none, Bool.false_eq_true, if_false]
      refine hrest.trans ⟨?_, ?_⟩
      · rintro ⟨k, hk, hfirst⟩
        refine ⟨k + 1, failsAt_succ.mpr hk, fun j hj e' hfails => ?_⟩
        cases j with
        | zero => exact hpasses e' hfails
        | succ j => exact hfirst j (Nat.lt_of_succ_lt_succ hj) e' (failsAt_succ.mp hfails)
      · rintro ⟨k, hk, hfirst⟩
        cases k with
        | zero => exact absurd hk (hpasses e)
        | succ k =>
          exact ⟨k, failsAt_succ.mp hk,
            fun j hj e' hfails => hfirst (j + 1) (Nat.succ_lt_succ hj) e' (failsAt_succ.mpr hfails)⟩

end Run

/-! ### Errors of a pattern -/

/-- The branch of the pattern with this index fails, when inference comes to it. -/
def Pattern.FailsAt (settings : Settings) (store : Store) (p : Pattern) (k : Nat) (e : InferenceError) : Prop :=
  OntologyTyping.FailsAt settings store (.start settings p) p.branches k e

namespace Pattern

variable {settings : Settings} {store : Store} {p : Pattern}

theorem inferTypes_eq_error {e : InferenceError} :
    p.inferTypes settings store = .error e ↔ (p.infer settings store).error? = some e := by
  rw [inferTypes, Inference.outcome]
  split
  · rename_i e' he'
    simp [he']
  · rename_i hnone
    simp [hnone]

theorem inferTypes_eq_error_iff {e : InferenceError} :
    p.inferTypes settings store = .error e ↔
      ∃ k, p.FailsAt settings store k e ∧ ∀ j < k, ∀ e', ¬p.FailsAt settings store j e' :=
  inferTypes_eq_error.trans (error?_inferBranches (s := .start settings p))

theorem inferTypes_isOk_iff : (∃ t, p.inferTypes settings store = .ok t) ↔ ∀ k e, ¬p.FailsAt settings store k e := by
  constructor
  · rintro ⟨t, ht⟩ k e hfails
    classical
    have hex : ∃ k, ∃ e, p.FailsAt settings store k e := ⟨k, e, hfails⟩
    obtain ⟨e', hfails'⟩ := Nat.find_spec hex
    have herror := inferTypes_eq_error_iff.mpr ⟨_, hfails', fun j hj e'' hj' => Nat.find_min hex hj ⟨e'', hj'⟩⟩
    rw [ht] at herror
    cases herror
  · intro hpasses
    cases hrun : p.inferTypes settings store with
    | ok t => exact ⟨t, rfl⟩
    | error e =>
      obtain ⟨k, hfails, -⟩ := inferTypes_eq_error_iff.mp hrun
      exact absurd hfails (hpasses k e)

end Pattern

/-! ### Queries of a run -/

/-- What a query asks: a label above a variable, or the role that it plays or relates. -/
inductive Property.Asked : Property → Prop
  | sub (l : Label) : Asked (.sub (.label l))
  | plays (v : VarName) : Asked (.plays (.var v))
  | relates (v : VarName) : Asked (.relates (.var v))

theorem Clue.asked {c : Clue} {s : Statement} (hs : s ∈ statements (Evidence.ofClue c).atoms) : s.2.Asked := by
  have hslot : ∀ r p a, s ∈ statements (Evidence.slotAtoms r p a) → s.2.Asked := by
    intro r p a hs
    simp only [statements, Evidence.slotAtoms, List.flatMap_cons, List.flatMap_nil, List.map_cons, List.map_nil,
      List.cons_append, List.nil_append, List.mem_cons, List.not_mem_nil, or_false] at hs
    rcases hs with rfl | rfl
    · exact .plays a
    · exact .relates a
  rcases c with ⟨v, l⟩ | ⟨r, p, a, l | _ | _⟩
  · obtain rfl := List.mem_singleton.mp hs
    exact .sub l
  · rcases mem_statements_cons.mp hs with ⟨-, hsub⟩ | hs
    · rw [List.mem_singleton.mp hsub]
      exact .sub l
    · exact hslot r p a hs
  · exact hslot r p a hs
  · exact hslot r p a hs

theorem Inference.asked_of_mem_queries {i : Inference} {q : Query} (hq : q ∈ i.queries) {s : Statement}
    (hs : s ∈ statements q) : s.2.Asked := by
  obtain ⟨⟨b, out⟩, -, hquery⟩ := List.mem_filterMap.mp hq
  have hclues : ∃ cs, (Evidence.ofClues cs).query = q := by
    cases out with
    | malformed _ | skipped => cases hquery
    | unanswered cs _ | answered cs _ _ => exact ⟨cs, Option.some.inj hquery⟩
  obtain ⟨cs, rfl⟩ := hclues
  obtain ⟨c, -, hs⟩ := Evidence.mem_statements_query.mp hs
  exact Clue.asked hs

/-- An ontology replies to whatever a run asks. -/
theorem Branch.Fails.exists_slot {settings : Settings} {o : Ontology} {s : Progress} {b : Branch} {e : InferenceError}
    (h : b.Fails settings o.store s e) : ∃ slot, e = .malformedRelation slot := by
  cases h with
  | @malformedRelation slot _ _ => exact ⟨slot, rfl⟩
  | queryFailed _ _ hreply => exact absurd hreply store_query_ne_error

/-- Inference succeeds where no branch fails, and else fails with the error of the first branch that does: where
roles must be named, on the first slot without one, and otherwise with what the store says. All that is asked of the
store are labels above variables and the roles that they play or relate, and to this an ontology always replies. -/
theorem Pattern.inferTypes_fails_first (settings : Settings) (store : Store) (p : Pattern) :
    ((∃ t, p.inferTypes settings store = .ok t) ↔ ∀ k e, ¬p.FailsAt settings store k e) ∧
    (∀ e, p.inferTypes settings store = .error e ↔
      ∃ k, p.FailsAt settings store k e ∧ ∀ j < k, ∀ e', ¬p.FailsAt settings store j e') ∧
    (∀ e, p.inferTypes settings store = .error e →
      (∃ slot, e = .malformedRelation slot ∧ e.stage = "ConstraintExtraction") ∨
        ∃ cause, e = .queryFailed cause ∧ e.stage = "SchemaExecution") ∧
    (∀ q ∈ (p.infer settings store).queries, ∀ s ∈ statements q, s.2.Asked) ∧
    ∀ (o : Ontology) (cause : QueryError), p.inferTypes settings o.store ≠ .error (.queryFailed cause) := by
  refine ⟨inferTypes_isOk_iff, fun _ => inferTypes_eq_error_iff, fun e _ => ?_,
    fun q hq s hs => Inference.asked_of_mem_queries hq hs, fun o cause herror => ?_⟩
  · cases e with
    | malformedRelation slot => exact Or.inl ⟨slot, rfl, rfl⟩
    | queryFailed cause => exact Or.inr ⟨cause, rfl, rfl⟩
  · obtain ⟨k, ⟨b, -, hfails⟩, -⟩ := inferTypes_eq_error_iff.mp herror
    obtain ⟨slot, hslot⟩ := hfails.exists_slot
    cases hslot

/-- Three branches, the last of them with a slot without a role. -/
def crowdPattern : Pattern :=
  .any [.atom ⟨⟨"x"⟩, [.isa (.label ⟨"movie"⟩)]⟩, .atom ⟨⟨"r"⟩, [.relation [⟨some (.var ⟨"a"⟩), ⟨"x"⟩⟩]]⟩,
    .atom ⟨⟨"r"⟩, [.relation [⟨some (.label ⟨"actor"⟩), ⟨"x"⟩⟩, ⟨none, ⟨"y"⟩⟩, ⟨none, ⟨"z"⟩⟩]]⟩]

/-- The store fails on the second query. -/
def brokenStore : Store :=
  .ofReplies [.ok [], .error (.backend "connection refused")]

theorem inferTypes_fails_first_crowdPattern :
    crowdPattern.inferTypes {} brokenStore = .error (.queryFailed (.backend "connection refused")) ∧
      (∃ k, crowdPattern.FailsAt {} brokenStore k (.queryFailed (.backend "connection refused")) ∧
        ∀ j < k, ∀ e, ¬crowdPattern.FailsAt {} brokenStore j e) ∧
      crowdPattern.FailsAt {} brokenStore 2 (.malformedRelation ⟨⟨"r"⟩, ⟨"y"⟩⟩) := by
  have herror : (crowdPattern.infer {} brokenStore).error? = some (.queryFailed (.backend "connection refused")) := by
    decide +kernel
  have hrun := Pattern.inferTypes_eq_error.mpr herror
  exact ⟨hrun, ((Pattern.inferTypes_fails_first {} brokenStore crowdPattern).2.1 _).mp hrun,
    _, rfl, .malformedRelation rfl (by decide +kernel)⟩

end OntologyTyping
