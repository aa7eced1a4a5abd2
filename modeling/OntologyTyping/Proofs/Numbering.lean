import OntologyTyping.Proofs.Fresh

/-!
The numbers of the names that a supply hands out.

A supply is asked for fresh names and told of names to avoid, in any order. It tries number after number. Different
numbers give different names and only finitely many names are in use, so the tries come to an end. They end with the
least number from the counter on whose name was neither reserved nor returned before.
-/

namespace OntologyTyping.Supply

variable {s s' : Supply} {stem : String} {n : Nat}

/-! ### Tries -/

/-- One try: the name with the next number is returned if it is free, and the counter goes on either way. -/
def attempt (s : Supply) : (VarName × Supply) ⊕ Supply :=
  if s.used.contains (s.candidate s.next) then .inr { s with next := s.next + 1 }
  else .inl (s.candidate s.next, { s with used := s.candidate s.next :: s.used, next := s.next + 1 })

/-- Trying for as long as it takes comes to an end with this name and this supply. -/
inductive Ends : Supply → VarName × Supply → Prop
  | returned {s : Supply} {r : VarName × Supply} (h : s.attempt = .inl r) : Ends s r
  | again {s s' : Supply} {r : VarName × Supply} (h : s.attempt = .inr s') (hends : Ends s' r) : Ends s r

theorem Ends.unique {r r' : VarName × Supply} (h : s.Ends r) (h' : s.Ends r') : r = r' := by
  induction h with
  | returned hr =>
    cases h' with
    | returned hr' => exact Sum.inl.inj (hr.symm.trans hr')
    | again hs' _ => cases hr.symm.trans hs'
  | again hs _ ih =>
    cases h' with
    | returned hr' => cases hs.symm.trans hr'
    | again hs' h' =>
      cases hs.symm.trans hs'
      exact ih h'

theorem ends_of_isLeast (h : IsLeast {m | s.next ≤ m ∧ s.candidate m ∉ s.used} n) :
    s.Ends (s.candidate n, { s with used := s.candidate n :: s.used, next := n + 1 }) := by
  -- By induction on the tries that are left: a try that fails moves the counter one nearer to the number.
  obtain ⟨k, rfl⟩ := Nat.exists_eq_add_of_le h.1.1
  induction k generalizing s with
  | zero =>
    have hfree : s.used.contains (s.candidate s.next) = false := by simpa using h.1.2
    exact .returned (by rw [attempt, hfree]; rfl)
  | succ k ih =>
    have hused : s.used.contains (s.candidate s.next) = true := by
      by_contra hfree
      have := h.2 ⟨Nat.le_refl s.next, by simpa using hfree⟩
      omega
    have hstep : s.attempt = .inr { s with next := s.next + 1 } := by
      rw [attempt, hused]
      rfl
    refine .again hstep ?_
    rw [show s.next + (k + 1) = s.next + 1 + k by omega] at h ⊢
    refine ih (s := { s with next := s.next + 1 }) ⟨⟨Nat.le_add_right _ _, h.1.2⟩, fun m hm => h.2 ⟨?_, hm.2⟩⟩
    exact Nat.le_of_succ_le hm.1

theorem ends_iff {r : VarName × Supply} : s.Ends r ↔ r = s.fresh := by
  have hfresh : s.Ends s.fresh := ends_of_isLeast isLeast_firstFree
  exact ⟨fun h => h.unique hfresh, fun h => h ▸ hfresh⟩

/-! ### Runs of calls -/

inductive Call where
  | reserve (names : List VarName)
  | fresh

/-- The names that calls return, and the supply that they leave. -/
def run (s : Supply) : List Call → List VarName × Supply
  | [] => ([], s)
  | .reserve names :: rest => (s.reserve names).run rest
  | .fresh :: rest => (s.fresh.1 :: (s.fresh.2.run rest).1, (s.fresh.2.run rest).2)

/-- The names that calls reserve. -/
def reservedBy : List Call → List VarName
  | [] => []
  | .reserve names :: rest => names ++ reservedBy rest
  | .fresh :: rest => reservedBy rest

/-- The counter that is left when these names have been returned: one more than the number of the last. -/
def CounterAfter (stem : String) (returned : List VarName) (counter : Nat) : Prop :=
  (returned = [] ∧ counter = 0) ∨ ∃ earlier n, returned = earlier ++ [(ofStem stem).candidate n] ∧ counter = n + 1

theorem run_append {calls calls' : List Call} :
    s.run (calls ++ calls') = ((s.run calls).1 ++ ((s.run calls).2.run calls').1, ((s.run calls).2.run calls').2) := by
  induction calls generalizing s with
  | nil => rfl
  | cons c rest ih =>
    cases c with
    | reserve names => exact ih
    | fresh => simp only [List.cons_append, run, ih]

/-- What a supply knows of its past. -/
structure Records (stem : String) (reserved returned : List VarName) (s : Supply) : Prop where
  stem_eq : s.stem = stem
  used : ∀ v, v ∈ s.used ↔ v ∈ reserved ∨ v ∈ returned
  counter : CounterAfter stem returned s.next
  distinct : returned.Nodup

namespace Records
variable {reserved returned : List VarName}

theorem candidate (h : Records stem reserved returned s) : s.candidate n = (ofStem stem).candidate n := by
  rw [Supply.candidate, h.stem_eq]
  rfl

theorem reserve (h : Records stem reserved returned s) (names : List VarName) :
    Records stem (reserved ++ names) returned (s.reserve names) where
  stem_eq := h.stem_eq
  used v := by
    simp only [Supply.reserve, List.mem_append, h.used]
    tauto
  counter := h.counter
  distinct := h.distinct

theorem fresh (h : Records stem reserved returned s) :
    Records stem reserved (returned ++ [s.fresh.1]) s.fresh.2 where
  stem_eq := h.stem_eq
  used v := by
    rw [fresh_used, List.mem_cons, h.used, List.mem_append, List.mem_singleton]
    tauto
  counter := Or.inr ⟨returned, _, congrArg (returned ++ [·]) h.candidate, rfl⟩
  distinct := by
    refine List.nodup_append.mpr ⟨h.distinct, List.nodup_singleton _, ?_⟩
    rintro v hv w hw rfl
    rw [List.mem_singleton.mp hw] at hv
    exact fresh_not_used ((h.used _).mpr (Or.inr hv))

theorem run (h : Records stem reserved returned s) (calls : List Call) :
    Records stem (reserved ++ reservedBy calls) (returned ++ (s.run calls).1) (s.run calls).2 := by
  induction calls generalizing reserved returned s with
  | nil => simpa [Supply.run, reservedBy] using h
  | cons c rest ih =>
    cases c with
    | reserve names => simpa [Supply.run, reservedBy] using ih (h.reserve names)
    | fresh => simpa [Supply.run, reservedBy] using ih h.fresh

end Records

theorem records_run (stem : String) (calls : List Call) :
    Records stem (reservedBy calls) ((ofStem stem).run calls).1 ((ofStem stem).run calls).2 := by
  have hstart : Records stem [] [] (ofStem stem) := ⟨rfl, by simp [ofStem], Or.inl ⟨rfl, rfl⟩, List.nodup_nil⟩
  simpa using hstart.run calls

/-- A call for a fresh name among other calls: the tries come to an end, with the name of the least number that is
not below the counter and whose name was neither reserved nor returned before. So no name is returned twice in the
whole run. -/
theorem run_gapMinimal (stem : String) (before after : List Call) :
    ∃ returned s counter n s', (ofStem stem).run before = (returned, s) ∧ CounterAfter stem returned counter ∧
      IsLeast {m | counter ≤ m ∧ (ofStem stem).candidate m ∉ reservedBy before ∧
        (ofStem stem).candidate m ∉ returned} n ∧
      (∀ r, s.Ends r ↔ r = ((ofStem stem).candidate n, s')) ∧ s.fresh = ((ofStem stem).candidate n, s') ∧
      ((ofStem stem).run (before ++ .fresh :: after)).1 = returned ++ (ofStem stem).candidate n :: (s'.run after).1 ∧
      (returned ++ (ofStem stem).candidate n :: (s'.run after).1).Nodup := by
  obtain ⟨returned, s, hrun⟩ : ∃ returned s, (ofStem stem).run before = (returned, s) := ⟨_, _, rfl⟩
  have hrecords : Records stem (reservedBy before) returned s := by simpa only [hrun] using records_run stem before
  have hleast := isLeast_firstFree (s := s)
  have hname : s.fresh.1 = (ofStem stem).candidate (s.firstFree s.used.length s.next) := hrecords.candidate
  generalize s.firstFree s.used.length s.next = n at hleast hname
  have hnames : ((ofStem stem).run (before ++ .fresh :: after)).1 =
      returned ++ (ofStem stem).candidate n :: (s.fresh.2.run after).1 := by
    rw [run_append, hrun, ← hname]
    rfl
  refine ⟨returned, s, s.next, n, s.fresh.2, hrun, hrecords.counter, ?_, fun r => ?_, Prod.ext hname rfl, hnames, ?_⟩
  · simpa only [hrecords.used, hrecords.candidate, not_or] using hleast
  · rw [ends_iff, ← hname]
  · rw [← hnames]
    exact (records_run stem (before ++ .fresh :: after)).distinct

/-- The dollar sign of the stem does not count, and a number that was passed over does not come back. -/
example :
    ((ofStem "$").run [.reserve [⟨"0"⟩, ⟨"2"⟩], .fresh, .reserve [⟨"1"⟩, ⟨"x"⟩], .fresh]).1 = [⟨"1"⟩, ⟨"3"⟩] := by
  decide +kernel

end OntologyTyping.Supply
