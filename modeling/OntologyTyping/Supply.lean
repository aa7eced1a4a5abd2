import OntologyTyping.Pattern.Basic

/-!
Names for placeholder variables: a stem followed by a number, never a name that is in use.
-/

namespace OntologyTyping

/-- A supply of placeholder names. -/
structure Supply where
  stem : String
  /-- The names that are in use, among them those already handed out. -/
  used : List VarName
  /-- The next number to try. -/
  next : Nat
deriving DecidableEq, Inhabited

namespace Supply

/-- A supply with nothing in use. -/
def ofStem (stem : String) : Supply :=
  ⟨stem, [], 0⟩

/-- Takes names into use. -/
def reserve (s : Supply) (names : List VarName) : Supply :=
  { s with used := names ++ s.used }

/-- A supply that avoids the names of a list of atoms. -/
def forAtoms (stem : String) (atoms : List Atom) : Supply :=
  (ofStem stem).reserve (varsOf atoms)

/-- The name with a number. -/
def candidate (s : Supply) (n : Nat) : VarName :=
  .ofText (s.stem ++ toString n)

/-- The first number from `n` on whose name is not in use, after at most `tries` names that are. -/
def firstFree (s : Supply) : (tries : Nat) → (n : Nat) → Nat
  | 0, n => n
  | tries + 1, n => if s.used.contains (s.candidate n) then s.firstFree tries (n + 1) else n

/-- Hands out the next free name. Among one more number than there are names in use, one is free. -/
def fresh (s : Supply) : VarName × Supply :=
  let n := s.firstFree s.used.length s.next
  (s.candidate n, { s with used := s.candidate n :: s.used, next := n + 1 })

/-- Hands out several names. -/
def freshMany (s : Supply) : Nat → List VarName × Supply
  | 0 => ([], s)
  | n + 1 =>
    let (v, s) := s.fresh
    let (vs, s) := s.freshMany n
    (v :: vs, s)

end Supply

end OntologyTyping
