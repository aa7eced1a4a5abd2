import OntologyTyping.Json.Lexeme

/-!
The JSON value that a text stands for. Values may be nested at most 127 deep. A key that an object has twice stands
where it was first, with the value that it has last.
-/

namespace OntologyTyping.Json

/-- How many lists and objects can be open at once, and one more. -/
def deepest : Nat := 128

/-- The entries with a further one; a key that is there keeps its place. -/
def putEntry (key : String) (j : Json) : List (String × Json) → List (String × Json)
  | [] => [(key, j)]
  | (k, old) :: rest => if k = key then (k, j) :: rest else (k, old) :: putEntry key j rest

namespace Scanner

/-- The entries of an object up to its end. -/
def entries (value : Scanner Json) : (fuel : Nat) → (first : Bool) → List (String × Json) →
    Scanner (List (String × Json))
  | 0, _, done => return done
  | fuel + 1, first, done => do
    if ← hasKey first then
      eat
      let key ← stringTail
      colon
      entries value fuel false (putEntry key (← value) done)
    else return done

/-- A value, whatever it is. -/
def value : (depth : Nat) → Scanner Json
  | 0 => failAhead .tooDeep
  | depth + 1 => do
    match ← peekValue with
    | '[' =>
      if depth = 0 then failAhead .tooDeep
      else
        eat
        return .arr (← closedBy (items (value depth) ((← get).length + 1) true) endList)
    | '\x7b' =>
      if depth = 0 then failAhead .tooDeep
      else
        eat
        return .obj (← closedBy (entries (value depth) ((← get).length + 1) true []) endObject)
    | c =>
      match ← piece? c with
      | some j => return j
      | none => failAhead .expectedValue

end Scanner

/-- The JSON value that a text stands for. -/
def parse (text : String) : Except ParseError Json :=
  readText (Scanner.value deepest) text

end OntologyTyping.Json
