import OntologyTyping.Decimal.Double

/-!
JSON values. The entries of an object keep the order in which they were written, and whole numbers stay apart from
numbers with a point or an exponent.
-/

namespace OntologyTyping

/-- A JSON value. -/
inductive Json where
  | null
  | bool (b : Bool)
  | int (i : Int)
  | float (d : Decimal.Double)
  | str (s : String)
  | arr (items : List Json)
  | obj (entries : List (String × Json))
deriving Inhabited

namespace Json

/-- The first entry of an object under a key. -/
def get? (j : Json) (key : String) : Option Json :=
  match j with
  | .obj entries => entries.lookup key
  | _ => none

/-- A list of texts as an array. -/
def strs (texts : List String) : Json :=
  .arr (texts.map .str)

/-- The text, or null where there is none. -/
def strOrNull : Option String → Json
  | some s => .str s
  | none => .null

end Json

end OntologyTyping
