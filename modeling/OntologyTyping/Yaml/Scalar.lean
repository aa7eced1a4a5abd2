import OntologyTyping.Decimal.Double
import OntologyTyping.Yaml.Node

/-!
What plain scalars stand for: null, truth values, numbers and, for all else, their text.
-/

namespace OntologyTyping.Yaml

open Decimal (Double)

def isNullWord (s : String) : Bool :=
  s = "null" || s = "Null" || s = "NULL" || s = "~"

def bool? : String → Option Bool
  | "true" => some true
  | "True" => some true
  | "TRUE" => some true
  | "false" => some false
  | "False" => some false
  | "FALSE" => some false
  | _ => none

/-! ### Whole numbers -/

def digitValue? (radix : Nat) (c : Char) : Option Nat :=
  let n := if c.isDigit then c.toNat - '0'.toNat
    else if 'a' ≤ c && c ≤ 'z' then c.toNat - 'a'.toNat + 10
    else if 'A' ≤ c && c ≤ 'Z' then c.toNat - 'A'.toNat + 10
    else radix
  if n < radix then some n else none

/-- The number that digits stand for. -/
def natural? (radix : Nat) (digits : List Char) : Option Nat :=
  if digits.isEmpty then none else digits.foldlM (fun n d => (digitValue? radix d).map (radix * n + ·)) 0

/-- A number in base 16, 8 or 2 by its mark, else in base 10. -/
def marked? : List Char → Option Nat
  | '0' :: 'x' :: digits => natural? 16 digits
  | '0' :: 'o' :: digits => natural? 8 digits
  | '0' :: 'b' :: digits => natural? 2 digits
  | digits => natural? 10 digits

/-- Whether the text is made of digits after a leading zero, which is no number. -/
def hasLeadingZero (cs : List Char) : Bool :=
  let digits := match cs with
    | '-' :: rest => rest
    | '+' :: rest => rest
    | _ => cs
  match digits with
  | '0' :: d :: rest => (d :: rest).all Char.isDigit
  | _ => false

/-- A whole number. -/
def int? (cs : List Char) : Option Int :=
  if hasLeadingZero cs then none
  else match cs with
    | '-' :: rest => (marked? rest).map fun n => -(n : Int)
    | '+' :: rest => (marked? rest).map fun n => (n : Int)
    | _ => (marked? cs).map fun n => (n : Int)

/-! ### Numbers with a point or an exponent -/

/-- An exponent, or none where the text goes wrong. -/
def exponent? : List Char → Option Int
  | [] => some 0
  | e :: rest =>
    if e = 'e' || e = 'E' then match rest with
      | '-' :: digits => (natural? 10 digits).map fun n => -(n : Int)
      | '+' :: digits => (natural? 10 digits).map fun n => (n : Int)
      | digits => (natural? 10 digits).map fun n => (n : Int)
    else none

/-- A decimal number without a sign. -/
def decimal? (cs : List Char) : Option Double := do
  let (whole, rest) := cs.span Char.isDigit
  let (fraction, rest) := match rest with
    | '.' :: more => more.span Char.isDigit
    | _ => ([], rest)
  let coefficient ← natural? 10 (whole ++ fraction)
  let exponent ← exponent? rest
  let d := Double.ofDecimal coefficient (exponent - fraction.length)
  if d.isFinite then some d else none

/-- A floating-point number. -/
def float? (s : String) : Option Double :=
  if s = ".inf" || s = ".Inf" || s = ".INF" || s = "+.inf" || s = "+.Inf" || s = "+.INF" then some .infinity
  else if s = "-.inf" || s = "-.Inf" || s = "-.INF" then some Double.infinity.negate
  else if s = ".nan" || s = ".NaN" || s = ".NAN" then some .notANumber
  else match s.toList with
    | '-' :: rest => (decimal? rest).map Double.negate
    | '+' :: rest => decimal? rest
    | cs => decimal? cs

/-! ### Values -/

/-- What a plain scalar stands for. -/
inductive Value where
  | null
  | bool (b : Bool)
  | int (i : Int)
  | float (d : Double)
  | text (s : String)
deriving DecidableEq

/-- The value of a plain scalar. A whole number that does not fit into 128 bits is read as a floating-point number. -/
def valueOf (s : String) : Value :=
  if s = "" || isNullWord s then .null
  else match bool? s with
    | some b => .bool b
    | none =>
      match (int? s.toList).filter fun i => -Int.pow 2 127 ≤ i && i < Int.pow 2 128 with
      | some i => .int i
      | none =>
        if hasLeadingZero s.toList then .text s
        else match float? s with
          | some d => .float d
          | none => .text s

end OntologyTyping.Yaml
