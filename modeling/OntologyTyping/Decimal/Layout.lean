import OntologyTyping.Decimal.Shortest

/-!
How a floating-point number is written: the shortest digits, laid out with or without an exponent.
-/

namespace OntologyTyping.Decimal

/-- The decisions of a number format. Numbers `d.ddd · 10 ^ e` are written out in full when `e` is in the stated
range. -/
structure Layout where
  tie : Tie
  /-- The least and the first too large exponent that is written out in full; none when every exponent is. -/
  fullRange : Option (Int × Int)
  /-- Whether a whole number keeps `.0`. -/
  keepsPoint : Bool
  /-- What stands before an exponent that is not negative. -/
  exponentSign : String := ""
  notANumber : String
  infinity : String

/-- Numbers in JSON: in full from `10 ^ -5` to below `10 ^ 16`, always with a point or an exponent, and every
exponent with its sign. JSON has no other numbers than finite ones. -/
def Layout.json : Layout :=
  { tie := .toEven, fullRange := some (-5, 16), keepsPoint := true, exponentSign := "+", notANumber := "null",
    infinity := "null" }

/-- Numbers in YAML: in full from `10 ^ -5` to below `10 ^ 16`, always with a point or an exponent, and no sign
before an exponent that is not negative. -/
def Layout.yaml : Layout :=
  { tie := .toEven, fullRange := some (-5, 16), keepsPoint := true, notANumber := ".nan", infinity := ".inf" }

/-- Numbers of the query text: never an exponent, and whole numbers without a point. -/
def Layout.text : Layout :=
  { tie := .up, fullRange := none, keepsPoint := false, notANumber := "NaN", infinity := "inf" }

namespace Layout

/-- The digits with the point in its place, for a first digit that stands for `10 ^ e`. -/
def inFull (layout : Layout) (digits : List Char) (e : Int) : List Char :=
  let fraction := fun (ds : List Char) =>
    if ds.isEmpty then (if layout.keepsPoint then ['.', '0'] else []) else '.' :: ds
  if e < 0 then ['0', '.'] ++ List.replicate (-e - 1).toNat '0' ++ digits
  else
    let whole := e.toNat + 1
    digits.take whole ++ List.replicate (whole - digits.length) '0' ++ fraction (digits.drop whole)

/-- The digits with one of them before the point, and the exponent. -/
def withExponent (layout : Layout) (digits : List Char) (e : Int) : List Char :=
  let fraction := if (digits.drop 1).isEmpty then [] else '.' :: digits.drop 1
  let sign := if e < 0 then "-" else layout.exponentSign
  digits.take 1 ++ fraction ++ 'e' :: sign.toList ++ Nat.toDigits 10 e.natAbs

/-- A number in this layout. -/
def write (layout : Layout) (d : Double) : String :=
  if d.isNaN then layout.notANumber
  else
    let sign := if d.isNegative then "-" else ""
    if !d.isFinite then sign ++ layout.infinity
    else
      let x := d.shortest layout.tie
      let digits := Nat.toDigits 10 x.coefficient
      let e := x.exponent + digits.length - 1
      let full := match layout.fullRange with
        | none => true
        | some (low, high) => low ≤ e && e < high
      sign ++ .ofList (if full then layout.inFull digits e else layout.withExponent digits e)

end Layout

end OntologyTyping.Decimal
