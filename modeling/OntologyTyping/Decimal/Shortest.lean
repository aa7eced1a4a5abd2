import OntologyTyping.Decimal.Double

/-!
The shortest decimal that reads back as a given floating-point number.

The reals that round to `m · 2 ^ q` form an interval around it. For one digit, two digits, and so on, the number's
two neighbours on the decimal grid with that many digits are tested against the interval; the first grid with a hit
gives the decimal. Of two hits on one grid the nearer wins, and `Tie` decides between equally near ones.
-/

namespace OntologyTyping.Decimal

/-- The decimal `coefficient · 10 ^ exponent`. -/
structure Scientific where
  coefficient : Nat
  exponent : Int
deriving DecidableEq

/-- Which of two equally near neighbours is taken. -/
inductive Tie where
  | up
  | toEven
deriving DecidableEq

/-- The reals that round to a positive number, as fractions over one denominator: the number itself and the two ends. -/
structure Rounding where
  low : Nat
  value : Nat
  high : Nat
  denominator : Nat
  closed : Bool

/-- The rounding interval of `significand · 2 ^ scale`. Below a power of two the spacing halves, so the lower end is
nearer there; the ends belong to the interval when the significand is even. -/
def Double.rounding (d : Double) : Rounding :=
  let m := d.significand
  let gap := if d.fraction = 0 ∧ 1 < d.exponentField then 1 else 2
  let q := d.scale - 2
  let unit := Nat.pow 2 q.toNat
  { low := (4 * m - gap) * unit, value := 4 * m * unit, high := (4 * m + 2) * unit
    denominator := Nat.pow 2 (-q).toNat, closed := m % 2 == 0 }

namespace Rounding

/-- The interval measured in steps of `10 ^ power`. -/
def inSteps (r : Rounding) (power : Int) : Rounding :=
  let widen := Nat.pow 10 (-power).toNat
  { r with
    low := r.low * widen, value := r.value * widen, high := r.high * widen
    denominator := r.denominator * Nat.pow 10 power.toNat }

/-- Whether a whole number of steps lies in the interval. -/
def contains (r : Rounding) (n : Nat) : Bool :=
  let p := n * r.denominator
  if r.closed then r.low ≤ p && p ≤ r.high else r.low < p && p < r.high

/-- The whole number of steps in the interval that is nearest to the value, if one of its two neighbours is in it. -/
def nearest? (r : Rounding) (tie : Tie) : Option Nat :=
  let below := r.value / r.denominator
  let above := below + 1
  if r.value % r.denominator = 0 then some below
  else match r.contains below, r.contains above with
    | false, false => none
    | true, false => some below
    | false, true => some above
    | true, true =>
      let twice := 2 * (r.value % r.denominator)
      if twice < r.denominator then some below
      else if r.denominator < twice then some above
      else match tie with
        | .up => some above
        | .toEven => some (if below % 2 = 0 then below else above)

/-- The largest `e` with `10 ^ e` at most the value, found by counting up from a lower bound. -/
def magnitude (r : Rounding) : Nat → Int → Int
  | 0, e => e
  | fuel + 1, e =>
    let next := r.inSteps (e + 1)
    if next.denominator ≤ next.value then r.magnitude fuel (e + 1) else e

/-- Tries the grids from `10 ^ power` downwards. -/
def search (r : Rounding) (tie : Tie) : Nat → Int → Scientific
  | 0, power => ⟨(r.inSteps power).value / (r.inSteps power).denominator, power⟩
  | fuel + 1, power =>
    match (r.inSteps power).nearest? tie with
    | some n => ⟨n, power⟩
    | none => r.search tie fuel (power - 1)

end Rounding

/-- Moves the zeros at the end of the coefficient into the exponent. -/
def Scientific.stripZeros : Nat → Scientific → Scientific
  | 0, x => x
  | fuel + 1, x =>
    if x.coefficient ≠ 0 ∧ x.coefficient % 10 = 0 then stripZeros fuel ⟨x.coefficient / 10, x.exponent + 1⟩ else x

/-- The shortest decimal that reads back as the absolute value of a finite number. Seventeen digits always suffice. -/
def Double.shortest (tie : Tie) (d : Double) : Scientific :=
  if d.significand = 0 then ⟨0, 0⟩
  else
    let r := d.rounding
    let bits : Int := Nat.log2 d.significand + d.scale
    let guess := bits * 30103 / 100000 - 1
    (r.search tie 17 (r.magnitude 4 guess)).stripZeros 20

end OntologyTyping.Decimal
