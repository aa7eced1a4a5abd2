/-!
Binary floating-point numbers of 64 bits, kept as their bits.

A finite number is `significand · 2 ^ scale`. Two numbers have the same value when neither is a NaN and they are
equal as reals, so the two zeros agree and no NaN agrees with itself.
-/

namespace OntologyTyping.Decimal

/-- A 64-bit floating-point number: a sign bit, eleven bits of exponent and fifty-two bits of fraction. -/
structure Double where
  bits : UInt64
deriving DecidableEq, Inhabited

namespace Double

def isNegative (d : Double) : Bool :=
  d.bits >>> 63 != 0

/-- The eleven bits between the sign and the fraction. -/
def exponentField (d : Double) : Nat :=
  ((d.bits >>> 52) &&& 0x7FF).toNat

def fraction (d : Double) : Nat :=
  (d.bits &&& 0xFFFFFFFFFFFFF).toNat

def isFinite (d : Double) : Bool :=
  d.exponentField < 0x7FF

def isNaN (d : Double) : Bool :=
  !d.isFinite && d.fraction != 0

/-- The integer factor of a finite number: subnormal numbers have no leading one. -/
def significand (d : Double) : Nat :=
  if d.exponentField = 0 then d.fraction else d.fraction + Nat.pow 2 52

/-- The power of two that goes with `significand`. -/
def scale (d : Double) : Int :=
  (max d.exponentField 1 : Nat) - 1075

def isZero (d : Double) : Bool :=
  d.isFinite && d.significand == 0

/-- Equality of values: the two zeros agree, and a NaN agrees with nothing. -/
def sameValue (a b : Double) : Bool :=
  !a.isNaN && !b.isNaN && (a.bits == b.bits || (a.isZero && b.isZero))

def ofFloat (x : Float) : Double :=
  ⟨x.toBits⟩

def toFloat (d : Double) : Float :=
  Float.ofBits d.bits

def negate (d : Double) : Double :=
  ⟨d.bits ^^^ 0x8000000000000000⟩

def infinity : Double := ⟨0x7FF0000000000000⟩

def notANumber : Double := ⟨0x7FF8000000000000⟩

/-- The number nearest to `coefficient · 10 ^ exponent`. Beyond the range of the format it is infinity or zero,
which the count of digits decides before any large power is formed. -/
def ofDecimal (coefficient : Nat) (exponent : Int) : Double :=
  let magnitude : Int := (Nat.toDigits 10 coefficient).length + exponent
  if coefficient = 0 ∨ magnitude < -400 then ⟨0⟩
  else if 400 < magnitude then infinity
  else ofFloat (Float.ofScientific coefficient (exponent < 0) exponent.natAbs)

/-- The number nearest to a power of ten. -/
def tenTo (exponent : Nat) : Double :=
  ofDecimal 1 exponent

/-- The largest power of ten that is finite. -/
def largestTen : Nat := 308

/-- The number divided by `10 ^ exponent`, with a rounding for every 308 digits of the shift. -/
def shiftDown : (fuel : Nat) → Double → (exponent : Nat) → Double
  | 0, d, _ => d
  | fuel + 1, d, exponent =>
    if exponent ≤ largestTen then ofFloat (d.toFloat / (tenTo exponent).toFloat)
    else if d.isZero then d
    else shiftDown fuel (ofFloat (d.toFloat / (tenTo largestTen).toFloat)) (exponent - largestTen)

/-- The number `significand · 10 ^ exponent` with a rounding for each operation: the significand is rounded, and
then the product or quotient with the power of ten. It can differ from the nearest number in the last bit. None
where it is not finite. -/
def ofScaled? (significand : Nat) (exponent : Int) : Option Double :=
  let d := ofDecimal significand 0
  if exponent < 0 then some (shiftDown (exponent.natAbs / largestTen + 1) d exponent.natAbs)
  else if d.isZero then some d
  else if (largestTen : Int) < exponent then none
  else
    let product := ofFloat (d.toFloat * (tenTo exponent.natAbs).toFloat)
    if product.isFinite then some product else none

/-- The number nearest to an integer. -/
def ofInt (i : Int) : Double :=
  let d := ofDecimal i.natAbs 0
  if i < 0 then d.negate else d

end Double

end OntologyTyping.Decimal
