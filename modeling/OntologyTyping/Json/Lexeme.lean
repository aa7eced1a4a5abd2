import OntologyTyping.Json.Input

/-!
The pieces of a JSON text that hold no other values: words, strings and numbers.
-/

namespace OntologyTyping.Json.Scanner

/-! ### Words -/

/-- The letters of a word, one by one. -/
def letters : List Char → Scanner Unit
  | [] => return ()
  | c :: rest => do
    match ← next with
    | none => failHere .endOfValue
    | some d => if d = c then letters rest else failHere .expectedWord

/-! ### Strings -/

/-- The next byte of a string, which is passed. -/
def nextInString : Scanner Char := do
  match ← next with
  | some c => return c
  | none => failHere .endOfString

/-- The byte of a one-letter escape. -/
def simpleEscape? : Char → Option UInt8
  | '"' => some 0x22
  | '\\' => some 0x5C
  | '/' => some 0x2F
  | 'b' => some 0x08
  | 'f' => some 0x0C
  | 'n' => some 0x0A
  | 'r' => some 0x0D
  | 't' => some 0x09
  | _ => none

def hexValue? (b : UInt8) : Option Nat :=
  let n := b.toNat
  if 0x30 ≤ n ∧ n ≤ 0x39 then some (n - 0x30)
  else if 0x61 ≤ n ∧ n ≤ 0x66 then some (n - 0x61 + 10)
  else if 0x41 ≤ n ∧ n ≤ 0x46 then some (n - 0x41 + 10)
  else none

/-- The number that hexadecimal digits stand for. -/
def hexNumber? (bytes : List UInt8) : Option Nat :=
  bytes.foldlM (fun n b => (hexValue? b).map (16 * n + ·)) 0

/-- The number that the next four bytes stand for. -/
def fourHexDigits : Scanner Nat := do
  match ← get with
  | a :: b :: c :: d :: rest =>
    set rest
    match hexNumber? [a, b, c, d] with
    | some n => return n
    | none => failHere .invalidEscape
  | _ =>
    set ([] : List UInt8)
    failHere .endOfString

def isHighSurrogate (n : Nat) : Bool := 0xD800 ≤ n && n < 0xDC00

def isLowSurrogate (n : Nat) : Bool := 0xDC00 ≤ n && n < 0xE000

/-- A character that must stand between the two halves of an escape. -/
def betweenHalves (c : Char) : Scanner Unit := do
  match ← peek with
  | none => failHere .endOfString
  | some d =>
    eat
    if d ≠ c then failHere .endOfEscape

/-- The character of an escape by number. One beyond U+FFFF is written as two halves, the high one first. -/
def numberedEscape : Scanner Char := do
  let n ← fourHexDigits
  if isLowSurrogate n then failHere .loneSurrogate
  else if isHighSurrogate n then
    betweenHalves '\\'
    betweenHalves 'u'
    let m ← fourHexDigits
    if isLowSurrogate m then return Char.ofNat (0x10000 + (n - 0xD800) * 0x400 + (m - 0xDC00))
    else failHere .loneSurrogate
  else return Char.ofNat n

/-- The bytes that an escape stands for, behind its backslash. -/
def escape : Scanner (List UInt8) := do
  let c ← nextInString
  if c = 'u' then return String.utf8EncodeChar (← numberedEscape)
  else match simpleEscape? c with
    | some b => return [b]
    | none => failHere .invalidEscape

/-- The bytes of a string up to its closing quote; `done` holds those so far, last first. -/
def stringBytes : (fuel : Nat) → (done : List UInt8) → Scanner (List UInt8)
  | 0, done => return done.reverse
  | fuel + 1, done => do
    match ← get with
    | [] => failHere .endOfString
    | b :: rest =>
      set rest
      if b = 0x22 then return done.reverse
      else if b = 0x5C then stringBytes fuel ((← escape).reverse ++ done)
      else if b < 0x20 then failHere .controlCharacter
      else stringBytes fuel (b :: done)

/-- A string behind its opening quote. -/
def stringTail : Scanner String := do
  let bytes ← stringBytes ((← get).length + 1) []
  return (String.fromUTF8? ⟨bytes.toArray⟩).getD ""

/-! ### Numbers -/

def isDigit (b : UInt8) : Bool :=
  0x30 ≤ b && b ≤ 0x39

/-- The digits that follow, as numbers. -/
def digits : Scanner (List Nat) := do
  let found := (← get).takeWhile isDigit
  modify (List.drop found.length)
  return found.map fun b => b.toNat - 0x30

/-- Appends digits to a number as long as it fits 64 bits. Returns it with the number of digits left out. -/
def absorb (n : Nat) : List Nat → Nat × Nat
  | [] => (n, 0)
  | d :: rest => if 10 * n + d < Nat.pow 2 64 then absorb (10 * n + d) rest else (n, rest.length + 1)

/-- The digits before the point. A leading zero stands alone. -/
def wholeDigits : Scanner (List Nat) := do
  match ← peek with
  | none => failHere .endOfValue
  | some '0' =>
    eat
    if (← get).head?.any isDigit then failAhead .invalidNumber else return [0]
  | some c =>
    if c.isDigit then digits
    else
      eat
      failHere .invalidNumber

/-- The digits behind a point, of which there is at least one. -/
def fractionDigits : Scanner (List Nat) := do
  match ← digits with
  | [] => if (← peek).isSome then failAhead .invalidNumber else failAhead .endOfValue
  | ds => return ds

/-- The largest exponent that is read. -/
def largestExponent : Nat := Nat.pow 2 31 - 1

/-- The digits of an exponent as far as it is not too large; none where it is. -/
def exponentDigits : (fuel : Nat) → Nat → Scanner (Option Nat)
  | 0, n => return some n
  | fuel + 1, n => do
    match (← get).head? with
    | none => return some n
    | some b =>
      if isDigit b then
        eat
        let n := 10 * n + (b.toNat - 0x30)
        if largestExponent < n then return none else exponentDigits fuel n
      else return some n

/-- An exponent behind its mark: whether it is negative, and its size unless that is too large. -/
def exponent : Scanner (Bool × Option Nat) := do
  let sign ← peek
  if sign = some '+' || sign = some '-' then eat
  match ← next with
  | none => failHere .endOfValue
  | some c =>
    if c.isDigit then
      return (sign = some '-', ← exponentDigits (← get).length (c.toNat - '0'.toNat))
    else failHere .invalidNumber

/-- The number `significand · 10 ^ exponent`. -/
def scaled (significand : Nat) (exponent : Int) : Scanner Decimal.Double := do
  match Decimal.Double.ofScaled? significand exponent with
  | some d => return d
  | none => failHere .numberOutOfRange

/-- The value of a number with an exponent that follows. -/
def withExponent (significand : Nat) (shift : Int) : Scanner Decimal.Double := do
  match ← exponent with
  | (negative, some n) => scaled significand (if negative then shift - n else shift + n)
  | (negative, none) =>
    if significand ≠ 0 && !negative then failHere .numberOutOfRange
    else
      let _ ← digits
      return ⟨0⟩

/-- A number behind its sign. A whole number that fits 64 bits, signed or, if it is not negative, unsigned, stays
whole; every other number is a floating-point number, and so is negative zero. Digits that do not fit 64 bits count
as zeros. -/
def number (negative : Bool) : Scanner Json := do
  let signed (d : Decimal.Double) : Json := .float (if negative then d.negate else d)
  let (whole, leftOut) := absorb 0 (← wholeDigits)
  match ← peek with
  | some '.' =>
    eat
    let ds ← fractionDigits
    let (significand, ignored) := absorb whole ds
    let shift : Int := leftOut - (ds.length - ignored : Nat)
    let mark ← peek
    if mark = some 'e' || mark = some 'E' then
      eat
      return signed (← withExponent significand shift)
    else return signed (← scaled significand shift)
  | mark =>
    if mark = some 'e' || mark = some 'E' then
      eat
      return signed (← withExponent whole leftOut)
    else if leftOut ≠ 0 then return signed (← scaled whole leftOut)
    else if !negative then return .int whole
    else if whole = 0 || Nat.pow 2 63 < whole then return signed (.ofDecimal whole 0)
    else return .int (-whole)

/-! ### Pieces -/

/-- A word, string or number that starts with the given byte; none where no value starts so. -/
def piece? (start : Char) : Scanner (Option Json) := do
  match start with
  | 'n' =>
    eat
    letters ['u', 'l', 'l']
    return some .null
  | 't' =>
    eat
    letters ['r', 'u', 'e']
    return some (.bool true)
  | 'f' =>
    eat
    letters ['a', 'l', 's', 'e']
    return some (.bool false)
  | '"' =>
    eat
    return some (.str (← stringTail))
  | '-' =>
    eat
    return some (← number true)
  | c => if c.isDigit then return some (← number false) else return none

end OntologyTyping.Json.Scanner
