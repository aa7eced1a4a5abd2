import OntologyTyping.Json.Fault

/-!
Reading from the bytes of a JSON text. What is read stays read when reading fails, because the end of a list or an
object is looked for even behind a failure.
-/

namespace OntologyTyping.Json

/-- Reads a value of a type off the bytes that are left. -/
abbrev Scanner := ExceptT Failure (StateM (List UInt8))

namespace Scanner

variable {α : Type}

/-- The next byte, as the character with its code. -/
def peek : Scanner (Option Char) := do
  return (← get).head?.map fun b => Char.ofNat b.toNat

/-- Passes a byte. -/
def eat : Scanner Unit :=
  modify List.tail

/-- The next byte, which is passed. -/
def next : Scanner (Option Char) := do
  let c ← peek
  eat
  return c

/-- Fails at this place. -/
def failHere (f : Fault) : Scanner α := do
  throw ⟨.fault f, some (← get).length⟩

/-- Fails behind the next byte. -/
def failAhead (f : Fault) : Scanner α := do
  throw ⟨.fault f, some ((← get).length - 1)⟩

/-- Fails because of a value's shape, without a place. -/
def refuse (e : ShapeError) : Scanner α :=
  throw ⟨.shape e, none⟩

/-- Gives a failure without a place the place where reading has come to. -/
def placed (s : Scanner α) : Scanner α :=
  tryCatch s fun failure => do
    throw { failure with left := failure.left.or (some (← get).length) }

/-- Reads what `close` reads behind `inside`, whether that fails or not. The first failure stands. -/
def closedBy (inside : Scanner α) (close : Scanner Unit) : Scanner α := do
  let result ← tryCatch (Except.ok <$> inside) fun failure => return Except.error failure
  let closed ← tryCatch (Except.ok <$> close) fun failure => return Except.error failure
  match result, closed with
  | .ok a, .ok () => return a
  | .error failure, _ => throw failure
  | _, .error failure => throw failure

def isSpace (b : UInt8) : Bool :=
  b == 32 || b == 10 || b == 9 || b == 13

/-- Passes white space. -/
def skipSpaces : Scanner Unit :=
  modify (List.dropWhile isSpace)

/-- The next byte behind white space. -/
def peekPast : Scanner (Option Char) := do
  skipSpaces
  peek

/-- The first byte of the value that must follow. -/
def peekValue : Scanner Char := do
  match ← peekPast with
  | some c => return c
  | none => failAhead .endOfValue

/-- The colon between a key and its value. -/
def colon : Scanner Unit := do
  match ← peekPast with
  | some ':' => eat
  | some _ => failAhead .expectedColon
  | none => failAhead .endOfObject

/-! ### Collections -/

/-- Enters a list or an object; the number says how many can be open at once, and this one more. -/
def enter (depth : Nat) (inside : Nat → Scanner α) : Scanner α := do
  if depth ≤ 1 then failAhead .tooDeep
  else
    eat
    inside (depth - 1)

/-- Whether a list has an item here. -/
def hasItem (first : Bool) : Scanner Bool := do
  match ← peekPast with
  | none => failAhead .endOfList
  | some c =>
    if c = ']' then return false
    else if first then return true
    else if c = ',' then
      eat
      match ← peekPast with
      | some ']' => failAhead .trailingComma
      | some _ => return true
      | none => failAhead .endOfValue
    else failAhead .expectedCommaOrBracket

/-- Whether an object has a key here. -/
def hasKey (first : Bool) : Scanner Bool := do
  match ← peekPast with
  | none => failAhead .endOfObject
  | some c =>
    if c = '\x7d' then return false
    else if first then
      if c = '"' then return true else failAhead .keyNotString
    else if c = ',' then
      eat
      match ← peekPast with
      | some '"' => return true
      | some '\x7d' => failAhead .trailingComma
      | some _ => failAhead .keyNotString
      | none => failAhead .endOfValue
    else failAhead .expectedCommaOrBrace

/-- The end of a list. -/
def endList : Scanner Unit := do
  match ← peekPast with
  | some ']' => eat
  | some ',' =>
    eat
    if (← peekPast) = some ']' then failAhead .trailingComma else failAhead .trailingCharacters
  | some _ => failAhead .trailingCharacters
  | none => failAhead .endOfList

/-- The end of an object. -/
def endObject : Scanner Unit := do
  match ← peekPast with
  | some '\x7d' => eat
  | some ',' => failAhead .trailingComma
  | some _ => failAhead .trailingCharacters
  | none => failAhead .endOfObject

/-- The items of a list up to its end. -/
def items (item : Scanner α) : (fuel : Nat) → (first : Bool) → Scanner (List α)
  | 0, _ => return []
  | fuel + 1, first => do
    if ← hasItem first then
      let a ← item
      return a :: (← items item fuel false)
    else return []

/-- A list whose opening bracket follows. -/
def list (depth : Nat) (item : Nat → Scanner α) : Scanner (List α) :=
  enter depth fun depth => do
    closedBy (items (item depth) ((← get).length + 1) true) endList

end Scanner

/-- What reading a whole text gives, with nothing but white space behind it. -/
def readText {α : Type} (s : Scanner α) (text : String) : Except ParseError α :=
  let whole : Scanner α := do
    let a ← s
    if (← Scanner.peekPast).isSome then Scanner.failAhead .trailingCharacters else return a
  (whole.run.run text.toUTF8.toList).1.mapError (·.inText text)

end OntologyTyping.Json
