import OntologyTyping.Json.Lexeme

/-!
Passing JSON values that nobody asks for. They can be nested as deep as they like, and of their strings and numbers
only the grammar counts.
-/

namespace OntologyTyping.Json.Scanner

/-- Passes an escape, behind its backslash. -/
def skipEscape : Scanner Unit := do
  let c ← nextInString
  if c = 'u' then
    let _ ← fourHexDigits
  else if (simpleEscape? c).isNone then failHere .invalidEscape

/-- Passes a string up to its closing quote. -/
def skipStringBytes : (fuel : Nat) → Scanner Unit
  | 0 => return ()
  | fuel + 1 => do
    match ← get with
    | [] => failHere .endOfString
    | b :: rest =>
      if b = 0x22 then set rest
      else if b = 0x5C then
        set rest
        skipEscape
        skipStringBytes fuel
      else if b < 0x20 then failHere .controlCharacter
      else
        set rest
        skipStringBytes fuel

/-- Passes a string behind its opening quote. -/
def skipString : Scanner Unit := do
  skipStringBytes ((← get).length + 1)

/-- Passes an exponent behind its mark. -/
def skipExponent : Scanner Unit := do
  let sign ← peek
  if sign = some '+' || sign = some '-' then eat
  if (← next).any Char.isDigit then
    let _ ← digits
  else failHere .invalidNumber

/-- Passes a number behind its sign. -/
def skipNumber : Scanner Unit := do
  match ← next with
  | some '0' => if (← get).head?.any isDigit then failAhead .invalidNumber
  | some c =>
    if c.isDigit then
      let _ ← digits
    else failHere .invalidNumber
  | none => failHere .invalidNumber
  if (← peek) = some '.' then
    eat
    if (← digits).isEmpty then failAhead .invalidNumber
  let mark ← peek
  if mark = some 'e' || mark = some 'E' then
    eat
    skipExponent

/-- Passes a word, string or number, or the opening of a list or object, which it returns. -/
def skipStart : Scanner (Option Char) := do
  match ← peekValue with
  | 'n' =>
    eat
    letters ['u', 'l', 'l']
    return none
  | 't' =>
    eat
    letters ['r', 'u', 'e']
    return none
  | 'f' =>
    eat
    letters ['a', 'l', 's', 'e']
    return none
  | '-' =>
    eat
    skipNumber
    return none
  | '"' =>
    eat
    skipString
    return none
  | '[' =>
    eat
    return some '['
  | '\x7b' =>
    eat
    return some '\x7b'
  | c =>
    if c.isDigit then
      skipNumber
      return none
    else failAhead .expectedValue

/-- Passes the ends of lists and objects that are open, the innermost first, up to the place of a further value.
Returns those that stay open. `behind` says whether a value stands before, so that a comma can follow. -/
def skipEnds : (behind : Bool) → (opened : List Char) → Scanner (List Char)
  | _, [] => return []
  | behind, bracket :: outer => do
    let inList := bracket = '['
    match ← peekPast with
    | none => failAhead (if inList then .endOfList else .endOfObject)
    | some c =>
      if behind && c = ',' then
        eat
        return bracket :: outer
      else if c = (if inList then ']' else '\x7d') then
        eat
        skipEnds true outer
      else if behind then failAhead (if inList then .expectedCommaOrBracket else .expectedCommaOrBrace)
      else return bracket :: outer

/-- Passes a key and its colon. -/
def skipKey : Scanner Unit := do
  match ← peekPast with
  | some '"' =>
    eat
    skipString
    colon
  | some _ => failAhead .keyNotString
  | none => failAhead .endOfObject

/-- Passes a value inside the lists and objects that are open, and all that follows up to their ends. -/
def skipWithin : (fuel : Nat) → (opened : List Char) → Scanner Unit
  | 0, _ => return ()
  | fuel + 1, opened => do
    let opened ← match ← skipStart with
      | some bracket => skipEnds false (bracket :: opened)
      | none => skipEnds true opened
    match opened with
    | [] => return ()
    | bracket :: _ =>
      if bracket = '\x7b' then skipKey
      skipWithin fuel opened

/-- Passes a value. -/
def skipValue : Scanner Unit := do
  skipWithin ((← get).length + 1) []

end OntologyTyping.Json.Scanner
