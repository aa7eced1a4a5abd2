import OntologyTyping.Json.Reader
import OntologyTyping.Json.Skip

/-!
Reading typed values straight from JSON text.

The rules for shapes are those for values, but reading goes on only as far as the first problem: what stands behind
it is not looked at, so a text with two faults reports the first. A record may be written as a list of its fields,
and so may the fields that go with a named form. A named form is an object with its name as the only key.
-/

namespace OntologyTyping.Json

/-- Reads a value of a type from a text. The number says how many lists and objects can be open at once, and one
more. -/
abbrev Decode (α : Type) := (depth : Nat) → Scanner α

namespace Decode

open Scanner

variable {α σ : Type}

/-- Fails because of the value that follows. A word, string or number is passed, a list or an object is not. -/
def mismatch (expected : Expected) : Scanner α := do
  match ← peekValue with
  | '[' => refuse (.wrongType .sequence expected)
  | '\x7b' => refuse (.wrongType .map expected)
  | c =>
    match ← piece? c with
    | some j => refuse (.wrongType j.found expected)
    | none => failAhead .expectedValue

/-- A string that `accept` makes a value of. -/
def string (expected : Expected) (accept : String → Except ShapeError α) : Scanner α :=
  placed do
    if (← peekValue) = '"' then
      eat
      match accept (← stringTail) with
      | .ok a => return a
      | .error e => refuse e
    else mismatch expected

def text : Decode String := fun _ =>
  string .text .ok

/-- Null, or what `decode` makes of the value. -/
def optional (decode : Decode α) : Decode (Option α) := fun depth => do
  if (← peekPast) = some 'n' then
    eat
    letters ['u', 'l', 'l']
    return none
  else return some (← decode depth)

/-- A list of what `item` reads inside it. -/
def listOf (item : Nat → Scanner α) : Decode (List α) := fun depth =>
  placed do
    if (← peekValue) = '[' then Scanner.list depth item else mismatch .sequence

/-- A list, item by item. -/
def list (decode : Decode α) : Decode (List α) :=
  listOf decode

/-! ### Records -/

/-- A field of a record that is being read into a draft `σ`. -/
structure Field (σ : Type) where
  name : String
  required : Bool
  /-- Whether the draft already holds the field. -/
  isSet : σ → Bool
  read : σ → Decode σ

/-- A record: its name in errors and its fields in the order of declaration. -/
structure Record (σ : Type) where
  name : String
  fields : List (Field σ)

namespace Record

/-- Reads the entries of an object in order, and passes unknown ones. -/
def readEntries (r : Record σ) (depth : Nat) : (fuel : Nat) → (first : Bool) → σ → Scanner σ
  | 0, _, draft => return draft
  | fuel + 1, first, draft => do
    if ← hasKey first then
      eat
      let key ← stringTail
      match r.fields.find? (·.name == key) with
      | none =>
        colon
        skipValue
        r.readEntries depth fuel false draft
      | some field =>
        if field.isSet draft then refuse (.duplicateField key)
        else
          colon
          r.readEntries depth fuel false (← field.read draft depth)
    else return draft

/-- The entries of an object, which hold all the fields without a default. -/
def ofEntries (r : Record σ) (empty : σ) (depth : Nat) : Scanner σ := do
  let draft ← r.readEntries depth ((← get).length + 1) true empty
  match r.fields.find? fun f => f.required && !f.isSet draft with
  | some f => refuse (.missingField f.name)
  | none => return draft

/-- Reads the fields one after the other from a list; `index` counts the fields passed. -/
def readItems (r : Record σ) (depth : Nat) : (index : Nat) → List (Field σ) → σ → Scanner σ
  | _, [], draft => return draft
  | index, field :: fields, draft => do
    if ← hasItem (index == 0) then r.readItems depth (index + 1) fields (← field.read draft depth)
    else if field.required then refuse (.tooShort index r.name r.fields.length)
    else r.readItems depth (index + 1) fields draft

/-- A record in either form. -/
def decode (r : Record σ) (empty : σ) : Decode σ := fun depth =>
  placed do
    match ← peekValue with
    | '[' => enter depth fun depth => closedBy (r.readItems depth 0 r.fields empty) endList
    | '\x7b' => enter depth fun depth => closedBy (r.ofEntries empty depth) endObject
    | _ => mismatch (.record r.name)

end Record

/-! ### Choices -/

/-- The name of a form, which must be known. -/
def name (known : List String) : Scanner String :=
  string .formName fun s => if known.contains s then .ok s else .error (.unknownVariant s known)

/-- A named form with its content. A name that stands alone is refused, for lack of what `lacks` says. -/
def choice (known : List String) (lacks : String → Expected) (content : String → Decode α) : Decode α := fun depth => do
  match ← peekPast with
  | some '\x7b' =>
    let a ← enter depth fun depth => do
      let form ← name known
      colon
      content form depth
    match ← peekPast with
    | some '\x7d' =>
      eat
      return a
    | some _ => failHere .expectedValue
    | none => failHere .endOfObject
  | some '"' => refuse (.wrongType .bareChoice (lacks (← name known)))
  | some _ => failAhead .expectedValue
  | none => failAhead .endOfValue

end Decode

/-- What a whole text decodes to. -/
def decodeText {α : Type} (decode : Decode α) (text : String) : Except ParseError α :=
  readText (decode deepest) text

end OntologyTyping.Json
