import OntologyTyping.Json.Printer
import OntologyTyping.Text.Quoted

/-!
Reading typed values out of JSON values.

A record is written as an object, or as a list of its fields in the order of their declaration. Entries are read in the
order they are written, unknown entries are skipped, and the first error stands; a missing field is reported only after
everything that is there has been read.
-/

namespace OntologyTyping.Json

/-- What was found where something else was expected. -/
inductive Found where
  | null
  | bool (b : Bool)
  | int (i : Int)
  | float (d : Decimal.Double)
  | str (s : String)
  | sequence
  | map
  /-- A choice named without content. -/
  | bareChoice
deriving DecidableEq

/-- What was expected. -/
inductive Expected where
  | text
  | flag
  | sequence
  | nothing
  | record (name : String)
  /-- One of several named forms. -/
  | choice
  /-- The name of one of several forms. -/
  | formName
  /-- The single value that goes with a named form. -/
  | content
  /-- The fields that go with a named form. -/
  | fields
deriving DecidableEq

/-- Why a value does not have the shape that is asked for. -/
inductive ShapeError where
  | wrongType (found : Found) (expected : Expected)
  | missingField (name : String)
  | duplicateField (name : String)
  | unknownVariant (name : String) (known : List String)
  | notSingleKey
  /-- A list ends before the field at this index, which has no default. -/
  | tooShort (index : Nat) (record : String) (arity : Nat)
  | tooLong (length : Nat)
  | noLiteral
  /-- A value of the right type that is refused for the reason given. -/
  | refused (reason : String)
deriving DecidableEq

def Found.message : Found → String
  | .null => "null"
  | .bool b => "boolean `" ++ toString b ++ "`"
  | .int i => "integer `" ++ toString i ++ "`"
  | .float d => "floating point `" ++ floatText d ++ "`"
  | .str s => "string " ++ Text.quote s
  | .sequence => "sequence"
  | .map => "map"
  | .bareChoice => "unit variant"

def Expected.message : Expected → String
  | .text => "a string"
  | .flag => "a boolean"
  | .sequence => "a sequence"
  | .nothing => "unit"
  | .record name => "struct " ++ name
  | .choice => "string or map"
  | .formName => "variant identifier"
  | .content => "newtype variant"
  | .fields => "struct variant"

/-- The known names, each in backquotes. -/
def listVariants (known : List String) : String :=
  match known.map fun name => "`" ++ name ++ "`" with
  | [a] => a
  | [a, b] => a ++ " or " ++ b
  | names => "one of " ++ ", ".intercalate names

def ShapeError.message : ShapeError → String
  | .wrongType found expected => "invalid type: " ++ found.message ++ ", expected " ++ expected.message
  | .missingField name => "missing field `" ++ name ++ "`"
  | .duplicateField name => "duplicate field `" ++ name ++ "`"
  | .unknownVariant name known => "unknown variant `" ++ name ++ "`, expected " ++ listVariants known
  | .notSingleKey => "invalid value: map, expected map with a single key"
  | .tooShort index record arity =>
    "invalid length " ++ toString index ++ ", expected struct " ++ record ++ " with " ++ toString arity ++ " elements"
  | .tooLong length => "invalid length " ++ toString length ++ ", expected fewer elements in array"
  | .noLiteral => "data did not match any variant of untagged enum Literal"
  | .refused reason => reason

/-- What a value is, as an error reports it. -/
def found : Json → Found
  | .null => .null
  | .bool b => .bool b
  | .int i => .int i
  | .float d => .float d
  | .str s => .str s
  | .arr _ => .sequence
  | .obj _ => .map

/-- The error for a value of another type than the expected one. -/
def mismatch {α : Type} (j : Json) (expected : Expected) : Except ShapeError α :=
  .error (.wrongType j.found expected)

/-! ### Simple values -/

def asText : Json → Except ShapeError String
  | .str s => .ok s
  | j => j.mismatch .text

def asFlag : Json → Except ShapeError Bool
  | .bool b => .ok b
  | j => j.mismatch .flag

/-- Null, or what `read` makes of the value. -/
def asOptional {α : Type} (read : Json → Except ShapeError α) : Json → Except ShapeError (Option α)
  | .null => .ok none
  | j => (read j).map some

/-- A list, item by item. -/
def asList {α : Type} (read : Json → Except ShapeError α) : Json → Except ShapeError (List α)
  | .arr items => items.mapM read
  | j => j.mismatch .sequence

/-! ### Records -/

/-- A field of a record that is being read into a draft `σ`. -/
structure Field (σ : Type) where
  name : String
  required : Bool
  /-- Whether the draft already holds the field. -/
  isSet : σ → Bool
  read : σ → Json → Except ShapeError σ

/-- A record: its name in errors and its fields in the order of declaration. -/
structure Record (σ : Type) where
  name : String
  fields : List (Field σ)

namespace Record

variable {σ : Type}

/-- Reads the entries of an object in order, skipping unknown ones. -/
def readEntries (r : Record σ) : σ → List (String × Json) → Except ShapeError σ
  | draft, [] => .ok draft
  | draft, (key, j) :: rest =>
    match r.fields.find? (·.name == key) with
    | none => r.readEntries draft rest
    | some field =>
      if field.isSet draft then .error (.duplicateField key)
      else do r.readEntries (← field.read draft j) rest

/-- The first field without a default that the draft lacks. -/
def missing? (fields : List (Field σ)) (draft : σ) : Option String :=
  (fields.find? fun f => f.required && !f.isSet draft).map Field.name

/-- Reads a record written as an object. -/
def ofEntries (r : Record σ) (empty : σ) (entries : List (String × Json)) : Except ShapeError σ := do
  let draft ← r.readEntries empty entries
  match missing? r.fields draft with
  | some name => throw (.missingField name)
  | none => return draft

/-- Reads the fields one after the other from a list; `index` counts the fields passed. -/
def readItems (r : Record σ) : (index : Nat) → List (Field σ) → σ → List Json → Except ShapeError σ
  | _, [], draft, _ => .ok draft
  | index, field :: fields, draft, [] =>
    if field.required then .error (.tooShort index r.name r.fields.length)
    else r.readItems (index + 1) fields draft []
  | index, field :: fields, draft, j :: rest => do
    r.readItems (index + 1) fields (← field.read draft j) rest

/-- Reads a record written as a list of its fields. -/
def ofItems (r : Record σ) (empty : σ) (items : List Json) : Except ShapeError σ := do
  let draft ← r.readItems 0 r.fields empty items
  if r.fields.length < items.length then throw (.tooLong items.length)
  return draft

/-- Reads a record in either form. -/
def read (r : Record σ) (empty : σ) : Json → Except ShapeError σ
  | .obj entries => r.ofEntries empty entries
  | .arr items => r.ofItems empty items
  | j => j.mismatch (.record r.name)

end Record

/-! ### Choices -/

/-- One of several names without content, written as a string or as an object that maps the name to null. -/
def asName (known : List String) : Json → Except ShapeError String
  | .str s => if known.contains s then .ok s else .error (.unknownVariant s known)
  | .obj [(key, content)] =>
    if !known.contains key then .error (.unknownVariant key known)
    else match content with
      | .null => .ok key
      | j => j.mismatch .nothing
  | .obj _ => .error .notSingleKey
  | j => j.mismatch .choice

end OntologyTyping.Json
