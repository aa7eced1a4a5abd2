import OntologyTyping.Text.Classes

/-!
Files of environment variables: lines `NAME=value` or `export NAME=value`, with comments, quotes, escapes and `$NAME` or
`${NAME}` for the values of variables.

A variable that is set already keeps its value. Nothing is taken from the first line that is not well formed, nor
from those behind it. A value with a NUL in it can be written but not set.
-/

namespace OntologyTyping

/-- Environment variables with their values. -/
abbrev Environment := List (String × String)

namespace EnvFile

/-! ### Lines -/

/-- Where a line stands with regard to quotes, escapes and comments. -/
inductive LineState where
  | text
  | blank
  | escape
  | single
  | singleEscape
  | double
  | doubleEscape
deriving DecidableEq

/-- The state after a character. -/
def LineState.next (c : Char) : LineState → LineState
  | .blank => opening c .text
  | .text => opening c (if Text.isBlank c && c ≠ '\n' && c ≠ '\r' then .blank else .text)
  | .escape => .text
  | .single => if c = '\\' then .singleEscape else if c = '\'' then .text else .single
  | .singleEscape => .single
  | .double => if c = '\\' then .doubleEscape else if c = '"' then .text else .double
  | .doubleEscape => .double
where
  opening (c : Char) (otherwise : LineState) : LineState :=
    if c = '\\' then .escape else if c = '"' then .double else if c = '\'' then .single else otherwise

/-- Reads characters up to a comment. Returns those before it, the state, and whether there is a comment. -/
def scanLine : LineState → List Char → List Char × LineState × Bool
  | s, [] => ([], s, false)
  | s, c :: rest =>
    if s = .blank && c = '#' then ([], s, true)
    else
      let (before, last, comment) := scanLine (s.next c) rest
      (c :: before, last, comment)

/-- The lines of a text, each with its line feed. -/
def physicalLines : List Char → List (List Char)
  | [] => []
  | c :: rest =>
    match c, physicalLines rest with
    | '\n', lines => ['\n'] :: lines
    | _, line :: lines => (c :: line) :: lines
    | _, [] => [[c]]

/-- Joins the lines of values that go over several lines. A value that is not ended is dropped, with all that
follows. -/
def joinLines : LineState → (started : List Char) → List (List Char) → List (List Char)
  | _, _, [] => []
  | s, started, line :: rest =>
    if (started ++ line).dropWhile Text.isBlank |>.head?.any (· = '#') then [] :: joinLines .text [] rest
    else
      let (before, last, comment) := scanLine s line
      if comment || last = .text then (started ++ before) :: joinLines .text [] rest
      else joinLines last (started ++ line) rest

/-! ### Values -/

/-- The name of a variable that is being read inside a value. -/
inductive Reference where
  | none
  | plain (name : List Char)
  | braced (name : List Char)
deriving DecidableEq

/-- A value that is being read. -/
structure Draft where
  text : List Char := []
  single : Bool := false
  double : Bool := false
  escaped : Bool := false
  /-- Only blanks and a comment may follow. -/
  ended : Bool := false
  reference : Reference := .none

/-- The value of a variable; nothing where it is not set. -/
def valueOf (env : Environment) (name : List Char) : List Char :=
  ((env.lookup (.ofList name)).getD "").toList

def escapedChar? (c : Char) : Option Char :=
  if c = 'n' then some '\n'
  else if c = '\\' || c = '\'' || c = '"' || c = '$' || c = ' ' then some c
  else none

/-- Reads one character of a value outside of references. -/
def Draft.add (d : Draft) (c : Char) : Draft :=
  if c = '$' then { d with reference := .plain [] }
  else if d.double then
    if c = '"' then { d with double := false }
    else if c = '\\' then { d with escaped := true }
    else { d with text := d.text ++ [c] }
  else if c = '\'' then { d with single := true }
  else if c = '"' then { d with double := true }
  else if c = '\\' then { d with escaped := true }
  else if c = ' ' || c = '\t' then { d with ended := true }
  else { d with text := d.text ++ [c] }

/-- Reads one character of a value; none where it cannot stand there. -/
def Draft.step (env : Environment) (d : Draft) (c : Char) : Option Draft :=
  if d.ended then if c = ' ' || c = '\t' then some d else none
  else if d.escaped then (escapedChar? c).map fun e => { d with text := d.text ++ [e], escaped := false }
  else if d.single then some (if c = '\'' then { d with single := false } else { d with text := d.text ++ [c] })
  else match d.reference with
    | .none => some (d.add c)
    | .plain name =>
      if Text.isAlphanumeric c then some { d with reference := .plain (name ++ [c]) }
      else if c = '\x7b' && name.isEmpty then some { d with reference := .braced [] }
      else
        let text := d.text ++ valueOf env name
        some (if c = '$' then { d with text, reference := .plain [] }
          else { d with text := text ++ [c], reference := .none })
    | .braced name =>
      some (if c = '\x7d' then { d with text := d.text ++ valueOf env name, reference := .none }
        else { d with reference := .braced (name ++ [c]) })

/-- The value when all its characters are read; none where a quote or a brace is still open. -/
def Draft.finish (env : Environment) (d : Draft) : Option String :=
  if d.single || d.double then none
  else match d.reference with
    | .none => some (.ofList d.text)
    | .plain name => some (.ofList (d.text ++ valueOf env name))
    | .braced _ => none

/-- Reads a value up to a comment behind it. -/
def readValue (env : Environment) : Draft → List Char → Option String
  | d, [] => d.finish env
  | d, c :: rest =>
    if d.ended && c = '#' then d.finish env
    else do readValue env (← d.step env c) rest

/-! ### Entries -/

def isKeyStart (c : Char) : Bool :=
  c.isAlpha || c = '_'

def isKeyChar (c : Char) : Bool :=
  c.isAlphanum || c = '_' || c = '.'

/-- The name at the start of a text, and what follows the blanks behind it. -/
def key? (cs : List Char) : Option (String × List Char) :=
  if cs.head?.any isKeyStart then
    let (name, rest) := cs.span isKeyChar
    some (.ofList name, rest.dropWhile Text.isBlank)
  else none

/-- What follows an equals sign and blanks. -/
def afterEquals? : List Char → Option (List Char)
  | '=' :: rest => some (rest.dropWhile Text.isBlank)
  | _ => none

/-- The name and the text of the value in a line. The word `export` before a name has no meaning. -/
def assignment? (cs : List Char) : Option (String × List Char) := do
  let (name, rest) ← key? cs
  match afterEquals? rest with
  | some text => return (name, text)
  | none =>
    if name ≠ "export" then none
    else
      let (name, rest) ← key? rest
      return (name, ← afterEquals? rest)

/-- What a line sets, if anything; none where the line is not well formed. -/
def entry? (env : Environment) (line : List Char) : Option (Option (String × String)) := do
  let cs := Text.trimChars line
  if cs.isEmpty || cs.head?.any (· = '#') then return none
  else
    let (name, text) ← assignment? cs
    if text.head?.any (· = '#') then return some (name, "")
    else return some (name, ← readValue env {} text)

/-- Sets a variable, unless it is set already; none where no variable can have the value. -/
def set? (env : Environment) (name value : String) : Option Environment :=
  if (env.lookup name).isSome then some env
  else if value.toList.any (·.toNat = 0) then none
  else some (env ++ [(name, value)])

/-- Sets what lines say, up to the first that is not well formed. -/
def setAll? : Environment → List (List Char) → Option Environment
  | env, [] => some env
  | env, line :: rest =>
    match entry? env line with
    | none => some env
    | some none => setAll? env rest
    | some (some (name, value)) => do setAll? (← set? env name value) rest

/-- The environment with the variables that a file sets; none where it gives a variable a value that none can have. -/
def load? (text : String) (env : Environment) : Option Environment :=
  let cs := match text.toList with
    | '\ufeff' :: rest => rest
    | cs => cs
  setAll? env (joinLines .text [] (physicalLines cs))

/-- The words of a text that can be names of variables. -/
def namesIn (text : String) : List String :=
  ((text.map fun c => if isKeyChar c then c else ' ').splitOn " ").filter (· ≠ "")

end EnvFile

end OntologyTyping
