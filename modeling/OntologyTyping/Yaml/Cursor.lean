/-!
A place in a YAML text, and the kinds of characters that the grammar tells apart.
-/

namespace OntologyTyping.Yaml

/-! ### Characters -/

/-- The characters that a document can hold. -/
def isAllowed (c : Char) : Bool :=
  let n := c.toNat
  n = 0x9 || n = 0xA || n = 0xD || (0x20 ≤ n && n ≤ 0x7E) || n = 0x85 || (0xA0 ≤ n && n ≤ 0xD7FF) ||
    (0xE000 ≤ n && n ≤ 0xFFFD) || 0x10000 ≤ n

def isBreak (c : Char) : Bool :=
  c = '\n' || c = '\r' || c = '\u0085' || c = '\u2028' || c = '\u2029'

/-- A space or a tab. -/
def isSpace (c : Char) : Bool :=
  c = ' ' || c = '\t'

/-- A letter, a digit, an underscore or a hyphen. -/
def isWordChar (c : Char) : Bool :=
  c.isAlphanum || c = '_' || c = '-'

/-- Whether a text ends, or goes on with a space or a line break. -/
def endsWord : List Char → Bool
  | [] => true
  | c :: _ => isSpace c || isBreak c

/-- Whether a text ends, or its line does. -/
def endsLine : List Char → Bool
  | [] => true
  | c :: _ => isBreak c

/-! ### Cursors -/

/-- The text that is left, with the place where it starts. -/
structure Cursor where
  rest : List Char
  /-- The number of bytes before this place. -/
  index : Nat := 0
  line : Nat := 0
  /-- The number of characters before this place in its line. -/
  column : Nat := 0

namespace Cursor

def ofText (s : String) : Cursor :=
  { rest := s.toList }

/-- The number of bytes that characters take. -/
def width (cs : List Char) : Nat :=
  cs.foldl (fun n c => n + c.utf8Size) 0

/-- Passes characters of one line. -/
def skip (c : Cursor) (n : Nat) : Cursor :=
  { c with rest := c.rest.drop n, index := c.index + width (c.rest.take n), column := c.column + n }

/-- Passes the characters of one line that have a property, and returns them. -/
def span (c : Cursor) (p : Char → Bool) : List Char × Cursor :=
  let taken := c.rest.takeWhile fun ch => p ch && !isBreak ch
  (taken, c.skip taken.length)

/-- Passes the rest of the line. -/
def skipLine (c : Cursor) : Cursor :=
  (c.span fun _ => true).2

/-- Passes a line break, and returns it as it counts in a text: a line feed, unless it is a separator of lines or
paragraphs. -/
def takeBreak (c : Cursor) : List Char × Cursor :=
  match c.rest with
  | '\r' :: '\n' :: rest => (['\n'], { rest, index := c.index + 2, line := c.line + 1 })
  | ch :: rest =>
    if isBreak ch then
      ([if ch = '\u2028' || ch = '\u2029' then ch else '\n'],
        { rest, index := c.index + ch.utf8Size, line := c.line + 1 })
    else ([], c)
  | [] => ([], c)

/-- Whether a line starts here that separates documents. -/
def atDocumentMark (c : Cursor) : Bool :=
  c.column == 0 && (match c.rest with
    | '-' :: '-' :: '-' :: rest => endsWord rest
    | '.' :: '.' :: '.' :: rest => endsWord rest
    | _ => false)

/-! ### White space inside a scalar -/

/-- Spaces and line breaks between two parts of a scalar. -/
structure Gap where
  spaces : List Char := []
  /-- The first line break, once there is one. -/
  first : Option (List Char) := none
  /-- The breaks of empty lines. -/
  more : List Char := []

/-- What the gap counts for: a single line break is folded into a space, and of several the first is dropped. -/
def Gap.text (g : Gap) : List Char :=
  match g.first with
  | none => g.spaces
  | some ['\n'] => if g.more.isEmpty then [' '] else g.more
  | some b => b ++ g.more

/-- Passes spaces and line breaks. A tab to the left of the column `indent` is refused, except in the line where the gap
starts. -/
def takeGap (indent : Nat) : (fuel : Nat) → Gap → Cursor → Option (Gap × Cursor)
  | 0, g, c => some (g, c)
  | fuel + 1, g, c =>
    match c.rest with
    | [] => some (g, c)
    | ch :: _ =>
      if isSpace ch then
        if g.first.isNone then takeGap indent fuel { g with spaces := g.spaces ++ [ch] } (c.skip 1)
        else if ch = '\t' && c.column < indent then none
        else takeGap indent fuel g (c.skip 1)
      else if isBreak ch then
        let (b, c) := c.takeBreak
        if g.first.isNone then takeGap indent fuel { g with first := some b } c
        else takeGap indent fuel { g with more := g.more ++ b } c
      else some (g, c)

/-- Passes all the spaces and line breaks that follow. -/
def gap (c : Cursor) (indent : Nat) (g : Gap := {}) : Option (Gap × Cursor) :=
  takeGap indent c.rest.length g c

end Cursor

end OntologyTyping.Yaml
