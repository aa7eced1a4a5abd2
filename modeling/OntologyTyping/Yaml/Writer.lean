import OntologyTyping.Decimal.Layout
import OntologyTyping.Yaml.Cursor
import OntologyTyping.Yaml.Scalar

/-!
YAML nodes as text, in block style.

Sequences stand under their key without indentation, everything else two columns further in. A tag on a collection
has the line to itself. Scalars are written plain where that reads back as the same text, else in single quotes, and
in double quotes where a character needs an escape; text of several lines is written as it is.
-/

namespace OntologyTyping.Yaml

/-! ### Scalars -/

/-- The characters that can be written as they are. -/
def isPrintable (c : Char) : Bool :=
  let n := c.toNat
  n = 0xA || (0x20 ≤ n && n ≤ 0x7E) || (0xA0 ≤ n && n ≠ 0xFEFF && n ≠ 0xFFFE && n ≠ 0xFFFF)

/-- Whether a mark of the grammar starts a text. -/
def startsWithMark : List Char → Bool
  | [] => false
  | c :: rest =>
    "#,[]\x7b\x7d&*!|>'\"%@\x60".toList.contains c || ((c = '?' || c = ':' || c = '-') && endsWord rest)

/-- Whether a mark of the grammar stands inside a text: a colon before white space, or a hash sign after it. -/
def hasInnerMark : List Char → Bool
  | a :: b :: rest =>
    (b = ':' && endsWord rest) || (b = '#' && (isSpace a || isBreak a)) || hasInnerMark (b :: rest)
  | _ => false

/-- Whether two characters with the given properties follow each other. -/
def hasPair (p q : Char → Bool) : List Char → Bool
  | a :: b :: rest => (p a && q b) || hasPair p q (b :: rest)
  | _ => false

def isBlankSpace (c : Char) : Bool := c = ' '

/-- Whether a text needs escapes. -/
def needsEscapes (cs : List Char) : Bool :=
  cs.any (fun c => !isPrintable c) || hasPair isBlankSpace isBreak cs

/-- Whether a text can be written plain. -/
def allowsPlain (cs : List Char) : Bool :=
  !needsEscapes cs && !cs.any isBreak && !cs.head?.any isBlankSpace && !cs.getLast?.any isBlankSpace &&
    !startsWithMark cs && !hasInnerMark cs && cs.take 3 ≠ ['-', '-', '-'] && cs.take 3 ≠ ['.', '.', '.']

/-- Whether a text can be written in single quotes, where a line feed would be folded. -/
def allowsSingleQuotes (cs : List Char) : Bool :=
  !needsEscapes cs && !hasPair isBreak isBlankSpace cs && !cs.contains '\n'

/-- Whether a text can be written line by line. -/
def allowsLines (cs : List Char) : Bool :=
  !needsEscapes cs && !cs.getLast?.any isBlankSpace && !cs.isEmpty

/-- The style in which a scalar is written: the one it has, or the next that can hold its text. -/
def writtenStyle (s : Scalar) : Style :=
  let cs := s.text.toList
  let quoted := if allowsSingleQuotes cs then .singleQuoted else .doubleQuoted
  match s.style with
  | .plain => if allowsPlain cs then .plain else quoted
  | .singleQuoted => quoted
  | .doubleQuoted => .doubleQuoted
  | .literal | .folded => if allowsLines cs then .literal else .doubleQuoted

def spaces (n : Nat) : List Char :=
  List.replicate n ' '

/-- A text with an indentation before each of its lines that is not empty. -/
def indentLines (indent : Nat) : (lineStart : Bool) → List Char → List Char
  | _, [] => []
  | lineStart, c :: rest =>
    if isBreak c then c :: indentLines indent true rest
    else (if lineStart then spaces indent else []) ++ c :: indentLines indent false rest

/-- A text in single quotes, where a quote inside is written twice. -/
def writeSingleQuoted (indent : Nat) (cs : List Char) : List Char :=
  let closing := if cs.getLast?.any isBreak then spaces indent else []
  ['\''] ++ indentLines indent false (cs.flatMap fun c => if c = '\'' then [c, c] else [c]) ++ closing ++ ['\'']

/-- The letter that stands after a backslash for a character. -/
def escapeLetter? (c : Char) : Option Char :=
  match c.toNat with
  | 0x00 => some '0'
  | 0x07 => some 'a'
  | 0x08 => some 'b'
  | 0x09 => some 't'
  | 0x0A => some 'n'
  | 0x0B => some 'v'
  | 0x0C => some 'f'
  | 0x0D => some 'r'
  | 0x1B => some 'e'
  | 0x22 => some '"'
  | 0x5C => some '\\'
  | 0x85 => some 'N'
  | 0x2028 => some 'L'
  | 0x2029 => some 'P'
  | _ => none

/-- The lowest `width` hexadecimal digits of a number. -/
def hexDigits : (width : Nat) → Nat → List Char
  | 0, _ => []
  | width + 1, n => hexDigits width (n / 16) ++ (Nat.toDigits 16 (n % 16)).map Char.toUpper

/-- A character in double quotes. -/
def escapeChar (c : Char) : List Char :=
  match escapeLetter? c with
  | some letter => ['\\', letter]
  | none =>
    let n := c.toNat
    if isPrintable c then [c]
    else if n ≤ 0xFF then '\\' :: 'x' :: hexDigits 2 n
    else if n ≤ 0xFFFF then '\\' :: 'u' :: hexDigits 4 n
    else '\\' :: 'U' :: hexDigits 8 n

/-- How the line breaks at the end of a text are announced. -/
def chompMark (cs : List Char) : List Char :=
  match cs.reverse with
  | [] => ['-']
  | [c] => if isBreak c then ['+'] else ['-']
  | c :: d :: _ => if !isBreak c then ['-'] else if isBreak d then ['+'] else []

/-- A text line by line. The indentation is announced where it cannot be seen. -/
def writeLines (indent : Nat) (cs : List Char) : List Char :=
  let hint := if cs.head?.any fun c => c = ' ' || isBreak c then ['2'] else []
  ['|'] ++ hint ++ chompMark cs ++ ['\n'] ++ indentLines indent true cs

/-- A tag, whose bytes form a text. -/
def writeTag (t : Tag) : List Char :=
  (t.text?.getD "").toList

/-- The name of an anchor behind an asterisk. -/
def writeAlias (anchor : Nat) : List Char :=
  '*' :: Nat.toDigits 10 anchor

/-- A scalar whose further lines start at the column `indent`. -/
def writeScalar (indent : Nat) (s : Scalar) : List Char :=
  let cs := s.text.toList
  let tag := match s.tag with
    | some tag => writeTag tag ++ (if writtenStyle s == .plain && cs.isEmpty then [] else [' '])
    | none => []
  tag ++ (match writtenStyle s with
    | .plain => cs
    | .singleQuoted => writeSingleQuoted indent cs
    | .doubleQuoted => ['"'] ++ cs.flatMap escapeChar ++ ['"']
    | .literal | .folded => writeLines indent cs)

/-! ### Nodes -/

/-- A text with a line break at its end, if it has none. -/
def endLine (cs : List Char) : List Char :=
  if cs.getLast?.any isBreak then cs else cs ++ ['\n']

/-- A text behind a mark, with a space between them unless the line ends there. -/
def afterMark (cs : List Char) : List Char :=
  if cs == ['\n'] then cs else ' ' :: cs

mutual

/-- A node behind a dash, or a collection at the top of a document. Its lines start at the column `indent`; the
first one has started. -/
def writeNode (indent : Nat) : Node → List Char
  | .scalar s => endLine (writeScalar indent s)
  | .sequence tag [] => (tag.elim [] fun t => writeTag t ++ [' ']) ++ ['[', ']', '\n']
  | .mapping tag [] => (tag.elim [] fun t => writeTag t ++ [' ']) ++ ['\x7b', '\x7d', '\n']
  | .sequence (some t) items => writeTag t ++ ['\n'] ++ writeItems indent true items
  | .sequence none items => writeItems indent false items
  | .mapping (some t) entries => writeTag t ++ ['\n'] ++ writeEntries indent true entries
  | .mapping none entries => writeEntries indent false entries
  | .alias anchor => writeAlias anchor ++ ['\n']

/-- A node behind a key at the column `indent`. -/
def writeValue (indent : Nat) : Node → List Char
  | .scalar s => afterMark (endLine (writeScalar (indent + 2) s))
  | .sequence tag [] => [' '] ++ (tag.elim [] fun t => writeTag t ++ [' ']) ++ ['[', ']', '\n']
  | .mapping tag [] => [' '] ++ (tag.elim [] fun t => writeTag t ++ [' ']) ++ ['\x7b', '\x7d', '\n']
  | .sequence tag items => (tag.elim [] fun t => ' ' :: writeTag t) ++ ['\n'] ++ writeItems indent true items
  | .mapping tag entries => (tag.elim [] fun t => ' ' :: writeTag t) ++ ['\n'] ++ writeEntries (indent + 2) true entries
  | .alias anchor => [' '] ++ writeAlias anchor ++ ['\n']

/-- The items of a sequence with their dashes at the column `indent`. The flag says whether the first starts a line. -/
def writeItems (indent : Nat) : (lineStart : Bool) → List Node → List Char
  | _, [] => []
  | lineStart, n :: rest =>
    (if lineStart then spaces indent else []) ++ ['-'] ++ afterMark (writeNode (indent + 2) n) ++
      writeItems indent true rest

/-- The entries of a mapping with their keys at the column `indent`. The flag says whether the first starts a line. -/
def writeEntries (indent : Nat) : (lineStart : Bool) → List (Node × Node) → List Char
  | _, [] => []
  | lineStart, (k, v) :: rest =>
    (if lineStart then spaces indent else []) ++ writeKey k ++ [':'] ++ writeValue indent v ++
      writeEntries indent true rest

/-- A key, which is a scalar of one line. -/
def writeKey : Node → List Char
  | .scalar s => writeScalar 0 s
  | .alias anchor => writeAlias anchor ++ [' ']
  | .sequence _ _ | .mapping _ _ => []

end

/-- A document with one node. -/
def Node.render (n : Node) : String :=
  .ofList (match n with
    | .scalar s => endLine (writeScalar 2 s)
    | n => writeNode 0 n)

/-! ### Building nodes -/

/-- A text: plain, unless that would read as something else; line by line, if it has several lines. -/
def Node.ofText (s : String) : Node :=
  let style : Style :=
    if s.toList.contains '\n' then .literal
    else match valueOf s with
      | .text _ => if hasLeadingZero s.toList then .singleQuoted else .plain
      | _ => .singleQuoted
  .scalar { style, text := s }

def Node.null : Node :=
  .scalar { text := "null" }

def Node.ofBool (b : Bool) : Node :=
  .scalar { text := if b then "true" else "false" }

def Node.ofInt (i : Int) : Node :=
  .scalar { text := toString i }

def Node.ofDouble (d : Decimal.Double) : Node :=
  .scalar { text := Decimal.Layout.yaml.write d }

/-- A node with a local tag; an alias has the tag of its node. -/
def Node.tagged (name : String) : Node → Node
  | .scalar s => .scalar { s with tag := some (.named name) }
  | .sequence _ items => .sequence (some (.named name)) items
  | .mapping _ entries => .mapping (some (.named name)) entries
  | .alias anchor => .alias anchor

end OntologyTyping.Yaml
