import OntologyTyping.Yaml.Cursor

/-!
The pieces of a YAML text that have a grammar of their own: quoted, plain and block scalars, anchors, tags and
directives.

Each reader starts at the first character of its piece and returns what the piece stands for and the place behind
it; none means that the piece is not well formed.
-/

namespace OntologyTyping.Yaml

namespace Cursor

/-! ### Quoted scalars -/

def readSingleQuoted : (fuel : Nat) → (text : List Char) → Cursor → Option (List Char × Cursor)
  | 0, _, _ => none
  | fuel + 1, text, c =>
    if c.atDocumentMark then none
    else match c.rest with
      | [] => none
      | '\'' :: '\'' :: _ => readSingleQuoted fuel (text ++ ['\'']) (c.skip 2)
      | '\'' :: _ => some (text, c.skip 1)
      | ch :: _ =>
        if isSpace ch || isBreak ch then do
          let (g, c) ← c.gap 0
          readSingleQuoted fuel (text ++ g.text) c
        else readSingleQuoted fuel (text ++ [ch]) (c.skip 1)

/-- The scalar in single quotes; a quote inside is written twice. -/
def singleQuoted (c : Cursor) : Option (String × Cursor) := do
  let (text, c) ← readSingleQuoted (c.rest.length + 1) [] (c.skip 1)
  return (.ofList text, c)

/-- What a letter after a backslash stands for. -/
def escaped? : Char → Option Char
  | '0' => some (Char.ofNat 0)
  | 'a' => some '\x07'
  | 'b' => some '\x08'
  | 't' => some '\t'
  | '\t' => some '\t'
  | 'n' => some '\n'
  | 'v' => some '\x0b'
  | 'f' => some '\x0c'
  | 'r' => some '\r'
  | 'e' => some '\x1b'
  | ' ' => some ' '
  | '"' => some '"'
  | '/' => some '/'
  | '\\' => some '\\'
  | 'N' => some '\u0085'
  | '_' => some '\u00a0'
  | 'L' => some '\u2028'
  | 'P' => some '\u2029'
  | _ => none

/-- The number of digits that follow a letter after a backslash. -/
def codeLength? : Char → Option Nat
  | 'x' => some 2
  | 'u' => some 4
  | 'U' => some 8
  | _ => none

def hexDigit? (c : Char) : Option Nat :=
  if c.isDigit then some (c.toNat - '0'.toNat)
  else if 'a' ≤ c && c ≤ 'f' then some (c.toNat - 'a'.toNat + 10)
  else if 'A' ≤ c && c ≤ 'F' then some (c.toNat - 'A'.toNat + 10)
  else none

/-- The number that hexadecimal digits stand for. -/
def hexValue? (digits : List Char) : Option Nat :=
  digits.foldlM (fun n d => (hexDigit? d).map (16 * n + ·)) 0

/-- The character that exactly `length` hexadecimal digits stand for. -/
def codePoint? (length : Nat) (text : List Char) : Option Char := do
  let digits := text.take length
  if digits.length < length then none
  else
    let n ← hexValue? digits
    if n.isValidChar then some (Char.ofNat n) else none

def readDoubleQuoted : (fuel : Nat) → (text : List Char) → Cursor → Option (List Char × Cursor)
  | 0, _, _ => none
  | fuel + 1, text, c =>
    if c.atDocumentMark then none
    else match c.rest with
      | [] => none
      | '"' :: _ => some (text, c.skip 1)
      | ['\\'] => none
      | '\\' :: ch :: after =>
        if isBreak ch then do
          let (g, c) ← (c.skip 1).takeBreak.2.gap 0 { first := some [] }
          readDoubleQuoted fuel (text ++ g.text) c
        else match escaped? ch, codeLength? ch with
          | some e, _ => readDoubleQuoted fuel (text ++ [e]) (c.skip 2)
          | none, some length => do
            let e ← codePoint? length after
            readDoubleQuoted fuel (text ++ [e]) (c.skip (2 + length))
          | none, none => none
      | ch :: _ =>
        if isSpace ch || isBreak ch then do
          let (g, c) ← c.gap 0
          readDoubleQuoted fuel (text ++ g.text) c
        else readDoubleQuoted fuel (text ++ [ch]) (c.skip 1)

/-- The scalar in double quotes; a backslash before a line break joins the lines. -/
def doubleQuoted (c : Cursor) : Option (String × Cursor) := do
  let (text, c) ← readDoubleQuoted (c.rest.length + 1) [] (c.skip 1)
  return (.ofList text, c)

/-! ### Plain scalars -/

/-- The characters that end a plain scalar inside brackets. -/
def isFlowMark (c : Char) : Bool :=
  c = ',' || c = '[' || c = ']' || c = '\x7b' || c = '\x7d'

/-- The part of a plain scalar up to the next white space, and the text behind it. -/
def plainPart (inFlow : Bool) : List Char → Option (List Char × List Char)
  | [] => some ([], [])
  | ch :: rest =>
    if isSpace ch || isBreak ch then some ([], ch :: rest)
    else if ch = ':' && inFlow && rest.head?.any (fun d => isFlowMark d || d = '?') then none
    else if (ch = ':' && endsWord rest) || (inFlow && isFlowMark ch) then some ([], ch :: rest)
    else (plainPart inFlow rest).map fun (part, rest) => (ch :: part, rest)

/-- Reads parts of a plain scalar and the gaps between them. The flag tells whether the last gap holds a line break. -/
def readPlain (indent : Nat) (inFlow : Bool) : (fuel : Nat) → (text : List Char) → Gap → Cursor →
    Option (List Char × Bool × Cursor)
  | 0, _, _, _ => none
  | fuel + 1, text, g, c =>
    if c.atDocumentMark || c.rest.head? == some '#' then some (text, g.first.isSome, c)
    else do
      let (part, _) ← plainPart inFlow c.rest
      if part.isEmpty then return (text, g.first.isSome, c)
      let text := text ++ g.text ++ part
      let c := c.skip part.length
      if !c.rest.isEmpty && endsWord c.rest then
        let (g, c) ← c.gap indent
        if !inFlow && c.column < indent then return (text, g.first.isSome, c)
        readPlain indent inFlow fuel text g c
      else return (text, false, c)

/-- The plain scalar in lines from the column `indent` on, and whether a line break follows it. -/
def plain (c : Cursor) (indent : Nat) (inFlow : Bool) : Option (String × Bool × Cursor) := do
  let (text, broken, c) ← readPlain indent inFlow (c.rest.length + 1) [] {} c
  return (.ofList text, broken, c)

/-! ### Block scalars -/

/-- What happens to the line breaks at the end of a block scalar. -/
inductive Chomp where
  | strip
  | clip
  | keep
deriving DecidableEq

def chomp? : List Char → Option Chomp
  | '+' :: _ => some .keep
  | '-' :: _ => some .strip
  | _ => none

/-- An indentation from 1 to 9; zero is refused. -/
def blockIndent? : List Char → Option (Option Nat)
  | ch :: _ => if ch = '0' then none else some (if ch.isDigit then some (ch.toNat - '0'.toNat) else none)
  | [] => some none

/-- The marks behind the sign of a block scalar: chomping and indentation in either order. -/
def blockMarks (c : Cursor) : Option (Chomp × Option Nat × Cursor) :=
  match chomp? c.rest with
  | some chomp => do
    let indent ← blockIndent? (c.skip 1).rest
    return (chomp, indent, c.skip (if indent.isSome then 2 else 1))
  | none => do
    let indent ← blockIndent? c.rest
    if indent.isNone then return (.clip, none, c)
    match chomp? (c.skip 1).rest with
    | some chomp => return (chomp, indent, c.skip 2)
    | none => return (.clip, indent, c.skip 1)

/-- Passes the spaces of an indentation; without one, all spaces. -/
def skipIndent (indent : Option Nat) (c : Cursor) : Cursor :=
  let spaces := (c.rest.takeWhile (· = ' ')).length
  match indent with
  | none => c.skip spaces
  | some n => c.skip (min spaces (n - c.column))

/-- Passes empty lines. Returns their breaks, and the largest column met. -/
def readEmptyLines (indent : Option Nat) : (fuel : Nat) → (breaks : List Char) → (widest : Nat) → Cursor →
    Option (List Char × Nat × Cursor)
  | 0, _, _, _ => none
  | fuel + 1, breaks, widest, c =>
    let c := c.skipIndent indent
    let widest := max widest c.column
    if c.rest.head? == some '\t' && indent.all (c.column < ·) then none
    else if c.rest.head?.any isBreak then
      let (b, c) := c.takeBreak
      readEmptyLines indent fuel (breaks ++ b) widest c
    else some (breaks, widest, c)

/-- Reads the lines of a block scalar at the column `indent`, each with the break before it and the empty lines
before it. Returns the text, the last break, and the breaks of the empty lines at the end. -/
def readBlockLines (folded : Bool) (indent : Nat) : (fuel : Nat) → (text : List Char) → (leading : List Char) →
    (empty : List Char) → (indented : Bool) → Cursor → Option (List Char × List Char × List Char × Cursor)
  | 0, _, _, _, _, _ => none
  | fuel + 1, text, leading, empty, indented, c =>
    if c.column = indent && !c.rest.isEmpty then do
      let startsBlank := c.rest.head?.any isSpace
      let joint := if folded && leading == ['\n'] && !indented && !startsBlank then
          if empty.isEmpty then [' '] else []
        else leading
      let (line, c) := c.span fun _ => true
      let (leading, c) := c.takeBreak
      let text := text ++ joint ++ empty ++ line
      let (empty, _, c) ← readEmptyLines (some indent) (c.rest.length + 1) [] 0 c
      readBlockLines folded indent fuel text leading empty startsBlank c
    else some (text, leading, empty, c)

/-- The block scalar under a node at the column `outer`, which is none at the top of a document. -/
def blockScalar (c : Cursor) (folded : Bool) (outer : Option Nat) : Option (String × Cursor) := do
  let (chomp, increment, c) ← (c.skip 1).blockMarks
  let c := (c.span isSpace).2
  let c := if c.rest.head? == some '#' then c.skipLine else c
  if !endsLine c.rest then none
  else
    let c := c.takeBreak.2
    let given := increment.map (outer.getD 0 + ·)
    let (empty, widest, c) ← readEmptyLines given (c.rest.length + 1) [] 0 c
    let indent := given.getD (max widest (max (outer.elim 0 (· + 1)) 1))
    let (text, leading, empty, c) ← readBlockLines folded indent (c.rest.length + 1) [] [] empty false c
    let ending := match chomp with
      | .strip => []
      | .clip => leading
      | .keep => leading ++ empty
    return (.ofList (text ++ ending), c)

/-! ### Anchors and tags -/

/-- The characters that can follow the name of an anchor or alias directly. -/
def endsName (rest : List Char) : Bool :=
  endsWord rest || rest.head?.any fun c =>
    c = '?' || c = ':' || c = ',' || c = ']' || c = '\x7d' || c = '%' || c = '@' || c = '\x60'

/-- The name behind an ampersand or an asterisk. -/
def anchorName (c : Cursor) : Option (String × Cursor) :=
  let (name, c) := (c.skip 1).span isWordChar
  if name.isEmpty || !endsName c.rest then none else some (.ofList name, c)

/-- The characters of a tag besides the percent sign; inside angle brackets there are more of them. -/
def isTagChar (verbatim : Bool) (c : Char) : Bool :=
  isWordChar c || ";/?:@&=+$.!~*'()".toList.contains c || (verbatim && (c = ',' || c = '[' || c = ']'))

/-- The byte that a percent sign and two hexadecimal digits stand for. -/
def percentByte? (text : List Char) : Option UInt8 :=
  match text with
  | '%' :: a :: b :: _ => (hexValue? [a, b]).map (·.toUInt8)
  | _ => none

/-- The number of bytes of a character, as the first of them announces it. -/
def announcedWidth? (b : UInt8) : Option Nat :=
  if b &&& 0x80 = 0x00 then some 1
  else if b &&& 0xE0 = 0xC0 then some 2
  else if b &&& 0xF0 = 0xE0 then some 3
  else if b &&& 0xF8 = 0xF0 then some 4
  else none

/-- The bytes of one character, each behind a percent sign. All but the first must be marked as further bytes. -/
def percentBytes? (text : List Char) : Option (List UInt8) := do
  let first ← percentByte? text
  let width ← announcedWidth? first
  let further ← (List.range (width - 1)).mapM fun n =>
    (percentByte? (text.drop (3 * (n + 1)))).filter fun b => b &&& 0xC0 = 0x80
  return first :: further

/-- Reads the characters of a tag as bytes. -/
def readTagBytes (verbatim : Bool) : (fuel : Nat) → (bytes : List UInt8) → Cursor → Option (List UInt8 × Cursor)
  | 0, _, _ => none
  | fuel + 1, bytes, c =>
    match c.rest with
    | '%' :: _ => do
      let more ← percentBytes? c.rest
      readTagBytes verbatim fuel (bytes ++ more) (c.skip (3 * more.length))
    | ch :: _ =>
      if isTagChar verbatim ch then readTagBytes verbatim fuel (bytes ++ [ch.toNat.toUInt8]) (c.skip 1)
      else some (bytes, c)
    | [] => some (bytes, c)

/-- The characters of a tag, as bytes. -/
def tagBytes (c : Cursor) (verbatim : Bool) : Option (List UInt8 × Cursor) :=
  readTagBytes verbatim (c.rest.length + 1) [] c

/-- The handle of a tag: an exclamation mark, or a word between two of them. -/
def tagHandle? (c : Cursor) : Option (String × Cursor) :=
  match c.rest with
  | '!' :: rest =>
    let word := rest.takeWhile isWordChar
    if (rest.drop word.length).head? == some '!' then some (.ofList ('!' :: word ++ ['!']), c.skip (word.length + 2))
    else if word.isEmpty then some ("!", c.skip 1)
    else none
  | _ => none

/-- A tag, as a handle and the bytes behind it. The handle is empty for a tag in angle brackets and for a lone
exclamation mark. -/
def tag (c : Cursor) (inFlow : Bool) : Option ((String × List UInt8) × Cursor) := do
  let (found, c) ← match c.rest with
    | '!' :: '<' :: _ => do
      let (bytes, c) ← (c.skip 2).tagBytes true
      if bytes.isEmpty || c.rest.head? != some '>' then none else some (("", bytes), c.skip 1)
    | _ =>
      match c.tagHandle? with
      | some (handle, after) =>
        if handle = "!" then bare c
        else do
          let (bytes, c) ← after.tagBytes false
          if bytes.isEmpty then none else some ((handle, bytes), c)
      | none => bare c
  if endsWord c.rest || (inFlow && c.rest.head? == some ',') then some (found, c) else none
where
  bare (c : Cursor) : Option ((String × List UInt8) × Cursor) := do
    let (bytes, c) ← (c.skip 1).tagBytes false
    return (if bytes.head?.all (· == 0) then ("", [0x21]) else ("!", bytes), c)

/-! ### Directives -/

/-- What a directive declares. -/
inductive Directive where
  | version (major minor : Nat)
  | tag (handle : String) (expansion : List UInt8)
deriving DecidableEq

def decimal? (c : Cursor) : Option (Nat × Cursor) :=
  let (digits, c) := c.span Char.isDigit
  if digits.isEmpty || 9 < digits.length then none
  else some (digits.foldl (fun n d => 10 * n + (d.toNat - '0'.toNat)) 0, c)

/-- A directive, up to the end of its line. -/
def directive (c : Cursor) : Option (Directive × Cursor) := do
  let (name, c) := (c.skip 1).span isWordChar
  if name.isEmpty || !endsWord c.rest then none
  else
    let c := (c.span isSpace).2
    let (found, c) ← match String.ofList name with
      | "YAML" => do
        let (major, c) ← c.decimal?
        if c.rest.head? != some '.' then none
        else
          let (minor, c) ← (c.skip 1).decimal?
          some (Directive.version major minor, c)
      | "TAG" => do
        let (handle, c) ← c.tagHandle?
        if !c.rest.head?.any isSpace then none
        else
          let (expansion, c) ← (c.span isSpace).2.tagBytes true
          if expansion.isEmpty || !endsWord c.rest then none else some (.tag handle expansion, c)
      | _ => none
    let c := (c.span isSpace).2
    let c := if c.rest.head? == some '#' then c.skipLine else c
    if endsLine c.rest then some (found, c.takeBreak.2) else none

end Cursor

end OntologyTyping.Yaml
