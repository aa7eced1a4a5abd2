import OntologyTyping.Yaml.Lexeme
import OntologyTyping.Yaml.Node

/-!
YAML text as tokens. Indentation becomes start and end tokens of blocks.

A key without a question mark is known as a key only when its colon is met. So the scanner remembers, for the block
and each open bracket, where a key may have started, and puts the key token there afterwards. Such a key must end on
its line, within 1024 bytes.
-/

namespace OntologyTyping.Yaml

inductive Token where
  | directive (d : Cursor.Directive)
  | documentStart
  | documentEnd
  | blockSequenceStart
  | blockMappingStart
  | blockEnd
  | flowSequenceStart
  | flowSequenceEnd
  | flowMappingStart
  | flowMappingEnd
  | blockEntry
  | flowEntry
  | key
  | value
  | alias (name : String)
  | anchor (name : String)
  | tag (handle : String) (bytes : List UInt8)
  | scalar (style : Style) (text : String)
deriving DecidableEq

/-- A place where a key may have started. -/
structure KeyPlace where
  /-- Nothing but a key can stand there. -/
  required : Bool
  /-- The number of tokens before it. -/
  position : Nat
  index : Nat
  line : Nat
  column : Nat

/-- The state of scanning. -/
structure Scan where
  cursor : Cursor
  tokens : Array Token := #[]
  /-- The columns of the open blocks, the innermost first. -/
  indents : List Nat := []
  /-- The possible keys of the open brackets, the innermost first, and last that of the block. -/
  keys : List (Option KeyPlace) := [none]
  /-- Whether a key may start here. -/
  keyAllowed : Bool := true

namespace Scan

def inFlow (s : Scan) : Bool :=
  1 < s.keys.length

/-- The column of the innermost block. -/
def indent? (s : Scan) : Option Nat :=
  s.indents.head?

/-- The column at which the content of the innermost block can start. -/
def contentColumn (s : Scan) : Nat :=
  s.indent?.elim 0 (· + 1)

def push (s : Scan) (t : Token) : Scan :=
  { s with tokens := s.tokens.push t }

/-- Puts a token before those from a position on. -/
def insertAt (s : Scan) (position : Nat) (t : Token) : Scan :=
  { s with tokens := (s.tokens.toList.take position ++ t :: s.tokens.toList.drop position).toArray }

def advance (s : Scan) (c : Cursor) : Scan :=
  { s with cursor := c }

/-! ### Keys and blocks -/

/-- Forgets the possible key at this level; one that is required is missed. -/
def dropKey (s : Scan) : Option Scan :=
  match s.keys with
  | some k :: rest => if k.required then none else some { s with keys := none :: rest }
  | _ => some s

/-- Notes that a key may start here. -/
def noteKey (s : Scan) : Option Scan :=
  if s.keyAllowed then do
    let c := s.cursor
    let place : KeyPlace :=
      ⟨!s.inFlow && s.indent? == some c.column, s.tokens.size, c.index, c.line, c.column⟩
    let s ← s.dropKey
    return { s with keys := some place :: s.keys.tail }
  else some s

/-- Whether a key that may have started at a place can no longer end here. -/
def isStale (c : Cursor) (k : KeyPlace) : Bool :=
  k.line < c.line || k.index + 1024 < c.index

/-- Forgets the possible keys that have become too long. -/
def dropStaleKeys (s : Scan) : Option Scan := do
  let keys ← s.keys.mapM fun
    | some k => if isStale s.cursor k then (if k.required then none else some none) else some (some k)
    | none => some none
  return { s with keys }

/-- Opens a block at a column, unless one is open there. Its start token goes to the given position. -/
def openBlock (s : Scan) (column : Nat) (position : Nat) (start : Token) : Scan :=
  if s.inFlow || s.indent?.any (column ≤ ·) then s
  else { s.insertAt position start with indents := column :: s.indents }

/-- Ends the blocks that are open at columns beyond the given one; without one, all of them. -/
def closeBlocks (s : Scan) (column : Option Nat) : Scan :=
  if s.inFlow then s
  else
    let (closed, left) := s.indents.span fun i => column.all (· < i)
    { s with tokens := s.tokens ++ (closed.map fun _ => Token.blockEnd).toArray, indents := left }

/-! ### White space and comments -/

/-- Passes white space and comments. A tab before something that may be a key is not white space. -/
def skipBlank : (fuel : Nat) → Scan → Scan
  | 0, s => s
  | fuel + 1, s =>
    let c := s.cursor
    let c := if c.column == 0 && c.rest.head? == some '\ufeff' then c.skip 1 else c
    let c := (c.span fun ch => ch = ' ' || (ch = '\t' && (s.inFlow || !s.keyAllowed))).2
    let c := if c.rest.head? == some '#' then c.skipLine else c
    if c.rest.head?.any isBreak then
      skipBlank fuel { s with cursor := c.takeBreak.2, keyAllowed := s.keyAllowed || !s.inFlow }
    else s.advance c

/-! ### One token -/

/-- Passes `n` characters that are a token. -/
def mark (s : Scan) (n : Nat) (t : Token) : Scan :=
  (s.advance (s.cursor.skip n)).push t

/-- A line that separates documents, or a directive. -/
def documentMark (s : Scan) (after : Scan → Option Scan) : Option Scan := do
  let s ← (s.closeBlocks none).dropKey
  after { s with keyAllowed := false }

def openBracket (s : Scan) (t : Token) : Option Scan := do
  let s ← s.noteKey
  return { s.mark 1 t with keys := none :: s.keys, keyAllowed := true }

def closeBracket (s : Scan) (t : Token) : Option Scan := do
  let s ← s.dropKey
  return { s.mark 1 t with keys := if s.inFlow then s.keys.tail else s.keys, keyAllowed := false }

def flowEntry (s : Scan) : Option Scan := do
  let s ← s.dropKey
  return { s.mark 1 .flowEntry with keyAllowed := true }

def blockEntry (s : Scan) : Option Scan := do
  if !s.inFlow && !s.keyAllowed then none
  else
    let s ← (s.openBlock s.cursor.column s.tokens.size .blockSequenceStart).dropKey
    return { s.mark 1 .blockEntry with keyAllowed := true }

def explicitKey (s : Scan) : Option Scan := do
  if !s.inFlow && !s.keyAllowed then none
  else
    let s ← (s.openBlock s.cursor.column s.tokens.size .blockMappingStart).dropKey
    return { s.mark 1 .key with keyAllowed := !s.inFlow }

/-- A colon: what it follows becomes a key, if a key may have started there. -/
def keyValue (s : Scan) : Option Scan :=
  match s.keys with
  | some k :: rest =>
    let s := (s.insertAt k.position .key).openBlock k.column k.position .blockMappingStart
    some { s.mark 1 .value with keys := none :: rest, keyAllowed := false }
  | _ =>
    if !s.inFlow && !s.keyAllowed then none
    else
      let s := s.openBlock s.cursor.column s.tokens.size .blockMappingStart
      some { s.mark 1 .value with keyAllowed := !s.inFlow }

/-- A piece that can start a key. -/
def piece (s : Scan) (t : Token) (c : Cursor) : Option Scan := do
  let s ← s.noteKey
  return { (s.advance c).push t with keyAllowed := false }

def blockScalar (s : Scan) (folded : Bool) : Option Scan := do
  let s ← s.dropKey
  let (text, c) ← s.cursor.blockScalar folded s.indent?
  return { (s.advance c).push (.scalar (if folded then .folded else .literal) text) with keyAllowed := true }

def plainScalar (s : Scan) : Option Scan := do
  let s ← s.noteKey
  let (text, broken, c) ← s.cursor.plain s.contentColumn s.inFlow
  return { (s.advance c).push (.scalar .plain text) with keyAllowed := broken }

/-- The characters that start something else than a plain scalar. -/
def isIndicator (c : Char) : Bool :=
  "-?:,[]\x7b\x7d#&*!|>'\"%@\x60".toList.contains c

/-- Whether a plain scalar can start with these characters. -/
def startsPlain (inFlow : Bool) (ch : Char) (rest : List Char) : Bool :=
  !(isSpace ch || isBreak ch || isIndicator ch) || (ch = '-' && !rest.head?.any isSpace) ||
    (!inFlow && (ch = '?' || ch = ':') && !endsWord rest)

/-- Reads the token that starts here. -/
def token (s : Scan) (ch : Char) (rest : List Char) : Option Scan :=
  let c := s.cursor
  if c.column == 0 && ch = '%' then
    s.documentMark fun s => do
      let (d, c) ← s.cursor.directive
      return (s.advance c).push (.directive d)
  else if c.atDocumentMark then
    s.documentMark fun s => some (s.mark 3 (if ch = '-' then .documentStart else .documentEnd))
  else match ch with
    | '[' => s.openBracket .flowSequenceStart
    | '\x7b' => s.openBracket .flowMappingStart
    | ']' => s.closeBracket .flowSequenceEnd
    | '\x7d' => s.closeBracket .flowMappingEnd
    | ',' => s.flowEntry
    | '*' => do
      let (name, c) ← c.anchorName
      s.piece (.alias name) c
    | '&' => do
      let (name, c) ← c.anchorName
      s.piece (.anchor name) c
    | '!' => do
      let ((handle, bytes), c) ← c.tag s.inFlow
      s.piece (.tag handle bytes) c
    | '\'' => do
      let (text, c) ← c.singleQuoted
      s.piece (.scalar .singleQuoted text) c
    | '"' => do
      let (text, c) ← c.doubleQuoted
      s.piece (.scalar .doubleQuoted text) c
    | _ =>
      if ch = '-' && endsWord rest then s.blockEntry
      else if ch = '?' && (s.inFlow || endsWord rest) then s.explicitKey
      else if ch = ':' && (s.inFlow || endsWord rest) then s.keyValue
      else if ch = '|' && !s.inFlow then s.blockScalar false
      else if ch = '>' && !s.inFlow then s.blockScalar true
      else if startsPlain s.inFlow ch rest then s.plainScalar
      else none

/-- Reads all the tokens that are left. -/
def run : (fuel : Nat) → Scan → Option (List Token)
  | 0, _ => none
  | fuel + 1, s => do
    let s := skipBlank (s.cursor.rest.length + 1) s
    let s ← s.dropStaleKeys
    match s.cursor.rest with
    | [] => do
      let s ← (s.closeBlocks none).dropKey
      return s.tokens.toList
    | ch :: rest => run fuel (← (s.closeBlocks (some s.cursor.column)).token ch rest)

end Scan

/-- The tokens of a text. -/
def tokens? (text : String) : Option (List Token) :=
  if text.toList.all isAllowed then Scan.run (text.length + 1) { cursor := .ofText text } else none

end OntologyTyping.Yaml
