import OntologyTyping.Json.Shape

/-!
What can be wrong with a JSON text, and where.

A fault in the grammar has its place from the start. A value of the wrong shape gets one only from the list, record
or string around it or at it: the place where reading has come to by then.
-/

namespace OntologyTyping.Json

/-- A fault in the grammar. -/
inductive Fault where
  | endOfValue
  | endOfList
  | endOfObject
  | endOfString
  | expectedValue
  | expectedWord
  | expectedColon
  | expectedCommaOrBracket
  | expectedCommaOrBrace
  | keyNotString
  | trailingComma
  | trailingCharacters
  | controlCharacter
  | invalidEscape
  | loneSurrogate
  | endOfEscape
  | invalidNumber
  | numberOutOfRange
  | tooDeep
deriving DecidableEq

def Fault.message : Fault → String
  | .endOfValue => "EOF while parsing a value"
  | .endOfList => "EOF while parsing a list"
  | .endOfObject => "EOF while parsing an object"
  | .endOfString => "EOF while parsing a string"
  | .expectedValue => "expected value"
  | .expectedWord => "expected ident"
  | .expectedColon => "expected `:`"
  | .expectedCommaOrBracket => "expected `,` or `]`"
  | .expectedCommaOrBrace => "expected `,` or `\x7d`"
  | .keyNotString => "key must be a string"
  | .trailingComma => "trailing comma"
  | .trailingCharacters => "trailing characters"
  | .controlCharacter => "control character (\\u0000-\\u001F) found while parsing a string"
  | .invalidEscape => "invalid escape"
  | .loneSurrogate => "lone leading surrogate in hex escape"
  | .endOfEscape => "unexpected end of hex escape"
  | .invalidNumber => "invalid number"
  | .numberOutOfRange => "number out of range"
  | .tooDeep => "recursion limit exceeded"

/-- What is wrong. -/
inductive Problem where
  | fault (f : Fault)
  | shape (e : ShapeError)
deriving DecidableEq

def Problem.message : Problem → String
  | .fault f => f.message
  | .shape e => e.message

/-- A problem, and the number of bytes behind its place, if it has one. -/
structure Failure where
  problem : Problem
  left : Option Nat := none
deriving DecidableEq

/-- A place in a text: lines count from one, and columns count the bytes before it in its line. -/
structure Place where
  line : Nat
  column : Nat
deriving DecidableEq

/-- The place behind some bytes. -/
def Place.behind (bytes : List UInt8) : Place :=
  let isLineFeed := fun (b : UInt8) => b == 10
  { line := bytes.countP isLineFeed + 1
    column := (bytes.reverse.takeWhile fun b => !isLineFeed b).length }

def Place.message (p : Place) : String :=
  " at line " ++ toString p.line ++ " column " ++ toString p.column

/-- A problem with its place in the text. -/
structure ParseError where
  problem : Problem
  place : Option Place
deriving DecidableEq

def ParseError.message (e : ParseError) : String :=
  e.problem.message ++ e.place.elim "" Place.message

/-- The failure of reading a text, with its place. -/
def Failure.inText (f : Failure) (text : String) : ParseError :=
  let bytes := text.toUTF8.toList
  { problem := f.problem, place := f.left.map fun left => .behind (bytes.take (bytes.length - left)) }

end OntologyTyping.Json
