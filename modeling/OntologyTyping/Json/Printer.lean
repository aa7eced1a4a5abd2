import OntologyTyping.Json.Basic
import OntologyTyping.Decimal.Layout

/-!
JSON text: compact, and indented by two spaces. Characters below U+0020, the quote and the backslash are escaped,
and all other characters stand for themselves.
-/

namespace OntologyTyping.Json

/-- The four digits of a code point below U+0100 in base sixteen. -/
def fourHex (n : Nat) : List Char :=
  let digits := Nat.toDigits 16 n
  List.replicate (4 - digits.length) '0' ++ digits

/-- One character inside a string. -/
def escapeChar (c : Char) : List Char :=
  if c = '"' then ['\\', '"']
  else if c = '\\' then ['\\', '\\']
  else if c = '\n' then ['\\', 'n']
  else if c = '\r' then ['\\', 'r']
  else if c = '\t' then ['\\', 't']
  else if c.toNat = 8 then ['\\', 'b']
  else if c.toNat = 12 then ['\\', 'f']
  else if c.toNat < 32 then '\\' :: 'u' :: fourHex c.toNat
  else [c]

/-- A string with its quotes. -/
def quoteString (s : String) : String :=
  .ofList ('"' :: s.toList.flatMap escapeChar ++ ['"'])

/-- A floating-point number; what has no digits is null. -/
def floatText (d : Decimal.Double) : String :=
  if d.isFinite then Decimal.Layout.json.write d else "null"

/-- The text of a value that holds no other values. -/
def scalarText : Json → String
  | .bool true => "true"
  | .bool false => "false"
  | .int i => toString i
  | .float d => floatText d
  | .str s => quoteString s
  | _ => "null"

mutual

/-- The text without any white space. -/
def compact : Json → String
  | .arr items => "[" ++ compactItems items ++ "]"
  | .obj entries => "\x7b" ++ compactEntries entries ++ "\x7d"
  | scalar => scalarText scalar

def compactItems : List Json → String
  | [] => ""
  | [j] => compact j
  | j :: rest => compact j ++ "," ++ compactItems rest

def compactEntries : List (String × Json) → String
  | [] => ""
  | [(k, j)] => quoteString k ++ ":" ++ compact j
  | (k, j) :: rest => quoteString k ++ ":" ++ compact j ++ "," ++ compactEntries rest

end

/-- A new line at the given depth. -/
def newline (depth : Nat) : String :=
  "\n" ++ .ofList (List.replicate (2 * depth) ' ')

mutual

/-- The text with every item and entry on a line of its own, indented by two spaces a level. -/
def pretty (depth : Nat) : Json → String
  | .arr [] => "[]"
  | .arr items => "[" ++ prettyItems (depth + 1) items ++ newline depth ++ "]"
  | .obj [] => "\x7b\x7d"
  | .obj entries => "\x7b" ++ prettyEntries (depth + 1) entries ++ newline depth ++ "\x7d"
  | scalar => scalarText scalar

def prettyItems (depth : Nat) : List Json → String
  | [] => ""
  | [j] => newline depth ++ pretty depth j
  | j :: rest => newline depth ++ pretty depth j ++ "," ++ prettyItems depth rest

def prettyEntries (depth : Nat) : List (String × Json) → String
  | [] => ""
  | [(k, j)] => newline depth ++ quoteString k ++ ": " ++ pretty depth j
  | (k, j) :: rest => newline depth ++ quoteString k ++ ": " ++ pretty depth j ++ "," ++ prettyEntries depth rest

end

end OntologyTyping.Json
