/-!
The tags of YAML nodes.

An escape in a tag stands for a byte, so a tag is kept as bytes: they need not form characters. A zero byte ends the
tag.
-/

namespace OntologyTyping.Yaml

structure Tag where
  bytes : List UInt8
deriving DecidableEq, Inhabited

namespace Tag

/-- The text of bytes, if they form characters. -/
def textOf? (bytes : List UInt8) : Option String :=
  String.fromUTF8? ⟨bytes.toArray⟩

def ofText (s : String) : Tag :=
  ⟨s.toUTF8.toList⟩

/-- The tag as a text, if it is one. -/
def text? (t : Tag) : Option String :=
  textOf? t.bytes

/-- A tag of two parts, each of which a zero byte ends. -/
def join (start rest : List UInt8) : Tag :=
  ⟨start.takeWhile (· ≠ 0) ++ rest.takeWhile (· ≠ 0)⟩

/-- The tag of a type of the standard. -/
def standard (name : String) : Tag :=
  ofText ("tag:yaml.org,2002:" ++ name)

/-- A local tag, which is written with one exclamation mark. -/
def named (name : String) : Tag :=
  ofText ("!" ++ name)

/-- Whether the tag is written with one exclamation mark. -/
def isLocal (t : Tag) : Bool :=
  t.bytes.head? == some 0x21

/-- The name in a local tag, if it is a text. -/
def name? (t : Tag) : Option String :=
  if t.isLocal then textOf? t.bytes.tail else none

end Tag

end OntologyTyping.Yaml
