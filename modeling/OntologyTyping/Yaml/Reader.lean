import OntologyTyping.Yaml.Token

/-!
The document that a YAML text holds.

A text holds one document or none. An anchor has the number of different names that anchors had before it, so two
anchors can have one number when a name is used again. An alias stands for the last node whose anchor has the number
that the alias's name had last. That node may come later, and it may hold the alias.
-/

namespace OntologyTyping.Yaml

/-- A node with an anchor. -/
structure Anchored where
  /-- The number of nodes with anchors that start before it. -/
  place : Nat
  number : Nat
  node : Node

/-- The tokens that are left, and what is known from those before. -/
structure Reading where
  tokens : List Token
  /-- What the handles of tags stand for. -/
  handles : List (String × List UInt8)
  /-- The numbers of the anchors' names; no name is there twice. -/
  numbers : List (String × Nat) := []
  /-- The number of nodes with anchors that have started. -/
  started : Nat := 0
  anchored : List Anchored := []

/-- Reads a part of a document from its tokens. -/
abbrev Reader := StateT Reading Option

namespace Reader

/-- The next token. -/
def peek : Reader (Option Token) := do
  return (← get).tokens.head?

def skip : Reader Unit :=
  modify fun r => { r with tokens := r.tokens.tail }

/-- Whether the next token is one of the given ones; at the end of the text it is none of them. -/
def nextIn (ts : List Token) : Reader Bool := do
  return (← peek).any ts.contains

/-- The anchor and the tag before a node, in either order. -/
def properties : Reader (Option String × Option (String × List UInt8)) := do
  let r ← get
  match r.tokens with
  | .anchor a :: .tag h t :: rest | .tag h t :: .anchor a :: rest =>
    set { r with tokens := rest }
    return (some a, some (h, t))
  | .anchor a :: rest =>
    set { r with tokens := rest }
    return (some a, none)
  | .tag h t :: rest =>
    set { r with tokens := rest }
    return (none, some (h, t))
  | _ => return (none, none)

/-- A tag with its handle written out. -/
def expandTag : Option (String × List UInt8) → Reader (Option Tag)
  | none => return none
  | some (handle, bytes) => do
    if handle = "" then return some (.join [] bytes)
    match (← get).handles.lookup handle with
    | some expansion => return some (.join expansion bytes)
    | none => failure

/-- The number for the name of an anchor, which it has from here on. -/
def numberOf (name : String) : Reader Nat := do
  let r ← get
  let number := r.numbers.length
  set { r with numbers := (name, number) :: r.numbers.filter (·.1 ≠ name) }
  return number

/-- Reads a node with an anchor. -/
def anchor (name : String) (content : Reader Node) : Reader Node := do
  let number ← numberOf name
  let place := (← get).started
  modify fun r => { r with started := place + 1 }
  let node ← content
  modify fun r => { r with anchored := ⟨place, number, node⟩ :: r.anchored }
  return node

mutual

/-- A node. Only a node in block context can be a block, and only under a key can a sequence stand without
indentation. -/
def node : (fuel : Nat) → (block underKey : Bool) → Reader Node
  | 0, _, _ => failure
  | fuel + 1, block, underKey => do
    if let some (.alias name) := ← peek then
      skip
      match (← get).numbers.lookup name with
      | some number => return .alias number
      | none => failure
    let (name?, written) ← properties
    let tag ← expandTag written
    match name? with
    | some name => anchor name (content fuel block underKey true tag)
    | none => content fuel block underKey tag.isSome tag

/-- What stands behind the anchor and the tag of a node. Nothing at all is a node only where there is one of them. -/
def content : (fuel : Nat) → (block underKey announced : Bool) → (tag : Option Tag) → Reader Node
  | 0, _, _, _, _ => failure
  | fuel + 1, block, underKey, announced, tag => do
    match ← peek with
    | some (.scalar style text) =>
      skip
      return .scalar { tag, style, text }
    | some .flowSequenceStart =>
      skip
      return .sequence tag (← flowItems fuel true)
    | some .flowMappingStart =>
      skip
      return .mapping tag (← flowEntries fuel true)
    | some .blockEntry =>
      if underKey then return .sequence tag (← looseItems fuel)
      else if announced then return .scalar { tag, text := "" }
      else failure
    | some .blockSequenceStart =>
      if block then
        skip
        return .sequence tag (← blockItems fuel)
      else if announced then return .scalar { tag, text := "" }
      else failure
    | some .blockMappingStart =>
      if block then
        skip
        return .mapping tag (← blockEntries fuel)
      else if announced then return .scalar { tag, text := "" }
      else failure
    | _ => if announced then return .scalar { tag, text := "" } else failure

/-- A node, or the empty node where one of the given tokens follows. -/
def nodeUnless : (fuel : Nat) → (ends : List Token) → (block underKey : Bool) → Reader Node
  | 0, _, _, _ => failure
  | fuel + 1, ends, block, underKey => do
    if ← nextIn ends then return .empty else node fuel block underKey

/-- The items of a block sequence. -/
def blockItems : (fuel : Nat) → Reader (List Node)
  | 0 => failure
  | fuel + 1 => do
    match ← peek with
    | some .blockEntry =>
      skip
      let item ← nodeUnless fuel [.blockEntry, .blockEnd] true false
      return item :: (← blockItems fuel)
    | some .blockEnd =>
      skip
      return []
    | _ => failure

/-- The items of a sequence without indentation. -/
def looseItems : (fuel : Nat) → Reader (List Node)
  | 0 => failure
  | fuel + 1 => do
    if (← peek) = some .blockEntry then
      skip
      let item ← nodeUnless fuel [.blockEntry, .key, .value, .blockEnd] true false
      return item :: (← looseItems fuel)
    else return []

/-- The value of a mapping, empty where there is no colon. -/
def valueUnless : (fuel : Nat) → (ends : List Token) → (block : Bool) → Reader Node
  | 0, _, _ => failure
  | fuel + 1, ends, block => do
    if (← peek) = some .value then
      skip
      nodeUnless fuel ends block block
    else return .empty

/-- The entries of a block mapping. -/
def blockEntries : (fuel : Nat) → Reader (List (Node × Node))
  | 0 => failure
  | fuel + 1 => do
    match ← peek with
    | some .key =>
      skip
      let key ← nodeUnless fuel [.key, .value, .blockEnd] true true
      let value ← valueUnless fuel [.key, .value, .blockEnd] true
      return (key, value) :: (← blockEntries fuel)
    | some .blockEnd =>
      skip
      return []
    | _ => failure

/-- The items of a sequence in brackets. An item with a key is a mapping of one entry. -/
def flowItems : (fuel : Nat) → (first : Bool) → Reader (List Node)
  | 0, _ => failure
  | fuel + 1, first => do
    if (← peek) = some .flowSequenceEnd then
      skip
      return []
    if !first then
      if (← peek) = some .flowEntry then skip else failure
    match ← peek with
    | some .flowSequenceEnd =>
      skip
      return []
    | some .key =>
      skip
      let key ← if ← nextIn [.value, .flowEntry, .flowSequenceEnd] then do
          skip
          pure .empty
        else node fuel false false
      let value ← valueUnless fuel [.flowEntry, .flowSequenceEnd] false
      return .mapping none [(key, value)] :: (← flowItems fuel false)
    | _ =>
      let item ← node fuel false false
      return item :: (← flowItems fuel false)

/-- The entries of a mapping in braces. An entry without a key mark has an empty value. -/
def flowEntries : (fuel : Nat) → (first : Bool) → Reader (List (Node × Node))
  | 0, _ => failure
  | fuel + 1, first => do
    if (← peek) = some .flowMappingEnd then
      skip
      return []
    if !first then
      if (← peek) = some .flowEntry then skip else failure
    match ← peek with
    | some .flowMappingEnd =>
      skip
      return []
    | some .key =>
      skip
      let key ← nodeUnless fuel [.value, .flowEntry, .flowMappingEnd] false false
      let value ← valueUnless fuel [.flowEntry, .flowMappingEnd] false
      return (key, value) :: (← flowEntries fuel false)
    | _ =>
      let key ← node fuel false false
      return (key, .empty) :: (← flowEntries fuel false)

end

end Reader

/-! ### Documents -/

/-- The handles of tags that need no directive. -/
def defaultHandles : List (String × List UInt8) :=
  [("!", (Tag.named "").bytes), ("!!", (Tag.standard "").bytes)]

/-- The handles that directives declare. A second version, or a second meaning of a handle, is refused, and so is a
version other than 1.1 and 1.2. -/
def declaredHandles : (versionSeen : Bool) → List Cursor.Directive → Option (List (String × List UInt8))
  | _, [] => some []
  | seen, .version major minor :: rest =>
    if seen || major != 1 || (minor != 1 && minor != 2) then none else declaredHandles true rest
  | seen, .tag handle expansion :: rest => do
    let handles ← declaredHandles seen rest
    if (handles.lookup handle).isSome then none else some ((handle, expansion) :: handles)

def directives : List Token → List Cursor.Directive
  | .directive d :: rest => d :: directives rest
  | _ => []

/-- The node of a list of tokens, if there is one, with nothing but ends of documents behind it; and what is left of
reading it. -/
def nodeOf? (ts : List Token) : Option (Option (Node × Reading)) := do
  let declared := directives ts
  let handles ← declaredHandles false declared
  let fuel := 4 * ts.length + 4
  let reading (tokens : List Token) : Reading := { tokens, handles := handles ++ defaultHandles }
  match ts.drop declared.length with
  | [] => if declared.isEmpty then return none else none
  | .documentStart :: rest =>
    let isEmpty := match rest with
      | [] | .directive _ :: _ | .documentStart :: _ | .documentEnd :: _ => true
      | _ => false
    if isEmpty then ended (.empty, reading rest) else ended (← (Reader.node fuel true false).run (reading rest))
  | rest => if declared.isEmpty then ended (← (Reader.node fuel true false).run (reading rest)) else none
where
  ended (result : Node × Reading) : Option (Option (Node × Reading)) :=
    if result.2.tokens.all (· == .documentEnd) then some (some result) else none

/-- A document: its node, unless the text is empty, and the nodes that aliases stand for by their numbers. -/
structure Document where
  root : Option Node
  anchors : List (Nat × Node) := []

/-- The document of a text; none where the text is not well formed. -/
def document? (text : String) : Option Document := do
  match ← nodeOf? (← tokens? text) with
  | none => return { root := none }
  | some (root, reading) =>
    let latestFirst := reading.anchored.mergeSort fun a b => b.place ≤ a.place
    return { root, anchors := latestFirst.map fun a => (a.number, a.node) }

end OntologyTyping.Yaml
