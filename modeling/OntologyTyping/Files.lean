/-!
Text files by path, and why a file cannot be read.

A path is walked part by part from the directory that holds the files, or from the root where it starts with a
slash. Only a directory can be walked from, even to stay in it, so a slash behind the name of a file is an error.
-/

namespace OntologyTyping

/-- Why a file cannot be read. -/
inductive ReadError where
  | notFound
  | isDirectory
  | notDirectory
  | nameTooLong
  | nameHoldsNul
  | other (reason : String)
deriving DecidableEq

def ReadError.message : ReadError → String
  | .notFound => "No such file or directory (os error 2)"
  | .isDirectory => "Is a directory (os error 21)"
  | .notDirectory => "Not a directory (os error 20)"
  | .nameTooLong => "File name too long (os error 36)"
  | .nameHoldsNul => "file name contained an unexpected NUL byte"
  | .other reason => reason

/-- The parts of a path between its slashes, without those that stay in place. -/
def pathParts (path : String) : List String :=
  (path.splitOn "/").filter fun part => part ≠ "" ∧ part ≠ "."

/-- The longest part of a path, in bytes. -/
def longestName : Nat := 255

/-- The longest path, in bytes. -/
def longestPath : Nat := 4095

/-- Text files under their paths, as seen from the directory that holds them. -/
structure Files where
  texts : List (String × String)

/-- Where a walk along a path stands. -/
inductive Place where
  /-- A directory at or below the one that holds the files. -/
  | within (parts : List String)
  /-- A directory above that one. -/
  | above
  /-- The root, or one of the directories that are found there on every machine. -/
  | system (parts : List String)
  | file (text : String)

/-- The directories that are found at the root on every machine. -/
def systemDirectories : List String :=
  ["bin", "boot", "dev", "etc", "home", "lib", "media", "mnt", "opt", "proc", "root", "run", "sbin", "srv", "sys",
    "tmp", "usr", "var"]

namespace Files

/-- The file with these parts of a path. -/
def text? (files : Files) (parts : List String) : Option String :=
  files.texts.findSome? fun (name, text) => if pathParts name = parts then some text else none

/-- Whether the parts of a path lead to a directory. -/
def isDirectory (files : Files) (parts : List String) : Bool :=
  files.texts.any fun (name, _) => parts.isPrefixOf (pathParts name) && parts ≠ pathParts name

/-- What stands under a name in a directory. Of the machine's own files only the empty one at `/dev/null` is known. -/
def entry? (files : Files) (here : Place) (name : String) : Option Place :=
  match here with
  | .within parts =>
    match files.text? (parts ++ [name]) with
    | some text => some (.file text)
    | none => if files.isDirectory (parts ++ [name]) then some (.within (parts ++ [name])) else none
  | .system [] => if systemDirectories.contains name then some (.system [name]) else none
  | .system ["dev"] => if name = "null" then some (.file "") else none
  | _ => none

/-- The directory that holds a directory; the root holds itself. -/
def parent : Place → Place
  | .within [] => .above
  | .within parts => .within parts.dropLast
  | .system parts => .system parts.dropLast
  | here => here

/-- One part of a walk. -/
def step (files : Files) (here : Place) (part : String) : Except ReadError Place :=
  match here with
  | .file _ => .error .notDirectory
  | _ =>
    if part = "" || part = "." then .ok here
    else if part = ".." then .ok (parent here)
    else if longestName < part.utf8ByteSize then .error .nameTooLong
    else match files.entry? here part with
      | some there => .ok there
      | none => .error .notFound

/-- Reads a file. -/
def read (files : Files) (path : String) : Except ReadError String :=
  if path.toList.any (·.toNat = 0) then .error .nameHoldsNul
  else if path = "" then .error .notFound
  else if longestPath < path.utf8ByteSize then .error .nameTooLong
  else do
    let start := if path.startsWith "/" then Place.system [] else .within []
    match ← (path.splitOn "/").foldlM files.step start with
    | .file text => return text
    | _ => throw .isDirectory

end Files

/-- The part of a file's name after its last point, unless the name starts with that point. -/
def fileExtension? (path : String) : Option String :=
  match (pathParts path).getLast? with
  | none => none
  | some ".." => none
  | some name =>
    let (after, before) := name.toList.reverse.span (· ≠ '.')
    match before with
    | '.' :: _ :: _ => some (.ofList after.reverse)
    | _ => none

end OntologyTyping
