import SessionBroker.Path

/-!
Trees of files.

A tree is a folder with everything below it. Paths are looked up from its top, segment by
segment; symbolic links on the way are followed, at most `linkLimit` of them. What lies
outside the tree counts as missing.
-/

namespace SessionBroker.Files

/-- What stands under a name. -/
inductive Node where
  | file (content : List UInt8)
  /-- A symbolic link. -/
  | link (target : Path)
  | folder (entries : List (List UInt8 × Node))
  deriving Repr

/-- The names on the way from the top down to a node. -/
abbrev Location := List (List UInt8)

/-- Why there is nothing to be read at a path. -/
inductive FileFault where
  | missing
  /-- Something on the way is not a folder. -/
  | notFolder
  /-- A folder cannot be read as a file. -/
  | isFolder
  /-- Too many links follow each other. -/
  | loop
  | nameTooLong
  /-- No path has a zero byte. -/
  | zeroByte
  deriving DecidableEq, Repr

/-- How many links are followed on the way to a node. -/
def linkLimit : Nat := 40

def nameLimit : Nat := 255

namespace Node

def empty : Node := .folder []

def isFolder : Node → Bool
  | .folder _ => true
  | _ => false

/-- The entries of a folder; nothing else has any. -/
def entries : Node → List (List UInt8 × Node)
  | .folder entries => entries
  | _ => []

def child? (n : Node) (name : List UInt8) : Option Node := n.entries.lookup name

def at? : Node → Location → Option Node
  | n, [] => some n
  | n, name :: rest => (n.child? name).bind fun child => child.at? rest

/-- Follows segments from a folder, with `follow` for links. -/
def walk (top : Node)
    (follow : Location → List (List UInt8) → Except FileFault Location) :
    List (List UInt8) → Location → Except FileFault Location
  | [], here => .ok here
  | segment :: rest, here =>
    match top.at? here with
    | some (.folder entries) =>
      if segment = [] ∨ segment = [Path.dot] then walk top follow rest here
      else if segment = [Path.dot, Path.dot] then
        if here = [] then .error .missing else walk top follow rest here.dropLast
      else if nameLimit < segment.length then .error .nameTooLong
      else
        match entries.lookup segment with
        | none => .error .missing
        | some (.link target) =>
          if target.isAbsolute then .error .missing else follow here (target.segments ++ rest)
        | some _ => walk top follow rest (here ++ [segment])
    | _ => .error .notFolder

/-- Follows segments from a folder over at most `links` links. -/
def resolveFrom (top : Node) : (links : Nat) → Location → List (List UInt8) →
    Except FileFault Location
  | 0, here, segments => top.walk (fun _ _ => .error .loop) segments here
  | links + 1, here, segments => top.walk (resolveFrom top links) segments here

/-- The location that a path leads to; the empty path leads nowhere. -/
def resolve (top : Node) (p : Path) : Except FileFault Location :=
  if p.bytes = [] then .error .missing
  else if p.bytes.contains 0 then .error .zeroByte
  else if p.isAbsolute then .error .missing
  else top.resolveFrom linkLimit [] p.segments

/-- The content of the file that a path leads to. -/
def read (top : Node) (p : Path) : Except FileFault (List UInt8) := do
  match top.at? (← top.resolve p) with
  | some (.file content) => return content
  | some (.folder _) => throw .isFolder
  | _ => throw .missing

/-! ### Changes -/

/-- Replaces the entry of a name, or adds it at the end. -/
def setEntry (name : List UInt8) (n : Node) : List (List UInt8 × Node) → List (List UInt8 × Node)
  | [] => [(name, n)]
  | (other, old) :: rest =>
    if other = name then (name, n) :: rest else (other, old) :: setEntry name n rest

/-- Puts a node at a location; the folders on the way are made. -/
def put (new : Node) : Node → Location → Node
  | _, [] => new
  | n, name :: rest =>
    .folder (setEntry name (put new ((n.child? name).getD .empty) rest) n.entries)

def erase : Node → Location → Node
  | n, [] => n
  | n, [name] => .folder (n.entries.filter (·.1 ≠ name))
  | n, name :: rest =>
    match n.child? name with
    | some child => .folder (setEntry name (erase child rest) n.entries)
    | none => n

/-- Follows segments from a folder and makes the folders that are missing. Nothing if
something on the way is neither a folder nor leads to one. -/
def makeFolders (top : Node) : List (List UInt8) → Location → Option (Node × Location)
  | [], here => some (top, here)
  | segment :: rest, here =>
    if segment = [] ∨ segment = [Path.dot] then makeFolders top rest here
    else if segment = [Path.dot, Path.dot] then
      if here = [] then none else makeFolders top rest here.dropLast
    else
      match (top.at? here).bind (·.child? segment) with
      | none => makeFolders (put .empty top (here ++ [segment])) rest (here ++ [segment])
      | some _ =>
        match top.resolveFrom linkLimit here [segment] with
        | .ok there =>
          if (top.at? there).any (·.isFolder) then makeFolders top rest there else none
        | .error _ => none

/-- The location that the names of a path lead to when there are no links: `..` takes the
last name back. -/
def plainLocation (p : Path) : Location :=
  let add (here : Location) (segment : List UInt8) : Location :=
    if segment = [] ∨ segment = [Path.dot] then here
    else if segment = [Path.dot, Path.dot] then here.dropLast
    else here ++ [segment]
  p.segments.foldl add []

/-- Puts a node at a path without links. -/
def insert (top : Node) (p : Path) (new : Node) : Node := put new top (plainLocation p)

end Node

end SessionBroker.Files
