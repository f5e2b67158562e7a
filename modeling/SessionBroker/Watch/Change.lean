import SessionBroker.Ignore.Rules

/-!
Source changes out of raw file events.

`changesOf` tells the changes that an event reports, in the order of its paths. Ignored
paths are passed over, and of the watched root itself only that it came or went counts.
-/

namespace SessionBroker

inductive Change where
  | added (path : Path)
  | changed (path : Path)
  | removed (path : Path)
  /-- The watched root was deleted or replaced. -/
  | baseRecreated (path : Path)
  deriving DecidableEq, Repr

inductive FileEventKind where
  | unspecified
  | other
  | access
  | create
  | remove
  | renameFrom
  | renameTo
  /-- Any other modification. -/
  | modify
  deriving DecidableEq, Repr

structure FileEvent where
  kind : FileEventKind
  paths : List Path
  deriving DecidableEq, Repr

namespace Watch

def defaultIgnores : List String :=
  [".git/", "target/", "build/", "out/", ".gradle/", ".idea/", ".bsp/", ".metals/"]

/-- The rules about the directories that are always ignored. -/
def defaultRules : List Ignore.Rule :=
  defaultIgnores.filterMap fun line => Ignore.Rule.parse? line.toList

/-- The rules under a root with an ignore file of that content. The defaults come last, so
that they decide. -/
def rulesFor (ignoreFile : Option (List UInt8)) : List Ignore.Rule :=
  (ignoreFile.elim [] Ignore.rulesOfFile) ++ defaultRules

/-- The path without a prefix of bytes and one slash after it. -/
def relativeTo (root path : Path) : Path :=
  let strip (p bytes : List UInt8) : Option (List UInt8) :=
    if p.isPrefixOf bytes then some (bytes.drop p.length) else none
  let here := [Path.dot, Path.slash]
  let path := (strip here path.bytes).getD path.bytes
  let root := (strip here root.bytes).getD root.bytes
  if root = [Path.dot] ∨ !path.contains Path.slash then ⟨path⟩
  else
    match strip root path with
    | some rest => ⟨(strip [Path.slash] rest).getD rest⟩
    | none => ⟨path⟩

/-- Whether a path under the root is ignored, itself or through a parent. A path is not
taken for a directory, its parents are. -/
def isIgnored (rules : List Ignore.Rule) (root path : Path) : Bool :=
  path.startsWith root &&
    let inside := relativeTo root path
    Ignore.verdictWithParents? rules (inside.bytes.length + 2) inside false == some .ignored

/-- The change that an event of a kind means for a path. -/
def changeOf (kind : FileEventKind) (path : Path) : Option Change :=
  match kind with
  | .create | .renameTo => some (.added path)
  | .remove | .renameFrom => some (.removed path)
  | .modify => some (.changed path)
  | .access | .unspecified | .other => none

/-- The change that an event reports for one of its paths. -/
def changeAt? (rules : List Ignore.Rule) (root : Path) (kind : FileEventKind) (path : Path) :
    Option Change :=
  if path.same root then
    if kind = .create ∨ kind = .remove then some (.baseRecreated path) else none
  else if isIgnored rules root path then none
  else changeOf kind path

/-- The changes that an event reports, in the order of its paths. -/
def changesOf (rules : List Ignore.Rule) (root : Path) (event : FileEvent) : List Change :=
  event.paths.filterMap (changeAt? rules root event.kind)

end Watch

end SessionBroker
