import SessionBroker.Files.Tree
import SessionBroker.Watch.Change

/-!
Raw file events out of what happens to files.
-/

namespace SessionBroker

inductive FileAction where
  | write (path : Path)
  | remove (path : Path)
  | rename (source target : Path)
  deriving DecidableEq, Repr

namespace FileAction

open Files

def eventAt (kind : FileEventKind) (here : Location) : FileEvent := ⟨kind, [⟨Path.ofSegments here⟩]⟩

/-- The folders on the way to a location that are missing. -/
def missingFolders (top : Node) (here : Location) : List Location :=
  ((List.range here.length).map here.take).filter fun folder => (top.at? folder).isNone

/-- The events of new folders on the way to a location. -/
def folderEvents (top : Node) (here : Location) : List FileEvent :=
  (missingFolders top here).map (eventAt .create)

mutual

/-- The locations of a node and of everything below it, the innermost first. -/
def locations (here : Location) : Node → List Location
  | .file _ => [here]
  | .link _ => [here]
  | .folder entries => entryLocations here entries ++ [here]

/-- The locations of some entries of a folder and of everything below them. -/
def entryLocations (here : Location) : List (List UInt8 × Node) → List Location
  | [] => []
  | (entry, n) :: rest => locations (here ++ [entry]) n ++ entryLocations here rest

end

/-- What becomes of the files, and the raw events about it. -/
def apply (top : Node) : FileAction → Node × List FileEvent
  | .write path =>
    let here := Node.plainLocation path
    let created := if (top.at? here).isSome then [] else [eventAt .create here]
    (Node.put (.file []) top here, folderEvents top here ++ created ++ [eventAt .modify here])
  | .remove path =>
    let here := Node.plainLocation path
    match top.at? here with
    | none => (top, [])
    | some n => (top.erase here, (locations here n).map (eventAt .remove))
  | .rename source target =>
    let source := Node.plainLocation source
    let target := Node.plainLocation target
    match top.at? source with
    | none => (top, [])
    | some n =>
      let both : FileEvent := ⟨.modify, [⟨Path.ofSegments source⟩, ⟨Path.ofSegments target⟩]⟩
      (Node.put n (top.erase source) target,
        folderEvents top target ++ [eventAt .renameFrom source, eventAt .renameTo target, both])

end FileAction

/-- The part of an event that concerns paths under a root. -/
def FileEvent.under? (e : FileEvent) (root : Path) : Option FileEvent :=
  match e.paths.filter (·.startsWith root) with
  | [] => none
  | paths => some { e with paths }

end SessionBroker
