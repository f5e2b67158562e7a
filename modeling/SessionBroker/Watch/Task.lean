import SessionBroker.Files.Tree
import SessionBroker.Watch.Change

/-!
Watches of the files under a root.

A watch looks at raw events one after the other and delivers the changes they report, one
by one, before it looks at the next event.
-/

namespace SessionBroker

/-- A task that watches the files under a root. -/
structure Watch where
  root : Path
  rules : List Ignore.Rule
  /-- Raw events that have not been looked at, oldest first. -/
  events : List FileEvent
  /-- Changes on their way to the broker, oldest first. -/
  delivering : List Change
  /-- Whether the task waits for room in the broker's mailbox. -/
  holdsSender : Bool
  running : Bool
  deriving Repr

namespace Watch

def new (root : Path) (rules : List Ignore.Rule) : Watch := ⟨root, rules, [], [], false, true⟩

def stop (w : Watch) : Watch :=
  { w with events := [], delivering := [], holdsSender := false, running := false }

/-- A watch of what a path leads to, under the rules of the ignore file there; nothing if the
path leads nowhere. -/
def ofTree? (files : Files.Node) (root : Path) : Option Watch :=
  (files.resolve root).toOption.map fun here =>
    let ignoreFile := files.read ⟨Path.ofSegments (here ++ [(Path.ofString ".gitignore").bytes])⟩
    new ⟨Path.ofSegments here⟩ (rulesFor ignoreFile.toOption)

def look (w : Watch) : Option Watch :=
  match w.events with
  | [] => none
  | event :: rest =>
    some { w with events := rest, delivering := changesOf w.rules w.root event }

end Watch

end SessionBroker
