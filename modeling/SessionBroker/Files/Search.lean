import SessionBroker.Files.Tree
import SessionBroker.Ignore.Rules

/-!
Searches for files under a folder.

A search passes over hidden entries and over those that ignore files speak against, and
does not follow links. An `.ignore` file counts always, `.gitignore` and
`.git/info/exclude` only in a repository, up to its top. The rules of a folder hold for
everything below it; of two folders the inner one has the say.
-/

namespace SessionBroker.Files

/-- The rules that a folder brings, and the way down from it to the folder being searched. -/
structure Level where
  /-- The rules of `.ignore`. -/
  own : List Ignore.Rule
  /-- The rules of `.gitignore`. -/
  tracked : List Ignore.Rule
  /-- The rules of `.git/info/exclude`. -/
  excluded : List Ignore.Rule
  isRepository : Bool
  /-- The names from the folder down. -/
  below : Location
  deriving Repr

def name (s : String) : List UInt8 := (Path.ofString s).bytes

namespace Level

/-- The rules in a file whose first name is among the entries of the folder at `here`. -/
def rulesAt (top : Node) (here : Location) (entries : List (List UInt8 × Node)) :
    Location → List Ignore.Rule
  | [] => []
  | first :: rest =>
    if (entries.lookup first).isNone then []
    else
      match top.resolveFrom linkLimit here (first :: rest) with
      | .ok there =>
        match top.at? there with
        | some (.file content) => Ignore.rulesOfFile content
        | _ => []
      | .error _ => []

/-- Whether an entry of the folder at `here` is there, links followed. -/
def hasEntry (top : Node) (here : Location) (entries : List (List UInt8 × Node))
    (entry : List UInt8) : Bool :=
  (entries.lookup entry).isSome && (top.resolveFrom linkLimit here [entry]).toBool

def ofFolder (top : Node) (here : Location) (entries : List (List UInt8 × Node)) : Level where
  own := rulesAt top here entries [name ".ignore"]
  tracked := rulesAt top here entries [name ".gitignore"]
  excluded := rulesAt top here entries [name ".git", name "info", name "exclude"]
  isRepository := hasEntry top here entries (name ".git") || hasEntry top here entries (name ".jj")
  below := []

/-- The level seen from one folder further down. -/
def enter (entry : List UInt8) (l : Level) : Level := { l with below := l.below ++ [entry] }

/-- The levels above a location, the nearest first. -/
def above (top : Node) (here : Location) : List Level :=
  (List.range here.length).reverse.map fun k =>
    { ofFolder top (here.take k) ((top.at? (here.take k)).elim [] Node.entries) with
      below := here.drop k }

/-- What some rules of the nearest level that has a say tell about an entry. -/
def verdictOf? (rules : Level → List Ignore.Rule) (levels : List Level) (entry : List UInt8)
    (isFolder : Bool) : Option Ignore.Verdict :=
  levels.findSome? fun l =>
    Ignore.verdict? (rules l) (Path.ofSegments (l.below ++ [entry])) isFolder

/-- The levels up to the top of the nearest repository. -/
def untilRepository : List Level → List Level
  | [] => []
  | l :: rest => if l.isRepository then [l] else l :: untilRepository rest

/-- What the levels, the nearest first, tell about an entry. -/
def verdict? (levels : List Level) (entry : List UInt8) (isFolder : Bool) :
    Option Ignore.Verdict :=
  let inRepository := if levels.any (·.isRepository) then untilRepository levels else []
  (verdictOf? own levels entry isFolder).or <|
    (verdictOf? tracked inRepository entry isFolder).or <|
      verdictOf? excluded inRepository entry isFolder

end Level

def isHidden (entry : List UInt8) : Bool := entry.head? == some Path.dot

/-- Whether a search looks at an entry. A rule that keeps an entry also keeps a hidden one. -/
def isVisited (levels : List Level) (entry : List UInt8) (isFolder : Bool) : Bool :=
  match Level.verdict? levels entry isFolder with
  | some .ignored => false
  | some .kept => true
  | none => !isHidden entry

mutual

/-- Whether a search reaches a wanted file at or below a node; `here` is its location. -/
def Node.reaches (top : Node) (wanted : Path → Bool) (levels : List Level) (here : Location)
    (entry : List UInt8) : Node → Bool
  | .file _ => wanted ⟨entry⟩
  | .link _ => false
  | .folder entries =>
    entriesReach top wanted (Level.ofFolder top here entries :: levels) here entries

/-- Whether a search reaches a wanted file at or below one of some entries. -/
def entriesReach (top : Node) (wanted : Path → Bool) (levels : List Level) (here : Location) :
    List (List UInt8 × Node) → Bool
  | [] => false
  | (entry, n) :: rest =>
    isVisited levels entry n.isFolder
        && Node.reaches top wanted (levels.map (Level.enter entry)) (here ++ [entry]) entry n
      || entriesReach top wanted levels here rest

end

/-- The path that a search takes for the standard input, which is no file. -/
def standardInput : Path := Path.ofString "-"

/-- Where a search from a root begins. A root that is missing is not searched. -/
def Node.searchStart? (top : Node) (root : Path) : Option Location :=
  if root.same standardInput then none else (top.resolve root).toOption

/-- Whether a search from a root reaches a wanted file. The root itself may be hidden, a
file, or a link. -/
def Node.hasFile (top : Node) (wanted : Path → Bool) (root : Path) : Bool :=
  match top.searchStart? root with
  | none => false
  | some here =>
    match top.at? here with
    | some (.folder entries) =>
      entriesReach top wanted (Level.ofFolder top here entries :: Level.above top here) here entries
    | some (.file _) => wanted root
    | _ => false

end SessionBroker.Files
