/-!
File paths as byte strings.

A path is cut at slashes into segments. Empty segments and `.` segments but a leading one
do not count: what counts are the components. The final name and its extension are found
on the components, so trailing slashes and `.` segments do not matter.
-/

namespace SessionBroker

/-- A path: bytes, perhaps not UTF-8. -/
structure Path where
  bytes : List UInt8
  deriving DecidableEq, Repr

/-- A part of a path that counts. -/
inductive Component where
  | root
  | here
  | up
  | name (bytes : List UInt8)
  deriving DecidableEq, Repr

namespace Path

def slash : UInt8 := 0x2f

def dot : UInt8 := 0x2e

def ofString (s : String) : Path := ⟨s.toUTF8.data.toList⟩

/-- The text of a path, when it is UTF-8. -/
def toString? (p : Path) : Option String := String.fromUTF8? ⟨p.bytes.toArray⟩

theorem toString?_ofString (s : String) : (ofString s).toString? = some s := by
  have h := s.isValidUTF8
  simp only [toString?, ofString, Array.toArray_toList, String.fromUTF8?]
  simp [h]
  rfl

/-- A path with a text is the path of that text. -/
theorem ofString_of_toString? {p : Path} {s : String} (text : p.toString? = some s) :
    p = ofString s := by
  unfold toString? String.fromUTF8? at text
  split at text
  · cases text
    rfl
  · cases text

/-- Cuts bytes at every `sep`; there is always one piece. -/
def split (sep : UInt8) : List UInt8 → List (List UInt8)
  | [] => [[]]
  | b :: rest =>
    match split sep rest with
    | [] => [[b]]
    | piece :: pieces => if b = sep then [] :: piece :: pieces else (b :: piece) :: pieces

def segments (p : Path) : List (List UInt8) := split slash p.bytes

def isAbsolute (p : Path) : Bool := p.bytes.head? == some slash

/-- The component that a segment stands for, if it counts. -/
def component? (segment : List UInt8) : Option Component :=
  if segment = [] ∨ segment = [dot] then none
  else if segment = [dot, dot] then some .up
  else some (.name segment)

def components (p : Path) : List Component :=
  let head : List Component :=
    if p.isAbsolute then [.root] else if p.segments.head? = some [dot] then [.here] else []
  head ++ p.segments.filterMap component?

def same (p q : Path) : Bool := p.components == q.components

/-- Whether the components of `p` begin with those of `base`. -/
def startsWith (p base : Path) : Bool := base.components.isPrefixOf p.components

/-- The final name: the last component when it is a name. -/
def fileName? (p : Path) : Option (List UInt8) :=
  match p.components.getLast? with
  | some (.name n) => some n
  | _ => none

/-- The part of a name after its last dot, unless nothing but dots stand for a folder or
the dot comes first. -/
def nameExtension? (name : List UInt8) : Option (List UInt8) :=
  let after := name.reverse.takeWhile (· ≠ dot)
  let before := name.reverse.drop (after.length + 1)
  if name = [dot, dot] ∨ before = [] then none else some after.reverse

def extension? (p : Path) : Option (List UInt8) := p.fileName?.bind nameExtension?

/-- The path `q` seen from `p`: `q` itself when it is absolute. -/
def join (p q : Path) : Path :=
  if q.isAbsolute then q
  else if p.bytes = [] ∨ p.bytes.getLast? = some slash then ⟨p.bytes ++ q.bytes⟩
  else ⟨p.bytes ++ slash :: q.bytes⟩

def ofSegments (segments : List (List UInt8)) : List UInt8 := [slash].intercalate segments

/-- Drops the segments at the end that do not count; a leading `.` does. -/
def trimSegments (segments : List (List UInt8)) : List (List UInt8) :=
  let kept := (segments.reverse.dropWhile fun s => s = [] ∨ s = [dot]).reverse
  if kept = [] ∧ segments.head? = some [dot] then [[dot]] else kept

/-- The path without its last component; nothing when it has none or is the root. -/
def parent? (p : Path) : Option Path :=
  match trimSegments p.segments with
  | [] => none
  | kept =>
    match trimSegments kept.dropLast with
    | [] => some ⟨if p.isAbsolute then [slash] else []⟩
    | front => some ⟨ofSegments front⟩

end Path

end SessionBroker
