import SessionBroker.Toml.Scalar

/-!
TOML documents.

A document is a list of lines: headers, which say to which table the following keys
belong, and keys with values. `parse` builds the table of the whole document, or nothing
where the text is not TOML or gives something twice.
-/

namespace SessionBroker.Toml

def depthLimit : Nat := 80

/-! ### Tables -/

/-- A table of a kind with entries, as the place where a key is put. -/
structure Place where
  kind : TableKind
  entries : Entries

/-- Changes the table at the end of a path of keys. Missing tables are made, of the kind
`made`; an array of tables stands for its last one. With `dotted` the path is that of a
dotted key, which does not enter a table that has a header or braces. -/
def atPath (dotted : Bool) (change : Place → Option Entries) :
    (path : List String) → Place → Option Entries
  | [], place => change place
  | key :: path, place => do
    let entries := place.entries
    match entries.get? key with
    | none =>
      let made : TableKind := if dotted then .dotted else .implied
      let inner ← atPath dotted change path ⟨made, []⟩
      some (entries.set key (.table made inner))
    | some (.table kind inner) =>
      if kind = .inlined ∨ (dotted ∧ kind = .header) then none else
      let inner ← atPath dotted change path ⟨kind, inner⟩
      some (entries.set key (.table kind inner))
    | some (.tables items) =>
      let last ← items.getLast?
      let inner ← atPath dotted change path ⟨.header, last⟩
      some (entries.set key (.tables (items.dropLast ++ [inner])))
    | some _ => none

/-- Puts a value under a key that is not there yet. -/
def putNew (key : String) (v : Value) (entries : Entries) : Option Entries :=
  if entries.any (·.1 == key) then none else some (entries ++ [(key, v)])

/-- Puts a value under a key, dotted or not, in a table of some kind. The last table of a
dotted key is one that dotted keys made. -/
def putKey (key : List String) (v : Value) (place : Place) : Option Entries :=
  match key.getLast? with
  | none => none
  | some last =>
    let path := key.dropLast
    atPath true
      (fun inner =>
        if path.isEmpty ∨ inner.kind = .dotted then putNew last v inner.entries else none)
      path place

/-- Enters a header: makes its table, or gives an implied one a header. -/
def openTable (key : List String) (root : Entries) : Option Entries := do
  let last ← key.getLast?
  atPath false
    (fun inner =>
      match inner.entries.get? last with
      | none => some (inner.entries ++ [(last, .table .header [])])
      | some (.table .implied entries) => some (inner.entries.set last (.table .header entries))
      | some _ => none)
    key.dropLast ⟨.header, root⟩

/-- Enters a header of an array: adds a table to it. -/
def openArrayItem (key : List String) (root : Entries) : Option Entries := do
  let last ← key.getLast?
  atPath false
    (fun inner =>
      match inner.entries.get? last with
      | none => some (inner.entries ++ [(last, .tables [[]])])
      | some (.tables items) => some (inner.entries.set last (.tables (items ++ [[]])))
      | some _ => none)
    key.dropLast ⟨.header, root⟩

/-! ### Values -/

mutual

/-- A value, nested at most `depth` levels. -/
def scanValue (depth : Nat) : (fuel : Nat) → Reader Value
  | 0, _ => none
  | fuel + 1, t =>
    match t, depth with
    | '"' :: _, _ | '\'' :: _, _ => (scanString t).map fun (s, t) => (.text s, t)
    | '[' :: _, 0 | '\x7b' :: _, 0 => none
    | '[' :: t, depth + 1 => (scanItems depth fuel t).map fun (items, t) => (.array items, t)
    | '\x7b' :: t, depth + 1 => (scanEntries depth fuel [] t).map fun (entries, t) =>
      (.table .inlined entries, t)
    | t, _ => scanBare t

/-- The items of an array up to its closing bracket. -/
def scanItems (depth : Nat) : (fuel : Nat) → Reader (List Value)
  | 0, _ => none
  | fuel + 1, t =>
    match skipLines (t.length + 1) t with
    | ']' :: t => some ([], t)
    | t => do
      let (v, t) ← scanValue depth fuel t
      match skipLines (t.length + 1) t with
      | ',' :: t =>
        let (items, t) ← scanItems depth fuel t
        some (v :: items, t)
      | ']' :: t => some ([v], t)
      | _ => none

/-- The entries of an inline table up to its closing brace. -/
def scanEntries (depth : Nat) : (fuel : Nat) → Entries → Reader Entries
  | 0, _, _ => none
  | fuel + 1, entries, t =>
    match skipLines (t.length + 1) t with
    | '\x7d' :: t => some (entries, t)
    | t => do
      let (key, t) ← scanKey (t.length + 1) t
      let t ← after '=' t
      let (v, t) ← scanValue depth fuel (skipBlanks t)
      let entries ← putKey key v ⟨.inlined, entries⟩
      match skipLines (t.length + 1) t with
      | ',' :: t => scanEntries depth fuel entries t
      | '\x7d' :: t => some (entries, t)
      | _ => none

end

/-! ### Lines -/

inductive Line where
  | table (key : List String)
  | arrayItem (key : List String)
  | entry (key : List String) (v : Value)

def scanLine (t : List Char) : Option (Line × List Char) :=
  match t with
  | '[' :: '[' :: t => do
    let (key, t) ← scanKey (t.length + 1) t
    let t ← after ']' (← after ']' t)
    some (.arrayItem key, t)
  | '[' :: t => do
    let (key, t) ← scanKey (t.length + 1) t
    let t ← after ']' t
    some (.table key, t)
  | t => do
    let (key, t) ← scanKey (t.length + 1) t
    let t ← after '=' t
    let (v, t) ← scanValue depthLimit (t.length + 1) (skipBlanks t)
    some (.entry key v, t)

def scanLines : (fuel : Nat) → List Char → Option (List Line)
  | 0, _ => none
  | fuel + 1, t =>
    match skipLines (t.length + 1) t with
    | [] => some []
    | t => do
      let (line, t) ← scanLine t
      let t := skipToLineEnd t
      if t.isEmpty then some [line]
      else
        let lines ← scanLines fuel (← lineBreak? t)
        some (line :: lines)

/-- Puts lines into the document. `current` is the path of the table that keys belong to. -/
def build (root : Entries) (current : List String) : List Line → Option Entries
  | [] => some root
  | .table key :: rest => do build (← openTable key root) key rest
  | .arrayItem key :: rest => do build (← openArrayItem key root) key rest
  | .entry key v :: rest => do
    build (← atPath false (putKey key v) current ⟨.header, root⟩) current rest

def parse (text : List Char) : Option Value :=
  let text := match text with
    | '\ufeff' :: t => t
    | t => t
  ((scanLines (text.length + 1) text).bind (build [] [])).map (.table .header)

end SessionBroker.Toml
