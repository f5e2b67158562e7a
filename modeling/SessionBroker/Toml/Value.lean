import SessionBroker.Document.Format
import SessionBroker.Number.Shortest

/-!
Values of a TOML document.

A table remembers how it came about, because that decides what may still be added to it.
-/

namespace SessionBroker.Toml

/-- How a table came about. -/
inductive TableKind where
  /-- By a header of its own. -/
  | header
  /-- As a parent of a table with a header. -/
  | implied
  /-- By a dotted key. -/
  | dotted
  /-- Between braces; nothing can be added to it. -/
  | inlined
  deriving DecidableEq, Repr

inductive Floating where
  | finite (x : Binary64)
  | infinite (negative : Bool)
  | nan
  /-- Written in digits, but too large. -/
  | tooLarge
  deriving DecidableEq, Repr

inductive Value where
  | text (s : String)
  | integer (n : Int)
  | floating (x : Floating)
  | boolean (b : Bool)
  /-- A date, a time or both, as written. -/
  | dateTime (written : String)
  | array (items : List Value)
  /-- An array of tables with headers. -/
  | tables (items : List (List (String × Value)))
  | table (kind : TableKind) (entries : List (String × Value))
  deriving Repr

instance : Inhabited Value := ⟨.boolean false⟩

abbrev Entries := List (String × Value)

def Entries.get? (entries : Entries) (key : String) : Option Value :=
  (entries.find? (·.1 == key)).map (·.2)

/-- Puts a value under a key, in place of an earlier one. -/
def Entries.set (entries : Entries) (key : String) (v : Value) : Entries :=
  if entries.any (·.1 == key) then entries.map fun e => if e.1 == key then (key, v) else e
  else entries ++ [(key, v)]

def Entries.sorted (entries : Entries) : Entries :=
  entries.mergeSort fun a b => a.1 < b.1 || a.1 == b.1

namespace Value

def Floating.describe : Floating → String
  | .finite x => FloatLayout.plain.render x
  | .infinite negative => if negative then "-inf" else "inf"
  | .nan | .tooLarge => "NaN"

/-- The key under which a date appears as a map. -/
def dateTimeKey : String := "datetime"

def view : Value → View Value
  | .text s => .text s
  | .integer n => if -Limit.two63 ≤ n ∧ n < Limit.two64 then .integer n else .otherNumber
  | .floating _ => .otherNumber
  | .boolean b => .bool b
  | .dateTime written => .map [(dateTimeKey, .text written)]
  | .array items => .sequence items
  | .tables items => .sequence (items.map (.table .header))
  | .table _ entries => .map (Entries.sorted entries)

def unexpected : Value → Unexpected
  | .text s => .text s
  | .integer n =>
    if -Limit.two63 ≤ n ∧ n < Limit.two64 then .integer n
    else if -Limit.two127 ≤ n ∧ n < Limit.two127 then .wideInteger n "i128"
    else .wideInteger n "u128"
  | .floating x => .float (Floating.describe x)
  | .boolean b => .bool b
  | .array _ | .tables _ => .sequence
  | .dateTime _ | .table _ _ => .map

/-- Why a number cannot be read as anything. -/
def unreadable? : Value → Option DataFault
  | .integer n => if -Limit.two127 ≤ n ∧ n < Limit.two128 then none else some .integerOverflow
  | .floating .tooLarge => some .floatOverflow
  | _ => none

mutual

/-- The fault of a value that is passed over: a number that cannot be read. -/
def ignored? : Value → Option DataFault
  | .integer n =>
    (unreadable? (.integer n)).or <|
      if -Limit.two63 ≤ n ∧ n < Limit.two64 then none
      else some (.invalidType (unexpected (.integer n)) .anything)
  | .array items => ignoredItems? items
  | .tables items => ignoredTables? items
  | .table _ entries => ignoredEntries? entries
  | v => unreadable? v

/-- The first fault of several values. -/
def ignoredItems? : List Value → Option DataFault
  | [] => none
  | v :: rest => (ignored? v).or (ignoredItems? rest)

/-- The first fault of several tables. -/
def ignoredTables? : List (List (String × Value)) → Option DataFault
  | [] => none
  | entries :: rest => (ignoredEntries? entries).or (ignoredTables? rest)

/-- The fault of the least key whose value has one. -/
def ignoredEntries? (entries : List (String × Value)) : Option DataFault :=
  (leastFault entries).map (·.2)

/-- The least key whose value has a fault, with the fault. -/
def leastFault : List (String × Value) → Option (String × DataFault)
  | [] => none
  | (key, v) :: rest =>
    match ignored? v, leastFault rest with
    | none, other => other
    | some fault, none => some (key, fault)
    | some fault, some other => if key < other.1 then some (key, fault) else some other

end

def kindName : Value → String
  | .text _ => "string"
  | .integer _ => "integer"
  | .floating _ => "float"
  | .boolean _ => "boolean"
  | .dateTime _ => "datetime"
  | .array _ | .tables _ => "array"
  | .table _ _ => "table"

end Value

def format : Format Value where
  view := Value.view
  unexpected := Value.unexpected
  unreadable? := Value.unreadable?
  ignored? := Value.ignored?
  tail := .ignore
  variants := .tableEntry
  kindName := Value.kindName

end SessionBroker.Toml
