import SessionBroker.Json.Format
import SessionBroker.Json.Skip

/-!
Reading a record straight from a JSON text.

A record in a text is read field by field, so that each fault has its place: a mismatch
after the value, a repeated key after the key, a missing field after the closing brace.
The fields come out as a look-up from which `Fields` builds the record.
-/

namespace SessionBroker.Json

/-- A reader of one value in a text, at most so many levels deep. -/
abbrev Scanner (α : Type) := (depth : Nat) → List Char → Except Stop (α × List Char)

structure FieldScanner where
  name : String
  required : Bool
  scan : Scanner Json

/-- The fault of data at a place of the text. -/
def dataStop {α : Type} (fault : DataFault) (t : List Char) : Except Stop α :=
  .error ⟨.data fault, t, 0⟩

/-- Reads past a value that is not of the expected shape, and reports it. The text starts
with the value. -/
def wrongType {α : Type} (expected : Shape) (t : List Char) : Except Stop α := do
  let mismatch (found : Unexpected) (t : List Char) : Except Stop α :=
    dataStop (.invalidType found expected) t
  match t with
  | 'n' :: t => do mismatch .null (← scanWord ['u', 'l', 'l'] t)
  | 't' :: t => do mismatch (.bool true) (← scanWord ['r', 'u', 'e'] t)
  | 'f' :: t => do mismatch (.bool false) (← scanWord ['a', 'l', 's', 'e'] t)
  | '-' :: t => do
    let (n, t) ← scanNumber true t
    mismatch (unexpected (.num n)) t
  | '"' :: t => do
    let (s, t) ← scanString t
    mismatch (.text s) t
  | '[' :: _ => mismatch .sequence t
  | '\x7b' :: _ => mismatch .map t
  | c :: _ =>
    if (digit? c).isSome then do
      let (n, t) ← scanNumber false t
      mismatch (unexpected (.num n)) t
    else stopAt .expectedValue t
  | [] => stopAt .expectedValue t

def scanText (expected : Shape) (t : List Char) : Except Stop (String × List Char) :=
  match skipSpace t with
  | [] => stopAt .endInValue []
  | '"' :: t => scanString t
  | t => wrongType expected t

def textField (name : String) : FieldScanner where
  name := name
  required := true
  scan _ t := do
    let (s, t) ← scanText .text t
    return (.str s, t)

/-- A field with any document, which may be missing. -/
def freeField (name : String) : FieldScanner where
  name := name
  required := false
  scan depth t := scanDocument depth t

def signed32Field (name : String) : FieldScanner where
  name := name
  required := true
  scan _ t := do
    let number (negative : Bool) (t : List Char) : Except Stop (Json × List Char) := do
      let (n, t) ← scanNumber negative t
      match valueFormat.signed32 (.num n) with
      | .ok _ => .ok (.num n, t)
      | .error fault => dataStop fault t
    match skipSpace t with
    | [] => stopAt .endInValue []
    | '-' :: t => number true t
    | c :: t =>
      if (digit? c).isSome then number false (c :: t) else wrongType .signed32 (c :: t)

def optionalField (name : String) (scan : Scanner Json) : FieldScanner where
  name := name
  required := false
  scan depth t :=
    match skipSpace t with
    | 'n' :: t => do return (.null, ← scanWord ['u', 'l', 'l'] t)
    | t => scan depth t

/-! ### The end of a record -/

/-- Where a fault of data inside an object is reported: after its closing brace if that
comes next. -/
def afterMembers (t : List Char) : List Char :=
  match skipSpace t with
  | '\x7d' :: t => t
  | t => t

/-- Where a fault of data inside an array is reported: after its closing bracket or a comma
if that comes next. -/
def afterItems (t : List Char) : List Char :=
  match skipSpace t with
  | ']' :: t => t
  | ',' :: t => skipSpace t
  | t => t

def scanListEnd (t : List Char) : Except Stop (List Char) :=
  match skipSpace t with
  | [] => stopAt .endInList []
  | ']' :: t => .ok t
  | ',' :: t =>
    match skipSpace t with
    | ']' :: t => stopAt .trailingComma (']' :: t)
    | t => stopAt .trailingCharacters t
  | t => stopAt .trailingCharacters t

/-! ### Records -/

/-- The members of a record up to its closing brace; `found` holds the fields read. -/
def scanFields (fields : List FieldScanner) (depth : Nat) :
    (fuel : Nat) → (first : Bool) → (found : List (String × Json)) → List Char →
      Except Stop (List (String × Json) × List Char)
  | 0, _, _, t => stopAt .endInObject t
  | fuel + 1, first, found, t =>
    match skipSpace t with
    | [] => stopAt .endInObject []
    | '\x7d' :: t =>
      match fields.find? fun f => f.required && !(found.any (·.1 == f.name)) with
      | some f => dataStop (.missingField f.name) t
      | none => .ok (found, t)
    | t => do
      let (key, t) ← memberStart first t
      match fields.find? (·.name == key) with
      | none =>
        let t ← scanColon t
        let t ← skipValue (fuelFor t) t
        scanFields fields depth fuel false found t
      | some f =>
        if found.any (·.1 == key) then dataStop (.duplicateField key) (afterMembers t)
        else
          let t ← scanColon t
          let (v, t) ← f.scan depth t
          scanFields fields depth fuel false (found ++ [(key, v)]) t

/-- Whether an array goes on with another item, and the text of it. -/
def nextItem? (first : Bool) (t : List Char) : Except Stop (Option (List Char)) :=
  match skipSpace t with
  | [] => stopAt .endInList []
  | ']' :: _ => .ok none
  | t => do return some (← itemStart first t)

def scanFieldItems (shape : Shape) (count : Nat) (depth : Nat) :
    (fields : List FieldScanner) → (index : Nat) → List Char →
      Except Stop (List (String × Json) × List Char)
  | [], _, t => .ok ([], t)
  | f :: fields, index, t => do
    match ← nextItem? (index == 0) t with
    | none =>
      if f.required then
        dataStop (.invalidLength index (shape.withElements count)) (afterItems t)
      else scanFieldItems shape count depth fields index t
    | some t =>
      let (v, t) ← f.scan depth t
      let (found, t) ← scanFieldItems shape count depth fields (index + 1) t
      return ((f.name, v) :: found, t)

/-- A record in a text, as the fields that are there. -/
def scanRecord (shape : Shape) (fields : List FieldScanner) : Scanner (List (String × Json)) :=
  fun depth t =>
    match skipSpace t, depth with
    | [], _ => stopAt .endInValue []
    | '[' :: t, 0 => stopAt .recursionLimit ('[' :: t)
    | '\x7b' :: t, 0 => stopAt .recursionLimit ('\x7b' :: t)
    | '[' :: t, depth + 1 => do
      let (found, t) ← scanFieldItems shape fields.length depth fields 0 t
      return (found, ← scanListEnd t)
    | '\x7b' :: t, depth + 1 => scanFields fields depth (fuelFor t) true [] t
    | t, _ => wrongType shape t

/-- A record in a text, as a document of its known fields. -/
def scanObject (shape : Shape) (fields : List FieldScanner) : Scanner Json := fun depth t => do
  let (found, t) ← scanRecord shape fields depth t
  return (.obj found, t)

end SessionBroker.Json
