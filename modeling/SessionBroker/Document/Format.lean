import SessionBroker.Document.Fault
import SessionBroker.Number.Limit

/-!
Documents as decoders see them.

A `Format` shows the outermost layer of a document and says how its kind of document
words a mismatch. The decoders of plain values are written once, over any format.
-/

namespace SessionBroker

/-- The outermost layer of a document of type `V`. -/
inductive View (V : Type) where
  | null
  | bool (b : Bool)
  | integer (n : Int)
  | text (s : String)
  | sequence (items : List V)
  | map (members : List (String × V))
  /-- A number that is not an integer of 64 bits. -/
  | otherNumber

/-- What a format does with the elements of a sequence that a record leaves unread. -/
inductive TailRule where
  /-- They are a fault that tells the length of the sequence. -/
  | fewer
  /-- They are a fault that also tells how many are expected. -/
  | exact
  /-- They are ignored. -/
  | ignore
  deriving DecidableEq, Repr

/-- How a variant without fields is written other than by its bare name. -/
inductive VariantRule where
  /-- As a map of its name to null. -/
  | nullEntry
  /-- As a map of its name to null or to an empty map. -/
  | emptyEntry
  /-- As a table of its name to an empty table or array. -/
  | tableEntry
  deriving DecidableEq, Repr

/-- How decoders read documents of type `V`. -/
structure Format (V : Type) where
  view : V → View V
  /-- How a mismatch names the document. -/
  unexpected : V → Unexpected
  /-- Why the document cannot be read as anything. -/
  unreadable? : V → Option DataFault
  /-- The fault of a document under an unknown key. -/
  ignored? : V → Option DataFault
  tail : TailRule
  variants : VariantRule
  /-- The name of the kind of document, where a table is expected. -/
  kindName : V → String

/-- A reader of documents: of any format, with the fault as the alternative. -/
abbrev Decoder (V α : Type) := V → Except DataFault α

namespace Format

variable {V : Type} (F : Format V)

def mismatch {α : Type} (v : V) (expected : Shape) : Except DataFault α :=
  .error ((F.unreadable? v).getD (.invalidType (F.unexpected v) expected))

def text : Decoder V String := fun v =>
  match F.view v with
  | .text s => .ok s
  | _ => F.mismatch v .text

def boolean : Decoder V Bool := fun v =>
  match F.view v with
  | .bool b => .ok b
  | _ => F.mismatch v .boolean

/-- An integer from `low` to below `high`. -/
def integer (low high : Int) (expected : Shape) : Decoder V Int := fun v =>
  match F.view v with
  | .integer n =>
    if low ≤ n ∧ n < high then .ok n else .error (.invalidValue (F.unexpected v) expected)
  | _ => F.mismatch v expected

def unsigned32 : Decoder V UInt32 := fun v =>
  (F.integer 0 Limit.two32 .unsigned32 v).map fun n => UInt32.ofNat n.toNat

def signed32 : Decoder V Int32 := fun v =>
  (F.integer (-Limit.two31) Limit.two31 .signed32 v).map Int32.ofInt

def unsigned64 : Decoder V UInt64 := fun v =>
  (F.integer 0 Limit.two64 .unsigned64 v).map fun n => UInt64.ofNat n.toNat

def size : Decoder V UInt64 := fun v =>
  (F.integer 0 Limit.two64 .size v).map fun n => UInt64.ofNat n.toNat

def optional {α : Type} (decode : Decoder V α) : Decoder V (Option α) := fun v =>
  match F.view v with
  | .null => .ok none
  | _ => (decode v).map some

def list {α : Type} (decode : Decoder V α) : Decoder V (List α) := fun v =>
  match F.view v with
  | .sequence items => items.mapM decode
  | _ => F.mismatch v .sequence

def variantNamed {α : Type} (variants : List (String × α)) (name : String) :
    Except DataFault α :=
  match variants.find? (·.1 == name) with
  | some (_, a) => .ok a
  | none => .error (.unknownVariant name (variants.map (·.1)))

/-- The content beside the name of a variant without fields. -/
def emptyContent (v : V) : Except DataFault Unit :=
  match F.variants, F.view v with
  | .nullEntry, .null | .emptyEntry, .null | .emptyEntry, .map [] => .ok ()
  | .nullEntry, _ | .emptyEntry, _ => F.mismatch v .unit
  | .tableEntry, .sequence [] | .tableEntry, .map [] => .ok ()
  | .tableEntry, .sequence _ => .error .variantArrayNotEmpty
  | .tableEntry, .map _ => .error .variantTableNotEmpty
  | .tableEntry, _ => .error (.variantNotTable (F.kindName v))

/-- One of several names: the bare name, or a map of it to nothing. -/
def variant {α : Type} (variants : List (String × α)) : Decoder V α := fun v =>
  match F.view v with
  | .text name => variantNamed variants name
  | .map [(name, content)] => do
    let a ← variantNamed variants name
    F.emptyContent content
    return a
  | .map members =>
    match F.variants with
    | .tableEntry => .error (if members.isEmpty then .variantWithoutEntry else .variantWithEntries)
    | _ => .error (.invalidValue .map .singleKeyMap)
  | _ =>
    match F.variants with
    | .tableEntry => .error .notVariant
    | _ => F.mismatch v .stringOrMap

end Format

end SessionBroker
