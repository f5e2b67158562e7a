import SessionBroker.Text.Quoted

/-!
What can be wrong with the data of a document.

A `DataFault` is a cause: what was found and what was expected. Its wording is
`DataFault.message`.
-/

namespace SessionBroker

/-- What a document holds where something else is expected. -/
inductive Unexpected where
  | null
  | bool (b : Bool)
  | integer (n : Int)
  /-- An integer beyond 64 bits, with the name of the wide type that holds it. -/
  | wideInteger (n : Int) (width : String)
  /-- A floating-point number, as it is written in messages. -/
  | float (written : String)
  | text (s : String)
  | sequence
  | map
  deriving DecidableEq, Repr

/-- What a reader expects. -/
inductive Shape where
  | text
  | boolean
  | unsigned32
  | signed32
  | unsigned64
  /-- A count of things. -/
  | size
  | path
  | sequence
  | unit
  | stringOrMap
  | singleKeyMap
  | variantName
  /-- A record with the given name. -/
  | record (name : String)
  /-- The fields of one variant of a tagged union. -/
  | variant (name : String)
  /-- A record or variant of a fixed number of elements. -/
  | withElements (of : Shape) (count : Nat)
  | taggedUnion (name : String)
  /-- A sequence that ends sooner. -/
  | fewerElements
  /-- A sequence of so many elements. -/
  | elements (count : Nat)
  | anything
  deriving DecidableEq, Repr

/-- What is wrong with the data of a document. -/
inductive DataFault where
  | invalidType (found : Unexpected) (expected : Shape)
  | invalidValue (found : Unexpected) (expected : Shape)
  | invalidLength (length : Nat) (expected : Shape)
  | unknownVariant (name : String) (known : List String)
  | missingField (name : String)
  | duplicateField (name : String)
  /-- A path that is to be written as text is not UTF-8. -/
  | pathNotText
  /-- An integer is beyond every type. -/
  | integerOverflow
  /-- A number in digits is beyond the largest double. -/
  | floatOverflow
  /-- A variant is neither a string nor a table. -/
  | notVariant
  /-- A variant is a table without an entry. -/
  | variantWithoutEntry
  /-- A variant is a table with several entries. -/
  | variantWithEntries
  /-- The content of a variant without fields is not empty. -/
  | variantArrayNotEmpty
  | variantTableNotEmpty
  /-- The content of a variant without fields is not a table. -/
  | variantNotTable (found : String)
  deriving DecidableEq, Repr

def Unexpected.describe : Unexpected → String
  | .null => "null"
  | .bool b => "boolean " ++ "`" ++ toString b ++ "`"
  | .integer n => "integer `" ++ toString n ++ "`"
  | .wideInteger n width => "integer `" ++ toString n ++ "` as " ++ width
  | .float written => "floating point `" ++ written ++ "`"
  | .text s => "string " ++ Text.quoted s
  | .sequence => "sequence"
  | .map => "map"

def countElements (n : Nat) : String :=
  toString n ++ if n = 1 then " element" else " elements"

def Shape.describe : Shape → String
  | .text => "a string"
  | .boolean => "a boolean"
  | .unsigned32 => "u32"
  | .signed32 => "i32"
  | .unsigned64 => "u64"
  | .size => "usize"
  | .path => "path string"
  | .sequence => "a sequence"
  | .unit => "unit"
  | .stringOrMap => "string or map"
  | .singleKeyMap => "map with a single key"
  | .variantName => "variant identifier"
  | .record name => "struct " ++ name
  | .variant name => "struct variant " ++ name
  | .withElements of count => of.describe ++ " with " ++ countElements count
  | .taggedUnion name => "internally tagged enum " ++ name
  | .fewerElements => "fewer elements in array"
  | .elements count => countElements count ++ " in sequence"
  | .anything => "anything at all"

def backquoted (name : String) : String := "`" ++ name ++ "`"

def oneOf (names : List String) : String :=
  match names with
  | [] => "there are no variants"
  | [a] => "expected " ++ backquoted a
  | [a, b] => "expected " ++ backquoted a ++ " or " ++ backquoted b
  | _ => "expected one of " ++ ", ".intercalate (names.map backquoted)

def DataFault.message : DataFault → String
  | .invalidType found expected =>
    "invalid type: " ++ found.describe ++ ", expected " ++ expected.describe
  | .invalidValue found expected =>
    "invalid value: " ++ found.describe ++ ", expected " ++ expected.describe
  | .invalidLength length expected =>
    "invalid length " ++ toString length ++ ", expected " ++ expected.describe
  | .unknownVariant name known => "unknown variant " ++ backquoted name ++ ", " ++ oneOf known
  | .missingField name => "missing field " ++ backquoted name
  | .duplicateField name => "duplicate field " ++ backquoted name
  | .pathNotText => "path contains invalid UTF-8 characters"
  | .integerOverflow => "integer number overflowed"
  | .floatOverflow => "floating-point number overflowed"
  | .notVariant => "wanted string or table"
  | .variantWithoutEntry => "wanted exactly 1 element, found 0 elements"
  | .variantWithEntries => "wanted exactly 1 element, more than 1 element"
  | .variantArrayNotEmpty => "expected empty array"
  | .variantTableNotEmpty => "expected empty table"
  | .variantNotTable found => "expected table, found " ++ found

end SessionBroker
