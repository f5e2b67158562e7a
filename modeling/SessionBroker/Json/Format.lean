import SessionBroker.Document.Fields
import SessionBroker.Json.Basic
import SessionBroker.Number.Shortest

/-!
JSON documents as decoders see them.

A JSON value and the buffered inside of a tagged union are read alike but for two rules:
how a sequence that is too long is reported, and whether a variant's content may be an
empty map.
-/

namespace SessionBroker.Json

def view : Json → View Json
  | .null => .null
  | .bool b => .bool b
  | .num (.int n) => .integer n.val
  | .num (.float _) => .otherNumber
  | .str s => .text s
  | .arr items => .sequence items
  | .obj members => .map members

def unexpected : Json → Unexpected
  | .null => .null
  | .bool b => .bool b
  | .num (.int n) => .integer n.val
  | .num (.float x) => .float (FloatLayout.document.render x)
  | .str s => .text s
  | .arr _ => .sequence
  | .obj _ => .map

def kindName : Json → String
  | .null => "null"
  | .bool _ => "boolean"
  | .num _ => "number"
  | .str _ => "string"
  | .arr _ => "array"
  | .obj _ => "object"

def valueFormat : Format Json where
  view := view
  unexpected := unexpected
  unreadable? _ := none
  ignored? _ := none
  tail := .fewer
  variants := .nullEntry
  kindName := kindName

/-- Reading from the buffered inside of a tagged union. -/
def bufferedFormat : Format Json :=
  { valueFormat with tail := .exact, variants := .emptyEntry }

/-- Any document, as a value. -/
def free : Decoder Json Json := fun v => .ok v.normal

end SessionBroker.Json
