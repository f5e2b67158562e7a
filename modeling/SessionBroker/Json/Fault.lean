import SessionBroker.Document.Fault

/-!
What is wrong with a JSON text, and where.

A scan stops with a cause and the text that is left; `Place.of` turns that into a line and
a column, both counted in bytes of the UTF-8 text.
-/

namespace SessionBroker.Json

/-- What is wrong with the form of a JSON text. -/
inductive FormFault where
  | endInValue
  | endInString
  | endInList
  | endInObject
  | expectedValue
  | expectedWord
  | expectedColon
  | expectedListEnd
  | expectedObjectEnd
  | trailingComma
  | trailingCharacters
  | keyNotString
  | invalidNumber
  | invalidEscape
  | numberOutOfRange
  | unexpectedHexEnd
  | loneSurrogate
  | controlCharacter
  | recursionLimit
  deriving DecidableEq, Repr

def FormFault.message : FormFault → String
  | .endInValue => "EOF while parsing a value"
  | .endInString => "EOF while parsing a string"
  | .endInList => "EOF while parsing a list"
  | .endInObject => "EOF while parsing an object"
  | .expectedValue => "expected value"
  | .expectedWord => "expected ident"
  | .expectedColon => "expected `:`"
  | .expectedListEnd => "expected `,` or `]`"
  | .expectedObjectEnd => "expected `,` or `\x7d`"
  | .trailingComma => "trailing comma"
  | .trailingCharacters => "trailing characters"
  | .keyNotString => "key must be a string"
  | .invalidNumber => "invalid number"
  | .invalidEscape => "invalid escape"
  | .numberOutOfRange => "number out of range"
  | .unexpectedHexEnd => "unexpected end of hex escape"
  | .loneSurrogate => "lone leading surrogate in hex escape"
  | .controlCharacter =>
    "control character (\\u0000-\\u001F) found while parsing a string"
  | .recursionLimit => "recursion limit exceeded"

/-- The kinds of fault a client is told. -/
inductive Category where
  | form
  | data
  | endOfText
  deriving DecidableEq, Repr

/-- Why a text or a value is not what is expected. -/
inductive Cause where
  | form (fault : FormFault)
  | data (fault : DataFault)
  deriving DecidableEq, Repr

def Cause.category : Cause → Category
  | .form .endInValue | .form .endInString | .form .endInList | .form .endInObject => .endOfText
  | .form _ => .form
  | .data _ => .data

def Cause.message : Cause → String
  | .form fault => fault.message
  | .data fault => fault.message

/-- A place in a text: lines count from one, columns are bytes since the last line break. -/
structure Place where
  line : Nat
  column : Nat
  deriving DecidableEq, Repr

/-- A fault in a document; one found in decoded data has no place. -/
structure Fault where
  cause : Cause
  place : Option Place
  deriving DecidableEq, Repr

def Fault.message (f : Fault) : String :=
  match f.place with
  | none => f.cause.message
  | some p =>
    f.cause.message ++ " at line " ++ toString p.line ++ " column " ++ toString p.column

def Fault.ofData (fault : DataFault) : Fault := ⟨.data fault, none⟩

/-- Where a scan stops: the text that is left, and how many of its bytes are already read. -/
structure Stop where
  cause : Cause
  rest : List Char
  ahead : Nat
  deriving DecidableEq, Repr

def byteCount : List Char → Nat
  | [] => 0
  | c :: rest => c.utf8Size + byteCount rest

/-- Moves a place over the next bytes of a text, up to its end. -/
def Place.advance (p : Place) : List Char → (bytes : Nat) → Place
  | [], _ => p
  | c :: rest, bytes =>
    if bytes = 0 then p
    else if c = '\n' then Place.advance ⟨p.line + 1, 0⟩ rest (bytes - 1)
    else if bytes < c.utf8Size then ⟨p.line, p.column + bytes⟩
    else Place.advance ⟨p.line, p.column + c.utf8Size⟩ rest (bytes - c.utf8Size)

/-- The place of a stop in the text that was scanned. -/
def Place.of (text : List Char) (stop : Stop) : Place :=
  Place.advance ⟨1, 0⟩ text (byteCount text - byteCount stop.rest + stop.ahead)

def Stop.fault (text : List Char) (stop : Stop) : Fault :=
  ⟨stop.cause, some (Place.of text stop)⟩

end SessionBroker.Json
