import SessionBroker.Session.Message
import SessionBroker.Json.Render
import SessionBroker.Text.Blank
import SessionBroker.Wire.Text

/-!
Lines between a client and the broker.

Each line of the client is a request, each line for it an event. A line that is not a request
is rejected: under its own identifier if it is an object that has one, else as a text that
cannot be read. Blank lines count for nothing.
-/

namespace SessionBroker.Transport

def lineFeed : UInt8 := 0x0a

/-- The byte that may come before the end of a line. -/
def carriageReturn : UInt8 := 0x0d

/-- What can be read off the front of the input. -/
inductive Reading where
  /-- A line, and the input after it. -/
  | line (text : String) (rest : List UInt8)
  /-- A line that is not UTF-8. -/
  | broken
  /-- The end of the input. -/
  | ended
  /-- More input is needed. -/
  | incomplete
  deriving Repr

/-- A line without a carriage return at its end. -/
def withoutReturn (line : List UInt8) : List UInt8 :=
  if line.getLast? = some carriageReturn then line.dropLast else line

def readBytes (line rest : List UInt8) : Reading :=
  match String.fromUTF8? ⟨(withoutReturn line).toArray⟩ with
  | some text => .line text rest
  | none => .broken

/-- Reads a line off the front of the input. The last line needs no line feed; a lone
carriage return there is none. -/
def readLine (input : List UInt8) (inputEnded : Bool) : Reading :=
  match input.span (· ≠ lineFeed) with
  | (line, _ :: rest) => readBytes line rest
  | (line, []) =>
    if !inputEnded then .incomplete
    else if line = [] ∨ line = [carriageReturn] then .ended
    else readBytes line []

/-- The identifier of a line that is an object with one. -/
def lineId? (text : List Char) : Option String :=
  match Json.parse text with
  | .error _ => none
  | .ok v =>
    match v.normal.member? "id" with
    | some (.str id) => some id
    | _ => none

/-- The reply to a line that is not a request. -/
def rejection (text : List Char) (fault : Json.Fault) : Response :=
  match lineId? text with
  | some id => .failure id ErrorCode.invalidParams ("Invalid params: " ++ fault.message)
  | none => .failure "unknown" ErrorCode.parseError ("Parse error: " ++ fault.message)

/-- What a line tells the broker; nothing if it is blank. -/
def messageOfLine? (line : String) : Option BrokerMessage :=
  let text := Text.trim line.toList
  if text.isEmpty then none
  else
    match Request.parse text with
    | .ok r => some (.request r)
    | .error fault => some (.reject (rejection text fault))

def lineOf (e : Event) : String := e.encode.render

def frame (events : List Event) : List UInt8 :=
  events.flatMap fun e => (lineOf e).toUTF8.data.toList ++ [lineFeed]

end SessionBroker.Transport
