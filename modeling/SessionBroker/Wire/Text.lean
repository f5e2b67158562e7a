import SessionBroker.Json.RecordScan
import SessionBroker.Wire.Event
import SessionBroker.Wire.Request

/-!
Requests, replies and events as JSON texts.

A fault in the form of the text or in the outer record has its place; one in what the
record holds, found after it was read, has none. Such a fault comes before one of text
that follows the document.
-/

namespace SessionBroker

open Json

/-- Reads a whole text: a document, what it is decoded to, and its end. -/
def readText {α β : Type} (scan : Scanner α) (decode : α → Except DataFault β)
    (text : List Char) : Except Fault β := do
  let (a, rest) ← (scan depthLimit text).mapError (Stop.fault text)
  let b ← (decode a).mapError Fault.ofData
  (scanEnd rest).mapError (Stop.fault text)
  return b

def Envelope.scanners : List FieldScanner :=
  [textField "id", textField "method", freeField "params"]

def Request.parse (text : List Char) : Except Fault Request :=
  readText (scanRecord Envelope.shape Envelope.scanners)
    (fun found => do (← (Envelope.fields valueFormat).ofMembers valueFormat.ignored? found).open?) text

def RpcError.scanners : List FieldScanner := [signed32Field "code", textField "message"]

def Response.scanners : List FieldScanner :=
  [textField "id", freeField "result",
    optionalField "error" (scanObject RpcError.shape RpcError.scanners)]

def Response.parse (text : List Char) : Except Fault Response :=
  readText (scanRecord Response.shape Response.scanners)
    ((Response.fields valueFormat).ofMembers valueFormat.ignored?) text

namespace Event

def scanKind (t : List Char) : Except Stop (EventKind × List Char) := do
  let (name, t) ← scanText .variantName t
  match Format.variantNamed EventKind.variants name with
  | .ok kind => .ok (kind, t)
  | .error fault => dataStop fault t

/-- The members of an event up to its closing brace. -/
def scanMembers (depth : Nat) :
    (fuel : Nat) → (first : Bool) → (kind : Option EventKind) → (found : List (String × Json)) →
      List Char → Except Stop ((EventKind × Json) × List Char)
  | 0, _, _, _, t => stopAt .endInObject t
  | fuel + 1, first, kind, found, t =>
    match skipSpace t with
    | [] => stopAt .endInObject []
    | '\x7d' :: t =>
      match kind with
      | some kind => .ok ((kind, .obj found), t)
      | none => dataStop (.missingField EventKind.tag) t
    | t => do
      let (key, t) ← memberStart first t
      if key = EventKind.tag then
        if kind.isSome then dataStop (.duplicateField key) (afterMembers t)
        else
          let (kind, t) ← scanKind (← scanColon t)
          scanMembers depth fuel false (some kind) found t
      else
        let (v, t) ← scanDocument depth (← scanColon t)
        scanMembers depth fuel false kind (found ++ [(key, v)]) t

/-- An event in a text, as its kind and its other content. -/
def scan : Scanner (EventKind × Json) := fun depth t =>
  match skipSpace t, depth with
  | [], _ => stopAt .endInValue []
  | '[' :: t, 0 => stopAt .recursionLimit ('[' :: t)
  | '\x7b' :: t, 0 => stopAt .recursionLimit ('\x7b' :: t)
  | '[' :: t, depth + 1 => do
    match ← nextItem? true t with
    | none => dataStop (.missingField EventKind.tag) (afterItems t)
    | some t =>
      let (kind, t) ← scanKind t
      let (items, t) ← scanItems depth false (fuelFor t) t
      return ((kind, .arr items), t)
  | '\x7b' :: t, depth + 1 => scanMembers depth (fuelFor t) true none [] t
  | t, _ => wrongType shape t

def parse (text : List Char) : Except Fault Event :=
  readText scan (fun (kind, content) => decodeContent kind content) text

end Event

end SessionBroker
