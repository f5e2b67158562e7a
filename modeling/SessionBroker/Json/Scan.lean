import SessionBroker.Json.Numeral

/-!
Reading a JSON text.

`scanValue` reads one document from the start of a text and gives it with what follows.
Objects keep their members as written. Nesting is bounded by `depth`; `fuel` is any bound
on the characters that are left.
-/

namespace SessionBroker.Json

/-- A stop before the next character, which counts as read. -/
def stopAt {α : Type} (fault : FormFault) (t : List Char) : Except Stop α :=
  .error ⟨.form fault, t, 1⟩

def isSpace (c : Char) : Bool := c = ' ' || c = '\n' || c = '\t' || c = '\r'

def skipSpace (t : List Char) : List Char := t.dropWhile isSpace

/-- The rest of a word, of which `expected` is still to come. -/
def scanWord : (expected : List Char) → List Char → Except Stop (List Char)
  | [], t => .ok t
  | _ :: _, [] => .error ⟨.form .endInValue, [], 0⟩
  | c :: expected, d :: t =>
    if c = d then scanWord expected t else stopAt .expectedWord (d :: t)

/-! ### Strings -/

def hexDigit? (c : Char) : Option Nat :=
  if '0' ≤ c ∧ c ≤ '9' then some (c.toNat - '0'.toNat)
  else if 'a' ≤ c ∧ c ≤ 'f' then some (c.toNat - 'a'.toNat + 10)
  else if 'A' ≤ c ∧ c ≤ 'F' then some (c.toNat - 'A'.toNat + 10)
  else none

def hexValue? (a b c d : Char) : Option Nat := do
  return (((← hexDigit? a) * 16 + (← hexDigit? b)) * 16 + (← hexDigit? c)) * 16 + (← hexDigit? d)

def scanHex (t : List Char) : Except Stop (Nat × List Char) :=
  if byteCount (t.take 4) < 4 then .error ⟨.form .endInString, [], 0⟩
  else match t with
    | a :: b :: c :: d :: rest =>
      match hexValue? a b c d with
      | some n => .ok (n, rest)
      | none => .error ⟨.form .invalidEscape, t, 4⟩
    | _ => .error ⟨.form .invalidEscape, t, 4⟩

/-- The low half of a surrogate pair, after its high half. -/
def scanLowSurrogate (high : Nat) (t : List Char) : Except Stop (Char × List Char) :=
  match t with
  | [] => .error ⟨.form .endInString, [], 0⟩
  | '\\' :: [] => .error ⟨.form .endInString, [], 0⟩
  | '\\' :: 'u' :: t => do
    let (low, rest) ← scanHex t
    if 0xDC00 ≤ low ∧ low ≤ 0xDFFF then
      .ok (Char.ofNat ((high - 0xD800) * 1024 + (low - 0xDC00) + 0x10000), rest)
    else .error ⟨.form .loneSurrogate, rest, 0⟩
  | '\\' :: t => stopAt .unexpectedHexEnd t
  | t => stopAt .unexpectedHexEnd t

def scanUnicode (t : List Char) : Except Stop (Char × List Char) := do
  let (n, rest) ← scanHex t
  if 0xDC00 ≤ n ∧ n ≤ 0xDFFF then .error ⟨.form .loneSurrogate, rest, 0⟩
  else if 0xD800 ≤ n ∧ n ≤ 0xDBFF then scanLowSurrogate n rest
  else .ok (Char.ofNat n, rest)

def scanEscape (t : List Char) : Except Stop (Char × List Char) :=
  match t with
  | [] => .error ⟨.form .endInString, [], 0⟩
  | '"' :: rest => .ok ('"', rest)
  | '\\' :: rest => .ok ('\\', rest)
  | '/' :: rest => .ok ('/', rest)
  | 'b' :: rest => .ok ('\x08', rest)
  | 'f' :: rest => .ok ('\x0c', rest)
  | 'n' :: rest => .ok ('\n', rest)
  | 'r' :: rest => .ok ('\r', rest)
  | 't' :: rest => .ok ('\t', rest)
  | 'u' :: rest => scanUnicode rest
  | t => stopAt .invalidEscape t

/-- The characters of a string, after its opening quote. -/
def scanChars : (fuel : Nat) → List Char → Except Stop (List Char × List Char)
  | 0, t => .error ⟨.form .endInString, t, 0⟩
  | _, [] => .error ⟨.form .endInString, [], 0⟩
  | fuel + 1, c :: t =>
    if c = '"' then .ok ([], t)
    else if c = '\\' then do
      let (d, t) ← scanEscape t
      let (s, t) ← scanChars fuel t
      return (d :: s, t)
    else if c.toNat < 32 then stopAt .controlCharacter (c :: t)
    else do
      let (s, t) ← scanChars fuel t
      return (c :: s, t)

def scanString (t : List Char) : Except Stop (String × List Char) := do
  let (s, rest) ← scanChars (t.length + 1) t
  return (String.ofList s, rest)

/-! ### Values -/

/-- The start of an item: after a comma unless it is the first. The text is not at the end
of its list. -/
def itemStart (first : Bool) (t : List Char) : Except Stop (List Char) :=
  if first then .ok t else
  match t with
  | ',' :: t =>
    match skipSpace t with
    | [] => stopAt .endInValue []
    | ']' :: t => stopAt .trailingComma (']' :: t)
    | t => .ok t
  | t => stopAt .expectedListEnd t

/-- The key of a member and the start of its value. The text is not at the end of its
object. -/
def memberStart (first : Bool) (t : List Char) : Except Stop (String × List Char) := do
  let t ← if first then pure t else
    match t with
    | ',' :: t => pure (skipSpace t)
    | t => stopAt .expectedObjectEnd t
  match t with
  | [] => stopAt .endInValue []
  | '"' :: t => scanString t
  | '\x7d' :: t => stopAt .trailingComma ('\x7d' :: t)
  | t => stopAt .keyNotString t

def scanColon (t : List Char) : Except Stop (List Char) :=
  match skipSpace t with
  | [] => stopAt .endInObject []
  | ':' :: t => .ok t
  | t => stopAt .expectedColon t

mutual

def scanValue (depth : Nat) : (fuel : Nat) → List Char → Except Stop (Json × List Char)
  | 0, t => stopAt .endInValue t
  | fuel + 1, t =>
    match skipSpace t with
    | [] => stopAt .endInValue []
    | 'n' :: t => do return (.null, ← scanWord ['u', 'l', 'l'] t)
    | 't' :: t => do return (.bool true, ← scanWord ['r', 'u', 'e'] t)
    | 'f' :: t => do return (.bool false, ← scanWord ['a', 'l', 's', 'e'] t)
    | '-' :: t => do
      let (n, t) ← scanNumber true t
      return (.num n, t)
    | '"' :: t => do
      let (s, t) ← scanString t
      return (.str s, t)
    | '[' :: t =>
      match depth with
      | 0 => stopAt .recursionLimit ('[' :: t)
      | depth + 1 => do
        let (items, t) ← scanItems depth true fuel t
        return (.arr items, t)
    | '\x7b' :: t =>
      match depth with
      | 0 => stopAt .recursionLimit ('\x7b' :: t)
      | depth + 1 => do
        let (members, t) ← scanMembers depth true fuel t
        return (.obj members, t)
    | c :: t =>
      if (digit? c).isSome then do
        let (n, t) ← scanNumber false (c :: t)
        return (.num n, t)
      else stopAt .expectedValue (c :: t)

/-- The items of an array up to its closing bracket. -/
def scanItems (depth : Nat) (first : Bool) :
    (fuel : Nat) → List Char → Except Stop (List Json × List Char)
  | 0, t => stopAt .endInList t
  | fuel + 1, t =>
    match skipSpace t with
    | [] => stopAt .endInList []
    | ']' :: t => .ok ([], t)
    | t => do
      let t ← itemStart first t
      let (v, t) ← scanValue depth fuel t
      let (items, t) ← scanItems depth false fuel t
      return (v :: items, t)

/-- The members of an object up to its closing brace. -/
def scanMembers (depth : Nat) (first : Bool) :
    (fuel : Nat) → List Char → Except Stop (List (String × Json) × List Char)
  | 0, t => stopAt .endInObject t
  | fuel + 1, t =>
    match skipSpace t with
    | [] => stopAt .endInObject []
    | '\x7d' :: t => .ok ([], t)
    | t => do
      let (key, t) ← memberStart first t
      let t ← scanColon t
      let (v, t) ← scanValue depth fuel t
      let (members, t) ← scanMembers depth false fuel t
      return ((key, v) :: members, t)

end

/-- How many levels of arrays and objects a text may nest. -/
def depthLimit : Nat := 127

/-- Enough fuel for a text: every call of a scan but one in three reads a character. -/
def fuelFor (t : List Char) : Nat := 3 * t.length + 3

/-- One document and the text after it, nested at most `depth` levels. -/
def scanDocument (depth : Nat) (t : List Char) : Except Stop (Json × List Char) :=
  scanValue depth (fuelFor t) t

/-- Nothing but space is left. -/
def scanEnd (t : List Char) : Except Stop Unit :=
  match skipSpace t with
  | [] => .ok ()
  | t => stopAt .trailingCharacters t

/-- The document that a whole text holds, with members as written. -/
def parse (text : List Char) : Except Fault Json :=
  let scan : Except Stop Json := do
    let (v, rest) ← scanDocument depthLimit text
    scanEnd rest
    return v
  scan.mapError (Stop.fault text)

end SessionBroker.Json
