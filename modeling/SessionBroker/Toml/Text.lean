/-!
Strings, keys and space in a TOML text.

Every reader here takes the text from some point on and gives what it read with the text
that is left, or nothing where the text is not TOML.
-/

namespace SessionBroker.Toml

abbrev Reader (α : Type) := List Char → Option (α × List Char)

def skipBlanks (t : List Char) : List Char := t.dropWhile fun c => c = ' ' || c = '\t'

/-- Whether a character may stand in a string or comment: no control character but a tab. -/
def isContent (c : Char) : Bool := c = '\t' || (0x20 ≤ c.toNat && c.toNat ≠ 0x7f)

/-- The text after a line break, if one comes next. -/
def lineBreak? : List Char → Option (List Char)
  | '\n' :: t => some t
  | '\r' :: '\n' :: t => some t
  | _ => none

/-- The text after blanks and, if it is there, a comment. -/
def skipToLineEnd (t : List Char) : List Char :=
  match skipBlanks t with
  | '#' :: t => t.dropWhile isContent
  | t => t

/-- The text after blanks, comments and line breaks. -/
def skipLines : (fuel : Nat) → List Char → List Char
  | 0, t => t
  | fuel + 1, t =>
    match lineBreak? (skipToLineEnd t) with
    | some t => skipLines fuel t
    | none => skipToLineEnd t

/-! ### Strings -/

def hexDigit? (c : Char) : Option Nat :=
  if '0' ≤ c ∧ c ≤ '9' then some (c.toNat - '0'.toNat)
  else if 'a' ≤ c ∧ c ≤ 'f' then some (c.toNat - 'a'.toNat + 10)
  else if 'A' ≤ c ∧ c ≤ 'F' then some (c.toNat - 'A'.toNat + 10)
  else none

def hexNumber (value : Nat) : (digits : Nat) → Reader Nat
  | 0, t => some (value, t)
  | _ + 1, [] => none
  | digits + 1, c :: t => (hexDigit? c).bind fun d => hexNumber (value * 16 + d) digits t

/-- The character of a code point in so many digits. -/
def codePoint (digits : Nat) : Reader Char := fun t => do
  let (n, t) ← hexNumber 0 digits t
  if n < 0xD800 ∨ (0xDFFF < n ∧ n ≤ 0x10FFFF) then some (Char.ofNat n, t) else none

def escape : Reader Char
  | 'b' :: t => some ('\x08', t)
  | 't' :: t => some ('\t', t)
  | 'n' :: t => some ('\n', t)
  | 'f' :: t => some ('\x0c', t)
  | 'r' :: t => some ('\r', t)
  | 'e' :: t => some ('\x1b', t)
  | '"' :: t => some ('"', t)
  | '\\' :: t => some ('\\', t)
  | 'x' :: t => codePoint 2 t
  | 'u' :: t => codePoint 4 t
  | 'U' :: t => codePoint 8 t
  | _ => none

def consChar (c : Char) (r : Option (List Char × List Char)) : Option (List Char × List Char) :=
  r.map fun (s, t) => (c :: s, t)

def basicString : (fuel : Nat) → Reader (List Char)
  | 0, _ => none
  | _, [] => none
  | fuel + 1, c :: t =>
    if c = '"' then some ([], t)
    else if c = '\\' then (escape t).bind fun (d, t) => consChar d (basicString fuel t)
    else if isContent c then consChar c (basicString fuel t)
    else none

/-- The rest of a string on one line without escapes. -/
def literalString : Reader (List Char)
  | [] => none
  | c :: t =>
    if c = '\'' then some ([], t)
    else if isContent c then consChar c (literalString t)
    else none

/-- The quotes at the start of a text end a string of several lines if there are three of
them; up to two more belong to the string. -/
def closingQuotes (quote : Char) (t : List Char) : Option (List Char × List Char) :=
  let run := ((t.takeWhile (· == quote)).take 5).length
  if 3 ≤ run then some (List.replicate (run - 3) quote, t.drop run) else none

def skipSpace (t : List Char) : List Char :=
  t.dropWhile fun c => c = ' ' || c = '\t' || c = '\n' || c = '\r'

/-- The rest of a string over several lines. A backslash at the end of a line joins it with
the next text. -/
def longBasicString : (fuel : Nat) → Reader (List Char)
  | 0, _ => none
  | _, [] => none
  | fuel + 1, c :: t =>
    match lineBreak? (c :: t) with
    | some t => consChar '\n' (longBasicString fuel t)
    | none =>
      if c = '"' then
        match closingQuotes '"' (c :: t) with
        | some closed => some closed
        | none => consChar c (longBasicString fuel t)
      else if c = '\\' then
        match lineBreak? (skipBlanks t) with
        | some t => longBasicString fuel (skipSpace t)
        | none => (escape t).bind fun (d, t) => consChar d (longBasicString fuel t)
      else if isContent c then consChar c (longBasicString fuel t)
      else none

/-- The rest of a string over several lines without escapes. -/
def longLiteralString : (fuel : Nat) → Reader (List Char)
  | 0, _ => none
  | _, [] => none
  | fuel + 1, c :: t =>
    match lineBreak? (c :: t) with
    | some t => consChar '\n' (longLiteralString fuel t)
    | none =>
      if c = '\'' then
        match closingQuotes '\'' (c :: t) with
        | some closed => some closed
        | none => consChar c (longLiteralString fuel t)
      else if isContent c then consChar c (longLiteralString fuel t)
      else none

/-- The text after a line break right after the opening quotes. -/
def dropLineBreak (t : List Char) : List Char := (lineBreak? t).getD t

def scanString (t : List Char) : Option (String × List Char) :=
  let fuel := t.length + 1
  let chars := match t with
    | '"' :: '"' :: '"' :: t => longBasicString fuel (dropLineBreak t)
    | '\'' :: '\'' :: '\'' :: t => longLiteralString fuel (dropLineBreak t)
    | '"' :: t => basicString fuel t
    | '\'' :: t => literalString t
    | _ => none
  chars.map fun (s, t) => (String.ofList s, t)

/-! ### Keys -/

/-- Whether a character may stand in a key without quotes. -/
def isBareKey (c : Char) : Bool := c.isAlphanum || c = '_' || c = '-'

def scanSimpleKey (t : List Char) : Option (String × List Char) :=
  match t with
  | '"' :: t => (basicString (t.length + 1) t).map fun (s, t) => (String.ofList s, t)
  | '\'' :: t => (literalString t).map fun (s, t) => (String.ofList s, t)
  | t =>
    match t.takeWhile isBareKey with
    | [] => none
    | bare => some (String.ofList bare, t.dropWhile isBareKey)

def scanKey : (fuel : Nat) → Reader (List String)
  | 0, _ => none
  | fuel + 1, t => do
    let (part, t) ← scanSimpleKey (skipBlanks t)
    match skipBlanks t with
    | '.' :: t =>
      let (parts, t) ← scanKey fuel t
      some (part :: parts, t)
    | t => some ([part], t)

end SessionBroker.Toml
