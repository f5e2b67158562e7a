import SessionBroker.Json.Scan

/-!
Passing over a JSON text without reading it.

The value of an unknown key is only checked for its form: nesting, the size of numbers and
the pairing of surrogates do not matter there.
-/

namespace SessionBroker.Json

/-- Passes over the rest of an escape, after its backslash. -/
def skipEscape (t : List Char) : Except Stop (List Char) :=
  match t with
  | [] => .error ⟨.form .endInString, [], 0⟩
  | 'u' :: rest => do
    let (_, rest) ← scanHex rest
    return rest
  | c :: rest =>
    if "\"\\/bfnrt".toList.contains c then .ok rest else stopAt .invalidEscape (c :: rest)

/-- Passes over the rest of a string, after its opening quote. -/
def skipChars : (fuel : Nat) → List Char → Except Stop (List Char)
  | 0, t => .error ⟨.form .endInString, t, 0⟩
  | _, [] => .error ⟨.form .endInString, [], 0⟩
  | fuel + 1, c :: t =>
    if c = '"' then .ok t
    else if c = '\\' then do skipChars fuel (← skipEscape t)
    else if c.toNat < 32 then .error ⟨.form .controlCharacter, c :: t, 0⟩
    else skipChars fuel t

def skipString (t : List Char) : Except Stop (List Char) := skipChars (t.length + 1) t

/-- Passes over the key of a member and its colon. -/
def skipKey (t : List Char) : Except Stop (List Char) := do
  let t ← match skipSpace t with
    | [] => stopAt .endInObject []
    | '"' :: t => skipString t
    | t => stopAt .keyNotString t
  scanColon t

mutual

def skipValue : (fuel : Nat) → List Char → Except Stop (List Char)
  | 0, t => stopAt .endInValue t
  | fuel + 1, t =>
    match skipSpace t with
    | [] => stopAt .endInValue []
    | 'n' :: t => scanWord ['u', 'l', 'l'] t
    | 't' :: t => scanWord ['r', 'u', 'e'] t
    | 'f' :: t => scanWord ['a', 'l', 's', 'e'] t
    | '-' :: t => do return (← Numeral.scan .invalidNumber true t).2
    | '"' :: t => skipString t
    | '[' :: t => skipItems true fuel t
    | '\x7b' :: t => skipMembers true fuel t
    | c :: t =>
      if (digit? c).isSome then do return (← Numeral.scan .invalidNumber false (c :: t)).2
      else stopAt .expectedValue (c :: t)

/-- Passes over the items of an array and its closing bracket. -/
def skipItems (first : Bool) : (fuel : Nat) → List Char → Except Stop (List Char)
  | 0, t => stopAt .endInList t
  | fuel + 1, t =>
    match skipSpace t with
    | [] => stopAt .endInList []
    | ']' :: t => .ok t
    | c :: t => do
      let t ← if first then pure (c :: t)
        else if c = ',' then pure t
        else stopAt .expectedListEnd (c :: t)
      let t ← skipValue fuel t
      skipItems false fuel t

/-- Passes over the members of an object and its closing brace. -/
def skipMembers (first : Bool) : (fuel : Nat) → List Char → Except Stop (List Char)
  | 0, t => stopAt .endInObject t
  | fuel + 1, t =>
    match skipSpace t with
    | [] => stopAt .endInObject []
    | '\x7d' :: t => .ok t
    | c :: t => do
      let t ← if first then pure (c :: t)
        else if c = ',' then pure t
        else stopAt .expectedObjectEnd (c :: t)
      let t ← skipKey t
      let t ← skipValue fuel t
      skipMembers false fuel t

end

end SessionBroker.Json
