import SessionBroker.Json.Basic
import SessionBroker.Number.Shortest
import SessionBroker.Text.Quoted

/-!
The compact text of a JSON document.

Members are written in their order; characters other than quotes, backslashes and control
characters stand for themselves, so a text never holds a line break.
-/

namespace SessionBroker.Json

/-- Four lower-case hexadecimal digits of a code point below `2 ^ 16`. -/
def hex4 (n : Nat) : List Char :=
  [n / 4096, n / 256, n / 16, n].map fun d => Nat.digitChar (d % 16)

def escapeChar (c : Char) : List Char :=
  match c with
  | '"' => ['\\', '"']
  | '\\' => ['\\', '\\']
  | '\n' => ['\\', 'n']
  | '\r' => ['\\', 'r']
  | '\t' => ['\\', 't']
  | _ =>
    if c.toNat = 8 then ['\\', 'b']
    else if c.toNat = 12 then ['\\', 'f']
    else if c.toNat < 32 then '\\' :: 'u' :: hex4 c.toNat
    else [c]

def renderString (s : String) : List Char :=
  '"' :: (s.toList.flatMap escapeChar ++ ['"'])

def renderNumber : Number → List Char
  | .int n => (toString n.val).toList
  | .float x => (FloatLayout.document.render x).toList

mutual

def renderChars : Json → List Char
  | .null => ['n', 'u', 'l', 'l']
  | .bool true => ['t', 'r', 'u', 'e']
  | .bool false => ['f', 'a', 'l', 's', 'e']
  | .num n => renderNumber n
  | .str s => renderString s
  | .arr [] => ['[', ']']
  | .arr (v :: rest) => '[' :: (renderChars v ++ renderItems rest)
  | .obj [] => ['\x7b', '\x7d']
  | .obj ((k, v) :: rest) =>
    '\x7b' :: (renderString k ++ ':' :: (renderChars v ++ renderMembers rest))

/-- The items after the first one, with the closing bracket. -/
def renderItems : List Json → List Char
  | [] => [']']
  | v :: rest => ',' :: (renderChars v ++ renderItems rest)

/-- The members after the first one, with the closing brace. -/
def renderMembers : List (String × Json) → List Char
  | [] => ['\x7d']
  | (k, v) :: rest => ',' :: (renderString k ++ ':' :: (renderChars v ++ renderMembers rest))

end

def render (v : Json) : String := String.ofList (renderChars v)

end SessionBroker.Json
