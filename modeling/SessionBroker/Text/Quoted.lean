import SessionBroker.Text.Printable

/-!
Text between double quotes, as messages show it.

Quotes, backslashes and the common control characters have two-character escapes; what
cannot be printed is written as its code point in braces.
-/

namespace SessionBroker.Text

def hex (n : Nat) : String := String.ofList (Nat.toDigits 16 n)

def quoteChar (c : Char) : String :=
  match c with
  | '"' => "\\\""
  | '\\' => "\\\\"
  | '\n' => "\\n"
  | '\t' => "\\t"
  | '\r' => "\\r"
  | _ =>
    if c = Char.ofNat 0 then "\\0"
    else if isPrintable c then c.toString
    else "\\u\x7b" ++ hex c.toNat ++ "\x7d"

def quoted (s : String) : String :=
  "\"" ++ String.join (s.toList.map quoteChar) ++ "\""

end SessionBroker.Text
