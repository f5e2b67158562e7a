import SessionBroker.Toml.Text
import SessionBroker.Toml.Value

/-!
Numbers, dates and times of a TOML text.
-/

namespace SessionBroker.Toml

/-- Digits of a base with single underscores between them. -/
def digitsOf (digit? : Char → Option Nat) : List Char → Option (List Nat)
  | [] => none
  | [c] => (digit? c).map fun d => [d]
  | c :: '_' :: rest => do
    let d ← digit? c
    return d :: (← digitsOf digit? rest)
  | c :: rest => do
    let d ← digit? c
    return d :: (← digitsOf digit? rest)

def digitBelow (base : Nat) (c : Char) : Option Nat := (hexDigit? c).filter (· < base)

/-- The number that digits of a base stand for. -/
def numberOf (base : Nat) (digits : List Nat) : Nat := digits.foldl (fun n d => n * base + d) 0

/-- The sign of a number, true for a minus, and the text after it. -/
def splitSign : List Char → Bool × List Char
  | '-' :: t => (true, t)
  | '+' :: t => (false, t)
  | t => (false, t)

/-- Decimal digits that do not start with a needless zero. -/
def wholeDigits (t : List Char) : Option (List Nat) :=
  match digitsOf (digitBelow 10) t with
  | some (0 :: _ :: _) => none
  | digits => digits

/-- The double for decimal digits and an exponent of ten. -/
def floatingOf (negative : Bool) (digits : List Nat) (exponent : Int) : Floating :=
  let n := numberOf 10 digits
  let place := (Binary64.digitCount n : Int) + exponent
  if n = 0 ∨ place < -400 then .finite (.zero negative)
  else if 400 < place then .tooLarge
  else (Binary64.ofDecimal negative n exponent).elim .tooLarge .finite

def floating? (written : List Char) : Option Floating := do
  let (negative, t) := splitSign written
  let isExponent (c : Char) : Bool := c = 'e' || c = 'E'
  let mantissa := t.takeWhile (!isExponent ·)
  let exponent ← match t.dropWhile (!isExponent ·) with
    | [] => some 0
    | _ :: e =>
      let (minus, digits) := splitSign e
      (digitsOf (digitBelow 10) digits).map fun ds =>
        let n : Int := numberOf 10 ds
        if minus then -n else n
  let whole ← wholeDigits (mantissa.takeWhile (· != '.'))
  match mantissa.dropWhile (· != '.') with
  | [] => if t.any isExponent then some (floatingOf negative whole exponent) else none
  | _ :: fraction =>
    let fraction ← digitsOf (digitBelow 10) fraction
    some (floatingOf negative (whole ++ fraction) (exponent - fraction.length))

def number? (written : List Char) : Option Value :=
  let based (base : Nat) (t : List Char) : Option Value :=
    (digitsOf (digitBelow base) t).map fun ds => .integer (numberOf base ds)
  match written with
  | '0' :: 'x' :: t => based 16 t
  | '0' :: 'o' :: t => based 8 t
  | '0' :: 'b' :: t => based 2 t
  | _ =>
    let (negative, t) := splitSign written
    match String.ofList t with
    | "inf" => some (.floating (.infinite negative))
    | "nan" => some (.floating .nan)
    | _ =>
      match wholeDigits t with
      | some ds =>
        let n : Int := numberOf 10 ds
        some (.integer (if negative then -n else n))
      | none => (floating? written).map .floating

/-! ### Dates and times -/

def fixedNumber (value : Nat) : (digits : Nat) → Reader Nat
  | 0, t => some (value, t)
  | _ + 1, [] => none
  | digits + 1, c :: t => (digitBelow 10 c).bind fun d => fixedNumber (value * 10 + d) digits t

def daysIn (year month : Nat) : Nat :=
  if month = 2 then
    if year % 4 = 0 ∧ (year % 100 ≠ 0 ∨ year % 400 = 0) then 29 else 28
  else if month = 4 ∨ month = 6 ∨ month = 9 ∨ month = 11 then 30
  else 31

def after (c : Char) : List Char → Option (List Char)
  | d :: t => if c = d then some t else none
  | [] => none

def date? (t : List Char) : Option (List Char) := do
  let (year, t) ← fixedNumber 0 4 t
  let (month, t) ← fixedNumber 0 2 (← after '-' t)
  let (day, t) ← fixedNumber 0 2 (← after '-' t)
  if 1 ≤ month ∧ month ≤ 12 ∧ 1 ≤ day ∧ day ≤ daysIn year month then some t else none

/-- The text after a time; the seconds may be missing. -/
def time? (t : List Char) : Option (List Char) := do
  let (hour, t) ← fixedNumber 0 2 t
  let (minute, t) ← fixedNumber 0 2 (← after ':' t)
  if 23 < hour ∨ 59 < minute then none else
  match t with
  | ':' :: t =>
    let (second, t) ← fixedNumber 0 2 t
    if 60 < second then none else
    match t with
    | '.' :: t =>
      if (t.takeWhile Char.isDigit).isEmpty then none else some (t.dropWhile Char.isDigit)
    | t => some t
  | t => some t

/-- Whether a text is a time zone, or nothing. -/
def isZone (t : List Char) : Bool :=
  match t with
  | [] | ['Z'] | ['z'] => true
  | sign :: t =>
    (sign = '+' || sign = '-') &&
      match (do
        let (hour, t) ← fixedNumber 0 2 t
        let (minute, t) ← fixedNumber 0 2 (← after ':' t)
        if 23 < hour ∨ 59 < minute then none else some t) with
      | some [] => true
      | _ => false

/-- Whether a text is a date, a time or both. -/
def isDateTime (t : List Char) : Bool :=
  match date? t with
  | some [] => true
  | some (separator :: t) =>
    (separator = 'T' || separator = 't' || separator = ' ') && (time? t).any isZone
  | none => (time? t).any (·.isEmpty)

/-! ### Scalars -/

/-- Whether a character may stand in a value without quotes. -/
def isBareValue (c : Char) : Bool :=
  c.isAlphanum || c = '_' || c = '+' || c = '-' || c = '.' || c = ':'

/-- A value without quotes. A date may be followed by a blank and a time. -/
def scanBare (t : List Char) : Option (Value × List Char) :=
  let first := t.takeWhile isBareValue
  let rest := t.dropWhile isBareValue
  match date? first, rest with
  | some [], ' ' :: c :: more =>
    if c.isDigit then
      let second := (c :: more).takeWhile isBareValue
      let whole := first ++ ' ' :: second
      if isDateTime whole then
        some (.dateTime (String.ofList whole), (c :: more).dropWhile isBareValue)
      else none
    else some (.dateTime (String.ofList first), rest)
  | _, _ =>
    match String.ofList first with
    | "true" => some (.boolean true, rest)
    | "false" => some (.boolean false, rest)
    | written =>
      if isDateTime first then some (.dateTime written, rest)
      else (number? first).map fun v => (v, rest)

end SessionBroker.Toml
