import SessionBroker.Json.Basic
import SessionBroker.Json.Fault

/-!
Numbers in a JSON text.

`Numeral.scan` reads the form of a number; `Numeral.value` is what it stands for. Integers
of 64 bits are exact. Other numbers take the digits that fit into 64 bits and scale them by
one power of ten, so a long numeral may miss the nearest double by a rounding.
-/

namespace SessionBroker.Json

structure Numeral where
  negative : Bool
  whole : List Nat
  fraction : Option (List Nat)
  /-- The sign (true for a minus) and the digits of the exponent. -/
  exponent : Option (Bool × List Nat)
  deriving DecidableEq, Repr

def digit? (c : Char) : Option Nat :=
  if '0' ≤ c ∧ c ≤ '9' then some (c.toNat - '0'.toNat) else none

/-- The digits at the start of a text, and what follows them. -/
def takeDigits : List Char → List Nat × List Char
  | [] => ([], [])
  | c :: rest =>
    match digit? c with
    | some d =>
      let (digits, after) := takeDigits rest
      (d :: digits, after)
    | none => ([], c :: rest)

namespace Numeral

/-- The exponent of a numeral, after its `e`. `atEnd` is the fault of a text that ends. -/
def scanExponent (atEnd : FormFault) (t : List Char) :
    Except Stop ((Bool × List Nat) × List Char) :=
  let (negative, t) := match t with
    | '+' :: rest => (false, rest)
    | '-' :: rest => (true, rest)
    | _ => (false, t)
  match takeDigits t with
  | ([], []) => .error ⟨.form atEnd, [], 0⟩
  | ([], rest) => .error ⟨.form .invalidNumber, rest, 1⟩
  | (digits, rest) => .ok ((negative, digits), rest)

def scanFraction (atEnd : FormFault) (t : List Char) : Except Stop (List Nat × List Char) :=
  match takeDigits t with
  | ([], []) => .error ⟨.form atEnd, [], 0⟩
  | ([], rest) => .error ⟨.form .invalidNumber, rest, 1⟩
  | (digits, rest) => .ok (digits, rest)

/-- The digits before the point: a zero stands alone. -/
def scanWhole (atEnd : FormFault) (t : List Char) : Except Stop (List Nat × List Char) :=
  match takeDigits t with
  | ([], []) => .error ⟨.form atEnd, [], 0⟩
  | ([], rest) => .error ⟨.form .invalidNumber, rest, 1⟩
  | (0 :: _ :: _, _) => .error ⟨.form .invalidNumber, t.drop 1, 1⟩
  | (digits, rest) => .ok (digits, rest)

def scan (atEnd : FormFault) (negative : Bool) (t : List Char) :
    Except Stop (Numeral × List Char) := do
  let (whole, t) ← scanWhole atEnd t
  let (fraction, t) ← match t with
    | '.' :: rest => do
      let (digits, rest) ← scanFraction atEnd rest
      pure (some digits, rest)
    | _ => pure (none, t)
  let (exponent, t) ← match t with
    | 'e' :: rest | 'E' :: rest => do
      let (e, rest) ← scanExponent atEnd rest
      pure (some e, rest)
    | _ => pure (none, t)
  return (⟨negative, whole, fraction, exponent⟩, t)

/-- Appends digits to a significand while it stays below `2 ^ 64`; gives the digits left. -/
def accumulate (significand : Nat) : List Nat → Nat × List Nat
  | [] => (significand, [])
  | d :: rest =>
    if significand * 10 + d < 2 ^ 64 then accumulate (significand * 10 + d) rest
    else (significand, d :: rest)

/-- The exponent, or the digits left where it reaches `2 ^ 31`. -/
def exponentOf (e : Nat) : List Nat → Except (List Nat) Nat
  | [] => .ok e
  | d :: rest => if e * 10 + d < 2 ^ 31 then exponentOf (e * 10 + d) rest else .error rest

def powerOfTen (k : Nat) : Binary64 := (Binary64.ofDecimal false 1 k).getD (Binary64.zero false)

/-- Divides by `10 ^ k`, at most by `10 ^ 308` at once. -/
def divideBy (x : Binary64) (k fuel : Nat) : Binary64 :=
  match fuel with
  | 0 => x
  | fuel + 1 =>
    if k ≤ 308 then (x.div (powerOfTen k)).getD x
    else if x.isZero then x
    else divideBy ((x.div (powerOfTen 308)).getD x) (k - 308) fuel

/-- The double for `significand · 10 ^ exponent`, or `none` when it is too large. -/
def scale (significand : Nat) (exponent : Int) : Option Binary64 := do
  let x ← Binary64.ofNat significand
  if exponent < 0 then some (divideBy x exponent.natAbs 4)
  else if exponent ≤ 308 then x.mul (powerOfTen exponent.toNat)
  else if x.isZero then some x
  else none

/-- The integer, or the double it is read as when 64 bits do not hold it. -/
def integer (negative : Bool) (n : Nat) : Number :=
  let float := .float ⟨negative, 0, 0⟩
  if negative then
    match n, WireInt.ofInt? (-(n : Int)) with
    | 0, _ => .float (Binary64.zero true)
    | _, some i => .int i
    | _, none => (Binary64.ofNat n).elim float fun x => .float x.neg
  else (WireInt.ofInt? n).elim float .int

/-- What a numeral stands for, or the digits of its exponent left where it grows too large. -/
def value (n : Numeral) : Except (List Nat) Number := do
  let (significand, dropped) := accumulate 0 n.whole
  let sign (x : Binary64) : Binary64 := if n.negative then x.neg else x
  if n.fraction.isNone && n.exponent.isNone && dropped.isEmpty then
    return integer n.negative significand
  let digits := n.fraction.getD []
  let (significand, unread) := accumulate significand digits
  let shift : Int := dropped.length - (digits.length - unread.length : Nat)
  let scaled (e : Int) : Except (List Nat) Number :=
    match scale significand e with
    | some x => .ok (.float (sign x))
    | none => .error []
  match n.exponent with
  | none => scaled shift
  | some (negative, e) =>
    match exponentOf 0 e with
    | .ok e => scaled (if negative then shift - e else shift + e)
    | .error rest =>
      if significand ≠ 0 ∧ !negative then .error rest else .ok (.float (sign (.zero false)))

end Numeral

def scanNumber (negative : Bool) (t : List Char) : Except Stop (Number × List Char) := do
  let (n, rest) ← Numeral.scan .endInValue negative t
  match n.value with
  | .ok v => .ok (v, rest)
  | .error unread =>
    .error ⟨.form .numberOutOfRange, t.drop (t.length - rest.length - unread.length), 0⟩

end SessionBroker.Json
