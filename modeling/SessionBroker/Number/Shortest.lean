import SessionBroker.Number.Binary64

/-!
The shortest decimal text of a double.

`Binary64.shortest` finds the fewest digits that read back as the same double and, of
those, the nearest to it. `FloatLayout` says how such digits are written: where
positional notation ends and how an exponent looks.
-/

namespace SessionBroker

/-- A decimal `digits · 10 ^ exponent`; the digits do not end in zero unless they are zero. -/
structure Decimal where
  digits : Nat
  exponent : Int
  deriving DecidableEq, Repr

namespace Binary64

/-- The set of reals that round to a double, as a numerator range over one denominator,
with the value itself; the ends belong to it when the mantissa is even. -/
structure Interval where
  low : Nat
  value : Nat
  high : Nat
  denominator : Nat
  closed : Bool

/-- The reals that round to `x`. Below a power of two the neighbour is half as far. -/
def interval (x : Binary64) : Interval :=
  let unit := pow2 x.exponent
  let below := if x.mantissa = leastNormal ∧ minExponent < x.exponent then 1 else 2
  { low := (4 * x.mantissa - below) * unit
    value := 4 * x.mantissa * unit
    high := (4 * x.mantissa + 2) * unit
    denominator := 4 * pow2 (-x.exponent)
    closed := x.mantissa % 2 = 0 }

def Interval.scale (i : Interval) (k : Int) : Interval :=
  let up := pow10 k
  { i with
    low := i.low * up, value := i.value * up, high := i.high * up
    denominator := i.denominator * pow10 (-k) }

def Interval.contains (i : Interval) (d : Nat) : Bool :=
  let p := d * i.denominator
  if i.closed then i.low ≤ p && p ≤ i.high else i.low < p && p < i.high

/-- The natural in the interval nearest to the value; a tie goes to the even one. -/
def Interval.nearest? (i : Interval) : Option Nat :=
  let d := i.value / i.denominator
  let r := i.value % i.denominator
  match i.contains d && d != 0, i.contains (d + 1) with
  | true, true =>
    if 2 * r < i.denominator then some d
    else if i.denominator < 2 * r then some (d + 1)
    else some (if d % 2 = 0 then d else d + 1)
  | true, false => some d
  | false, true => some (d + 1)
  | false, false => none

def digitCount (n : Nat) : Nat := (Nat.toDigits 10 n).length

/-- The place of the leading decimal digit: the least `p` with `num / den < 10 ^ p`. -/
def leadingPlace (num den : Nat) : Int :=
  if den ≤ num then digitCount (num / den)
  else
    -- `den / num` has `p` digits, so the quotient lies in `(10 ^ (-p), 10 ^ (1 - p)]`.
    let p := digitCount (den / num)
    if num * pow10 (p - 1) = den then 2 - (p : Int) else 1 - (p : Int)

def Decimal.trim (fuel : Nat) (d : Decimal) : Decimal :=
  match fuel with
  | 0 => d
  | fuel + 1 =>
    if d.digits % 10 = 0 ∧ d.digits ≠ 0 then trim fuel ⟨d.digits / 10, d.exponent + 1⟩ else d

/-- Tries `count` digits, then one more, until a decimal with so many digits reads back. -/
def searchDigits (x : Binary64) (place : Int) (fuel count : Nat) : Decimal :=
  let k := (count : Int) - place
  match fuel, (x.interval.scale k).nearest? with
  | _, some d => Decimal.trim 20 ⟨d, -k⟩
  | 0, none => ⟨x.mantissa, x.exponent⟩
  | fuel + 1, none => searchDigits x place fuel (count + 1)

/-- The shortest decimal that rounds to the magnitude of `x`, the nearest of those. -/
def shortest (x : Binary64) : Decimal :=
  if x.isZero then ⟨0, 0⟩ else
  let i := x.interval
  searchDigits x (leadingPlace i.value i.denominator) 17 1

end Binary64

/-- How a shortest decimal is written. -/
structure FloatLayout where
  /-- Positional notation is used when the place of the point lies above this … -/
  minPlace : Option Int
  /-- … and not above this. -/
  maxPlace : Option Int
  deriving Repr

namespace FloatLayout

/-- Free-form values: positional from `1e-5` to below `1e16`. -/
def document : FloatLayout := ⟨some (-5), some 16⟩

/-- Messages about the configuration file: always positional. -/
def plain : FloatLayout := ⟨none, none⟩

def zeros (n : Nat) : String := String.ofList (List.replicate n '0')

/-- The text of a magnitude in positional notation, the point after `place` digits. -/
def positional (digits : String) (place : Int) : String :=
  let n : Int := digits.length
  if n ≤ place then digits ++ zeros (place - n).toNat ++ ".0"
  else if 0 < place then
    String.ofList (digits.toList.take place.toNat) ++ "." ++
      String.ofList (digits.toList.drop place.toNat)
  else "0." ++ zeros (-place).toNat ++ digits

/-- The text of a magnitude with one digit before the point and an exponent. -/
def scientific (digits : String) (place : Int) : String :=
  let mantissa := match digits.toList with
    | [] => ""
    | [d] => d.toString
    | d :: rest => d.toString ++ "." ++ String.ofList rest
  let e := place - 1
  mantissa ++ (if e < 0 then "e-" else "e+") ++ toString e.natAbs

def render (layout : FloatLayout) (x : Binary64) : String :=
  let d := x.shortest
  let digits := toString d.digits
  let place := (digits.length : Int) + d.exponent
  let fits := layout.minPlace.all (· < place) && layout.maxPlace.all (place ≤ ·)
  let magnitude :=
    if x.isZero then "0.0" else if fits then positional digits place else scientific digits place
  if x.negative then "-" ++ magnitude else magnitude

end FloatLayout

end SessionBroker
