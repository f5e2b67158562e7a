/-!
Finite double-precision numbers as sign, mantissa and binary exponent.

`Binary64.ofRatio` rounds a quotient of naturals to the nearest double, a half going to
the even mantissa; products and quotients of doubles are rounded through it, so every
operation here is exact arithmetic on `Nat` followed by one rounding.
-/

namespace SessionBroker

/-- The finite double `± mantissa · 2 ^ exponent`. The mantissa has 53 bits unless the
exponent is the least one, `-1074`. -/
structure Binary64 where
  negative : Bool
  mantissa : Nat
  exponent : Int
  deriving DecidableEq, Repr

namespace Binary64

def minExponent : Int := -1074

def maxExponent : Int := 971

def zero (negative : Bool) : Binary64 := ⟨negative, 0, minExponent⟩

def isZero (x : Binary64) : Bool := x.mantissa == 0

def neg (x : Binary64) : Binary64 := { x with negative := !x.negative }

/-- `2 ^ e` for `e ≥ 0`, otherwise `1`. -/
def pow2 (e : Int) : Nat := Nat.pow 2 e.toNat

/-- `10 ^ e` for `e ≥ 0`, otherwise `1`. -/
def pow10 (e : Int) : Nat := Nat.pow 10 e.toNat

/-- The least mantissa of 53 bits. -/
def leastNormal : Nat := 4503599627370496

/-- The quotient rounded to the nearest natural, a half going to the even one. -/
def divRound (num den : Nat) : Nat :=
  let q := num / den
  let r := num % den
  if 2 * r < den then q
  else if den < 2 * r then q + 1
  else if q % 2 = 0 then q else q + 1

/-- The binary exponent at which `num / den` has a 53-bit integral part, but never
below the least one. -/
def exponentOf (num den : Nat) : Int :=
  let guess : Int := (Nat.log2 num : Int) - Nat.log2 den - 52
  let large := den * pow2 (guess + 52) ≤ num * pow2 (-(guess + 52))
  max minExponent (if large then guess else guess - 1)

/-- The double nearest to `num / den`, or `none` beyond the largest one. -/
def ofRatio (negative : Bool) (num den : Nat) : Option Binary64 :=
  if num = 0 then some (zero negative) else
  let e := exponentOf num den
  let m := divRound (num * pow2 (-e)) (den * pow2 e)
  let (m, e) := if m = 2 * leastNormal then (leastNormal, e + 1) else (m, e)
  if maxExponent < e then none else some ⟨negative, m, e⟩

/-- The magnitude as a quotient of naturals. -/
def ratio (x : Binary64) : Nat × Nat :=
  (x.mantissa * pow2 x.exponent, pow2 (-x.exponent))

def ofNat (n : Nat) : Option Binary64 := ofRatio false n 1

/-- The rounded product, or `none` on overflow. -/
def mul (x y : Binary64) : Option Binary64 :=
  let (a, b) := x.ratio
  let (c, d) := y.ratio
  ofRatio (x.negative != y.negative) (a * c) (b * d)

/-- The rounded quotient by a nonzero double, or `none` on overflow. -/
def div (x y : Binary64) : Option Binary64 :=
  let (a, b) := x.ratio
  let (c, d) := y.ratio
  ofRatio (x.negative != y.negative) (a * d) (b * c)

/-- The double nearest to `n · 10 ^ e`, or `none` on overflow. -/
def ofDecimal (negative : Bool) (n : Nat) (e : Int) : Option Binary64 :=
  ofRatio negative (n * pow10 e) (pow10 (-e))

end Binary64

end SessionBroker
