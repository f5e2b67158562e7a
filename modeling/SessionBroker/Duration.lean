/-!
Spans of time in nanoseconds.

Instants are spans since an arbitrary start. `Duration.describe` writes a span in the
largest unit that gives it a whole part.
-/

namespace SessionBroker

/-- A span of time, or an instant: nanoseconds. -/
abbrev Duration := Nat

namespace Duration

def milli : Nat := 1000000

def second : Nat := 1000000000

def ofMillis (n : Nat) : Duration := n * milli

/-- The whole milliseconds, at most the greatest 64-bit number. -/
def saturatingMillis (d : Duration) : Nat := min (d / milli) 18446744073709551615

/-- The least whole number of milliseconds that is not shorter, as a span. -/
def roundUp (d : Duration) : Duration := (d + (milli - 1)) / milli * milli

/-- Digits after a point: `n` with leading zeros to so many places, without zeros at the
end. -/
def fraction (places n : Nat) : String :=
  let digits := (toString (Nat.pow 10 places + n)).toList.drop 1
  match (digits.reverse.dropWhile (· == '0')).reverse with
  | [] => ""
  | kept => String.ofList ('.' :: kept)

/-- The span in the unit of so many nanoseconds, a power of ten. -/
def inUnit (places : Nat) (unit : String) (d : Duration) : String :=
  toString (d / Nat.pow 10 places) ++ fraction places (d % Nat.pow 10 places) ++ unit

def describe (d : Duration) : String :=
  if second ≤ d then inUnit 9 "s" d
  else if milli ≤ d then inUnit 6 "ms" d
  else if 1000 ≤ d then inUnit 3 "µs" d
  else inUnit 0 "ns" d

end Duration

end SessionBroker
