/-!
Limits of integers of fixed width.

A signed integer of `w` bits lies between `-2 ^ (w - 1)` and `2 ^ (w - 1) - 1`, an unsigned one
between `0` and `2 ^ w - 1`.
-/

namespace SessionBroker.Limit

abbrev two31 : Int := 2147483648

abbrev two32 : Int := 4294967296

abbrev two63 : Int := 9223372036854775808

abbrev two64 : Int := 18446744073709551616

abbrev two127 : Int := 170141183460469231731687303715884105728

abbrev two128 : Int := 340282366920938463463374607431768211456

end SessionBroker.Limit
