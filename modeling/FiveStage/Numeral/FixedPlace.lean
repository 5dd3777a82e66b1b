import FiveStage.Numeral.Digits
import FiveStage.Numeral.Rounding

namespace FiveStage.Numeral

-- A finite binary64 value without its sign, as a fraction of natural numbers.
def magnitude (x : Float) : Nat × Nat :=
  let bits := x.toBits.toNat
  let unit := 1 <<< 52
  let fraction := bits % unit
  let exponent := bits / unit % (1 <<< 11)
  let (significand, scale) := if exponent = 0 then (fraction, 1) else (fraction + unit, exponent)
  if 1075 ≤ scale then (significand <<< (scale - 1075), 1)
  else (significand, 1 <<< (1075 - scale))

-- A value that is finite and not negative, with the given number of decimal
-- places. The exact binary value is what gets rounded.
def fixedPlace (places : Nat) (x : Float) : String :=
  let (numerator, denominator) := magnitude x
  let unit := Nat.pow 10 places
  let scaled := roundQuotient (numerator * unit) denominator
  toString (scaled / unit) ++ "." ++ padLeft places '0' (toString (scaled % unit))

end FiveStage.Numeral
