import ScriptConsole.Double

/-!
# Decimal numbers

A `Decimal` is a whole coefficient and a power of ten. It is what a number
literal says and what the digits of a printed double mean.
-/

namespace ScriptConsole

/-- The number `coefficient * 10 ^ exponent`. -/
structure Decimal where
  coefficient : Nat
  exponent : Int
deriving DecidableEq, Repr

namespace Decimal

/-- The digits of the coefficient, most significant first. -/
def digits (number : Decimal) : List Char :=
  Nat.toDigits 10 number.coefficient

/-- The double nearest to `± number`.

The two early answers only spare the powers of ten: a number of at least
`10 ^ 400` is beyond every double, and one below `10 ^ (-400)` is nearer to zero
than to any other double. -/
def toDouble (negative : Bool) (number : Decimal) : Double :=
  if number.coefficient = 0 then .zero negative
  else if 400 < number.exponent then .infinity negative
  else if number.exponent + number.digits.length < -400 then .zero negative
  else
    .nearest negative (number.coefficient * Nat.pow 10 number.exponent.toNat)
      (Nat.pow 10 (-number.exponent).toNat)

end Decimal

end ScriptConsole
