/-!
# Binary64 numbers

A `Double` is its 64-bit pattern. A finite pattern denotes
`± significand * 2 ^ scale` exactly, so every question about a double is a
question about natural numbers. `Double.nearest` goes the other way: it rounds
an exact quotient to the nearest double, a tie to the even pattern.
-/

namespace ScriptConsole

/-- A binary64 number, identified with its 64-bit pattern. -/
structure Double where
  bits : Nat
  bits_lt : bits < 0x10000000000000000
deriving DecidableEq, Repr

namespace Double

/-- The bit above the fraction: it is not stored, and where it would be the exponent
starts. -/
def hiddenBit : Nat := 0x10000000000000

/-- The bit above the exponent. -/
def signBit : Nat := 0x8000000000000000

/-- The pattern of positive infinity; larger magnitudes are not numbers. -/
def infinityBits : Nat := 2047 * hiddenBit

def isNegative (number : Double) : Bool :=
  signBit ≤ number.bits

/-- The pattern without its sign bit. -/
def magnitudeBits (number : Double) : Nat :=
  number.bits % signBit

def isNaN (number : Double) : Bool :=
  infinityBits < number.magnitudeBits

def isInfinite (number : Double) : Bool :=
  number.magnitudeBits = infinityBits

def isFinite (number : Double) : Bool :=
  number.magnitudeBits < infinityBits

/-- Either of the two zeros. -/
def isZero (number : Double) : Bool :=
  number.magnitudeBits = 0

/-- The biased exponent: zero marks the subnormal numbers. -/
def exponentField (number : Double) : Nat :=
  number.magnitudeBits / hiddenBit

def fractionField (number : Double) : Nat :=
  number.bits % hiddenBit

/-- The whole number that a finite magnitude is a power of two times. -/
def significand (number : Double) : Nat :=
  if number.exponentField = 0 then number.fractionField
  else hiddenBit + number.fractionField

/-- The power of two that goes with `significand`. -/
def scale (number : Double) : Int :=
  (max number.exponentField 1 : Nat) - 1075

/-- The first magnitude of its binade, so that the next smaller double is only
half as far away as the next larger one. -/
def startsBinade (number : Double) : Bool :=
  number.fractionField = 0 && 1 < number.exponentField

/-- Numeric equality: the two zeros are equal and a NaN equals nothing. -/
def equals (left right : Double) : Bool :=
  !left.isNaN && !right.isNaN && (left.bits = right.bits || (left.isZero && right.isZero))

/-- The whole magnitude of a finite double without fraction, and `none` if it
has one. -/
def integer? (number : Double) : Option Nat :=
  let divisor := Nat.pow 2 (-number.scale).toNat
  if number.significand % divisor = 0 then
    some (number.significand * Nat.pow 2 number.scale.toNat / divisor)
  else
    none

/-- Put a sign on a magnitude pattern; magnitudes beyond the last finite one are
infinite. -/
def ofMagnitude (negative : Bool) (magnitude : Nat) : Double where
  bits := (if negative then signBit else 0) + min magnitude infinityBits
  bits_lt := by
    have : min magnitude infinityBits ≤ infinityBits := Nat.min_le_right ..
    simp only [infinityBits, hiddenBit, signBit] at this ⊢
    split <;> omega

def zero (negative : Bool) : Double := ofMagnitude negative 0

def infinity (negative : Bool) : Double := ofMagnitude negative infinityBits

/-- The quiet NaN without payload. -/
def nan : Double := ⟨infinityBits + hiddenBit / 2, by decide⟩

/-- The whole number nearest to `numerator / denominator`, a half going to the even
neighbour. -/
def roundHalfEven (numerator denominator : Nat) : Nat :=
  let quotient := numerator / denominator
  let twice := 2 * (numerator % denominator)
  if twice < denominator then quotient
  else if denominator < twice then quotient + 1
  else quotient + quotient % 2

/-- The exponent of the power of two at or below a positive quotient. -/
def floorLog2 (numerator denominator : Nat) : Int :=
  let guess : Int := numerator.log2 - denominator.log2
  if numerator * Nat.pow 2 (-guess).toNat < denominator * Nat.pow 2 guess.toNat then guess - 1
  else guess

/-- The magnitude pattern nearest to a quotient. Patterns count the doubles in
order, so a significand that rounds up to the next power of two carries into the
exponent field by addition alone. -/
def nearestMagnitude (numerator denominator : Nat) : Nat :=
  if numerator = 0 then 0
  else
    let place := max (floorLog2 numerator denominator - 52) (-1074)
    (place + 1074).toNat * hiddenBit +
      roundHalfEven (numerator * Nat.pow 2 (-place).toNat) (denominator * Nat.pow 2 place.toNat)

/-- The double nearest to `± numerator / denominator`, infinite beyond the
finite range. -/
def nearest (negative : Bool) (numerator denominator : Nat) : Double :=
  ofMagnitude negative (nearestMagnitude numerator denominator)

/-- The double with the value of a binary32 pattern, which is always exact. -/
def ofSingleBits (bits : Nat) : Double :=
  let negative := bits / 0x80000000 % 2 = 1
  let exponentField := bits / 0x800000 % 0x100
  let fractionField := bits % 0x800000
  if exponentField = 255 then
    if fractionField = 0 then infinity negative else nan
  else
    let significand := if exponentField = 0 then fractionField else 0x800000 + fractionField
    let scale : Int := (max exponentField 1 : Nat) - 150
    nearest negative (significand * Nat.pow 2 scale.toNat) (Nat.pow 2 (-scale).toNat)

end Double

end ScriptConsole
