import ScriptConsole.Decimal.Shortest

/-!
# Layouts of decimal text

A `Layout` holds the decisions of one way to write doubles: which exponents are
written out positionally, whether a whole number keeps a point, and how the
exponent and the infinities look. The digits are always the shortest ones.
-/

namespace ScriptConsole

/-- How a double is written. -/
structure Layout where
  /-- Which of two equally near shortest decimals is written. -/
  tie : Tie
  /-- The first and the first too large exponent of the leading digit that is
  written positionally; without bounds all of them are. -/
  positional : Option (Int × Int)
  /-- A whole number written positionally ends in `.0`. -/
  keepsPoint : Bool
  /-- A positive exponent has a plus sign. -/
  signsExponent : Bool
  /-- The text of positive infinity. -/
  infinity : List Char
deriving DecidableEq, Repr

namespace Decimal

/-- The exponent of the leading digit. -/
def leadingExponent (number : Decimal) : Int :=
  number.digits.length - 1 + number.exponent

/-- Digits with the point where the exponent puts it, padded with zeros on
either side. -/
def positionalText (keepsPoint : Bool) (number : Decimal) : List Char :=
  let digits := number.digits
  let fractionLength := (-number.exponent).toNat
  if fractionLength = 0 then
    digits ++ List.replicate number.exponent.toNat '0' ++ if keepsPoint then ['.', '0'] else []
  else if fractionLength < digits.length then
    let wholeLength := digits.length - fractionLength
    digits.take wholeLength ++ '.' :: digits.drop wholeLength
  else
    '0' :: '.' :: List.replicate (fractionLength - digits.length) '0' ++ digits

/-- One digit before the point, the others after it, then the exponent. -/
def scientificText (signsExponent : Bool) (number : Decimal) : List Char :=
  let digits := number.digits
  let exponent := number.leadingExponent
  let fraction := digits.drop 1
  let sign := if exponent < 0 then ['-'] else if signsExponent then ['+'] else []
  digits.take 1 ++ (if fraction.isEmpty then [] else '.' :: fraction) ++
    'e' :: sign ++ Nat.toDigits 10 exponent.natAbs

end Decimal

namespace Layout

/-- The layout writes this leading exponent positionally. -/
def isPositional (layout : Layout) (exponent : Int) : Bool :=
  match layout.positional with
  | none => true
  | some (first, limit) => first ≤ exponent && exponent < limit

/-- The text of a decimal without sign. -/
def decimal (layout : Layout) (number : Decimal) : List Char :=
  if layout.isPositional number.leadingExponent then number.positionalText layout.keepsPoint
  else number.scientificText layout.signsExponent

/-- The text of a double without sign. -/
def magnitude (layout : Layout) (number : Double) : List Char :=
  if number.isInfinite then layout.infinity
  else if number.isZero then layout.decimal ⟨0, 0⟩
  else layout.decimal (number.shortest layout.tie)

/-- The text of a double. -/
def double (layout : Layout) (number : Double) : List Char :=
  if number.isNaN then ['N', 'a', 'N']
  else if number.isNegative then '-' :: layout.magnitude number
  else layout.magnitude number

end Layout

end ScriptConsole
