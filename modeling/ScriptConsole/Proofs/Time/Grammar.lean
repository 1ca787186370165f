import Mathlib.Algebra.Group.Nat.Defs
import ScriptConsole.Proofs.Json.Grammar
import ScriptConsole.Time.Reader

/-!
# The grammar of timestamps

Which texts a date, a time and an offset may have, and which of them name a moment, said without
a reader. White space may stand before most parts, and parts of two digits may have one.
-/

namespace ScriptConsole.Time

/-- A date and a time as they are written, with their offset from universal time in seconds. -/
structure Written where
  date : Date
  hour : Nat
  minute : Nat
  second : Nat
  /-- The digits after the point. -/
  fraction : List Char
  offset : Int

namespace Written

/-- The nanoseconds of the digits after the point. Only the first nine digits count. -/
def nanosecond (written : Written) : Nat :=
  Nat.ofDigitChars 10 (written.fraction.take 9) 0 * 10 ^ (9 - (written.fraction.take 9).length)

/-- The date and the time exist, on a day of the years that are kept, less than a day away from
universal time. -/
structure Proper (written : Written) : Prop where
  isValid : written.date.isValid = true
  firstYear : firstYear ≤ written.date.year
  lastYear : written.date.year ≤ lastYear
  hour : written.hour ≤ 23
  minute : written.minute ≤ 59
  second : written.second ≤ 60
  west : -86400 < written.offset
  east : written.offset < 86400

/-- The moment that is written. The sixtieth second is a leap second after the fifty-ninth. -/
def moment (written : Written) : Timestamp :=
  .ofCivil written.date
    (written.hour * 3600 + written.minute * 60 + (written.second - written.second / 60))
    (written.second / 60 * 1000000000 + written.nanosecond) written.offset

end Written

namespace Grammar

open Json.Grammar (Digits)

/-- White space, or nothing. -/
def Blank (text : List Char) : Prop :=
  ∀ character ∈ text, Text.isBlank character = true

/-- A number of at most so many digits. -/
inductive Number (width : Nat) : Nat -> List Char -> Prop where
  | digits {digits : List Char} (proper : Digits digits) (short : digits.length ≤ width) :
      Number width (Nat.ofDigitChars 10 digits 0) digits

/-- A part of one or two digits. -/
inductive Part : Nat -> List Char -> Prop where
  | part {value : Nat} {before digits : List Char} (blank : Blank before)
      (isNumber : Number 2 value digits) : Part value (before ++ digits)

/-- A mark between two parts. -/
inductive Mark (mark : Char) : List Char -> Prop where
  | mark {before : List Char} (blank : Blank before) : Mark mark (before ++ [mark])

/-- A year of at most four digits, or of any number of them after a sign. -/
inductive Year : Int -> List Char -> Prop where
  | plain {value : Nat} {before digits : List Char} (blank : Blank before)
      (isNumber : Number 4 value digits) : Year value (before ++ digits)
  | positive {before digits : List Char} (blank : Blank before) (proper : Digits digits) :
      Year (Nat.ofDigitChars 10 digits 0) (before ++ '+' :: digits)
  | negative {before digits : List Char} (blank : Blank before) (proper : Digits digits) :
      Year (-Nat.ofDigitChars 10 digits 0) (before ++ '-' :: digits)

/-- A point and digits, or nothing. -/
inductive Fraction : List Char -> List Char -> Prop where
  | none : Fraction [] []
  | digits {digits : List Char} (proper : Digits digits) : Fraction digits ('.' :: digits)

/-- The size of an offset in seconds: two digits of hours and two of minutes below sixty, with any
colons and white space between them. -/
inductive OffsetSize : Nat -> List Char -> Prop where
  | size {a b c d : Char} {gap : List Char} (first : a.isDigit = true) (second : b.isDigit = true)
      (isGap : ∀ character ∈ gap, character = ':' ∨ Text.isBlank character = true)
      (third : c.isDigit = true) (small : c.toNat - '0'.toNat ≤ 5) (fourth : d.isDigit = true) :
      OffsetSize (((a.toNat - '0'.toNat) * 10 + (b.toNat - '0'.toNat)) * 3600 +
        ((c.toNat - '0'.toNat) * 10 + (d.toNat - '0'.toNat)) * 60) (a :: b :: (gap ++ [c, d]))

/-- Universal time, or the distance from it. -/
inductive Offset : Int -> List Char -> Prop where
  | universal {letters : List Char} (named : letters.map Char.toUpper = ['U', 'T', 'C']) :
      Offset 0 letters
  | zulu {letter : Char} (isZulu : letter = 'Z' ∨ letter = 'z') : Offset 0 [letter]
  | east {size : Nat} {text : List Char} (isSize : OffsetSize size text) : Offset size ('+' :: text)
  | west {sign : Char} {size : Nat} {text : List Char} (isSign : sign = '-' ∨ sign = '\u2212')
      (isSize : OffsetSize size text) : Offset (-size) (sign :: text)

/-- Year, month and day. -/
inductive DateText : Date -> List Char -> Prop where
  | date {year : Int} {month day : Nat} {y a m b d : List Char} (isYear : Year year y)
      (dash : Mark '-' a) (isMonth : Part month m) (alsoDash : Mark '-' b) (isDay : Part day d) :
      DateText ⟨year, month, day⟩ (y ++ (a ++ (m ++ (b ++ d))))

/-- Hour, minute and second, with the digits after the point. -/
inductive ClockText : Nat -> Nat -> Nat -> List Char -> List Char -> Prop where
  | clock {hour minute second : Nat} {fraction h a m b s f : List Char} (isHour : Part hour h)
      (colon : Mark ':' a) (isMinute : Part minute m) (alsoColon : Mark ':' b)
      (isSecond : Part second s) (isFraction : Fraction fraction f) :
      ClockText hour minute second fraction (h ++ (a ++ (m ++ (b ++ (s ++ f)))))

/-- A whole timestamp. -/
inductive TimestampText : Written -> List Char -> Prop where
  | text {written : Written} {dates clock before offset after : List Char} {separator : Char}
      (isDate : DateText written.date dates)
      (isSeparator : separator = 'T' ∨ separator = 't' ∨ separator = ' ')
      (isClock : ClockText written.hour written.minute written.second written.fraction clock)
      (blank : Blank before) (isOffset : Offset written.offset offset) (alsoBlank : Blank after) :
      TimestampText written (dates ++ (separator :: (clock ++ (before ++ (offset ++ after)))))

end Grammar

end ScriptConsole.Time
