import ScriptConsole.Text.Blank
import ScriptConsole.Time.Timestamp

/-!
# Reading timestamps

A timestamp is read from left to right and the first fault decides. White space
may stand before every part and one-digit parts are accepted; date and time are
separated by `T`, `t` or a space, and the offset is `Z`, `UTC` or a signed count
of hours and minutes. Whether the date exists is decided after the whole text.
-/

namespace ScriptConsole.Time

/-- Why a text is no timestamp. -/
inductive Fault where
  /-- A part has a value that no timestamp has. -/
  | outOfRange
  /-- A character does not belong where it stands. -/
  | invalid
  /-- The text ends too early. -/
  | tooShort
  /-- The text goes on after the offset. -/
  | tooLong
  /-- The offset leads out of the years that are kept. -/
  | impossible
deriving DecidableEq, Repr

def Fault.message : Fault -> String
  | .outOfRange => "input is out of range"
  | .invalid => "input contains invalid characters"
  | .tooShort => "premature end of input"
  | .tooLong => "trailing input"
  | .impossible => "no possible date and time matching input"

/-- The text from its first character on that is not white space. -/
def dropBlank (text : List Char) : List Char :=
  text.dropWhile Text.isBlank

/-- One expected character. -/
def readMark (mark : Char) (text : List Char) : Except Fault (List Char) :=
  match text with
  | [] => .error .tooShort
  | first :: rest => if first = mark then .ok rest else .error .invalid

/-- The digits at the front of a text, at least one of them. -/
def readDigits (text : List Char) : Except Fault (List Char × List Char) :=
  match text with
  | [] => .error .tooShort
  | first :: _ =>
    if first.isDigit then .ok (text.takeWhile Char.isDigit, text.dropWhile Char.isDigit)
    else .error .invalid

/-- The number of at most `width` digits at the front of a text, at least one. -/
def readNumber (width : Nat) (text : List Char) : Except Fault (Nat × List Char) := do
  let (digits, rest) <- readDigits text
  return (Nat.ofDigitChars 10 (digits.take width) 0, digits.drop width ++ rest)

/-- A two-digit part between two bounds, after white space. -/
def readPart (first last : Nat) (text : List Char) : Except Fault (Nat × List Char) := do
  let (value, rest) <- readNumber 2 (dropBlank text)
  if first ≤ value && value ≤ last then return (value, rest)
  else throw .outOfRange

/-- A year has at most four digits, or a sign and any number of them. -/
def readYear (text : List Char) : Except Fault (Int × List Char) := do
  let signed (sign : Int) (rest : List Char) : Except Fault (Int × List Char) := do
    let (digits, rest) <- readDigits rest
    let year := sign * Nat.ofDigitChars 10 digits 0
    if -0x80000000 ≤ year && year < 0x80000000 then return (year, rest)
    else throw .outOfRange
  match dropBlank text with
  | '-' :: rest => signed (-1) rest
  | '+' :: rest => signed 1 rest
  | text =>
    let (year, rest) <- readNumber 4 text
    return (year, rest)

/-- Year, month and day. That the day exists in its month is not asked here. -/
def readDate (text : List Char) : Except Fault (Date × List Char) := do
  let (year, rest) <- readYear text
  let rest <- readMark '-' (dropBlank rest)
  let (month, rest) <- readPart 1 12 rest
  let rest <- readMark '-' (dropBlank rest)
  let (day, rest) <- readPart 1 31 rest
  return (⟨year, month, day⟩, rest)

/-- The character between date and time. -/
def readSeparator (text : List Char) : Except Fault (List Char) :=
  match text with
  | [] => .error .tooShort
  | first :: rest => if first = 'T' || first = 't' || first = ' ' then .ok rest else .error .invalid

/-- The nanoseconds of an optional fraction. Digits after the ninth are passed
over. -/
def readFraction (text : List Char) : Except Fault (Nat × List Char) :=
  match text with
  | '.' :: rest => do
    let (digits, rest) <- readDigits rest
    let kept := digits.take 9
    return (Nat.ofDigitChars 10 kept 0 * Nat.pow 10 (9 - kept.length), rest)
  | _ => .ok (0, text)

/-- The second of the day and the nanoseconds. The sixtieth second of a minute
is a leap second: a second's worth of nanoseconds after the fifty-ninth. -/
def readTime (text : List Char) : Except Fault ((Nat × Nat) × List Char) := do
  let (hour, rest) <- readPart 0 23 text
  let rest <- readMark ':' (dropBlank rest)
  let (minute, rest) <- readPart 0 59 rest
  let rest <- readMark ':' (dropBlank rest)
  let (second, rest) <- readPart 0 60 rest
  let (nanosecond, rest) <- readFraction rest
  let leap := second / 60
  return ((hour * 3600 + minute * 60 + (second - leap), leap * 1000000000 + nanosecond), rest)

/-- The two digits of an offset's hours or minutes. A character that takes two
places or more by itself is wrong and not missing. -/
def readOffsetDigits (text : List Char) : Except Fault (Nat × Nat × List Char) :=
  match text with
  | tens :: ones :: rest =>
    if tens.isDigit && ones.isDigit then
      .ok (tens.toNat - '0'.toNat, ones.toNat - '0'.toNat, rest)
    else .error .invalid
  | [only] => if only.utf8Size < 2 then .error .tooShort else .error .invalid
  | [] => .error .tooShort

/-- Hours and minutes of an offset, in seconds, with any colons and white space
between them. -/
def readOffsetSize (text : List Char) : Except Fault (Nat × List Char) := do
  let (tens, ones, rest) <- readOffsetDigits text
  let hours := tens * 10 + ones
  let (tens, ones, rest) <-
    readOffsetDigits (rest.dropWhile fun character => character = ':' || Text.isBlank character)
  if 5 < tens then throw .outOfRange
  return (hours * 3600 + (tens * 10 + ones) * 60, rest)

/-- The offset from universal time in seconds. -/
def readOffset (text : List Char) : Except Fault (Int × List Char) :=
  if (text.take 3).map Char.toUpper = ['U', 'T', 'C'] then .ok (0, text.drop 3)
  else
    match text with
    | [] => .error .tooShort
    | first :: rest =>
      if first = 'Z' || first = 'z' then .ok (0, rest)
      else if first = '+' then do
        let (size, rest) <- readOffsetSize rest
        return (size, rest)
      else if first = '-' || first = '\u2212' then do
        let (size, rest) <- readOffsetSize rest
        return (-size, rest)
      else .error .invalid

namespace Timestamp

/-- Read a timestamp off the whole of a text. -/
def parse (text : List Char) : Except Fault Timestamp := do
  let (date, rest) <- readDate text
  let rest <- readSeparator rest
  let ((secondOfDay, nanosecond), rest) <- readTime rest
  let (offset, rest) <- readOffset (dropBlank rest)
  if dropBlank rest ≠ [] then throw .tooLong
  if !date.isValid || date.year < firstYear || lastYear < date.year then throw .outOfRange
  if offset ≤ -86400 || 86400 ≤ offset then throw .outOfRange
  let moment := ofCivil date secondOfDay nanosecond offset
  if moment.date.year < firstYear || lastYear < moment.date.year then throw .impossible
  return moment

end Timestamp

end ScriptConsole.Time
