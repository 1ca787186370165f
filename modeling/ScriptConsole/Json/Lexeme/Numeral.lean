import ScriptConsole.Json.Lexeme.Basic

/-!
# JSON numerals

A numeral is read with its sign, its digits and its exponent, exactly as
written; which number it stands for is a second question.
-/

namespace ScriptConsole.Json

/-- A numeral as it is written: its sign, its digits with the point and the
exponent worked into a power of ten, and whether it has neither of them. -/
structure Numeral where
  negative : Bool
  isWhole : Bool
  decimal : Decimal
deriving DecidableEq, Repr

/-- At least one digit. `atEnd` is the fault of a text that ends instead. -/
def readDigits (atEnd : Error) : Reader (List Char) := fun text =>
  match text with
  | [] => .error atEnd
  | first :: rest =>
    if first.isDigit then
      .ok ⟨first :: rest.takeWhile Char.isDigit, rest.dropWhile Char.isDigit,
        Nat.lt_succ_of_le (length_dropWhile_le Char.isDigit rest)⟩
    else .error .malformed

/-- The digits before the point. A zero there has no digits after it. -/
def readWholeDigits (atEnd : Error) : Reader (List Char) := fun text => do
  let digits <- readDigits atEnd text
  match digits.value with
  | '0' :: _ :: _ => throw .malformed
  | _ => return digits

/-- The digits after the point, or none without a point. -/
def readFractionDigits (atEnd : Error) (text : List Char) :
    Except Error (Taken (Option (List Char)) (text.length + 1)) :=
  match text with
  | '.' :: rest => do
    let digits <- readDigits atEnd rest
    return (digits.map some).past.past
  | text => .ok (.nothing none text)

/-- The exponent, if there is one. -/
def readExponent (atEnd : Error) (text : List Char) :
    Except Error (Taken (Option Int) (text.length + 1)) :=
  let unsigned (negative : Bool) (rest : List Char) :
      Except Error (Taken (Option Int) rest.length) := do
    let digits <- readDigits atEnd rest
    let size := Nat.ofDigitChars 10 digits.value 0
    return ⟨some (if negative then -size else size), digits.rest, digits.within⟩
  let signed (rest : List Char) : Except Error (Taken (Option Int) rest.length) :=
    match rest with
    | '+' :: rest => do return (<- unsigned false rest).past
    | '-' :: rest => do return (<- unsigned true rest).past
    | rest => unsigned false rest
  match text with
  | 'e' :: rest | 'E' :: rest => do return (<- signed rest).past.past
  | text => .ok (.nothing none text)

/-- A numeral from after its sign. -/
def readUnsigned (atEnd : Error) (negative : Bool) : Reader Numeral := fun text => do
  let whole <- readWholeDigits atEnd text
  let fraction <- readFractionDigits atEnd whole.rest
  let exponent <- readExponent atEnd fraction.rest
  have := whole.within
  have := fraction.within
  have := exponent.within
  let fractionDigits := fraction.value.getD []
  let numeral :=
    { negative
      isWhole := fraction.value.isNone && exponent.value.isNone
      decimal :=
        { coefficient := Nat.ofDigitChars 10 (whole.value ++ fractionDigits) 0
          exponent := exponent.value.getD 0 - fractionDigits.length } }
  return ⟨numeral, exponent.rest, by omega⟩

/-- A numeral. `atEnd` is the fault of a text that ends within it. -/
def readNumeral (atEnd : Error) : Reader Numeral := fun text =>
  match text with
  | '-' :: rest => do return (<- readUnsigned atEnd true rest).past
  | text => readUnsigned atEnd false text

/-- The nearest double of a numeral, if it is finite. -/
def Numeral.double? (numeral : Numeral) : Option Number :=
  let value := numeral.decimal.toDouble numeral.negative
  if finite : value.isFinite = true then some (.double value finite) else none

/-- The number that a numeral stands for. Whole numerals of 64 bits are whole
numbers, but a zero with a sign is a double, and so are all others; none is one
beyond the range of doubles. -/
def Numeral.number? (numeral : Numeral) : Option Number :=
  let size := numeral.decimal.coefficient
  if !numeral.isWhole then numeral.double?
  else if numeral.negative then
    if small : 0 < size ∧ size ≤ 0x8000000000000000 then
      some (.whole (-size) (by omega) (by omega))
    else numeral.double?
  else
    if small : size < 0x10000000000000000 then some (.whole size (by omega) (by omega))
    else numeral.double?

/-- The number at the front of a text. -/
def readNumber : Reader Number := fun text => do
  let numeral <- readNumeral .unfinished text
  match numeral.value.number? with
  | some value => return numeral.map fun _ => value
  | none => throw .malformed

end ScriptConsole.Json
