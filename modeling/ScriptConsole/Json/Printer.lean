import ScriptConsole.Decimal.Layout
import ScriptConsole.Json.Basic

/-!
# Printing JSON

The compact text of a JSON value: no white space, and in strings only the quote,
the backslash and the control characters below the space are escaped.
-/

namespace ScriptConsole.Json

/-- Doubles are positional from `1e-5` to below `1e16`, with a point even if they
are whole, and otherwise have an exponent with its sign. -/
def numberLayout : Layout where
  tie := .even
  positional := some (-5, 16)
  keepsPoint := true
  signsExponent := true
  infinity := []

def integerText (value : Int) : List Char :=
  if value < 0 then '-' :: Nat.toDigits 10 value.natAbs else Nat.toDigits 10 value.natAbs

def Number.characters : Number -> List Char
  | .whole value _ _ => integerText value
  | .double value _ => numberLayout.double value

/-- One character of a string. Control characters without a short escape are
shown by four lower-case hexadecimal digits. -/
def escaped (character : Char) : List Char :=
  match character with
  | '"' => ['\\', '"']
  | '\\' => ['\\', '\\']
  | '\x08' => ['\\', 'b']
  | '\x0c' => ['\\', 'f']
  | '\n' => ['\\', 'n']
  | '\r' => ['\\', 'r']
  | '\t' => ['\\', 't']
  | _ =>
    if character.toNat < 32 then
      ['\\', 'u', '0', '0', Nat.digitChar (character.toNat / 16),
        Nat.digitChar (character.toNat % 16)]
    else
      [character]

/-- The string literal of a text. -/
def stringLiteral (text : String) : List Char :=
  '"' :: text.toList.flatMap escaped ++ ['"']

mutual

/-- The compact text of a tree. -/
def characters : Json -> List Char
  | .null => "null".toList
  | .boolean value => (toString value).toList
  | .number value => value.characters
  | .string value => stringLiteral value
  | .array items => '[' :: itemCharacters true items ++ [']']
  | .object fields => '\x7b' :: fieldCharacters true fields ++ ['\x7d']

/-- The items of an array, a comma before each but the `first`. -/
def itemCharacters (first : Bool) : List Json -> List Char
  | [] => []
  | item :: rest =>
    (if first then [] else [',']) ++ characters item ++ itemCharacters false rest

/-- The fields of an object, a comma before each but the `first`. -/
def fieldCharacters (first : Bool) : List (String × Json) -> List Char
  | [] => []
  | (key, value) :: rest =>
    (if first then [] else [',']) ++ stringLiteral key ++ ':' :: characters value ++
      fieldCharacters false rest

end

/-- The compact text of a tree. -/
def text (tree : Json) : String :=
  String.ofList tree.characters

end ScriptConsole.Json
