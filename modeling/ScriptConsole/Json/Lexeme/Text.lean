import ScriptConsole.Json.Lexeme.Basic

/-!
# JSON strings

A string is read from after its opening quote. Escapes with code units form
characters beyond the first plane in pairs of surrogates.
-/

namespace ScriptConsole.Json

/-- The value of a hexadecimal digit of either case. -/
def hexValue? (character : Char) : Option Nat :=
  if '0' ≤ character && character ≤ '9' then some (character.toNat - '0'.toNat)
  else if 'a' ≤ character && character ≤ 'f' then some (character.toNat - 'a'.toNat + 10)
  else if 'A' ≤ character && character ≤ 'F' then some (character.toNat - 'A'.toNat + 10)
  else none

/-- The count of bytes of a text in its encoded form. -/
def encodedLength (text : List Char) : Nat :=
  (text.map Char.utf8Size).foldr (· + ·) 0

/-- The code unit of four hexadecimal digits. A text of fewer than four bytes is
too short for them, whatever it holds. -/
def readCodeUnit : Reader Nat := fun text =>
  if encodedLength text < 4 then .error .unfinished
  else
    match text with
    | a :: b :: c :: d :: rest =>
      match hexValue? a, hexValue? b, hexValue? c, hexValue? d with
      | some a, some b, some c, some d =>
        .ok (Taken.nothing (((a * 16 + b) * 16 + c) * 16 + d) rest).past.past.past
      | _, _, _, _ => .error .malformed
    | _ => .error .malformed

/-- The code unit opens a surrogate pair. -/
def isHighSurrogate (unit : Nat) : Bool := 0xd800 ≤ unit && unit < 0xdc00

/-- The code unit closes a surrogate pair. -/
def isLowSurrogate (unit : Nat) : Bool := 0xdc00 ≤ unit && unit < 0xe000

/-- The character of a surrogate pair. -/
def pairedCharacter (high low : Nat) : Char :=
  Char.ofNat (0x10000 + (high - 0xd800) * 0x400 + (low - 0xdc00))

/-- The second escape of a surrogate pair. -/
def readLowSurrogate : Reader Nat := fun text =>
  match text with
  | [] => .error .unfinished
  | '\\' :: [] => .error .unfinished
  | '\\' :: 'u' :: rest => do
    let unit <- readCodeUnit rest
    if isLowSurrogate unit.value then return unit.past.past
    else throw .malformed
  | _ => .error .malformed

/-- The character of an escape with code units. Surrogates only stand in
pairs. -/
def readUnicodeEscape : Reader Char := fun text => do
  let unit <- readCodeUnit text
  if isLowSurrogate unit.value then throw .malformed
  else if isHighSurrogate unit.value then
    let low <- readLowSurrogate unit.rest
    return unit.followedBy (low.map (pairedCharacter unit.value))
  else return unit.map Char.ofNat

/-- The character of a one-letter escape. -/
def shortEscape? : Char -> Option Char
  | '"' => some '"'
  | '\\' => some '\\'
  | '/' => some '/'
  | 'b' => some '\x08'
  | 'f' => some '\x0c'
  | 'n' => some '\n'
  | 'r' => some '\r'
  | 't' => some '\t'
  | _ => none

/-- The character of an escape, from after its backslash. -/
def readEscape : Reader Char := fun text =>
  match text with
  | [] => .error .unfinished
  | 'u' :: rest => do return (<- readUnicodeEscape rest).past
  | letter :: rest =>
    match shortEscape? letter with
    | some character => .ok (.nothing character rest)
    | none => .error .malformed

/-- An escape whose character does not matter, from after its backslash:
surrogates need no partner. -/
def passEscape : Reader Unit := fun text =>
  match text with
  | [] => .error .unfinished
  | 'u' :: rest => do return ((<- readCodeUnit rest).map fun _ => ()).past
  | letter :: rest =>
    if (shortEscape? letter).isSome then .ok (.nothing () rest)
    else .error .malformed

/-- The characters of a string from after its opening quote, with a given
reading of escapes. Control characters do not stand in a string as they are. -/
def readCharacters {α : Type} (escape : Reader α) (plain : Char -> α) (text : List Char) :
    Except Error (Taken (List α) text.length) :=
  match text with
  | [] => .error .unfinished
  | '"' :: rest => .ok (.nothing [] rest)
  | '\\' :: rest => do
    let first <- escape rest
    have := first.within
    let others <- readCharacters escape plain first.rest
    return (first.followedBy (others.map (first.value :: ·))).past
  | first :: rest =>
    if first.toNat < 32 then .error .malformed
    else do
      let others <- readCharacters escape plain rest
      return (others.map (plain first :: ·)).past
termination_by text.length

/-- The text of a string from after its opening quote. -/
def readString : Reader String := fun text => do
  let characters <- readCharacters readEscape id text
  return characters.map String.ofList

/-- A string that nobody asks for, from after its opening quote. -/
def passString : Reader Unit := fun text => do
  let characters <- readCharacters passEscape (fun _ => ()) text
  return characters.map fun _ => ()

end ScriptConsole.Json
