import ScriptConsole.Json.Container
import ScriptConsole.Json.Lexeme.Numeral

/-!
# Reading JSON values

The reader recurses on the number of brackets that may still be opened, so no
text nests deeper than that. Of the members of an object with one key the last
counts.
-/

namespace ScriptConsole.Json

/-- How deep arrays and objects may nest. -/
def nestingLimit : Nat := 127

/-- A value that is neither an array nor an object. -/
def readScalar : Reader Value := fun text =>
  match text with
  | [] => .error .unfinished
  | '"' :: rest => do return ((<- readString rest).map .string).past
  | 'n' :: rest => do
    return (<- readLetters ['u', 'l', 'l'] rest).map fun _ => .null
  | 't' :: rest => do
    return (<- readLetters ['r', 'u', 'e'] rest).map fun _ => .boolean true
  | 'f' :: rest => do
    return (<- readLetters ['a', 'l', 's', 'e'] rest).map fun _ => .boolean false
  | first :: rest =>
    if first = '-' || first.isDigit then do
      return (<- readNumber (first :: rest)).map .number
    else .error .malformed

/-- A value after white space, with readings of what comes after the opening
bracket of an array and of an object. -/
def readValueWith (array object : Reader Value) : Reader Value := fun text =>
  match found : dropBlank text with
  | '[' :: rest => do return (<- array rest).afterBlank found
  | '\x7b' :: rest => do return (<- object rest).afterBlank found
  | start => do return (<- readScalar start).widen (length_le_of_dropBlank found)

/-- The member of an object after its key, put to the members before it. -/
def readField (value : Reader Value) (fields : Fields) (key : String) : Reader Fields :=
  fun text => do
    let colon <- readColon text
    let taken <- value colon.rest
    return colon.followedBy (taken.map (fields.insert key ·))

/-- A value in which at most `nesting` arrays and objects are inside each
other. -/
def readValue : (nesting : Nat) -> Reader Value
  | 0 => readValueWith (fun _ => .error .malformed) (fun _ => .error .malformed)
  | nesting + 1 =>
    readValueWith
      (fun text => do return (<- readItems (readValue nesting) true text).map .array)
      (fun text => do
        return (<- readMembers readString (readField (readValue nesting)) .empty true text).map
          .object)

/-- What a whole text holds: the reading of its front, if only white space
follows. -/
def readAll {α : Type} (reader : Reader α) (text : List Char) : Except Error α := do
  let taken <- reader text
  if (dropBlank taken.rest).isEmpty then return taken.value
  else throw .malformed

/-- The value of a JSON text. -/
def parse (text : String) : Except Error Value :=
  readAll (readValue nestingLimit) text.toList

end ScriptConsole.Json
