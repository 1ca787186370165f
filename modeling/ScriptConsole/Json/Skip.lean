import ScriptConsole.Json.Reader

/-!
# Passing over JSON values

The value of a field that nobody asks for is read only as far as its grammar
goes: it may nest as deep as it likes, its numbers may be of any size, and its
strings may hold half a surrogate pair. A numeral that the text ends in is
malformed here.
-/

namespace ScriptConsole.Json

/-- Pass over a value that is neither an array nor an object. -/
def passScalar : Reader Unit := fun text =>
  match text with
  | [] => .error .unfinished
  | '"' :: rest => do return (<- passString rest).past
  | 'n' :: rest => readLetters ['u', 'l', 'l'] rest
  | 't' :: rest => readLetters ['r', 'u', 'e'] rest
  | 'f' :: rest => readLetters ['a', 'l', 's', 'e'] rest
  | first :: rest =>
    if first = '-' || first.isDigit then do
      return (<- readNumeral .malformed (first :: rest)).map fun _ => ()
    else .error .malformed

/-- Pass over a value in which at most `nesting` arrays and objects are inside
each other. -/
def passNested : (nesting : Nat) -> Reader Unit
  | 0 => fun _ => .error .malformed
  | nesting + 1 => fun text =>
    match found : dropBlank text with
    | '[' :: rest => do
      let items <- readItems (passNested nesting) true rest
      return (items.map fun _ => ()).afterBlank found
    | '\x7b' :: rest => do
      let member (_ _ : Unit) : Reader Unit := fun text => do
        let colon <- readColon text
        return colon.followedBy (<- passNested nesting colon.rest)
      return (<- readMembers passString member () true rest).afterBlank found
    | start => do return (<- passScalar start).widen (length_le_of_dropBlank found)

/-- Pass over a value. It cannot nest deeper than its text is long. -/
def passValue : Reader Unit := fun text =>
  passNested (text.length + 1) text

end ScriptConsole.Json
