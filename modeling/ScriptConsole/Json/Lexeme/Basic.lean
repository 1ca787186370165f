import ScriptConsole.Json.Error

/-!
# Readers

A reader takes something off the front of a text and leaves a shorter text,
which it proves, so that readers built on it can recurse on what is left.
-/

namespace ScriptConsole.Json

/-- A value read off the front of a text, and a rest of fewer than `limit`
characters. -/
structure Taken (α : Type) (limit : Nat) where
  value : α
  rest : List Char
  within : rest.length < limit

/-- Takes a value off the front of a text, and at least one character with it. -/
abbrev Reader (α : Type) := (text : List Char) -> Except Error (Taken α text.length)

/-- White space between the parts of a JSON text. -/
def isBlank (character : Char) : Bool :=
  character = ' ' || character = '\t' || character = '\n' || character = '\r'

/-- The text from its first character on that is not white space. -/
def dropBlank (text : List Char) : List Char :=
  text.dropWhile isBlank

theorem length_dropWhile_le {α : Type} (p : α -> Bool) (items : List α) :
    (items.dropWhile p).length ≤ items.length :=
  (List.dropWhile_sublist p).length_le

theorem length_le_of_dropBlank {text start : List Char} (found : dropBlank text = start) :
    start.length ≤ text.length :=
  found ▸ length_dropWhile_le isBlank text

theorem length_lt_of_dropBlank {text rest : List Char} {first : Char}
    (found : dropBlank text = first :: rest) : rest.length < text.length :=
  Nat.lt_of_succ_le (length_le_of_dropBlank found)

theorem length_le_of_rest {text rest : List Char} {first : Char}
    (found : dropBlank text = first :: rest) : rest.length ≤ text.length :=
  Nat.le_of_lt (length_lt_of_dropBlank found)

namespace Taken

variable {α β : Type} {limit : Nat}

/-- The same reading with its value changed. -/
def map (f : α -> β) (taken : Taken α limit) : Taken β limit :=
  ⟨f taken.value, taken.rest, taken.within⟩

/-- The same reading under a wider limit. -/
def widen (taken : Taken α limit) {wider : Nat} (wide : limit ≤ wider) : Taken α wider :=
  ⟨taken.value, taken.rest, Nat.lt_of_lt_of_le taken.within wide⟩

/-- A value for which nothing is taken. -/
def nothing (value : α) (text : List Char) : Taken α (text.length + 1) :=
  ⟨value, text, Nat.lt_succ_self _⟩

/-- The reading from one character further to the front. -/
def past (taken : Taken α limit) : Taken α (limit + 1) :=
  taken.widen (Nat.le_succ limit)

/-- Two readings one after the other, with the value of the second. -/
def followedBy (first : Taken β limit) (taken : Taken α first.rest.length) : Taken α limit :=
  taken.widen (Nat.le_of_lt first.within)

/-- The reading from before the white space and the character that come first. -/
def afterBlank {text rest : List Char} {first : Char} (taken : Taken α rest.length)
    (found : dropBlank text = first :: rest) : Taken α text.length :=
  taken.widen (length_le_of_rest found)

end Taken

/-- The remaining letters of a literal name. -/
def readLetters (letters : List Char) (text : List Char) :
    Except Error (Taken Unit (text.length + 1)) :=
  match letters, text with
  | [], text => .ok (.nothing () text)
  | _ :: _, [] => .error .unfinished
  | letter :: letters, first :: rest =>
    if first = letter then do return (<- readLetters letters rest).past
    else .error .malformed

end ScriptConsole.Json
