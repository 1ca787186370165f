import ScriptConsole.Json.Lexeme.Text

/-!
# Arrays and objects

The brackets, commas and colons of arrays and objects, whatever their items and
members mean. A state is threaded through the members from the first to the
last, so a reader can refuse a member as soon as its key is read.
-/

namespace ScriptConsole.Json

/-- A character that must come next after white space. -/
def readMark (mark : Char) : Reader Unit := fun text =>
  match found : dropBlank text with
  | [] => .error .unfinished
  | first :: rest =>
    if first = mark then .ok ⟨(), rest, length_lt_of_dropBlank found⟩ else .error .malformed

/-- What follows inside an array or an object. -/
inductive Next (text : List Char) where
  /-- The closing bracket, which is taken. -/
  | finished (rest : List Char) (within : rest.length < text.length)
  /-- One more item or key, which `rest` starts with. -/
  | another (rest : List Char) (within : rest.length ≤ text.length)

/-- The end of an array, or the place of its next item. All items but the first
come after a comma. -/
def nextItem (first : Bool) (text : List Char) : Except Error (Next text) :=
  match found : dropBlank text with
  | [] => .error .unfinished
  | ']' :: rest => .ok (.finished rest (length_lt_of_dropBlank found))
  | start :: rest =>
    if first then .ok (.another (start :: rest) (length_le_of_dropBlank found))
    else if start = ',' then
      match dropBlank rest with
      | [] => .error .unfinished
      | ']' :: _ => .error .malformed
      | _ :: _ => .ok (.another rest (Nat.le_of_lt (length_lt_of_dropBlank found)))
    else .error .malformed

/-- The end of an object, or the place after the quote that opens its next key.
All keys but the first come after a comma. -/
def nextKey (first : Bool) (text : List Char) : Except Error (Next text) :=
  match found : dropBlank text with
  | [] => .error .unfinished
  | '\x7d' :: rest => .ok (.finished rest (length_lt_of_dropBlank found))
  | start :: rest =>
    if first then do
      let quote <- readMark '"' text
      return .another quote.rest (Nat.le_of_lt quote.within)
    else if start = ',' then do
      let quote <- readMark '"' rest
      have := length_lt_of_dropBlank found
      have := quote.within
      return .another quote.rest (by omega)
    else .error .malformed

/-- The colon between a key and its value. -/
def readColon : Reader Unit := readMark ':'

/-- The items of an array up to its closing bracket, from after the opening
one if `first` holds and else from after an item. -/
def readItems {α : Type} (item : Reader α) (first : Bool) (text : List Char) :
    Except Error (Taken (List α) text.length) := do
  match <- nextItem first text with
  | .finished rest within => return ⟨[], rest, within⟩
  | .another rest within =>
    let head <- item rest
    have := head.within
    let tail <- readItems item false head.rest
    return (head.followedBy (tail.map (head.value :: ·))).widen within
termination_by text.length

/-- The members of an object up to its closing bracket, from after the opening
one if `first` holds and else from after a member. Each key is handed on with
the state so far, to a reader of the colon and the value. -/
def readMembers {κ σ : Type} (key : Reader κ) (member : σ -> κ -> Reader σ) (state : σ)
    (first : Bool) (text : List Char) : Except Error (Taken σ text.length) := do
  match <- nextKey first text with
  | .finished rest within => return ⟨state, rest, within⟩
  | .another rest within =>
    let name <- key rest
    have := name.within
    let after <- member state name.value name.rest
    have := after.within
    let others <- readMembers key member after.value false after.rest
    return (name.followedBy (after.followedBy others)).widen within
termination_by text.length

end ScriptConsole.Json
