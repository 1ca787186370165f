import ScriptConsole.Json.Skip

/-!
# Reading values of a known shape

Where a text must hold a string, nothing, or a record, another well-formed value
is a mismatch. A record is written as an object, with its fields in any order
and fields of other names passed over, or as the array of its fields.
-/

namespace ScriptConsole.Json

/-- What a text starts with. Only the opening bracket of an array or an object
is looked at. -/
def readFound (text : List Char) : Except Error Found :=
  match dropBlank text with
  | '[' :: _ => .ok .array
  | '\x7b' :: _ => .ok .object
  | start => do
    match (<- readScalar start).value.tree with
    | .null => return .null
    | .boolean value => return .boolean value
    | .number value => return .number value
    | .string value => return .string value
    | .array _ => return .array
    | .object _ => return .object

/-- The fault of a text that holds something else than what is expected. -/
def mismatchAt (expected : Expected) (text : List Char) : Error :=
  match readFound text with
  | .ok found => .mismatch (.wrongType found expected)
  | .error fault => fault

/-- A string after white space. -/
def readExpectedString (expected : Expected) : Reader String := fun text =>
  match found : dropBlank text with
  | '"' :: rest => do
    return (<- readString rest).afterBlank found
  | _ => .error (mismatchAt expected text)

/-- The literal `null` after white space. -/
def readExpectedNull : Reader Unit := fun text =>
  match found : dropBlank text with
  | 'n' :: rest => do
    return (<- readLetters ['u', 'l', 'l'] rest).widen (length_lt_of_dropBlank found)
  | _ => .error (mismatchAt .null text)

/-- The array of the items at the front of a text. The array itself counts as
one level of nesting. -/
def readExpectedArray {α : Type} (item : Reader α) : Reader (List α) := fun text =>
  match found : dropBlank text with
  | '[' :: rest => do
    return (<- readItems item true rest).afterBlank found
  | _ => .error (mismatchAt .array text)

/-- The closing bracket of an array that has all its items. -/
def readArrayEnd : Reader Unit := readMark ']'

/-- The closing bracket of an object that has all its members. -/
def readObjectEnd : Reader Unit := readMark '\x7d'

/-- How the fields of a record are read: from an array, from after its opening
bracket, or member by member into a state that is made a record at the end. -/
structure RecordShape (σ α : Type) where
  name : String
  fromArray : Reader α
  start : σ
  member : σ -> String -> Reader σ
  finish : σ -> Except Mismatch α

/-- A record after white space, in either of its forms. -/
def RecordShape.read {σ α : Type} (shape : RecordShape σ α) : Reader α := fun text =>
  match found : dropBlank text with
  | '[' :: rest => do
    return (<- shape.fromArray rest).afterBlank found
  | '\x7b' :: rest => do
    let state <- readMembers readString shape.member shape.start true rest
    match shape.finish state.value with
    | .ok record => return (state.map fun _ => record).afterBlank found
    | .error cause => throw (.mismatch cause)
  | _ => .error (mismatchAt (.record shape.name) text)

/-- The member of a record whose name nobody asks for. -/
def passMember {σ : Type} (state : σ) : Reader σ := fun text => do
  let colon <- readColon text
  return colon.followedBy ((<- passValue colon.rest).map fun _ => state)

/-- The member of a record that gives one of its fields. A field is refused the
second time, before its value is read. -/
def readMember {α σ : Type} (name : String) (previous : Option α) (value : Reader α)
    (store : α -> σ) : Reader σ := fun text => do
  if previous.isSome then throw (.mismatch (.duplicateField name))
  let colon <- readColon text
  return colon.followedBy ((<- value colon.rest).map store)

end ScriptConsole.Json
