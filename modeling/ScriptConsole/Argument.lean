import ScriptConsole.Json.Shape

/-!
# Console arguments

A console call takes any number of loosely typed values. `Argument` keeps the
shape that a script would see, and `join` makes the message of a call: the texts
of all arguments with single spaces between them.
-/

namespace ScriptConsole

/-- A value passed to a console. -/
inductive Argument where
  | undefined
  | null
  | boolean (value : Bool)
  | integer (value : Int64)
  | float (value : Double)
  | string (value : String)
  /-- Structured data. -/
  | json (value : Json.Value)
deriving Repr

/-- Doubles in messages have no exponent and no point unless there is a
fraction. -/
def messageLayout : Layout where
  tie := .up
  positional := none
  keepsPoint := false
  signsExponent := false
  infinity := "Infinity".toList

/-- Whole doubles below this magnitude are written with all their digits. -/
def exactLimit : Nat := Nat.pow 10 21

/-- The text of a double in a message. A whole number below `exactLimit` shows
its exact value, a zero never a sign; any other number shows its shortest
digits. -/
def floatText (number : Double) : List Char :=
  if number.isFinite then
    match number.integer? with
    | some magnitude =>
      if magnitude < exactLimit then
        Json.integerText (if number.isNegative then -magnitude else magnitude)
      else messageLayout.double number
    | none => messageLayout.double number
  else messageLayout.double number

/-- The text of a JSON value in a message: that of the scalar itself, and compact
JSON for arrays and objects. -/
def jsonText (tree : Json) : String :=
  match tree with
  | .string value => value
  | .number (.double value _) => String.ofList (floatText value)
  | tree => tree.text

namespace Argument

/-- The separator between the texts of two arguments. -/
def separator : String := " "

/-- The text of an argument in a message. -/
def text : Argument -> String
  | .undefined => "undefined"
  | .null => "null"
  | .boolean value => toString value
  | .integer value => String.ofList (Json.integerText value.toInt)
  | .float value => String.ofList (floatText value)
  | .string value => value
  | .json value => jsonText value.tree

/-- The message of a call. Empty texts keep their separators, and no arguments
make an empty message. -/
def join (arguments : List Argument) : String :=
  separator.intercalate (arguments.map text)

/-- A text is its own message. -/
theorem join_string (message : String) : join [.string message] = message :=
  String.intercalate_singleton

/-- Arguments are equal within their kind. Floats compare numerically, so a NaN
differs from itself. -/
def equals : Argument -> Argument -> Bool
  | .undefined, .undefined => true
  | .null, .null => true
  | .boolean left, .boolean right => left = right
  | .integer left, .integer right => left = right
  | .float left, .float right => left.equals right
  | .string left, .string right => left = right
  | .json left, .json right => left.tree.equals right.tree
  | _, _ => false

/-- The argument of a JSON value. Arrays, objects and the numbers that are no
64-bit integers stay JSON. -/
def ofJson (value : Json.Value) : Argument :=
  match value.tree with
  | .null => .null
  | .boolean truth => .boolean truth
  | .number number =>
    match number.int64? with
    | some value => .integer value
    | none => .json value
  | .string content => .string content
  | .array _ | .object _ => .json value

/-- The JSON value of an argument. What has no JSON form becomes null. -/
def toJson : Argument -> Json.Value
  | .undefined | .null => .null
  | .boolean value => .boolean value
  | .integer value => .number (.ofInt64 value)
  | .float value =>
    if finite : value.isFinite = true then .number (.double value finite) else .null
  | .string value => .string value
  | .json value => value

/-- The JSON text of a list of arguments. -/
def listText (arguments : List Argument) : String :=
  (Json.Value.array (arguments.map toJson)).tree.text

/-- The arguments of a JSON text, which holds their array. -/
def parseList (text : String) : Except Json.Error (List Argument) := do
  let values <-
    Json.readAll (Json.readExpectedArray (Json.readValue (Json.nestingLimit - 1))) text.toList
  return values.map ofJson

/-- The argument of a 64-bit natural number: the nearest double from `2 ^ 63`
on. -/
def ofNatural (value : UInt64) : Argument :=
  if value.toNat < 0x8000000000000000 then .integer (Int64.ofNat value.toNat)
  else .float (.nearest false value.toNat 1)

end Argument

end ScriptConsole
