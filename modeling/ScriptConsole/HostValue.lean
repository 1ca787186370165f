import ScriptConsole.Argument

/-!
# Host values

The values that a host program passes to a console, each with its conversion to
an argument. JSON text may fail to convert; nothing else does.
-/

namespace ScriptConsole

/-- Doubles shown by themselves: the shortest digits without an exponent, and
the sign of a zero. -/
def shownLayout : Layout :=
  { messageLayout with infinity := "inf".toList }

/-- A value of a host program. -/
inductive HostValue where
  | undefined
  | null
  /-- An optional value that is not there. -/
  | absent
  /-- An optional value that is there. -/
  | present (value : HostValue)
  | boolean (value : Bool)
  | text (value : String)
  /-- A number of an integer type within the signed 64 bits. -/
  | integer (value : Int64)
  /-- A number of a 64-bit type without sign. -/
  | natural (value : UInt64)
  | double (value : Double)
  /-- The pattern of a binary32 number. -/
  | single (bits : Nat)
  /-- A JSON text whose value stays JSON even if it is a scalar. -/
  | structured (text : String)
  /-- A JSON text whose value becomes the plainest argument. -/
  | json (text : String)
  /-- The text of a string. -/
  | shownText (value : String)
  /-- The text of an integer. -/
  | shownInteger (value : Int64)
  /-- The text of a double. -/
  | shownDouble (value : Double)
  /-- The text of another argument. -/
  | shownArgument (value : HostValue)
deriving Inhabited

namespace HostValue

/-- The argument that a console gets for the value. -/
def toArgument : HostValue -> Except Json.Error Argument
  | .undefined => .ok .undefined
  | .null => .ok .null
  | .absent => .ok .undefined
  | .present value => value.toArgument
  | .boolean value => .ok (.boolean value)
  | .text value => .ok (.string value)
  | .integer value => .ok (.integer value)
  | .natural value => .ok (.ofNatural value)
  | .double value => .ok (.float value)
  | .single bits => .ok (.float (.ofSingleBits bits))
  | .structured source => (Json.parse source).map .json
  | .json source => (Json.parse source).map .ofJson
  | .shownText value => .ok (.string value)
  | .shownInteger value => .ok (.string (String.ofList (Json.integerText value.toInt)))
  | .shownDouble value => .ok (.string (String.ofList (shownLayout.double value)))
  | .shownArgument value => value.toArgument.map fun argument => .string argument.text

/-- The arguments of some values, up to the first that does not convert. -/
def toArguments (values : List HostValue) : Except Json.Error (List Argument) :=
  values.mapM toArgument

end HostValue

end ScriptConsole
