import ScriptConsole.Argument

/-!
# Trace fields

A trace event carries named values of many types. Each value is recorded either
as text, as a typed scalar, or not at all; only text can be the event's message.
-/

namespace ScriptConsole.Trace

/-- The value of a field. -/
inductive FieldValue where
  | text (value : String)
  | integer (value : Int64)
  | natural (value : UInt64)
  | boolean (value : Bool)
  /-- An integer of 128 bits, with or without sign. -/
  | wideInteger (value : Int)
  | double (value : Double)
  | bytes (value : List UInt8)
  /-- A value that shows itself as a text. -/
  | shown (value : String)
  /-- A text that is shown in quotes. -/
  | quoted (value : String)
  | integers (values : List Int)
  /-- An optional value that is not there, or a field that was never given one. -/
  | absent

/-- How a value reaches the one who records an event. -/
inductive Recorded where
  | text (value : String)
  /-- A typed scalar, with its text. -/
  | scalar (text : String)
  | nothing
deriving DecidableEq, Repr

/-- Doubles in fields are positional from `1e-4` to below `1e16`, with a point even
if they are whole. -/
def fieldLayout : Layout where
  tie := .up
  positional := some (-4, 16)
  keepsPoint := true
  signsExponent := false
  infinity := "inf".toList

def integerText (value : Int) : String :=
  String.ofList (Json.integerText value)

/-- Two hexadecimal digits. -/
def byteText (byte : UInt8) : String :=
  String.ofList [Nat.digitChar (byte.toNat / 16), Nat.digitChar (byte.toNat % 16)]

/-- How a value is recorded. -/
def FieldValue.recorded : FieldValue -> Recorded
  | .text value => .text value
  | .integer value => .scalar (integerText value.toInt)
  | .natural value => .scalar (integerText value.toNat)
  | .boolean value => .scalar (toString value)
  | .wideInteger value => .text (integerText value)
  | .double value => .text (String.ofList (fieldLayout.double value))
  | .bytes value => .text ("[" ++ " ".intercalate (value.map byteText) ++ "]")
  | .shown value => .text value
  | .quoted value => .text (Text.quoted value)
  | .integers values => .text ("[" ++ ", ".intercalate (values.map integerText) ++ "]")
  | .absent => .nothing

/-- A named value of an event. -/
structure Field where
  name : String
  value : FieldValue

end ScriptConsole.Trace
