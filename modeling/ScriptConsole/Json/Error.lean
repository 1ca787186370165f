import ScriptConsole.Json.Printer
import ScriptConsole.Text.Quoted
import ScriptConsole.Time.Reader

/-!
# Faults of JSON text

A text can break the grammar, end too early, or be well formed as far as it is
read and still not have the expected shape. Only the last kind has a message.
-/

namespace ScriptConsole.Json

/-- What a text holds in place of something else. -/
inductive Found where
  | null
  | boolean (value : Bool)
  | number (value : Number)
  | string (value : String)
  | array
  | object
deriving DecidableEq, Repr

/-- What a reader looks for. -/
inductive Expected where
  | array
  | string
  | null
  | timestamp
  | record (name : String)
deriving DecidableEq, Repr

/-- How a text misses the expected shape. -/
inductive Mismatch where
  | wrongType (found : Found) (expected : Expected)
  | missingField (name : String)
  | duplicateField (name : String)
  /-- An array of `found` items stands for a record of `fields` fields. -/
  | wrongLength (found : Nat) (record : String) (fields : Nat)
  | unknownVariant (name : String) (known : List String)
  | badTimestamp (fault : Time.Fault)
deriving DecidableEq, Repr

/-- Why a text cannot be read. -/
inductive Error where
  /-- The text breaks the grammar. -/
  | malformed
  /-- The text ends where more is needed. -/
  | unfinished
  | mismatch (cause : Mismatch)
deriving DecidableEq, Repr

def Found.message : Found -> String
  | .null => "null"
  | .boolean value => "boolean `" ++ toString value ++ "`"
  | .number (.whole value lower upper) =>
    "integer `" ++ String.ofList (Number.whole value lower upper).characters ++ "`"
  | .number (.double value finite) =>
    "floating point `" ++ String.ofList (Number.double value finite).characters ++ "`"
  | .string value => "string " ++ Text.quoted value
  | .array => "sequence"
  | .object => "map"

def Expected.message : Expected -> String
  | .array => "a sequence"
  | .string => "a string"
  | .null => "unit"
  | .timestamp => "an RFC 3339 formatted date and time string"
  | .record name => "struct " ++ name

def Mismatch.message : Mismatch -> String
  | .wrongType found expected =>
    "invalid type: " ++ found.message ++ ", expected " ++ expected.message
  | .missingField name => "missing field `" ++ name ++ "`"
  | .duplicateField name => "duplicate field `" ++ name ++ "`"
  | .wrongLength found record fields =>
    "invalid length " ++ toString found ++ ", expected struct " ++ record ++ " with " ++
      toString fields ++ " elements"
  | .unknownVariant name known =>
    "unknown variant `" ++ name ++ "`, expected one of " ++
      ", ".intercalate (known.map fun variant => "`" ++ variant ++ "`")
  | .badTimestamp fault => fault.message

/-- The message of an error, for those that have one. -/
def Error.message? : Error -> Option String
  | .malformed => none
  | .unfinished => none
  | .mismatch cause => some cause.message

end ScriptConsole.Json
