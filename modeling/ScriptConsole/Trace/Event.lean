import ScriptConsole.Severity
import ScriptConsole.Trace.Field

/-!
# Trace events

The text of an event is its message with the other fields appended as
`name=value`, after the names of the spans that it happened in.
-/

namespace ScriptConsole.Trace

/-- Something that happened, with its fields in the order of recording. -/
structure Event where
  severity : Severity
  fields : List Field

/-- The name of the field that holds an event's message. -/
def messageName : String := "message"

/-- Append a field to the text gathered so far. -/
def appendField (gathered name value : String) : String :=
  (if gathered.isEmpty then gathered else gathered ++ " ") ++ (name ++ "=" ++ value)

/-- Put the message in front of the text gathered so far. -/
def putMessage (gathered message : String) : String :=
  if gathered.isEmpty then message else message ++ " " ++ gathered

/-- The text gathered so far with one more field. Only text is taken as the
message; a scalar of that name is a field like any other. -/
def gather (gathered : String) (field : Field) : String :=
  match field.value.recorded with
  | .text value =>
    if field.name = messageName then putMessage gathered value
    else appendField gathered field.name value
  | .scalar value => appendField gathered field.name value
  | .nothing => gathered

namespace Event

/-- The text of an event outside of all spans. -/
def body (event : Event) : String :=
  event.fields.foldl gather ""

/-- The text of an event inside spans, named from the outermost on. -/
def text (event : Event) (spans : List String) : String :=
  if spans.isEmpty then event.body else "::".intercalate spans ++ ": " ++ event.body

/-- An event that only has a message. -/
def ofMessage (severity : Severity) (message : String) : Event :=
  ⟨severity, [⟨messageName, .shown message⟩]⟩

end Event

end ScriptConsole.Trace
