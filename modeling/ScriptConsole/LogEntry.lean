import ScriptConsole.Json.Shape
import ScriptConsole.MemoryLog

/-!
# Log entries

A report together with its moment. In JSON it is an object with the three fields
message, source and timestamp, or the array of them.
-/

namespace ScriptConsole

/-- A report with the moment that it was made. -/
structure LogEntry extends Report where
  timestamp : Time.Timestamp
deriving DecidableEq, Repr

namespace LogEntry

open Json

/-- The entry as JSON. -/
def toJson (entry : LogEntry) : Json :=
  .object [
    ("message", .string entry.message),
    ("source", .string entry.source),
    ("timestamp", .string entry.timestamp.text)
  ]

/-- A string that holds a timestamp. -/
def readTimestamp : Reader Time.Timestamp := fun text => do
  let written <- readExpectedString .timestamp text
  match Time.Timestamp.parse written.value.toList with
  | .ok moment => return written.map fun _ => moment
  | .error fault => throw (.mismatch (.badTimestamp fault))

/-- The next of the three items of an array that stands for an entry; `before` of
them have been read. -/
def readPosition {α : Type} (before : Nat) (item : Reader α) : Reader α := fun text => do
  match <- nextItem (before = 0) text with
  | .finished _ _ => throw (.mismatch (.wrongLength before "LogEntry" 3))
  | .another rest within => return (<- item rest).widen within

/-- The entry of an array, from after its opening bracket. -/
def readArray : Reader LogEntry := fun text => do
  let message <- readPosition 0 (readExpectedString .string) text
  let source <- readPosition 1 (readExpectedString .string) message.rest
  let timestamp <- readPosition 2 readTimestamp source.rest
  let done <- readArrayEnd timestamp.rest
  let entry : LogEntry := ⟨⟨message.value, source.value⟩, timestamp.value⟩
  return message.followedBy (source.followedBy (timestamp.followedBy (done.map fun _ => entry)))

/-- The fields of an entry that have been met so far. -/
structure Partial where
  message : Option String := none
  source : Option String := none
  timestamp : Option Time.Timestamp := none
deriving DecidableEq, Repr

/-- The entry of all fields met. The first field in order that is missing is
named. -/
def Partial.finish (partialEntry : Partial) : Except Mismatch LogEntry := do
  let some message := partialEntry.message | throw (.missingField "message")
  let some source := partialEntry.source | throw (.missingField "source")
  let some timestamp := partialEntry.timestamp | throw (.missingField "timestamp")
  return ⟨⟨message, source⟩, timestamp⟩

/-- The member of an object that stands for an entry, put to those before it. -/
def Partial.readMember (met : Partial) (name : String) : Reader Partial :=
  match name with
  | "message" =>
    Json.readMember name met.message (readExpectedString .string)
      fun value => { met with message := some value }
  | "source" =>
    Json.readMember name met.source (readExpectedString .string)
      fun value => { met with source := some value }
  | "timestamp" =>
    Json.readMember name met.timestamp readTimestamp
      fun value => { met with timestamp := some value }
  | _ => passMember met

/-- The shape of an entry in JSON. -/
def shape : RecordShape Partial LogEntry where
  name := "LogEntry"
  fromArray := readArray
  start := {}
  member := Partial.readMember
  finish := Partial.finish

/-- The entry of a JSON text. -/
def parse (text : String) : Except Json.Error LogEntry :=
  readAll shape.read text.toList

end LogEntry

end ScriptConsole
