import ScriptConsole.Json.Shape

/-!
# Configuration of the fallback console

The one setting is the source tag that goes with every forwarded message.
-/

namespace ScriptConsole

/-- The source tag of messages from scripts. -/
def scriptSource : String := "javascript"

/-- The settings of a fallback console. -/
structure Config where
  /-- The tag that goes with every forwarded message. -/
  source : String := scriptSource
deriving DecidableEq, Repr

namespace Config

/-- The settings without any change. -/
def default : Config := {}

/-- The settings with another source tag. -/
def withSource (config : Config) (source : String) : Config :=
  { config with source }

/-- The settings after source tags were given one after the other. -/
def ofSources (sources : List String) : Config :=
  sources.foldl withSource default

/-- The settings as JSON. -/
def toJson (config : Config) : Json :=
  .object [("source", .string config.source)]

open Json

/-- The settings at the front of an array, from after its opening bracket. -/
def readArray : Reader Config := fun text => do
  match <- nextItem true text with
  | .finished rest within => return ⟨default, rest, within⟩
  | .another rest within =>
    let source <- readExpectedString .string rest
    let done <- readArrayEnd source.rest
    let settings := done.map fun _ => default.withSource source.value
    return (source.followedBy settings).widen within

/-- The shape of settings in JSON: without a source the default one holds. -/
def shape : RecordShape (Option String) Config where
  name := "ShimConfig"
  fromArray := readArray
  start := none
  member source name :=
    if name = "source" then readMember name source (readExpectedString .string) some
    else passMember source
  finish source := .ok { source := source.getD scriptSource }

/-- The settings of a JSON text. -/
def parse (text : String) : Except Json.Error Config :=
  readAll shape.read text.toList

end Config

end ScriptConsole
