import ScriptConsole.Json.Shape
import ScriptConsole.SetupError

/-!
# Console methods

The five operations of a console and their names. In JSON a method is the string
of its name or an object with that one key and no value. Scripts and JSON texts
look names up in tables of their own.
-/

namespace ScriptConsole

/-- The operations that every console has. -/
inductive Method where
  | log
  | info
  | warn
  | error
  | debug
deriving DecidableEq, Repr

namespace Method

/-- All methods in the order of their declaration. -/
def all : List Method := [.log, .info, .warn, .error, .debug]

/-- The name that a script calls the method by. -/
def name : Method -> String
  | .log => "log"
  | .info => "info"
  | .warn => "warn"
  | .error => "error"
  | .debug => "debug"

/-- The place of the method among all. -/
def index : Method -> Nat
  | .log => 0
  | .info => 1
  | .warn => 2
  | .error => 3
  | .debug => 4

/-- The method of a name. Names are compared letter by letter. -/
def ofName : String -> Except SetupError Method
  | "log" => .ok .log
  | "info" => .ok .info
  | "warn" => .ok .warn
  | "error" => .ok .error
  | "debug" => .ok .debug
  | name => .error (.unknownMethod name)

/-- A method is found by its own name. -/
theorem ofName_name (method : Method) : ofName method.name = .ok method := by
  cases method <;> rfl

/-- The name that the method is declared by. -/
def declared : Method -> String
  | .log => "Log"
  | .info => "Info"
  | .warn => "Warn"
  | .error => "Error"
  | .debug => "Debug"

/-- The name that the method has in JSON: the declared one in lower case. -/
def variant (method : Method) : String :=
  method.declared.toLower

/-- The method as JSON. -/
def toJson (method : Method) : Json :=
  .string method.variant

/-- The method of a name that stands in a JSON text. -/
def ofVariant (name : String) : Except Json.Error Method :=
  match all.find? fun method => method.variant = name with
  | some method => .ok method
  | none => .error (.mismatch (.unknownVariant name (all.map variant)))

open Json in
/-- The method at the front of a JSON text. -/
def read : Reader Method := fun text =>
  match found : dropBlank text with
  | [] => .error .unfinished
  | '"' :: rest => do
    let written <- readString rest
    let method <- ofVariant written.value
    return (written.map fun _ => method).afterBlank found
  | '\x7b' :: rest => do
    let quote <- readMark '"' rest
    let written <- readString quote.rest
    let method <- ofVariant written.value
    let colon <- readColon written.rest
    let nothing <- readExpectedNull colon.rest
    let done <- readObjectEnd nothing.rest
    let value := colon.followedBy (nothing.followedBy (done.map fun _ => method))
    return (quote.followedBy (written.followedBy value)).afterBlank found
  | _ => .error .malformed

/-- The method of a JSON text. -/
def parse (text : String) : Except Json.Error Method :=
  Json.readAll read text.toList

end Method

end ScriptConsole
