import ScriptConsole.Argument
import ScriptConsole.Method

/-!
# The operations of a console

A console says what it does with the arguments of `log`. Its other four operations do the
same with theirs, unless the console says otherwise. A call by a method is passed to the
operation of that method.
-/

namespace ScriptConsole

/-- What a console does with the arguments of each of its operations. -/
structure Operations (α : Type) where
  log : List Argument -> α
  info : List Argument -> α := log
  warn : List Argument -> α := log
  error : List Argument -> α := log
  debug : List Argument -> α := log

/-- Call the operation of a method. -/
def Operations.call {α : Type} (operations : Operations α) : Method -> List Argument -> α
  | .log => operations.log
  | .info => operations.info
  | .warn => operations.warn
  | .error => operations.error
  | .debug => operations.debug

/-- Which operations a host console has of its own besides `log`. -/
structure Capabilities where
  info : Bool := false
  warn : Bool := false
  error : Bool := false
  debug : Bool := false
deriving DecidableEq, Repr, Inhabited

namespace Capabilities

/-- Only `log`. -/
def minimal : Capabilities := {}

/-- Only `log` and `warn`. -/
def withWarn : Capabilities := { warn := true }

/-- All five operations. -/
def full : Capabilities := ⟨true, true, true, true⟩

/-- The console has the operation of a method of its own. -/
def has (capabilities : Capabilities) : Method -> Bool
  | .log => true
  | .info => capabilities.info
  | .warn => capabilities.warn
  | .error => capabilities.error
  | .debug => capabilities.debug

/-- A host console writes the calls of its own operations down. The operations that it
does not have write down what `log` does. -/
def operations (capabilities : Capabilities) : Operations (Method × List Argument) :=
  let required : Operations (Method × List Argument) :=
    { log := fun arguments => (.log, arguments) }
  { log := required.log
    info := if capabilities.info then fun arguments => (.info, arguments) else required.info
    warn := if capabilities.warn then fun arguments => (.warn, arguments) else required.warn
    error := if capabilities.error then fun arguments => (.error, arguments) else required.error
    debug := if capabilities.debug then fun arguments => (.debug, arguments) else required.debug }

/-- A call is written down under its own method if the console has it. -/
theorem call_operations_of_has {capabilities : Capabilities} {method : Method}
    (has : capabilities.has method = true) (arguments : List Argument) :
    capabilities.operations.call method arguments = (method, arguments) := by
  cases method <;> simp_all [Operations.call, operations, Capabilities.has]

/-- Otherwise it is written down under `log`. -/
theorem call_operations_of_not_has {capabilities : Capabilities} {method : Method}
    (lacks : capabilities.has method = false) (arguments : List Argument) :
    capabilities.operations.call method arguments = (.log, arguments) := by
  cases method <;> simp_all [Operations.call, operations, Capabilities.has]

end Capabilities

/-- A fallback console only has `log`, which reports its arguments. -/
def reporting : Operations (List Argument) where
  log := fun arguments => arguments

/-- So it reports the arguments of every call, whatever the method. -/
theorem call_reporting (method : Method) (arguments : List Argument) :
    reporting.call method arguments = arguments := by
  cases method <;> rfl

end ScriptConsole
