/-!
# Setup errors

Console calls never fail. Only the host's wiring of a console can.
-/

namespace ScriptConsole

/-- What can go wrong while a host wires a console into place. -/
inductive SetupError where
  /-- No console method has this name. -/
  | unknownMethod (name : String)
  /-- The environment has a console already. -/
  | consoleAlreadySet
  /-- The process has a logger already. -/
  | loggerAlreadySet
  /-- The process has a trace subscriber already. -/
  | subscriberAlreadySet
deriving DecidableEq, Repr

def SetupError.message : SetupError -> String
  | .unknownMethod name => "unknown console method: " ++ name
  | .consoleAlreadySet => "a console is already bound to this environment"
  | .loggerAlreadySet =>
    "failed to set log bridge: attempted to set a logger after the logging system was already " ++
      "initialized"
  | .subscriberAlreadySet =>
    "failed to set tracing bridge: a global default trace dispatcher has already been set"

end ScriptConsole
