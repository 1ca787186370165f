import ScriptConsole.World.Call

/-!
# Calls of bridges

A bridge turns what a program logs or traces into calls of a console. The calls are kept
apart from what comes of them, so that a bridge can be asked what it calls.
-/

namespace ScriptConsole

/-- What a bridge is for. -/
inductive BridgeKind where
  | records
  | events
deriving DecidableEq, Repr

/-- A call that a bridge makes. -/
structure BridgeCall where
  bridge : BridgeKind
  console : ConsoleRef
  method : Method
  arguments : List Argument
deriving Repr

/-- Make a call of a bridge, and whatever is called in consequence. -/
def World.make (world : World) (call : BridgeCall) : World × List Occurrence :=
  world.call call.console call.method call.arguments

end ScriptConsole
