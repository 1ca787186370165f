import ScriptConsole.SetupError
import ScriptConsole.World.Call

/-!
# Environments

The console of an environment is bound at most once, either by the host or by
the installation of a fallback console.
-/

namespace ScriptConsole.World

/-- The console that is bound in an environment. -/
def boundConsole (world : World) (environment : EnvironmentRef) : Option ConsoleRef :=
  (world.environments.row environment).console

/-- The slot of an environment's application. -/
def environmentSlot (world : World) (environment : EnvironmentRef) : SlotRef :=
  (world.environments.row environment).slot

/-- Bind a console in an environment, whatever was bound before. -/
def bindConsole (world : World) (environment : EnvironmentRef) (console : ConsoleRef) : World :=
  { world with
    environments := world.environments.modify environment ({ · with console := some console }) }

/-- Bind a console of the host, unless one is bound. -/
def setConsole (world : World) (environment : EnvironmentRef) (console : ConsoleRef) :
    Except SetupError World :=
  match world.boundConsole environment with
  | some _ => .error .consoleAlreadySet
  | none => .ok (world.bindConsole environment console)

/-- Install a fallback console on the environment's slot, unless a console is
bound, and give the console that is bound afterwards. A console that is not
installed is never made. -/
def install (world : World) (environment : EnvironmentRef) (config : Config) :
    World × ConsoleRef × Installation :=
  match world.boundConsole environment with
  | some console => (world, console, .existing)
  | none =>
    let (world, console) :=
      world.addConsole (.fallback (world.environmentSlot environment) config)
    (world.bindConsole environment console, console, .installed)

/-- Let some threads install a fallback console at once, and give what came of each
attempt. Each of them finds a console or binds one in a single step, so in whatever
order they come it is one installation after the other. -/
def raceInstall (world : World) (environment : EnvironmentRef) :
    (threads : Nat) -> World × List Installation
  | 0 => (world, [])
  | threads + 1 =>
    let (world, _, outcome) := world.install environment .default
    let (world, others) := world.raceInstall environment threads
    (world, outcome :: others)

/-- The calls that a host console has received since they were last taken, each with
its message. A fallback console keeps none. -/
def takeCalls (world : World) (console : ConsoleRef) : World × List (Method × String) :=
  match world.consoles.row console with
  | .host capabilities calls =>
    ({ world with consoles := world.consoles.put console (.host capabilities []) },
      calls.map fun (method, arguments) => (method, Argument.join arguments))
  | .fallback _ _ => (world, [])

/-! ## Descriptions -/

/-- A slot, as shown to a developer. -/
def describeSlot (world : World) (slot : SlotRef) : String :=
  "ApplicationSlot \x7b bound: " ++ toString (world.application slot).isSome ++ " \x7d"

/-- An environment, as shown to a developer. -/
def describeEnvironment (world : World) (environment : EnvironmentRef) : String :=
  "Environment \x7b console: " ++ toString (world.boundConsole environment).isSome ++
    ", applications: " ++ world.describeSlot (world.environmentSlot environment) ++ " \x7d"

/-- A fallback console, as shown to a developer. -/
def describeFallback (world : World) (slot : SlotRef) (config : Config) : String :=
  "ConsoleShim \x7b applications: " ++ world.describeSlot slot ++
    ", config: ShimConfig \x7b source: " ++ Text.quoted config.source ++ " \x7d \x7d"

end ScriptConsole.World
