import ScriptConsole.Session.Names

/-!
# Sessions

A session is a world with the names of its objects. A step that can be done
advances it; here are the parts that several steps share.
-/

namespace ScriptConsole

/-- A world and the names of its objects. -/
structure Session where
  world : World := {}
  slots : Names .slot := {}
  logs : Names .log := {}
  applications : Names .application := {}
  consoles : Names .console := {}
  environments : Names .environment := {}

namespace Session

/-- What a step that can be done leads to. -/
structure Advance where
  session : Session
  reply : Reply
  occurrences : List Occurrence := []

/-- The name that an installed fallback console goes by. -/
def installedName (environment : String) : String :=
  "shim:" ++ environment

/-- The slot that a target means. -/
def slotOf (session : Session) : SlotTarget -> Except Failure SlotRef
  | .slot name => session.slots.find name
  | .environment name => do
    return session.world.environmentSlot (<- session.environments.find name)

/-- The console that a target means. An environment may have none. -/
def consoleOf (session : Session) : ConsoleTarget -> Except Failure (Option ConsoleRef)
  | .console name => do return some (<- session.consoles.find name)
  | .environment name => do
    return session.world.boundConsole (<- session.environments.find name)

/-- The settings that a step asks for. -/
def configOf (source : Option String) : Config :=
  Config.ofSources source.toList

/-- The session in another world. -/
def withWorld (session : Session) (world : World) : Session :=
  { session with world }

/-- A step that makes a console. -/
def addConsole (session : Session) (id : String) (console : Console) : Advance :=
  let (world, ref) := session.world.addConsole console
  { session := { session with world, consoles := session.consoles.add id ref }
    reply := .nothing }

/-- A step that makes an environment. -/
def addEnvironment (session : Session) (id : String) (console : Option ConsoleRef) : Advance :=
  let (world, ref) := session.world.addEnvironment console
  { session := { session with world, environments := session.environments.add id ref }
    reply := .nothing }

/-- A step that makes an application with an error log or without one. -/
def addApplication (session : Session) (id : String) (logs : Option LogModel) : Advance :=
  let (world, ref) := session.world.addApplication { logs }
  { session := { session with world, applications := session.applications.add id ref }
    reply := .nothing }

/-- A step that makes an application of one of the known kinds. -/
def newApplication (session : Session) (id : String) :
    NewApplication -> Except Failure Advance
  | .memory log => do
    return session.addApplication id (some (.memory (<- session.logs.find log)))
  | .bare => return session.addApplication id none
  | .tracing => return session.addApplication id (some .tracing)
  | .rebinding log target next => do
    let log <- session.logs.find log
    let slot <- session.slotOf target
    let next <- next.mapM session.applications.find
    return session.addApplication id (some (.rebinding log slot next))
  | .echoing log target times => do
    let log <- session.logs.find log
    match <- session.consoleOf target with
    | none => return { session, reply := .noConsole }
    | some console =>
      let (world, echo) := session.world.addEcho times
      return (session.withWorld world).addApplication id (some (.echoing log console echo))

/-- A step that calls a method of a console. The values are converted before the
console is looked at. -/
def callMethod (session : Session) (target : ConsoleTarget) (method : Method)
    (values : List HostValue) : Except Failure Advance := do
  let arguments <- (HostValue.toArguments values).mapError .json
  match <- session.consoleOf target with
  | none => return { session, reply := .noConsole }
  | some console =>
    let (world, occurrences) := session.world.call console method arguments
    return { session := session.withWorld world, reply := .nothing, occurrences }

/-- The session with a name for the console that was installed in an
environment. -/
def nameInstalled (session : Session) (environment : String) (console : ConsoleRef) : Session :=
  { session with consoles := session.consoles.add (installedName environment) console }

/-- The slot and the settings of a console that must be a fallback console. -/
def fallbackOf (session : Session) (name : String) : Except Failure (SlotRef × Config) := do
  match session.world.consoles.row (<- session.consoles.find name) with
  | .fallback slot config => return (slot, config)
  | .host _ _ => throw (.unknownName name)

end Session

end ScriptConsole
