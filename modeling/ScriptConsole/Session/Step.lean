import ScriptConsole.HostValue
import ScriptConsole.World.Environment

/-!
# Session steps

A host program works on a world through names of its own. These are the things
that it can ask for, one at a time, and the replies that it gets.
-/

namespace ScriptConsole.Session

/-- A slot, by its own name or as that of an environment. -/
inductive SlotTarget where
  | slot (name : String)
  | environment (name : String)
deriving DecidableEq, Repr

/-- A console, by its own name or as that of an environment. -/
inductive ConsoleTarget where
  | console (name : String)
  | environment (name : String)
deriving DecidableEq, Repr

/-- An application to be made. -/
inductive NewApplication where
  /-- With an error log in memory. -/
  | memory (log : String)
  /-- Without an error log. -/
  | bare
  /-- With an error log that traces. -/
  | tracing
  /-- With an error log that binds the next application to a slot, or clears it. -/
  | rebinding (log : String) (target : SlotTarget) (next : Option String)
  /-- With an error log that passes its first reports on to a console. -/
  | echoing (log : String) (target : ConsoleTarget) (times : Nat)
deriving DecidableEq, Repr

/-- Something that a host program asks for. -/
inductive Step where
  | newEnvironment (id : String)
  | newEnvironmentWith (id console : String)
  | newHost (id : String) (capabilities : Capabilities)
  | newFallback (id : String) (target : SlotTarget) (source : Option String)
  | newSlot (id : String)
  | shareSlot (id : String) (target : SlotTarget)
  | newLog (id : String) (limit : Option Nat)
  | shareLog (id log : String)
  | newApplication (id : String) (application : NewApplication)
  | setApplication (application : String) (target : SlotTarget)
  | clearApplication (target : SlotTarget)
  | application (target : SlotTarget)
  | hasLogModel (target : SlotTarget)
  | hasLogs (application : String)
  | install (environment : String) (source : Option String)
  | raceInstall (environment : String) (threads : Nat)
  | boundConsole (environment : String)
  | setConsole (environment console : String)
  /-- Call the method of a name. -/
  | call (target : ConsoleTarget) (method : String) (values : List HostValue)
  /-- Call a method that is known. -/
  | invoke (target : ConsoleTarget) (method : Method) (values : List HostValue)
  | takeCalls (console : String)
  | logError (log : String) (report : Report)
  | entries (log : String)
  | errorsFrom (log source : String)
  | clearLog (log : String)
  | describeEnvironment (environment : String)
  | describeSlot (target : SlotTarget)
  | describeFallback (console : String)
  | source (console : String)

/-- The answer to a step. -/
inductive Reply where
  | nothing
  | done
  | noConsole
  | truth (value : Bool)
  | count (value : Nat)
  | text (value : String)
  /-- The name of an object, if there is one. -/
  | name (value : Option String)
  | installation (outcome : Installation)
  | calls (calls : List (Method × String))
  | reports (reports : List Report)
  | log (log : MemoryLog)
deriving DecidableEq, Repr

/-- Why a step cannot be done. -/
inductive Failure where
  | setup (error : SetupError)
  | json (error : Json.Error)
  /-- Nothing of the kind that is asked for has this name. -/
  | unknownName (name : String)
deriving DecidableEq, Repr

end ScriptConsole.Session
