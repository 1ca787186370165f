/-!
# Error logs in memory

A log holds reported errors, oldest first. A bounded log drops its oldest
entries to make room for a new one, and a log with no room at all keeps nothing.
-/

namespace ScriptConsole

/-- A message reported as an error, with the runtime that it came from. -/
structure Report where
  message : String
  source : String
deriving DecidableEq, Repr

/-- The reports that a log holds, oldest first, and the most that it may hold. -/
structure MemoryLog where
  limit : Option Nat := none
  entries : List Report := []
deriving DecidableEq, Repr, Inhabited

namespace MemoryLog

/-- Take in a report. -/
def record (log : MemoryLog) (report : Report) : MemoryLog :=
  match log.limit with
  | none => { log with entries := log.entries ++ [report] }
  | some 0 => log
  | some limit =>
    let evicted := log.entries.length + 1 - limit
    { log with entries := log.entries.drop evicted ++ [report] }

/-- Forget all reports. -/
def clear (log : MemoryLog) : MemoryLog :=
  { log with entries := [] }

/-- The reports with one source tag. -/
def errorsFrom (log : MemoryLog) (source : String) : List Report :=
  log.entries.filter fun report => report.source = source

def size (log : MemoryLog) : Nat :=
  log.entries.length

def isEmpty (log : MemoryLog) : Bool :=
  log.entries.isEmpty

end MemoryLog

end ScriptConsole
