import ScriptConsole.World.Call

/-!
# Threads

Threads share a world, and a console call is not one step of its thread. The call first
arrives at its console and looks the error log up that it reports to; if there is one, it
delivers its report in a step of its own. What the other threads do in between, to the slot
above all, is up to the schedule. Binding and clearing a slot is one step each.
-/

namespace ScriptConsole.Threads

/-- Something that a thread does with the consoles and the slots that it shares. -/
inductive Action where
  | call (console : ConsoleRef) (method : Method) (arguments : List Argument)
  | bind (slot : SlotRef) (application : ApplicationRef)
  | clear (slot : SlotRef)

/-- Where a thread is between two of its steps. -/
inductive Phase where
  /-- Before its next action. -/
  | ready
  /-- A model that got a report goes on to call a console with its message. -/
  | passing (depth : Nat) (console : ConsoleRef) (message : String)
  /-- A call has found an error log and has not reported yet. -/
  | holding (depth : Nat) (model : LogModel) (report : Report)
deriving DecidableEq, Repr

/-- How far a thread has come in its program. -/
structure Progress where
  place : Nat := 0
  phase : Phase := .ready
deriving DecidableEq, Repr

/-- The thread has done the action that it was at. -/
def Progress.finish (progress : Progress) : Progress :=
  { place := progress.place + 1 }

/-- What does something: an action of a thread, by its place in the program, or a call that
is made in consequence, by how many calls lead to it. -/
structure Origin where
  thread : Nat
  place : Nat
  depth : Nat
deriving DecidableEq, Repr

/-- What is done in one step. A model that rebinds a slot does so when it gets the report. -/
inductive Deed where
  | looksUp (console : ConsoleRef) (method : Method) (text : String)
  | reports (model : LogModel) (report : Report)
  | binds (slot : SlotRef) (application : ApplicationRef)
  | clears (slot : SlotRef)
deriving DecidableEq, Repr

/-- One step, as it is put down. -/
structure Event where
  origin : Origin
  deed : Deed
deriving DecidableEq, Repr

/-- The world that the threads share, how far each of them has come, and what was done so
far, in order. -/
structure State where
  world : World
  threads : Nat -> Progress := fun _ => {}
  told : List Event := []

/-- What a step of a thread leads to. -/
structure Turn where
  world : World
  progress : Progress
  depth : Nat
  deed : Deed

/-- A call arrives at its console. If it finds no error log there, that is all that comes of
it. -/
def lookUp (world : World) (progress : Progress) (depth : Nat) (console : ConsoleRef)
    (method : Method) (arguments : List Argument) : Turn :=
  let deed := Deed.looksUp console method (Argument.join arguments)
  match world.arrive console method arguments with
  | .settled world => ⟨world, progress.finish, depth, deed⟩
  | .reporting model report =>
    ⟨world, { progress with phase := .holding depth model report }, depth, deed⟩

/-- A call reports to the error log that it has found. -/
def deliver (world : World) (progress : Progress) (depth : Nat) (model : LogModel)
    (report : Report) : Turn where
  world := (world.receive model report).world
  progress :=
    match (world.receive model report).next with
    | none => progress.finish
    | some console => { progress with phase := .passing depth console report.message }
  depth
  deed := .reports model report

variable (programs : Nat -> List Action) (state : State) (thread : Nat)

/-- The next step of a thread, unless it has come to the end of its program. -/
def turn? : Option Turn :=
  let progress := state.threads thread
  match progress.phase with
  | .holding depth model report => some (deliver state.world progress depth model report)
  | .passing depth console message =>
    some (lookUp state.world progress (depth + 1) console .info (World.echoArguments message))
  | .ready =>
    (programs thread)[progress.place]?.map fun
      | .call console method arguments => lookUp state.world progress 0 console method arguments
      | .bind slot application =>
        ⟨state.world.setApplication slot application, progress.finish, 0, .binds slot application⟩
      | .clear slot => ⟨state.world.clearApplication slot, progress.finish, 0, .clears slot⟩

/-- How a step of a thread is put down. -/
def eventOf (turn : Turn) : Event :=
  ⟨⟨thread, (state.threads thread).place, turn.depth⟩, turn.deed⟩

/-- The state after a step of a thread. -/
def after (turn : Turn) : State where
  world := turn.world
  threads := fun other => if other = thread then turn.progress else state.threads other
  told := state.told ++ [eventOf state thread turn]

/-- Let a thread do its next step, if it has one. -/
def step : State :=
  match turn? programs state thread with
  | none => state
  | some turn => after state thread turn

/-- Let threads do their next steps as a schedule says. -/
def run (schedule : List Nat) : State :=
  schedule.foldl (step programs) state

end ScriptConsole.Threads
