import ScriptConsole.World.Occurrence

/-!
# Console calls

A call to a host console is recorded there. A call to a fallback console looks
up the application's error log when it arrives, and then reports the message to it;
an echoing model then calls a console itself, and so on. Each such call uses up one
unit of an echo's budget before it is made, so the chain ends.
-/

namespace ScriptConsole

/-- What a call comes to when it arrives at its console. -/
inductive Arrival where
  /-- It is over, and leaves this world. -/
  | settled (world : World)
  /-- It has found the error log that it reports to, and has not reported yet. -/
  | reporting (model : LogModel) (report : Report)

/-- What a report leaves behind at a model: the world, what happened besides the
delivery, and the console that the model goes on to call. -/
structure Reception where
  world : World
  occurrences : List Occurrence
  next : Option ConsoleRef

namespace World

/-- What a model does by itself with a report. It takes the report in before
anything else. -/
def receive (world : World) (model : LogModel) (report : Report) : Reception :=
  match model with
  | .memory log => ⟨world.record log report, [], none⟩
  | .tracing => ⟨world, [], none⟩
  | .rebinding log slot next =>
    let recorded := world.record log report
    let previous := recorded.application slot
    match next with
    | some application =>
      ⟨recorded.setApplication slot application, [.bound slot application previous], none⟩
    | none => ⟨recorded.clearApplication slot, [.unbound slot previous], none⟩
  | .echoing log console echo =>
    let recorded := world.record log report
    match recorded.echoes.row echo with
    | 0 => ⟨recorded, [], none⟩
    | left + 1 => ⟨{ recorded with echoes := recorded.echoes.put echo left }, [], some console⟩

/-- A model that goes on to call a console has paid for the call. -/
theorem budget_receive_lt {world : World} {model : LogModel} {report : Report}
    {console : ConsoleRef} (calls : (world.receive model report).next = some console) :
    (world.receive model report).world.budget < world.budget := by
  cases model with
  | memory log => simp [receive] at calls
  | tracing => simp [receive] at calls
  | rebinding log slot next => cases next <;> simp [receive] at calls
  | echoing log target echo =>
    cases left : world.echoes.row echo with
    | zero => simp [receive, record, left] at calls
    | succ rest =>
      have paid := world.echoes.total_put echo rest
      simp only [receive, record, budget, left]
      omega

/-- The arguments that an echoing model calls a console with. -/
def echoArguments (message : String) : List Argument :=
  [.string "echo", .string message]

/-- Let a call arrive at its console. A host console writes it down. A fallback console looks
up the error log that the call reports to. -/
def arrive (world : World) (console : ConsoleRef) (method : Method) (arguments : List Argument) :
    Arrival :=
  match world.consoles.row console with
  | .host capabilities calls =>
    let calls := calls ++ [capabilities.operations.call method arguments]
    .settled { world with consoles := world.consoles.put console (.host capabilities calls) }
  | .fallback slot config =>
    match world.logModel slot with
    | none => .settled world
    | some model =>
      .reporting model ⟨Argument.join (reporting.call method arguments), config.source⟩

/-- Call a method of a console, and whatever is called in consequence. -/
def call (world : World) (console : ConsoleRef) (method : Method) (arguments : List Argument) :
    World × List Occurrence :=
  let called := Occurrence.called console method (Argument.join arguments)
  match world.arrive console method arguments with
  | .settled world => (world, [called])
  | .reporting model report =>
    let reception := world.receive model report
    let occurrences := called :: .delivered model report :: reception.occurrences
    match _paid : reception.next with
    | none => (reception.world, occurrences)
    | some next =>
      let (world, more) := reception.world.call next .info (echoArguments report.message)
      (world, occurrences ++ more)
termination_by world.budget
decreasing_by exact budget_receive_lt _paid

end World

end ScriptConsole
