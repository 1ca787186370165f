import ScriptConsole.Proofs.World.Table
import ScriptConsole.World.Call

/-!
# What a model does with a report

A model takes the report into its log, and by itself it does at most one thing more: it
writes to a slot, or it spends a unit of an echo and goes on to call a console. These
are the facts about `World.receive` from which everything about chains of calls is
shown.
-/

namespace ScriptConsole

/-- The log that the model keeps its reports in. -/
def LogModel.log? : LogModel -> Option LogRef
  | .memory log => some log
  | .tracing => none
  | .rebinding log _ _ => some log
  | .echoing log _ _ => some log

/-- What an occurrence delivers, and to which model. -/
def Occurrence.delivery? : Occurrence -> Option (LogModel × Report)
  | .delivered model report => some (model, report)
  | _ => none

/-- The occurrence is a call of a console. -/
def Occurrence.isCall : Occurrence -> Bool
  | .called _ _ _ => true
  | _ => false

namespace World

variable (world : World) (model : LogModel) (report : Report)

/-- A model takes the report into the log that it keeps its reports in, and touches no
other. -/
theorem logs_receive :
    (world.receive model report).world.logs =
      match model.log? with
      | some log => world.logs.modify log (·.record report)
      | none => world.logs := by
  cases model with
  | memory log => rfl
  | tracing => rfl
  | rebinding log slot next => cases next <;> rfl
  | echoing log console echo =>
    simp only [receive]
    split <;> rfl

theorem log_receive {model : LogModel} {log : LogRef} (keeps : model.log? = some log) :
    (world.receive model report).world.logs.row log = (world.logs.row log).record report := by
  rw [logs_receive, keeps]
  exact Table.row_put_same _ _ _

/-- No model binds a console. -/
theorem environments_receive :
    (world.receive model report).world.environments = world.environments := by
  cases model with
  | memory log => rfl
  | tracing => rfl
  | rebinding log slot next => cases next <;> rfl
  | echoing log console echo =>
    simp only [receive]
    split <;> rfl

/-- No model writes to a console: what it calls, it calls afterwards. -/
theorem consoles_receive : (world.receive model report).world.consoles = world.consoles := by
  cases model with
  | memory log => rfl
  | tracing => rfl
  | rebinding log slot next => cases next <;> rfl
  | echoing log console echo =>
    simp only [receive]
    split <;> rfl

/-- No model changes an application, only which one is in a slot. -/
theorem applications_receive :
    (world.receive model report).world.applications = world.applications := by
  cases model with
  | memory log => rfl
  | tracing => rfl
  | rebinding log slot next => cases next <;> rfl
  | echoing log console echo =>
    simp only [receive]
    split <;> rfl

/-- A model that rebinds a slot leaves it as it was told to, and every other slot as it
was. -/
theorem application_receive_rebinding (log : LogRef) (slot other : SlotRef)
    (next : Option ApplicationRef) :
    (world.receive (.rebinding log slot next) report).world.application other =
      if other = slot then next else world.application other := by
  cases next with
  | none => simp [receive, application, clearApplication, record, Table.row_put]
  | some next => simp [receive, application, setApplication, record, Table.row_put]

/-- Nothing that a model does by itself is a call or a delivery. -/
theorem occurrences_receive {occurrence : Occurrence}
    (happens : occurrence ∈ (world.receive model report).occurrences) :
    occurrence.isCall = false ∧ occurrence.delivery? = none := by
  cases model with
  | memory log => cases happens
  | tracing => cases happens
  | rebinding log slot next =>
    cases next with
    | none =>
      rw [List.mem_singleton.1 happens]
      exact ⟨rfl, rfl⟩
    | some next =>
      rw [List.mem_singleton.1 happens]
      exact ⟨rfl, rfl⟩
  | echoing log console echo =>
    simp only [receive] at happens
    split at happens <;> cases happens

/-- A model goes on to call a console exactly if it echoes there and has a unit left. -/
theorem next_receive_eq_some_iff {console : ConsoleRef} :
    (world.receive model report).next = some console ↔
      ∃ log echo, model = .echoing log console echo ∧ 0 < world.echoes.row echo := by
  cases model with
  | memory log => simp [receive]
  | tracing => simp [receive]
  | rebinding log slot next => cases next <;> simp [receive]
  | echoing log target echo =>
    cases left : world.echoes.row echo with
    | zero => simp [receive, record, left]
    | succ rest =>
      simp only [receive, record, left, Option.some.injEq, LogModel.echoing.injEq]
      constructor
      · rintro rfl
        exact ⟨log, echo, ⟨rfl, rfl, rfl⟩, by omega⟩
      · rintro ⟨_, _, ⟨_, same, _⟩, _⟩
        exact same

/-- The echo that a model spends a unit of when it goes on to call a console. -/
def spent? : LogModel -> Option EchoRef
  | .echoing _ _ echo => if 0 < world.echoes.row echo then some echo else none
  | _ => none

theorem isSome_next_receive :
    (world.receive model report).next.isSome = (world.spent? model).isSome := by
  cases model with
  | memory log => rfl
  | tracing => rfl
  | rebinding log slot next => cases next <;> rfl
  | echoing log target echo =>
    cases left : world.echoes.row echo with
    | zero => simp [receive, record, left, spent?]
    | succ rest => simp [receive, record, left, spent?]

/-- Of the echo that pays for a call exactly one unit is spent, and of every other echo
none. -/
theorem echo_receive (echo : EchoRef) :
    (world.receive model report).world.echoes.row echo +
        (if world.spent? model = some echo then 1 else 0) = world.echoes.row echo := by
  cases model with
  | memory log => rfl
  | tracing => rfl
  | rebinding log slot next => cases next <;> rfl
  | echoing log target other =>
    cases left : world.echoes.row other with
    | zero => simp [receive, record, left, spent?]
    | succ rest =>
      simp only [receive, record, left, spent?, Table.row_put]
      by_cases same : echo = other
      · subst same
        simp [left]
      · have distinct : other ≠ echo := fun eq => same eq.symm
        simp [same, distinct]

/-- What is spent is missing from the budget. -/
theorem budget_receive :
    (world.receive model report).world.budget +
        (if (world.receive model report).next.isSome then 1 else 0) = world.budget := by
  cases model with
  | memory log => rfl
  | tracing => rfl
  | rebinding log slot next => cases next <;> rfl
  | echoing log target echo =>
    cases left : world.echoes.row echo with
    | zero => simp [receive, record, left, budget]
    | succ rest =>
      have paid := world.echoes.total_put echo rest
      simp only [receive, record, left, budget, Option.isSome_some, if_true]
      omega

end World

end ScriptConsole
