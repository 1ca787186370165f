import ScriptConsole.Proofs.Session.Binding
import ScriptConsole.Proofs.Session.Chronicle

/-!
# Forwarding follows the chronicle

Whatever is done in a session, every error log is given exactly what the chronicle owes
it, in order, and every log in memory holds it. The state of a slot is only a summary
of the chronicle: that is the invariant which carries the proof, from call to call
within a chain and from step to step within a run.
-/

namespace ScriptConsole

open Session (Entry Step)

namespace Chronicle

theorem limit_kept (log : LogRef) (memory : MemoryLog) (entries : List Entry) :
    (kept log memory entries).limit = memory.limit := by
  induction entries generalizing memory with
  | nil => rfl
  | cons entry entries ih =>
    rw [kept, List.foldl_cons]
    refine (ih _).trans ?_
    unfold keep
    split
    · split
      · exact MemoryLog.limit_record _ _
      · rfl
    · split
      · rfl
      · rfl
    · rfl

/-- The entries tell what became of the slots and the logs between two worlds. A log
that was made in between starts empty, with the limit that it has since. -/
structure Accounts (before after : World) (entries : List Entry) : Prop where
  slot : ∀ slot, after.application slot = entries.foldl (rebind slot) (before.application slot)
  log : ∀ log, after.logs.row log =
    kept log { before.logs.row log with limit := (after.logs.row log).limit } entries
  others : ∀ log, ¬after.logs.Has log -> ∀ memory, kept log memory entries = memory

namespace Accounts

variable {before middle after : World}

/-- Entries that change neither slots nor logs tell that nothing changed. -/
theorem of_same {entries : List Entry}
    (slot : ∀ slot, after.application slot = before.application slot)
    (log : ∀ log, (after.logs.row log).entries = (before.logs.row log).entries)
    (binds : ∀ slot current, entries.foldl (rebind slot) current = current)
    (keeps : ∀ log memory, kept log memory entries = memory) : Accounts before after entries where
  slot := fun ref => by rw [slot, binds]
  log := by
    intro ref
    rw [keeps]
    show after.logs.row ref = ⟨_, (before.logs.row ref).entries⟩
    rw [← log]
  others := fun ref _ memory => keeps ref memory

theorem trans {first second : List Entry} (early : Accounts before middle first)
    (growsEarly : before.Grows middle) (late : Accounts middle after second)
    (growsLate : middle.Grows after) : Accounts before after (first ++ second) where
  slot := by
    intro ref
    rw [late.slot, early.slot, List.foldl_append]
  log := by
    intro ref
    rw [late.log ref, kept_append, limit_kept]
    congr 1
    by_cases there : middle.logs.Has ref
    · rw [(growsLate.logs ref there).2]
      exact early.log ref
    · have missing : ¬before.logs.Has ref := fun has => there (growsEarly.logs ref has).1
      rw [early.others ref there, Table.row_of_not_has there, Table.row_of_not_has missing]
  others := by
    intro ref missing memory
    have earlier : ¬middle.logs.Has ref := fun has => missing (growsLate.logs ref has).1
    rw [kept_append, early.others ref earlier, late.others ref missing]

end Accounts

end Chronicle

open Chronicle

/-- The log of a known model is there. -/
theorem LogModel.Known.has_log {world : World} {model : LogModel} (known : model.Known world)
    {log : LogRef} (keeps : model.log? = some log) : world.logs.Has log := by
  cases model with
  | memory other =>
    cases keeps
    exact known
  | tracing => cases keeps
  | rebinding other slot next =>
    cases keeps
    exact known.1
  | echoing other console echo =>
    cases keeps
    exact known.1

/-- What a model does by itself besides taking the report in: it may bind or clear a
slot, and that is put down. It delivers nothing. -/
theorem World.reaction_receive (world : World) (model : LogModel) (report : Report) :
    let reaction := (world.receive model report).occurrences.map Entry.happened
    (∀ slot, (world.receive model report).world.application slot =
        reaction.foldl (rebind slot) (world.application slot)) ∧
      (∀ log memory, kept log memory reaction = memory) ∧ received reaction = [] ∧
      ∀ later earlier, owed later earlier reaction = [] := by
  cases model with
  | memory log => exact ⟨fun _ => rfl, fun _ _ => rfl, rfl, fun _ _ => rfl⟩
  | tracing => exact ⟨fun _ => rfl, fun _ _ => rfl, rfl, fun _ _ => rfl⟩
  | rebinding log target next =>
    have written := fun slot => world.application_receive_rebinding report log target slot next
    cases next with
    | none =>
      refine ⟨fun slot => ?_, fun _ _ => rfl, rfl, fun _ _ => rfl⟩
      rw [written]
      simp [receive, rebind, eq_comm]
    | some next =>
      refine ⟨fun slot => ?_, fun _ _ => rfl, rfl, fun _ _ => rfl⟩
      rw [written]
      simp [receive, rebind, eq_comm]
  | echoing log console echo =>
    simp only [receive]
    split
    · exact ⟨fun _ => rfl, fun _ _ => rfl, rfl, fun _ _ => rfl⟩
    · exact ⟨fun _ => rfl, fun _ _ => rfl, rfl, fun _ _ => rfl⟩

/-- A report is in the log of its model after it was delivered, and the slots are as the
model's own bindings say. -/
theorem Chronicle.accounts_receive (world : World) {model : LogModel} (known : model.Known world)
    (report : Report) :
    Accounts world (world.receive model report).world
      (.happened (.delivered model report) ::
        (world.receive model report).occurrences.map .happened) := by
  obtain ⟨slots, keeps, -, -⟩ := world.reaction_receive model report
  constructor
  · intro slot
    rw [List.foldl_cons]
    exact slots slot
  · intro log
    have kept_eq : ∀ memory, kept log memory (.happened (.delivered model report) ::
        (world.receive model report).occurrences.map .happened) =
          if model.log? = some log then memory.record report else memory := by
      intro memory
      rw [kept, List.foldl_cons]
      exact keeps log _
    rw [kept_eq, World.logs_receive]
    cases target : model.log? with
    | none => simp
    | some other =>
      by_cases same : other = log
      · subst same
        simp [Table.modify, MemoryLog.limit_record]
      · have distinct : log ≠ other := fun eq => same eq.symm
        simp [Table.modify, Table.row_put_of_ne _ distinct, same]
  · intro log missing memory
    rw [kept, List.foldl_cons]
    refine (keeps log _).trans (if_neg fun target => missing ?_)
    exact ((world.grows_receive model report).logs log (known.has_log target)).1

namespace Link

/-- What is put down about a call. -/
def entries (link : Link) : List Entry :=
  link.occurrences.map .happened

theorem entries_of_delivery {link : Link} {model : LogModel} {report : Report}
    (delivers : link.delivery = some (model, report)) :
    link.entries = .happened (.called link.console link.method link.text) ::
      .happened (.delivered model report) ::
        (link.world.receive model report).occurrences.map .happened := by
  simp only [entries, occurrences_of_delivery delivers, List.map_cons]

theorem entries_of_silence {link : Link} (silent : link.delivery = none) :
    link.entries = [.happened (.called link.console link.method link.text)] := by
  simp only [entries, occurrences_of_silence silent, List.map_cons, List.map_nil]

/-- A call without a delivery changes neither slots nor logs. -/
theorem same_of_silence {link : Link} (silent : link.delivery = none) :
    link.after.slots = link.world.slots ∧ link.after.logs = link.world.logs := by
  cases found : link.world.consoles.row link.console with
  | host capabilities calls =>
    rw [after, reception_of_host found]
    exact ⟨rfl, rfl⟩
  | fallback slot config =>
    rw [after, reception_of_silence found silent]
    exact ⟨rfl, rfl⟩

theorem accounts {link : Link} (closed : link.world.Closed) :
    Accounts link.world link.after link.entries := by
  cases delivers : link.delivery with
  | none =>
    obtain ⟨slots, logs⟩ := same_of_silence delivers
    rw [entries_of_silence delivers]
    refine .of_same (fun slot => ?_) (fun log => ?_) (fun _ _ => rfl) (fun _ _ => rfl)
    · rw [World.application, slots, World.application]
    · rw [logs]
  | some delivery =>
    obtain ⟨model, report⟩ := delivery
    have accounts := accounts_receive link.world (known_of_delivery closed delivers) report
    rw [entries_of_delivery delivers, after, reception_of_delivery delivers]
    -- the call itself changes nothing
    exact ⟨accounts.slot, accounts.log, accounts.others⟩

theorem received_entries (link : Link) : received link.entries = link.delivery.toList := by
  cases delivers : link.delivery with
  | none =>
    rw [entries_of_silence delivers]
    rfl
  | some delivery =>
    obtain ⟨model, report⟩ := delivery
    have reacts := (link.world.reaction_receive model report).2.2.1
    rw [entries_of_delivery delivers]
    simp only [received, List.filterMap_cons, delivery?] at reacts ⊢
    rw [reacts]
    rfl

/-- The chronicle owes for a call what the call delivers: it knows as well as the world
does which application is in the slot. -/
theorem due_called {link : Link} (closed : link.world.Closed)
    (there : link.world.consoles.Has link.console) {later : World}
    (grows : link.world.Grows later) {earlier : List Entry}
    (tells : ∀ slot, link.world.application slot = application slot earlier) :
    due later earlier (.happened (.called link.console link.method link.text)) =
      link.delivery.toList := by
  simp only [due, (grows.consoles link.console there).2]
  cases found : link.world.consoles.row link.console with
  | host capabilities calls =>
    rw [delivery_of_host found]
    rfl
  | fallback slot config =>
    rw [delivery_of_fallback found]
    simp only [Console.wiring?, ← tells, World.logModel]
    cases occupied : link.world.application slot with
    | none => rfl
    | some ref =>
      have same := (grows.applications ref (closed.slot slot ref occupied)).2
      simp only [id_eq] at same
      simp only [Option.bind_some, Option.bind_eq_bind, same]
      cases (link.world.applications.row ref).logs with
      | none => rfl
      | some model => rfl

theorem owed_entries {link : Link} (closed : link.world.Closed)
    (there : link.world.consoles.Has link.console) {later : World}
    (grows : link.world.Grows later) {earlier : List Entry}
    (tells : ∀ slot, link.world.application slot = application slot earlier) :
    owed later earlier link.entries = link.delivery.toList := by
  have called := due_called closed there grows tells
  cases delivers : link.delivery with
  | none =>
    rw [entries_of_silence delivers, owed, called, delivers]
    rfl
  | some delivery =>
    obtain ⟨model, report⟩ := delivery
    have reacts := (link.world.reaction_receive model report).2.2.2
    rw [entries_of_delivery delivers, owed, called, delivers, owed, reacts]
    rfl

end Link

/-- A chain delivers what its entries owe, and its entries tell what became of the slots
and the logs. -/
theorem Chain.forwards {link : Link} {links : List Link} {final : World}
    (chain : Chain link links final) (closed : link.world.Closed)
    (there : link.world.consoles.Has link.console) {later : World} (grows : final.Grows later)
    {earlier : List Entry} (tells : ∀ slot, link.world.application slot = application slot earlier) :
    received (links.flatMap Link.entries) = owed later earlier (links.flatMap Link.entries) ∧
      Accounts link.world final (links.flatMap Link.entries) := by
  induction chain generalizing earlier with
  | @last link ends =>
    simp only [List.flatMap_cons, List.flatMap_nil, List.append_nil]
    rw [Link.received_entries, Link.owed_entries closed there (link.grows_after.trans grows) tells]
    exact ⟨rfl, Link.accounts closed⟩
  | @further link following links final goes rest ih =>
    have found := Link.world_of_next goes
    have accounts := Link.accounts closed
    have onwards := link.grows_after.trans (found ▸ rest.grows)
    obtain ⟨delivers, remains⟩ := ih (found ▸ Link.closed_after closed)
      (Link.has_console_of_next closed goes) grows
      (fun slot => by rw [found, accounts.slot, tells, application_append])
    simp only [List.flatMap_cons]
    rw [received_append, owed_append, delivers, Link.received_entries,
      Link.owed_entries closed there (onwards.trans grows) tells]
    exact ⟨rfl, accounts.trans link.grows_after (found ▸ remains) (found ▸ rest.grows)⟩

/-- What is put down tells that nothing changed where nothing did. -/
theorem Chronicle.Accounts.idle {before after : World} {entries : List Entry}
    (slots : after.slots = before.slots) (logs : after.logs = before.logs)
    (binds : ∀ slot current, entries.foldl (rebind slot) current = current)
    (keeps : ∀ log memory, kept log memory entries = memory) : Accounts before after entries :=
  .of_same (fun _ => by rw [World.application, slots, World.application])
    (fun _ => by rw [logs]) binds keeps

/-- A new slot is as empty as it was before it was made. -/
theorem World.application_addSlot (world : World) (slot : SlotRef) :
    world.addSlot.1.application slot = world.application slot := by
  simp only [application, addSlot, Table.row_put]
  split
  · next isFresh =>
    rw [isFresh, Table.row_of_not_has (Table.not_has_fresh _)]
    rfl
  · rfl

/-- So is a new log. -/
theorem World.entries_addLog (world : World) (limit : Option Nat) (log : LogRef) :
    ((world.addLog limit).1.logs.row log).entries = (world.logs.row log).entries := by
  simp only [addLog, Table.row_put]
  split
  · next isFresh =>
    rw [isFresh, Table.row_of_not_has (Table.not_has_fresh _)]
    rfl
  · rfl

namespace Session

variable {session : Session}

theorem accounts_install (world : World) (environment : EnvironmentRef) (config : Config)
    {entries : List Entry} (binds : ∀ slot current, entries.foldl (rebind slot) current = current)
    (keeps : ∀ log memory, kept log memory entries = memory) :
    Accounts world (world.install environment config).1 entries := by
  cases there : world.boundConsole environment with
  | none =>
    rw [World.install_of_free there]
    exact .idle rfl rfl binds keeps
  | some console =>
    rw [World.install_of_bound there]
    exact .idle rfl rfl binds keeps

/-- In a step, too, what is delivered is what is owed, and what is put down tells what
became of the slots and the logs. -/
theorem Move.forwards {step : Step} {next : Advance} (move : Move session step next)
    (closed : session.Closed) {later : World} (grows : next.session.world.Grows later)
    {earlier : List Entry} (tells : ∀ slot, session.world.application slot = application slot earlier) :
    let entries := session.deeds step ++ next.occurrences.map .happened
    received entries = owed later earlier entries ∧
      Accounts session.world next.session.world entries := by
  have none_happens : ∀ slot current, ([] : List Entry).foldl (rebind slot) current = current :=
    fun _ _ => rfl
  have none_reported : ∀ log memory, kept log memory [] = memory := fun _ _ => rfl
  cases move with
  | newEnvironment id =>
    exact ⟨rfl, .of_same (World.application_addSlot _) (fun _ => rfl) none_happens none_reported⟩
  | newEnvironmentWith id =>
    exact ⟨rfl, .of_same (World.application_addSlot _) (fun _ => rfl) none_happens none_reported⟩
  | newSlot id =>
    exact ⟨rfl, .of_same (World.application_addSlot _) (fun _ => rfl) none_happens none_reported⟩
  | newLog id limit =>
    exact ⟨rfl, .of_same (fun _ => rfl) (World.entries_addLog _ limit) none_happens none_reported⟩
  | newHost | newFallback | shareSlot | shareLog | newApplication | newEcho | newEchoNowhere
  | setConsole =>
    exact ⟨rfl, .idle rfl rfl none_happens none_reported⟩
  | @raceExisting name environment threads =>
    obtain ⟨received, owed, binds, keeps⟩ :=
      inert_race environment (List.replicate threads .existing)
    exact ⟨received.trans (owed _ _).symm, .idle rfl rfl binds keeps⟩
  | installExisting =>
    exact ⟨rfl, .idle rfl rfl (fun _ _ => rfl) (fun _ _ => rfl)⟩
  | install source found free made =>
    exact ⟨rfl, accounts_install _ _ _ (fun _ _ => rfl) (fun _ _ => rfl)⟩
  | @raceInstall name environment others console =>
    obtain ⟨received, owed, binds, keeps⟩ :=
      inert_race environment (.installed :: List.replicate others .existing)
    exact ⟨received.trans (owed _ _).symm, accounts_install _ _ _ binds keeps⟩
  | @setApplication name target ref slot found means =>
    refine ⟨rfl, ⟨fun other => ?_, fun log => ?_, fun _ _ _ => rfl⟩⟩
    · simp [World.application, World.setApplication, withWorld, deeds, rebind, Table.row_put,
        eq_comm]
    · rfl
  | @clearApplication target slot means =>
    refine ⟨rfl, ⟨fun other => ?_, fun log => ?_, fun _ _ _ => rfl⟩⟩
    · simp [World.application, World.clearApplication, withWorld, deeds, rebind, Table.row_put,
        eq_comm]
    · rfl
  | @call step target method values arguments console calls converts means =>
    obtain ⟨links, chain, happened⟩ := session.world.call_follows_chain console method arguments
    have deeds_eq : session.deeds step = [] := by cases calls <;> rfl
    have entries_eq : (session.world.call console method arguments).2.map Entry.happened =
        links.flatMap Link.entries := by
      rw [happened, List.map_flatMap]
      rfl
    simp only [deeds_eq, entries_eq, List.nil_append]
    exact chain.forwards closed.world (closed.has_console means) grows tells
  | callNowhere calls =>
    cases calls <;> exact ⟨rfl, .idle rfl rfl none_happens none_reported⟩
  | look reply looks =>
    have deeds_eq : session.deeds step = [] := by
      cases step <;> first | rfl | cases looks
    rw [deeds_eq]
    exact ⟨rfl, .idle rfl rfl none_happens none_reported⟩
  | takeCalls found =>
    refine ⟨rfl, .idle ?_ ?_ none_happens none_reported⟩
    · simp only [withWorld, World.takeCalls]
      split <;> rfl
    · simp only [withWorld, World.takeCalls]
      split <;> rfl
  | @logError name log report found =>
    have known : (LogModel.memory log).Known session.world := closed.logs name log found
    have accounts := accounts_receive session.world known report
    simp only [deeds, found]
    -- what the host asks for changes nothing before it is delivered
    exact ⟨rfl, accounts.slot, accounts.log, accounts.others⟩
  | @clearLog name log found =>
    simp only [deeds, found]
    refine ⟨rfl, fun _ => rfl, fun other => ?_, fun other missing memory => ?_⟩
    · by_cases same : log = other
      · subst same
        simp [kept, keep, withWorld, Table.modify, MemoryLog.clear]
      · have distinct : other ≠ log := fun eq => same eq.symm
        simp [kept, keep, withWorld, Table.modify, Table.row_put_of_ne _ distinct, same]
    · have distinct : log ≠ other := by
        rintro rfl
        exact missing (Table.has_put_same _ _ _)
      simp [kept, keep, distinct]

/-- The host does nothing to a log in a step that cannot be done. -/
theorem deeds_of_failure {step : Step} {failure : Failure}
    (fails : session.step step = (session, ⟨.error failure, []⟩)) : session.deeds step = [] := by
  cases step with
  | logError name report =>
    cases found : session.logs.find name with
    | error missing => simp only [deeds, found]
    | ok log => simp [Session.step, advance, found] at fails
  | clearLog name =>
    cases found : session.logs.find name with
    | error missing => simp only [deeds, found]
    | ok log => simp [Session.step, advance, found] at fails
  | _ => rfl

theorem step_forwards (closed : session.Closed) (step : Step) {later : World}
    (grows : (session.step step).1.world.Grows later) {earlier : List Entry}
    (tells : ∀ slot, session.world.application slot = application slot earlier) :
    received (session.entries step) = owed later earlier (session.entries step) ∧
      Accounts session.world (session.step step).1.world (session.entries step) := by
  obtain ⟨next, move, done⟩ | ⟨failure, done⟩ := session.step_cases step
  · rw [done] at grows
    rw [entries, done]
    exact move.forwards closed grows tells
  · rw [entries, done, deeds_of_failure done]
    exact ⟨rfl, .idle rfl rfl (fun _ _ => rfl) (fun _ _ => rfl)⟩

/-- Over a run, what is delivered is what is owed, and the chronicle tells what became
of the slots and the logs. -/
theorem run_forwards (closed : session.Closed) (steps : List Step) {later : World}
    (grows : (session.run steps).1.world.Grows later) {earlier : List Entry}
    (tells : ∀ slot, session.world.application slot = application slot earlier) :
    received (session.chronicle steps) = owed later earlier (session.chronicle steps) ∧
      Accounts session.world (session.run steps).1.world (session.chronicle steps) := by
  induction steps generalizing session earlier with
  | nil => exact ⟨rfl, .idle rfl rfl (fun _ _ => rfl) (fun _ _ => rfl)⟩
  | cons step steps ih =>
    have rest := run_grows (session.step step).1 steps
    obtain ⟨delivers, accounts⟩ := step_forwards closed step (rest.trans grows) tells
    obtain ⟨goesOn, remains⟩ := ih (step_closed closed step) grows
      (fun slot => by rw [accounts.slot, tells, application_append])
    refine ⟨?_, accounts.trans (session.step_grows step) remains rest⟩
    rw [chronicle, received_append, owed_append, delivers, goesOn]

end Session

end ScriptConsole
