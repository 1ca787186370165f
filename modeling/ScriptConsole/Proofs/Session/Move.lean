import ScriptConsole.Proofs.Except
import ScriptConsole.Proofs.World.Install
import ScriptConsole.Session.Run

/-!
# What a step of a session can do

`Move` lists the ways in which a session can advance, each with the names that were
looked up and with what comes of it. `move_of_advance` says that there are no others,
so a fact about steps is shown by cases of `Move` and never by opening `advance`.
-/

namespace ScriptConsole.Session

/-- The error log that an application of a kind is made with, if the kind can be told
without changing anything. -/
inductive Makes (session : Session) : NewApplication -> Option LogModel -> Prop where
  | memory {name : String} {log : LogRef} (found : session.logs.find name = .ok log) :
      Makes session (.memory name) (some (.memory log))
  | bare : Makes session .bare none
  | tracing : Makes session .tracing (some .tracing)
  | clearing {name : String} {target : SlotTarget} {log : LogRef} {slot : SlotRef}
      (found : session.logs.find name = .ok log) (means : session.slotOf target = .ok slot) :
      Makes session (.rebinding name target none) (some (.rebinding log slot none))
  | rebinding {name next : String} {target : SlotTarget} {log : LogRef} {slot : SlotRef}
      {application : ApplicationRef} (found : session.logs.find name = .ok log)
      (means : session.slotOf target = .ok slot)
      (follows : session.applications.find next = .ok application) :
      Makes session (.rebinding name target (some next))
        (some (.rebinding log slot (some application)))

/-- The step only looks at the session. -/
def Step.looks : Step -> Bool
  | .application _ | .hasLogModel _ | .hasLogs _ | .boundConsole _ | .entries _ | .errorsFrom _ _
  | .describeEnvironment _ | .describeSlot _ | .describeFallback _ | .source _ => true
  | _ => false

/-- A call of a console, by the name of a method or by the method itself. -/
inductive Calls : Step -> ConsoleTarget -> Method -> List HostValue -> Prop where
  | named {target : ConsoleTarget} {name : String} {method : Method} {values : List HostValue}
      (known : Method.ofName name = .ok method) :
      Calls (.call target name values) target method values
  | direct {target : ConsoleTarget} {method : Method} {values : List HostValue} :
      Calls (.invoke target method values) target method values

/-- The ways in which a session advances. -/
inductive Move (session : Session) : Step -> Advance -> Prop where
  | newEnvironment (id : String) :
      Move session (.newEnvironment id) (session.addEnvironment id none)
  | newEnvironmentWith (id : String) {name : String} {console : ConsoleRef}
      (found : session.consoles.find name = .ok console) :
      Move session (.newEnvironmentWith id name) (session.addEnvironment id (some console))
  | newHost (id : String) (capabilities : Capabilities) :
      Move session (.newHost id capabilities) (session.addConsole id (.host capabilities []))
  | newFallback (id : String) {target : SlotTarget} (source : Option String) {slot : SlotRef}
      (means : session.slotOf target = .ok slot) :
      Move session (.newFallback id target source)
        (session.addConsole id (.fallback slot (configOf source)))
  | newSlot (id : String) :
      Move session (.newSlot id)
        { session := { session with
            world := session.world.addSlot.1
            slots := session.slots.add id session.world.addSlot.2 }
          reply := .nothing }
  | shareSlot (id : String) {target : SlotTarget} {slot : SlotRef}
      (means : session.slotOf target = .ok slot) :
      Move session (.shareSlot id target)
        { session := { session with slots := session.slots.add id slot }, reply := .nothing }
  | newLog (id : String) (limit : Option Nat) :
      Move session (.newLog id limit)
        { session := { session with
            world := (session.world.addLog limit).1
            logs := session.logs.add id (session.world.addLog limit).2 }
          reply := .nothing }
  | shareLog (id : String) {name : String} {log : LogRef}
      (found : session.logs.find name = .ok log) :
      Move session (.shareLog id name)
        { session := { session with logs := session.logs.add id log }, reply := .nothing }
  | newApplication (id : String) {kind : NewApplication} {logs : Option LogModel}
      (makes : session.Makes kind logs) :
      Move session (.newApplication id kind) (session.addApplication id logs)
  | newEcho (id : String) {name : String} {target : ConsoleTarget} {log : LogRef}
      {console : ConsoleRef} (times : Nat) (found : session.logs.find name = .ok log)
      (means : session.consoleOf target = .ok (some console)) :
      Move session (.newApplication id (.echoing name target times))
        ((session.withWorld (session.world.addEcho times).1).addApplication id
          (some (.echoing log console (session.world.addEcho times).2)))
  | newEchoNowhere (id : String) {name : String} {target : ConsoleTarget} {times : Nat}
      (means : session.consoleOf target = .ok none) :
      Move session (.newApplication id (.echoing name target times))
        { session, reply := .noConsole }
  | setApplication {name : String} {target : SlotTarget} {application : ApplicationRef}
      {slot : SlotRef} (found : session.applications.find name = .ok application)
      (means : session.slotOf target = .ok slot) :
      Move session (.setApplication name target)
        { session := session.withWorld (session.world.setApplication slot application)
          reply := .name ((session.world.application slot).bind session.applications.nameOf?)
          occurrences := [.bound slot application (session.world.application slot)] }
  | clearApplication {target : SlotTarget} {slot : SlotRef}
      (means : session.slotOf target = .ok slot) :
      Move session (.clearApplication target)
        { session := session.withWorld (session.world.clearApplication slot)
          reply := .name ((session.world.application slot).bind session.applications.nameOf?)
          occurrences := [.unbound slot (session.world.application slot)] }
  | install {name : String} {environment : EnvironmentRef} (source : Option String)
      {console : ConsoleRef} (found : session.environments.find name = .ok environment)
      (free : session.world.boundConsole environment = none)
      (made : (session.world.install environment (configOf source)).2.1 = console) :
      Move session (.install name source)
        { session := (session.withWorld
            (session.world.install environment (configOf source)).1).nameInstalled name console
          reply := .installation .installed
          occurrences := [.offered environment .installed] }
  | installExisting {name : String} {environment : EnvironmentRef} (source : Option String)
      {console : ConsoleRef} (found : session.environments.find name = .ok environment)
      (bound : session.world.boundConsole environment = some console) :
      Move session (.install name source)
        { session, reply := .installation .existing
          occurrences := [.offered environment .existing] }
  | raceInstall {name : String} {environment : EnvironmentRef} (others : Nat)
      {console : ConsoleRef} (found : session.environments.find name = .ok environment)
      (free : session.world.boundConsole environment = none)
      (made : (session.world.install environment .default).2.1 = console) :
      Move session (.raceInstall name (others + 1))
        { session := (session.withWorld
            (session.world.install environment .default).1).nameInstalled name console
          reply := .count 1
          occurrences := (Installation.installed :: List.replicate others .existing).map
            (.offeredElsewhere environment) }
  | raceExisting {name : String} {environment : EnvironmentRef} (threads : Nat)
      (found : session.environments.find name = .ok environment)
      (idle : threads = 0 ∨ (session.world.boundConsole environment).isSome) :
      Move session (.raceInstall name threads)
        { session, reply := .count 0
          occurrences := (List.replicate threads Installation.existing).map
            (.offeredElsewhere environment) }
  | setConsole {name consoleName : String} {environment : EnvironmentRef} {console : ConsoleRef}
      (found : session.environments.find name = .ok environment)
      (known : session.consoles.find consoleName = .ok console)
      (free : session.world.boundConsole environment = none) :
      Move session (.setConsole name consoleName)
        { session := session.withWorld (session.world.bindConsole environment console)
          reply := .done }
  | call {step : Step} {target : ConsoleTarget} {method : Method} {values : List HostValue}
      {arguments : List Argument} {console : ConsoleRef} (calls : Calls step target method values)
      (converts : HostValue.toArguments values = .ok arguments)
      (means : session.consoleOf target = .ok (some console)) :
      Move session step
        { session := session.withWorld (session.world.call console method arguments).1
          reply := .nothing
          occurrences := (session.world.call console method arguments).2 }
  | callNowhere {step : Step} {target : ConsoleTarget} {method : Method}
      {values : List HostValue} (calls : Calls step target method values)
      (means : session.consoleOf target = .ok none) :
      Move session step { session, reply := .noConsole }
  | takeCalls {name : String} {console : ConsoleRef}
      (found : session.consoles.find name = .ok console) :
      Move session (.takeCalls name)
        { session := session.withWorld (session.world.takeCalls console).1
          reply := .calls (session.world.takeCalls console).2 }
  | logError {name : String} {log : LogRef} (report : Report)
      (found : session.logs.find name = .ok log) :
      Move session (.logError name report)
        { session := session.withWorld (session.world.record log report)
          reply := .nothing
          occurrences := [.delivered (.memory log) report] }
  | clearLog {name : String} {log : LogRef} (found : session.logs.find name = .ok log) :
      Move session (.clearLog name)
        { session := session.withWorld
            { session.world with logs := session.world.logs.modify log MemoryLog.clear }
          reply := .nothing }
  | look {step : Step} (reply : Reply) (looks : step.looks = true) :
      Move session step { session, reply }

theorem makes_or_echoes {session : Session} {id : String} {kind : NewApplication} {next : Advance}
    (done : session.newApplication id kind = .ok next) :
    Move session (.newApplication id kind) next := by
  cases kind with
  | memory name =>
    simp only [newApplication, bind_eq_ok_iff, pure_eq_ok_iff] at done
    obtain ⟨log, found, rfl⟩ := done
    exact .newApplication id (.memory found)
  | bare =>
    simp only [newApplication, pure_eq_ok_iff] at done
    exact done ▸ .newApplication id .bare
  | tracing =>
    simp only [newApplication, pure_eq_ok_iff] at done
    exact done ▸ .newApplication id .tracing
  | rebinding name target following =>
    cases following with
    | none =>
      simp only [newApplication, bind_eq_ok_iff, pure_eq_ok_iff, Option.mapM_none] at done
      obtain ⟨log, found, slot, means, _, rfl, rfl⟩ := done
      exact .newApplication id (.clearing found means)
    | some following =>
      simp only [newApplication, bind_eq_ok_iff, pure_eq_ok_iff, map_eq_ok_iff,
        Option.mapM_some] at done
      obtain ⟨log, found, slot, means, _, ⟨application, follows, rfl⟩, rfl⟩ := done
      exact .newApplication id (.rebinding found means follows)
  | echoing name target times =>
    simp only [newApplication, bind_eq_ok_iff] at done
    obtain ⟨log, found, target?, means, done⟩ := done
    cases target? with
    | none =>
      simp only [pure_eq_ok_iff] at done
      exact done ▸ .newEchoNowhere id means
    | some console =>
      simp only [pure_eq_ok_iff] at done
      exact done ▸ .newEcho id times found means

theorem calls_or_not {session : Session} {step : Step} {target : ConsoleTarget} {method : Method}
    {values : List HostValue} {next : Advance} (calls : Calls step target method values)
    (done : session.callMethod target method values = .ok next) : Move session step next := by
  simp only [callMethod, bind_eq_ok_iff, mapError_eq_ok_iff] at done
  obtain ⟨arguments, converts, console?, means, done⟩ := done
  cases console? with
  | none =>
    simp only [pure_eq_ok_iff] at done
    exact done ▸ .callNowhere calls means
  | some console =>
    simp only [pure_eq_ok_iff] at done
    exact done ▸ .call calls converts means

/-- A session advances in no other way than by a `Move`. -/
theorem move_of_advance {session : Session} {step : Step} {next : Advance}
    (done : session.advance step = .ok next) : Move session step next := by
  cases step <;> simp only [advance, bind_eq_ok_iff, pure_eq_ok_iff] at done
  case newEnvironment id => exact done ▸ .newEnvironment id
  case newEnvironmentWith id name =>
    obtain ⟨console, found, rfl⟩ := done
    exact .newEnvironmentWith id found
  case newHost id capabilities => exact done ▸ .newHost id capabilities
  case newFallback id target source =>
    obtain ⟨slot, means, rfl⟩ := done
    exact .newFallback id source means
  case newSlot id => exact done ▸ .newSlot id
  case shareSlot id target =>
    obtain ⟨slot, means, rfl⟩ := done
    exact .shareSlot id means
  case newLog id limit => exact done ▸ .newLog id limit
  case shareLog id name =>
    obtain ⟨log, found, rfl⟩ := done
    exact .shareLog id found
  case newApplication id kind => exact makes_or_echoes done
  case setApplication name target =>
    obtain ⟨application, found, slot, means, rfl⟩ := done
    exact .setApplication found means
  case clearApplication target =>
    obtain ⟨slot, means, rfl⟩ := done
    exact .clearApplication means
  case install name source =>
    obtain ⟨environment, found, rfl⟩ := done
    cases there : session.world.boundConsole environment with
    | none =>
      have installed : (session.world.install environment (configOf source)).2.2 = .installed := by
        rw [World.install_of_free there]
      simp only [installed]
      exact .install source found there rfl
    | some console =>
      simp only [World.install_of_bound there]
      exact .installExisting source found there
  case raceInstall name threads =>
    obtain ⟨environment, found, rfl⟩ := done
    cases there : session.world.boundConsole environment with
    | some console =>
      simp only [World.raceInstall_of_bound there, World.count_existing]
      exact .raceExisting threads found (.inr (by simp [there]))
    | none =>
      cases threads with
      | zero => exact .raceExisting 0 found (.inl rfl)
      | succ others =>
        simp only [World.raceInstall_of_free there, World.boundConsole_install,
          World.count_installed]
        exact .raceInstall others found there rfl
  case setConsole name consoleName =>
    obtain ⟨environment, found, console, known, world, set, rfl⟩ := done
    obtain ⟨free, rfl⟩ := World.setConsole_eq_ok_iff.1 (mapError_eq_ok_iff.1 set)
    exact .setConsole found known free
  case call target name values =>
    obtain ⟨method, known, done⟩ := done
    exact calls_or_not (.named (mapError_eq_ok_iff.1 known)) done
  case invoke target method values => exact calls_or_not .direct done
  case takeCalls name =>
    obtain ⟨console, found, rfl⟩ := done
    exact .takeCalls found
  case logError name report =>
    obtain ⟨log, found, rfl⟩ := done
    exact .logError report found
  case clearLog name =>
    obtain ⟨log, found, rfl⟩ := done
    exact .clearLog found
  case describeFallback name =>
    obtain ⟨⟨slot, config⟩, found, rfl⟩ := done
    exact .look _ rfl
  case source name =>
    obtain ⟨⟨slot, config⟩, found, rfl⟩ := done
    exact .look _ rfl
  all_goals
    obtain ⟨_, _, rfl⟩ := done
    exact .look _ rfl

end ScriptConsole.Session
