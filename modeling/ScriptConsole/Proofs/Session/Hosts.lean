import ScriptConsole.Proofs.Session.Refinement
import ScriptConsole.Proofs.World.Host

/-!
# Calls of host consoles

A console of the host writes down every call that reaches it, under the called method, or
under `log` if it does not have the method, and it does nothing else. Whoever asks for its
calls is given those since the last time. So over every run, what was given and what is
still written down is what has reached the console, in order and each call once.
-/

namespace ScriptConsole

open Session (Entry Step Calls)

namespace Chronicle

/-- The call of a console that an entry puts down. -/
def callOf? (console : ConsoleRef) : Entry -> Option (Method × String)
  | .happened (.called other method text) => if other = console then some (method, text) else none
  | _ => none

/-- The calls that reach a console, in order. -/
def callsTo (console : ConsoleRef) (entries : List Entry) : List (Method × String) :=
  entries.filterMap (callOf? console)

theorem callsTo_append (console : ConsoleRef) (first second : List Entry) :
    callsTo console (first ++ second) = callsTo console first ++ callsTo console second :=
  List.filterMap_append

theorem callsTo_race (console : ConsoleRef) (environment : EnvironmentRef)
    (outcomes : List Installation) :
    callsTo console
      ((outcomes.map (Occurrence.offeredElsewhere environment)).map Entry.happened) = [] := by
  induction outcomes with
  | nil => rfl
  | cons outcome outcomes ih => exact ih

end Chronicle

open Chronicle

namespace Link

variable {link : Link} {console : ConsoleRef} {capabilities : Capabilities}
  {calls : List (Method × List Argument)}

/-- Of a call one call is put down, and it is the call itself. -/
theorem callsTo_entries (link : Link) (console : ConsoleRef) :
    callsTo console link.entries =
      if link.console = console then [(link.method, link.text)] else [] := by
  have itself : (callOf? console (.happened (.called link.console link.method link.text))).toList =
      if link.console = console then [(link.method, link.text)] else [] := by
    simp only [callOf?]
    split <;> rfl
  rw [← itself]
  cases delivers : link.delivery with
  | none =>
    rw [entries_of_silence delivers]
    cases found : callOf? console (.happened (.called link.console link.method link.text)) <;>
      simp [callsTo, found]
  | some delivery =>
    obtain ⟨model, report⟩ := delivery
    have nothing : callsTo console
        ((link.world.receive model report).occurrences.map Entry.happened) = [] := by
      rw [callsTo, List.filterMap_eq_nil_iff]
      intro entry put
      obtain ⟨occurrence, happens, rfl⟩ := List.mem_map.1 put
      have quiet := (link.world.occurrences_receive model report happens).1
      cases occurrence <;> first | rfl | cases quiet
    rw [entries_of_delivery delivers]
    simp only [callsTo, List.filterMap_cons] at nothing ⊢
    rw [nothing]
    cases callOf? console (.happened (.called link.console link.method link.text)) <;> rfl

/-- After a call a console of the host has what it had before and the call, if it was
called. -/
theorem host_after (found : link.world.consoles.row console = .host capabilities calls) :
    link.after.consoles.row console =
      .host capabilities (calls ++ if link.console = console then
        [capabilities.written (link.method, link.arguments)] else []) := by
  by_cases same : link.console = console
  · subst same
    rw [(writesDown found).after, if_pos rfl]
    exact Table.row_put_same _ _ _
  · have distinct : console ≠ link.console := fun eq => same eq.symm
    rw [consoles_after_of_ne distinct, found, if_neg same, List.append_nil]

end Link

theorem callsTo_flatMap_entries (console : ConsoleRef) (links : List Link) :
    callsTo console (links.flatMap Link.entries) =
      (links.filter fun link => link.console = console).map fun link =>
        (link.method, link.text) := by
  induction links with
  | nil => rfl
  | cons link links ih =>
    rw [List.flatMap_cons, callsTo_append, Link.callsTo_entries, ih]
    by_cases same : link.console = console <;> simp [same]

theorem Chain.host_final {link : Link} {links : List Link} {final : World}
    (chain : Chain link links final) {console : ConsoleRef} {capabilities : Capabilities}
    {calls : List (Method × List Argument)}
    (found : link.world.consoles.row console = .host capabilities calls) :
    final.consoles.row console = .host capabilities
      (calls ++ (links.filter fun link => link.console = console).map fun link =>
        capabilities.written (link.method, link.arguments)) := by
  induction chain generalizing calls with
  | @last link ends =>
    rw [Link.host_after found]
    by_cases same : link.console = console <;> simp [same]
  | @further link following links final goes rest ih =>
    have found := Link.host_after found
    rw [← Link.world_of_next goes] at found
    rw [ih found]
    by_cases same : link.console = console <;> simp [same]

/-- What a chain leaves of a console of the host has the messages of the calls that are put
down. -/
theorem map_messageOf_chain (console : ConsoleRef) (capabilities : Capabilities)
    (links : List Link) :
    ((links.filter fun link => link.console = console).map fun link =>
        capabilities.written (link.method, link.arguments)).map messageOf =
      (callsTo console (links.flatMap Link.entries)).map capabilities.written := by
  rw [callsTo_flatMap_entries, List.map_map, List.map_map]
  exact List.map_congr_left fun link _ => messageOf_written capabilities _

namespace Session

variable {session : Session} {console : ConsoleRef} {capabilities : Capabilities}
  {pending : List (Method × List Argument)}

/-- What a step answers about the calls of a console. -/
def answered (session : Session) (console : ConsoleRef) (step : Step) : List (Method × String) :=
  match step, (session.step step).2.reply with
  | .takeCalls name, .ok (.calls calls) =>
    match session.consoles.find name with
    | .ok found => if found = console then calls else []
    | .error _ => []
  | _, _ => []

/-- What the steps of a run answer about the calls of a console, one after the other. -/
def answers (session : Session) (console : ConsoleRef) : List Step -> List (Method × String)
  | [] => []
  | step :: steps => session.answered console step ++ (session.step step).1.answers console steps

/-- A console of the host still has what it had and what has reached it, except for what
was given. -/
def Drains (capabilities : Capabilities) (pending : List (Method × List Argument))
    (reached given : List (Method × String)) (console : Console) : Prop :=
  ∃ still, console = .host capabilities still ∧
    pending.map messageOf ++ reached.map capabilities.written = given ++ still.map messageOf

/-- A step that neither calls nor asks leaves a console with what it had. -/
theorem drains_idle {console : Console} {reached given : List (Method × String)}
    (same : console = .host capabilities pending) (quiet : reached = []) (silent : given = []) :
    Drains capabilities pending reached given console :=
  ⟨pending, same, by rw [quiet, silent, List.map_nil, List.append_nil, List.nil_append]⟩

theorem answered_of_error {step : Step} {failure : Failure}
    (fails : session.step step = (session, ⟨.error failure, []⟩)) :
    session.answered console step = [] := by
  unfold answered
  rw [fails]
  cases step <;> rfl

theorem callsTo_deeds (session : Session) (console : ConsoleRef) (step : Step) :
    callsTo console (session.deeds step) = [] := by
  unfold deeds
  split
  · split <;> rfl
  · split <;> rfl
  · rfl

/-- In a step, what a console has and what reaches it is what is answered about it and
what it still has. -/
theorem step_drains (there : session.world.consoles.Has console)
    (found : session.world.consoles.row console = .host capabilities pending) (step : Step) :
    Drains capabilities pending (callsTo console (session.entries step))
      (session.answered console step) ((session.step step).1.world.consoles.row console) := by
  have other : ∀ new, (session.world.consoles.put session.world.consoles.fresh new).row console =
      .host capabilities pending := by
    intro new
    rw [Table.row_put_of_ne _ there.ne_fresh, found]
  rw [entries, callsTo_append, callsTo_deeds, List.nil_append]
  obtain ⟨next, move, done⟩ | ⟨failure, done⟩ := session.step_cases step
  · unfold answered
    rw [done]
    cases move with
    | newHost => exact drains_idle (other _) rfl rfl
    | newFallback => exact drains_idle (other _) rfl rfl
    | install source known free =>
      rw [World.install_of_free free]
      exact drains_idle (other _) rfl rfl
    | raceInstall others known free =>
      rw [World.install_of_free free]
      exact drains_idle (other _) (callsTo_race _ _ _) rfl
    | raceExisting => exact drains_idle found (callsTo_race _ _ _) rfl
    | @call step target method values arguments called calls converts means =>
      obtain ⟨links, chain, happened⟩ := session.world.call_follows_chain called method arguments
      have reached : (session.world.call called method arguments).2.map Entry.happened =
          links.flatMap Link.entries := by
        rw [happened, List.map_flatMap]
        rfl
      rw [reached]
      refine ⟨_, chain.host_final found, ?_⟩
      rw [List.map_append, map_messageOf_chain]
      cases calls <;> rfl
    | callNowhere calls =>
      cases calls <;> exact drains_idle found rfl rfl
    | look reply looks =>
      cases step <;> first | exact drains_idle found rfl rfl | cases looks
    | @takeCalls name asked known =>
      simp only [known]
      by_cases same : asked = console
      · subst same
        simp only [World.takeCalls, found, withWorld, Table.row_put_same, if_pos]
        exact ⟨[], rfl, rfl⟩
      · have distinct : console ≠ asked := fun eq => same eq.symm
        refine drains_idle ?_ rfl (if_neg same)
        simp only [World.takeCalls, withWorld]
        split
        · rw [Table.row_put_of_ne _ distinct, found]
        · exact found
    | _ => exact drains_idle found rfl rfl
  · rw [answered_of_error done, done]
    exact drains_idle found rfl rfl

/-- So in a run. -/
theorem run_drains (there : session.world.consoles.Has console)
    (found : session.world.consoles.row console = .host capabilities pending) (steps : List Step) :
    Drains capabilities pending (callsTo console (session.chronicle steps))
      (session.answers console steps) ((session.run steps).1.world.consoles.row console) := by
  induction steps generalizing session pending with
  | nil => exact drains_idle found rfl rfl
  | cons step steps ih =>
    obtain ⟨between, kept, first⟩ := step_drains there found step
    obtain ⟨still, keeps, rest⟩ := ih ((session.step_grows step).consoles console there).1 kept
    refine ⟨still, keeps, ?_⟩
    rw [chronicle, callsTo_append, List.map_append, ← List.append_assoc, first, List.append_assoc,
      rest, answers, List.append_assoc]

/-- What is done with a console of the host, at this moment. -/
structure HostOperations (session : Session) (console : ConsoleRef) (capabilities : Capabilities)
    (pending : List (Method × List Argument)) : Prop where
  /-- A call is written down with its arguments, by its name or direct and through whichever
  target, and nothing else changes or happens. -/
  call : ∀ step target method values arguments, Calls step target method values ->
    HostValue.toArguments values = .ok arguments ->
    session.consoleOf target = .ok (some console) ->
    session.step step =
      (session.withWorld { session.world with
          consoles := session.world.consoles.put console (.host capabilities
            (pending ++ [capabilities.written (method, arguments)])) },
        ⟨.ok .nothing, [.called console method (Argument.join arguments)]⟩)
  /-- An environment that it is bound in leads to it, and installs nothing. -/
  environment : ∀ name environment, session.Knows name environment ->
    session.world.boundConsole environment = some console ->
    session.consoleOf (.environment name) = .ok (some console) ∧
      ∀ source, session.step (.install name source) =
        (session, ⟨.ok (.installation .existing), [.offered environment .existing]⟩)
  /-- Whoever asks is given the messages of what is written down, and it is forgotten. -/
  takeCalls : ∀ name, session.consoles.find name = .ok console ->
    session.step (.takeCalls name) =
      (session.withWorld { session.world with
          consoles := session.world.consoles.put console (.host capabilities []) },
        ⟨.ok (.calls (pending.map messageOf)), []⟩)

theorem hostOperations (found : session.world.consoles.row console = .host capabilities pending) :
    HostOperations session console capabilities pending where
  call := by
    intro step target method values arguments calls converts means
    rw [step_of_calls calls converts means, World.call_of_host found]
  environment := by
    intro name environment known bound
    constructor
    · simp only [consoleOf, show session.environments.find name = .ok environment from known,
        bind_ok, pure_eq_ok, bound]
    · intro source
      simp only [Session.step, advance, show session.environments.find name = .ok environment
        from known, bind_ok, pure_eq_ok, World.install_of_bound bound]
      rfl
  takeCalls := by
    intro name known
    simp only [Session.step, advance, known, bind_ok, pure_eq_ok, World.takeCalls, found]
    rfl

/-- A console of the host is made with nothing written down, and nothing reached it
before. -/
def MakesHost (session : Session) (id : String) (capabilities : Capabilities) : Prop :=
  let after := (session.step (.newHost id capabilities)).1
  ∃ console, ¬session.world.consoles.Has console ∧ after.world.consoles.Has console ∧
    after.consoles.find id = .ok console ∧ after.world.consoles.row console = .host capabilities []

theorem makesHost (session : Session) (id : String) (capabilities : Capabilities) :
    MakesHost session id capabilities := by
  refine ⟨session.world.consoles.fresh, Table.not_has_fresh _, ?_, ?_, ?_⟩
  · exact Table.has_put_same _ _ _
  · exact Names.find_add_same _ _ _
  · exact Table.row_put_same _ _ _

/-- The calls that a step leads to are these. Each is a call of its own console only, and
a console of the host writes it down. -/
structure Leads (session : Session) (step : Step) (links : List Link) : Prop where
  entries : session.entries step = links.flatMap Link.entries
  callsTo : ∀ console, Chronicle.callsTo console (session.entries step) =
    (links.filter fun link => link.console = console).map fun link => (link.method, link.text)
  host : ∀ link ∈ links, ∀ capabilities calls,
    link.world.consoles.row link.console = .host capabilities calls ->
    link.WritesDown capabilities calls

theorem leads_of_entries {step : Step} {links : List Link}
    (puts : session.entries step = links.flatMap Link.entries) : session.Leads step links where
  entries := puts
  callsTo := by
    intro console
    rw [puts]
    exact callsTo_flatMap_entries console links
  host := fun link _ capabilities calls found => Link.writesDown found

/-- A console of the host writes down every call that reaches it, once and under the right
method. From any moment on, whatever is done, among it calls by other calls and any number
of installations: what it had and what has reached it since, in order, is what was given to
those who asked and what it still has. A call is written down under its own method if the
console has it, and under `log` otherwise, whether it is made by name or direct; nothing of
it is reported to an application or a log. An environment that the console is bound in
leads to it ever after. -/
theorem host_consoles_write_calls_down (session : Session) :
    (∀ id capabilities, MakesHost session id capabilities) ∧
    (∀ target method values, session.step (.call target method.name values) =
      session.step (.invoke target method values)) ∧
    (∀ step target method values arguments console, Calls step target method values ->
      HostValue.toArguments values = .ok arguments ->
      session.consoleOf target = .ok (some console) ->
      ∃ links, Chain ⟨session.world, console, method, arguments⟩ links
        (session.step step).1.world ∧ session.Leads step links) ∧
    ∀ console capabilities pending, session.world.consoles.Has console ->
      session.world.consoles.row console = .host capabilities pending -> ∀ steps,
        let later := (session.run steps).1
        (∃ still, later.world.consoles.row console = .host capabilities still ∧
          pending.map messageOf ++
              (callsTo console (session.chronicle steps)).map capabilities.written =
            session.answers console steps ++ still.map messageOf ∧
          HostOperations later console capabilities still) ∧
        ∀ environment, session.world.boundConsole environment = some console ->
          later.world.boundConsole environment = some console := by
  refine ⟨session.makesHost, fun target method values => ?_, ?_, ?_⟩
  · simp only [Session.step, advance, Method.ofName_name, mapError_ok, bind_ok]
  · intro step target method values arguments console calls converts means
    obtain ⟨links, chain, puts⟩ := session.tells.call step target method values arguments console
      calls converts means
    exact ⟨links, chain, leads_of_entries puts⟩
  · intro console capabilities pending there found steps
    obtain ⟨still, kept, balance⟩ := run_drains there found steps
    exact ⟨⟨still, kept, balance, hostOperations kept⟩,
      fun environment bound => (session.run_grows steps).bound bound⟩

/-- A console with `log` and `warn` is bound in an environment, and an application of that
environment is bound as well. It is called through the environment by name, from an echoing
model, and directly; an installation comes too late, and in between its calls are asked
for. -/
theorem host_consoles_write_calls_down_echoing :
    let session := (({} : Session).run [.newHost "host" .withWarn, .newEnvironment "page",
      .setConsole "page" "host", .newLog "log" none, .newSlot "slot",
      .newFallback "other" (.slot "slot") none,
      .newApplication "first" (.echoing "log" (.environment "page") 1),
      .setApplication "first" (.slot "slot"), .setApplication "first" (.environment "page")]).1
    let steps : List Step := [.install "page" (some "worker"),
      .call (.environment "page") "warn" [.text "a", .null], .takeCalls "host",
      .invoke (.console "other") .warn [.text "b"], .invoke (.console "host") .debug []]
    let later := (session.run steps).1
    session.world.consoles.Has ⟨0⟩ ∧ session.world.consoles.row ⟨0⟩ = .host .withWarn [] ∧
      session.answers ⟨0⟩ steps = [(.warn, "a null")] ∧
      (∃ still, later.world.consoles.row ⟨0⟩ = .host .withWarn still ∧
        (callsTo ⟨0⟩ (session.chronicle steps)).map Capabilities.withWarn.written =
          (.warn, "a null") :: still.map messageOf ∧
        HostOperations later ⟨0⟩ .withWarn still) ∧
      later.world.consoles.row ⟨0⟩ =
        .host .withWarn [(.log, [.string "echo", .string "b"]), (.log, [])] ∧
      later.world.boundConsole ⟨0⟩ = some ⟨0⟩ ∧
      (later.world.logs.row ⟨0⟩).entries.map Report.message = ["b"] := by
  intro session steps later
  have there : session.world.consoles.Has ⟨0⟩ := by decide +kernel
  have found : session.world.consoles.row ⟨0⟩ = .host .withWarn [] := rfl
  have answered : session.answers ⟨0⟩ steps = [(.warn, "a null")] := by decide +kernel
  obtain ⟨⟨still, kept, balance, operations⟩, stays⟩ :=
    (host_consoles_write_calls_down session).2.2.2 ⟨0⟩ .withWarn [] there found steps
  rw [answered] at balance
  refine ⟨there, found, answered, ⟨still, kept, balance, operations⟩, by with_unfolding_all rfl,
    stays ⟨0⟩ (by decide +kernel), by decide +kernel⟩

end Session
end ScriptConsole
