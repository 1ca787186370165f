import ScriptConsole.Proofs.World.Host
import ScriptConsole.Proofs.World.Reentrancy

/-!
# What a call traces

Only a report to an error log that traces is traced, and such a log calls no console. So
of all the calls that a call leads to only the last one is traced, if any is.
-/

namespace ScriptConsole

theorem traced_append (first second : List Occurrence) :
    traced (first ++ second) = traced first ++ traced second :=
  List.filterMap_append

/-- Nothing that a model does by itself is traced. -/
theorem World.traced_receive (world : World) (model : LogModel) (report : Report) :
    traced (world.receive model report).occurrences = [] := by
  cases model with
  | memory log => rfl
  | tracing => rfl
  | rebinding log slot next => cases next <;> rfl
  | echoing log console echo =>
    simp only [receive]
    split <;> rfl

namespace Link

/-- The event that a call is traced by. -/
def event? (link : Link) : Option Trace.Event :=
  link.delivery.bind fun (model, report) => (Occurrence.delivered model report).traced?

theorem traced_occurrences (link : Link) : traced link.occurrences = link.event?.toList := by
  cases delivers : link.delivery with
  | none =>
    rw [occurrences_of_silence delivers, event?, delivers]
    rfl
  | some delivery =>
    obtain ⟨model, report⟩ := delivery
    have nothing := link.world.traced_receive model report
    rw [traced] at nothing
    rw [occurrences_of_delivery delivers, event?, delivers, traced, List.filterMap_cons,
      List.filterMap_cons, nothing]
    cases model <;> rfl

theorem traced_flatMap_occurrences (links : List Link) :
    traced (links.flatMap occurrences) = links.filterMap event? := by
  induction links with
  | nil => rfl
  | cons link links ih =>
    rw [List.flatMap_cons, traced_append, ih, traced_occurrences, List.filterMap_cons]
    cases link.event? <;> rfl

/-- A call that is traced reports to an error log that traces. -/
theorem delivery_of_event {link : Link} {event : Trace.Event} (told : link.event? = some event) :
    ∃ report, link.delivery = some (.tracing, report) ∧ event = report.event := by
  obtain ⟨⟨model, report⟩, delivers, shown⟩ := Option.bind_eq_some_iff.1 told
  cases model with
  | tracing => exact ⟨report, delivers, (Option.some.inj shown).symm⟩
  | _ => cases shown

/-- A call that leads to another one is not traced itself. -/
theorem event_of_next {link following : Link} (goes : link.next = some following) :
    link.event? = none := by
  obtain ⟨log, console, echo, report, delivers, -, -⟩ := next_eq_some_iff.1 goes
  rw [event?, delivers]
  rfl

end Link

/-- The console reports to an error log that traces, whatever it is called with. -/
def World.Repeats (world : World) (console : ConsoleRef) : Prop :=
  ∃ slot config, world.consoles.row console = .fallback slot config ∧
    world.logModel slot = some .tracing

theorem Link.repeats_of_event {link : Link} {event : Trace.Event}
    (told : link.event? = some event) : link.world.Repeats link.console := by
  obtain ⟨report, delivers, -⟩ := delivery_of_event told
  cases found : link.world.consoles.row link.console with
  | host capabilities calls =>
    rw [delivery_of_host found] at delivers
    cases delivers
  | fallback slot config =>
    rw [delivery_of_fallback found] at delivers
    obtain ⟨model, resolved, same⟩ := Option.map_eq_some_iff.1 delivers
    cases same
    exact ⟨slot, config, found, resolved⟩

namespace Chain

variable {link : Link} {links : List Link} {final : World}

/-- Of a chain only the last call can be traced. -/
theorem traced_eq (chain : Chain link links final) :
    traced (links.flatMap Link.occurrences) = (links.getLast?.bind Link.event?).toList := by
  rw [Link.traced_flatMap_occurrences]
  induction chain with
  | @last link ends => cases told : link.event? <;> simp [told]
  | @further link following links final goes rest ih =>
    cases links with
    | nil => cases rest
    | cons first others =>
      rw [List.filterMap_cons, Link.event_of_next goes, List.getLast?_cons_cons]
      exact ih

/-- If a chain is traced although nothing is spent, it has one call only, whose console
reports to an error log that traces. -/
theorem repeats_of_traced (chain : Chain link links final) {event : Trace.Event}
    (told : event ∈ traced (links.flatMap Link.occurrences))
    (unspent : ¬final.budget < link.world.budget) : link.world.Repeats link.console := by
  cases chain with
  | last ends =>
    rw [List.flatMap_singleton, Link.traced_occurrences, Option.mem_toList] at told
    exact Link.repeats_of_event told
  | @further _ following links _ goes rest =>
    have paid := link.budget_after
    have length := rest.length_add_budget
    have counted := List.length_pos_of_mem (List.mem_of_getElem? rest.head)
    obtain ⟨_, _, _, _, _, _, rfl⟩ := Link.next_eq_some_iff.1 goes
    simp only [goes, Option.isSome_some, if_true] at paid
    simp only at length
    omega

end Chain

namespace World

/-- A call traces one event at most. -/
theorem length_traced_call_le (world : World) (console : ConsoleRef) (method : Method)
    (arguments : List Argument) :
    (traced (world.call console method arguments).2).length ≤ 1 := by
  obtain ⟨links, chain, happened⟩ := world.call_follows_chain console method arguments
  rw [happened, chain.traced_eq]
  exact Option.length_toList_le

/-- Every call of such a console is traced by one event, and changes nothing. -/
theorem Repeats.call {world : World} {console : ConsoleRef} (repeats : world.Repeats console)
    (method : Method) (arguments : List Argument) :
    (world.call console method arguments).1 = world ∧
      ∃ event, traced (world.call console method arguments).2 = [event] := by
  obtain ⟨slot, config, found, resolved⟩ := repeats
  unfold World.call
  simp only [arrive, found, resolved, call_reporting]
  exact ⟨rfl, Report.event ⟨Argument.join arguments, config.source⟩, rfl⟩

theorem repeats_of_traced_call {world : World} {console : ConsoleRef} {method : Method}
    {arguments : List Argument} {event : Trace.Event}
    (told : event ∈ traced (world.call console method arguments).2)
    (unspent : ¬(world.call console method arguments).1.budget < world.budget) :
    world.Repeats console := by
  obtain ⟨links, chain, happened⟩ := world.call_follows_chain console method arguments
  rw [happened] at told
  exact chain.repeats_of_traced told unspent

end World

end ScriptConsole
