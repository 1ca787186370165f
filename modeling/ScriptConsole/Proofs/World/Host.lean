import ScriptConsole.Proofs.World.Link
import ScriptConsole.Proofs.World.Reception

/-!
# Calls of a console of the host

A console of the host writes down every call that is made on it, and nothing else comes of
the call. A console that is not called stays as it is, whatever its kind.
-/

namespace ScriptConsole

/-- A call as a console with these capabilities writes it down: under its own method if the
console has that, and under `log` otherwise. -/
def Capabilities.written {α : Type} (capabilities : Capabilities) (call : Method × α) :
    Method × α :=
  if capabilities.has call.1 then call else (.log, call.2)

theorem Capabilities.call_operations (capabilities : Capabilities) (method : Method)
    (arguments : List Argument) :
    capabilities.operations.call method arguments = capabilities.written (method, arguments) := by
  cases has : capabilities.has method with
  | true => rw [call_operations_of_has has, written, if_pos has]
  | false => rw [call_operations_of_not_has has, written, if_neg (by simp [has])]

/-- A call with its message in place of its arguments. -/
def messageOf (call : Method × List Argument) : Method × String :=
  (call.1, Argument.join call.2)

theorem messageOf_written (capabilities : Capabilities) (call : Method × List Argument) :
    messageOf (capabilities.written call) = capabilities.written (messageOf call) := by
  rw [Capabilities.written, apply_ite messageOf]
  rfl

namespace Link

variable {link : Link} {console : ConsoleRef} {capabilities : Capabilities}
  {calls : List (Method × List Argument)}

/-- A call leaves every console but its own as it is. -/
theorem consoles_after_of_ne (distinct : console ≠ link.console) :
    link.after.consoles.row console = link.world.consoles.row console := by
  cases delivers : link.delivery with
  | some delivery => rw [after, reception_of_delivery delivers, World.consoles_receive]
  | none =>
    cases found : link.world.consoles.row link.console with
    | host capabilities calls =>
      rw [after, reception_of_host found, Table.row_put_of_ne _ distinct]
    | fallback slot config => rw [after, reception_of_silence found delivers]

/-- What a console of the host does with a call: it writes it down, and that is all. -/
structure WritesDown (link : Link) (capabilities : Capabilities)
    (calls : List (Method × List Argument)) : Prop where
  after : link.after =
    { link.world with
      consoles := link.world.consoles.put link.console
        (.host capabilities (calls ++ [capabilities.written (link.method, link.arguments)])) }
  /-- Nothing is reported to any error log, and no other console is called. -/
  delivery : link.delivery = none
  next : link.next = none
  occurrences : link.occurrences = [.called link.console link.method link.text]

theorem writesDown (found : link.world.consoles.row link.console = .host capabilities calls) :
    link.WritesDown capabilities calls :=
  have silent := delivery_of_host found
  { after := by rw [after, reception_of_host found, capabilities.call_operations]
    delivery := silent
    next := next_of_silence silent
    occurrences := occurrences_of_silence silent }

end Link

/-- Calling a console of the host writes the call down, and nothing else happens. -/
theorem World.call_of_host {world : World} {console : ConsoleRef} {capabilities : Capabilities}
    {calls : List (Method × List Argument)}
    (found : world.consoles.row console = .host capabilities calls) (method : Method)
    (arguments : List Argument) :
    world.call console method arguments =
      ({ world with
          consoles := world.consoles.put console (.host capabilities
            (calls ++ [capabilities.written (method, arguments)])) },
        [.called console method (Argument.join arguments)]) := by
  unfold call
  simp only [arrive, found, capabilities.call_operations]

end ScriptConsole
