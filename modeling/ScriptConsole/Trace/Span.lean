/-!
# Spans

A span is a named period that events and other spans happen in. The registry
knows every span with its parent, and the stack of spans that are entered.
-/

namespace ScriptConsole.Trace

/-- A span. Its parent, if it has one, is older. -/
structure Span where
  id : String
  name : String
  parent : Option String
deriving DecidableEq, Repr

/-- An entered span. Entering it again while it is entered makes a repeated
entry, which is never the current one. -/
structure Entry where
  id : String
  repeated : Bool
deriving DecidableEq, Repr

/-- All spans, the youngest first, and the entered ones, the last entered
first. -/
structure Registry where
  spans : List Span := []
  entered : List Entry := []
deriving DecidableEq, Repr

/-- Where a span or an event belongs. -/
inductive Parent where
  /-- In the span that is current. -/
  | current
  /-- Outside of all spans. -/
  | root
  | span (id : String)
deriving DecidableEq, Repr

/-- The names of a span and of the spans around it, from the outermost on. -/
def pathOf : List Span -> String -> List String
  | [], _ => []
  | span :: older, id =>
    if span.id = id then
      match span.parent with
      | none => [span.name]
      | some parent => pathOf older parent ++ [span.name]
    else pathOf older id

namespace Registry

/-- The span entered last of those that are still entered. -/
def current? (registry : Registry) : Option String :=
  (registry.entered.find? fun entry => !entry.repeated).map Entry.id

/-- The span that a parent means. -/
def resolve (registry : Registry) : Parent -> Option String
  | .current => registry.current?
  | .root => none
  | .span id => some id

/-- Create a span. -/
def create (registry : Registry) (id name : String) (parent : Parent) : Registry :=
  { registry with spans := ⟨id, name, registry.resolve parent⟩ :: registry.spans }

/-- Enter a span. -/
def enter (registry : Registry) (id : String) : Registry :=
  let repeated := registry.entered.any fun entry => entry.id = id
  { registry with entered := ⟨id, repeated⟩ :: registry.entered }

/-- Leave a span where it was entered last. -/
def leave (registry : Registry) (id : String) : Registry :=
  { registry with entered := registry.entered.eraseP fun entry => entry.id = id }

/-- The names of the spans around something with this parent, from the outermost
on. -/
def path (registry : Registry) (parent : Parent) : List String :=
  match registry.resolve parent with
  | none => []
  | some id => pathOf registry.spans id

end Registry

end ScriptConsole.Trace
