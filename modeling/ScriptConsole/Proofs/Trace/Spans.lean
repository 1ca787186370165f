import ScriptConsole.Trace.Span

/-!
# The spans around an event

Creating, entering and leaving spans are the only things that change what is around an
event. `Registry.Laws` says by equations what each of them changes; there is no other
knowledge of how a registry is kept in them. Spans that are created and entered one inside
the other, however many, are all around what comes next: `path_nest`.
-/

namespace ScriptConsole.Trace

theorem pathOf_eq_nil {spans : List Span} {id : String} (unknown : ∀ span ∈ spans, span.id ≠ id) :
    pathOf spans id = [] := by
  induction spans with
  | nil => rfl
  | cons span older ih =>
    rw [pathOf, if_neg (unknown span List.mem_cons_self)]
    exact ih fun other there => unknown other (List.mem_cons_of_mem _ there)

namespace Registry

variable {registry : Registry}

/-- A span was entered more often than it was left. -/
def IsEntered (registry : Registry) (id : String) : Prop :=
  ∃ entry ∈ registry.entered, entry.id = id

theorem enter_of_isEntered {id : String} (inside : registry.IsEntered id) :
    registry.enter id = { registry with entered := ⟨id, true⟩ :: registry.entered } := by
  have found : (registry.entered.any fun entry => decide (entry.id = id)) = true := by
    simpa [IsEntered] using inside
  rw [enter, found]

theorem enter_of_not_isEntered {id : String} (outside : ¬registry.IsEntered id) :
    registry.enter id = { registry with entered := ⟨id, false⟩ :: registry.entered } := by
  have missing : (registry.entered.any fun entry => decide (entry.id = id)) = false := by
    rw [Bool.eq_false_iff]
    simpa [IsEntered] using outside
  rw [enter, missing]

theorem isEntered_enter {id other : String} :
    (registry.enter id).IsEntered other ↔ id = other ∨ registry.IsEntered other := by
  simp [IsEntered, enter]

/-- Leaving a span forgets its last entry, so only this span can stop being entered. -/
theorem isEntered_leave_of_ne {id other : String} (distinct : other ≠ id) :
    (registry.leave id).IsEntered other ↔ registry.IsEntered other := by
  unfold IsEntered leave
  constructor
  · rintro ⟨entry, inside, rfl⟩
    exact ⟨entry, List.mem_of_mem_eraseP inside, rfl⟩
  · rintro ⟨entry, inside, rfl⟩
    exact ⟨entry, (List.mem_eraseP_of_neg (by simpa using distinct)).2 inside, rfl⟩

theorem leave_enter_same (id : String) : (registry.enter id).leave id = registry := by
  simp [enter, leave]

theorem leave_enter_of_ne {id other : String} (distinct : other ≠ id) :
    (registry.enter id).leave other = (registry.leave other).enter id := by
  have differs : decide (id = other) = false := decide_eq_false fun same => distinct same.symm
  have keeps : (registry.entered.any fun entry => decide (entry.id = id)) =
      ((registry.leave other).entered.any fun entry => decide (entry.id = id)) := by
    rw [Bool.eq_iff_iff]
    simpa [IsEntered] using (@isEntered_leave_of_ne registry other id distinct.symm).symm
  simp only [enter, keeps]
  simp only [leave, List.eraseP_cons, differs, cond_false]

theorem path_create_same (id name : String) (parent : Parent) :
    (registry.create id name parent).path (.span id) = registry.path parent ++ [name] := by
  show pathOf (⟨id, name, registry.resolve parent⟩ :: registry.spans) id = _
  rw [pathOf, if_pos rfl, path]
  cases registry.resolve parent <;> rfl

theorem path_create_of_ne {id other : String} (distinct : other ≠ id) (name : String)
    (parent : Parent) :
    (registry.create id name parent).path (.span other) = registry.path (.span other) := by
  simp only [path, create, resolve, pathOf, if_neg distinct.symm]

/-- The current span is one that was entered. -/
theorem isEntered_of_current? {id : String} (current : registry.current? = some id) :
    registry.IsEntered id := by
  obtain ⟨entry, found, same⟩ := Option.map_eq_some_iff.1 current
  exact ⟨entry, List.mem_of_find?_eq_some found, same⟩

theorem path_current_create {id : String} (outside : ¬registry.IsEntered id) (name : String)
    (parent : Parent) :
    (registry.create id name parent).path .current = registry.path .current := by
  have same : (registry.create id name parent).current? = registry.current? := rfl
  simp only [path, resolve, same]
  cases current : registry.current? with
  | none => rfl
  | some other =>
    have distinct : other ≠ id := fun eq => outside (eq ▸ isEntered_of_current? current)
    exact path_create_of_ne distinct name parent

/-- What is around an event, after anything that can be done to spans. -/
structure Laws (registry : Registry) : Prop where
  /-- Nothing is around an event that was put outside of all spans. -/
  root : registry.path .root = []
  /-- Nothing is around a span that was never created. -/
  unknown : ∀ id, (∀ span ∈ registry.spans, span.id ≠ id) -> registry.path (.span id) = []
  /-- Nothing is current unless it was entered. -/
  none_entered : (∀ id, ¬registry.IsEntered id) -> registry.path .current = []
  /-- A new span is inside of its parent, with what is around it. -/
  created : ∀ id name parent,
    (registry.create id name parent).path (.span id) = registry.path parent ++ [name]
  /-- A new span is around nothing that is there. -/
  kept : ∀ id name parent other, other ≠ id ->
    (registry.create id name parent).path (.span other) = registry.path (.span other)
  /-- So what is current stays as it is until the new span is entered. -/
  kept_current : ∀ id name parent, ¬registry.IsEntered id ->
    (registry.create id name parent).path .current = registry.path .current
  /-- A span that is entered is current, -/
  entered : ∀ id, ¬registry.IsEntered id ->
    (registry.enter id).path .current = registry.path (.span id)
  /-- but not if it was entered before: then the current span stays current. -/
  entered_again : ∀ id, registry.IsEntered id ->
    (registry.enter id).path .current = registry.path .current
  /-- Entering and leaving does not change what a span is inside of. -/
  fixed : ∀ id other, (registry.enter id).path (.span other) = registry.path (.span other) ∧
    (registry.leave id).path (.span other) = registry.path (.span other)
  /-- Leaving takes back the last entry, -/
  left : ∀ id, (registry.enter id).leave id = registry
  /-- wherever it is: spans may be left in another order than that of entering. -/
  left_below : ∀ id other, other ≠ id ->
    (registry.enter id).leave other = (registry.leave other).enter id

theorem laws (registry : Registry) : Laws registry where
  root := rfl
  unknown := fun _ => pathOf_eq_nil
  none_entered := by
    intro outside
    have none : registry.entered = [] :=
      List.eq_nil_iff_forall_not_mem.2 fun entry inside => outside _ ⟨entry, inside, rfl⟩
    simp only [path, resolve, current?, none]
    rfl
  created := path_create_same
  kept := fun _ _ _ _ distinct => path_create_of_ne distinct _ _
  kept_current := fun _ _ _ outside => path_current_create outside _ _
  entered := by
    intro id outside
    rw [enter_of_not_isEntered outside]
    rfl
  entered_again := by
    intro id inside
    rw [enter_of_isEntered inside]
    rfl
  fixed := fun _ _ => ⟨rfl, rfl⟩
  left := leave_enter_same
  left_below := fun _ _ => leave_enter_of_ne

/-- Create spans one inside the other, the outermost first, and enter each. -/
def nest (registry : Registry) : List (String × String) -> Registry
  | [] => registry
  | (id, name) :: inner => ((registry.create id name .current).enter id).nest inner

/-- However many spans are entered one inside the other, all of them are around what
comes next, and outside of them is what was around before. -/
theorem path_nest {spans : List (String × String)} (distinct : (spans.map Prod.fst).Nodup)
    (outside : ∀ span ∈ spans, ¬registry.IsEntered span.1) :
    (registry.nest spans).path .current = registry.path .current ++ spans.map Prod.snd := by
  induction spans generalizing registry with
  | nil => exact (List.append_nil _).symm
  | cons span inner ih =>
    obtain ⟨id, name⟩ := span
    obtain ⟨fresh, distinct⟩ := List.nodup_cons.1 distinct
    have first := outside (id, name) List.mem_cons_self
    have around : ((registry.create id name .current).enter id).path .current =
        registry.path .current ++ [name] := by
      rw [(laws (registry.create id name .current)).entered id first, path_create_same]
    rw [nest, ih distinct, around, List.append_assoc]
    · rfl
    · intro span there inside
      obtain rfl | before := isEntered_enter.1 inside
      · exact fresh (List.mem_map.2 ⟨span, there, rfl⟩)
      · exact outside span (List.mem_cons_of_mem _ there) before

end Registry

end ScriptConsole.Trace
