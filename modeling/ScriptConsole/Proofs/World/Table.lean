import ScriptConsole.World.Table

/-!
# Objects that are there

A table has a reference once an object was put there. Tables only grow, and some part
of an object never changes: `Keeps` says so for the part that a view shows. Fresh
references are those that the table does not have yet, so a new object is never
mistaken for an older one.
-/

namespace ScriptConsole.Table

variable {kind : Resource} {α β : Type} [Inhabited α]

/-- The table was told of the reference. -/
def Has (table : Table kind α) (ref : Ref kind) : Prop :=
  ref.number < table.rows.length

instance (table : Table kind α) (ref : Ref kind) : Decidable (table.Has ref) :=
  inferInstanceAs (Decidable (_ < _))

theorem length_putAt (rows : List α) (place : Nat) (new : α) :
    (putAt rows place new).length = max rows.length (place + 1) := by
  fun_induction putAt rows place new with
  | case1 new => rfl
  | case2 place new ih =>
    simp only [List.length_cons, List.length_nil] at ih ⊢
    omega
  | case3 row rows new =>
    simp only [List.length_cons]
    omega
  | case4 row rows place new ih =>
    simp only [List.length_cons] at ih ⊢
    omega

theorem rowAt_of_length_le {rows : List α} {place : Nat} (beyond : rows.length ≤ place) :
    rowAt rows place = default := by
  fun_induction rowAt rows place <;> simp_all

omit [Inhabited α] in
theorem ref_eq_of_number_eq {ref other : Ref kind} (same : ref.number = other.number) :
    ref = other := by
  cases ref
  cases other
  exact congrArg Ref.mk same

theorem row_put (table : Table kind α) (ref other : Ref kind) (new : α) :
    (table.put ref new).row other = if other = ref then new else table.row other := by
  split
  · next same => rw [same, row_put_same]
  · next distinct => exact row_put_of_ne table distinct new

/-- What was never put reads as the default. -/
theorem row_of_not_has {table : Table kind α} {ref : Ref kind} (missing : ¬table.Has ref) :
    table.row ref = default :=
  rowAt_of_length_le (Nat.le_of_not_lt missing)

theorem has_of_row_ne {table : Table kind α} {ref : Ref kind} (told : table.row ref ≠ default) :
    table.Has ref :=
  Classical.byContradiction fun missing => told (row_of_not_has missing)

theorem Has.put {table : Table kind α} {ref other : Ref kind} {new : α} (there : table.Has other) :
    (table.put ref new).Has other := by
  simp only [Has, Table.put, length_putAt] at there ⊢
  omega

theorem has_put_same (table : Table kind α) (ref : Ref kind) (new : α) :
    (table.put ref new).Has ref := by
  simp only [Has, put, length_putAt]
  omega

/-- Putting to a reference that is there adds none. -/
theorem has_put_of_has {table : Table kind α} {ref other : Ref kind} {new : α}
    (there : table.Has ref) : (table.put ref new).Has other ↔ table.Has other := by
  simp only [Has, put, length_putAt] at there ⊢
  omega

/-- A new object is all that a table gains. -/
theorem has_put_fresh {table : Table kind α} {other : Ref kind} {new : α} :
    (table.put table.fresh new).Has other ↔ table.Has other ∨ other = table.fresh := by
  constructor
  · intro there
    by_cases old : table.Has other
    · exact .inl old
    · refine .inr (ref_eq_of_number_eq ?_)
      simp only [Has, put, length_putAt, fresh] at there old ⊢
      omega
  · rintro (there | rfl)
    · exact there.put
    · exact has_put_same table table.fresh new

omit [Inhabited α] in
theorem not_has_fresh (table : Table kind α) : ¬table.Has table.fresh :=
  Nat.lt_irrefl _

omit [Inhabited α] in
theorem Has.ne_fresh {table : Table kind α} {ref : Ref kind} (there : table.Has ref) :
    ref ≠ table.fresh := by
  rintro rfl
  exact not_has_fresh table there

/-- All objects of the table before are there after, each with the same view. -/
def Keeps (view : α -> β) (before after : Table kind α) : Prop :=
  ∀ ref, before.Has ref -> after.Has ref ∧ view (after.row ref) = view (before.row ref)

namespace Keeps

variable {view : α -> β} {before middle after : Table kind α}

theorem refl (table : Table kind α) : Keeps view table table :=
  fun _ there => ⟨there, rfl⟩

theorem trans (first : Keeps view before middle) (second : Keeps view middle after) :
    Keeps view before after := by
  intro ref there
  obtain ⟨between, same⟩ := first ref there
  obtain ⟨later, again⟩ := second ref between
  exact ⟨later, again.trans same⟩

theorem put {table : Table kind α} {ref : Ref kind} {new : α}
    (same : view new = view (table.row ref)) : Keeps view table (table.put ref new) := by
  intro other there
  refine ⟨there.put, ?_⟩
  rw [row_put]
  split
  · next isRef => rw [same, isRef]
  · rfl

theorem put_fresh (table : Table kind α) (new : α) :
    Keeps view table (table.put table.fresh new) := by
  intro other there
  exact ⟨there.put, by rw [row_put_of_ne table there.ne_fresh]⟩

end Keeps

end ScriptConsole.Table
