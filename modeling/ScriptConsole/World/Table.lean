/-!
# References and tables

The objects of a world refer to each other by number, each kind of object with
references of its own. A table gives every reference a row: it is total, with the
default row for references that it has never been told of, so reading after
writing needs no side condition.
-/

namespace ScriptConsole

/-- The kinds of objects that are referred to. -/
inductive Resource where
  | slot
  | log
  | echo
  | application
  | console
  | environment
deriving DecidableEq, Repr

/-- A reference to an object of one kind. -/
structure Ref (kind : Resource) where
  number : Nat
deriving DecidableEq, Repr

/-- The row of every reference of one kind. -/
structure Table (kind : Resource) (α : Type) where
  rows : List α := []
deriving Repr

namespace Table

variable {kind : Resource} {α : Type} [Inhabited α]

/-- The row at a place of a list that goes on with default rows. -/
def rowAt : List α -> Nat -> α
  | [], _ => default
  | row :: _, 0 => row
  | _ :: rows, place + 1 => rowAt rows place

/-- The list with another row at a place. -/
def putAt : List α -> Nat -> α -> List α
  | [], 0, new => [new]
  | [], place + 1, new => default :: putAt [] place new
  | _ :: rows, 0, new => new :: rows
  | row :: rows, place + 1, new => row :: putAt rows place new

theorem rowAt_putAt (rows : List α) (place other : Nat) (new : α) :
    rowAt (putAt rows place new) other = if other = place then new else rowAt rows other := by
  fun_induction putAt rows place new generalizing other <;> cases other <;> simp_all [rowAt]

/-- The row of a reference. -/
def row (table : Table kind α) (ref : Ref kind) : α :=
  rowAt table.rows ref.number

/-- The table with another row for a reference. -/
def put (table : Table kind α) (ref : Ref kind) (new : α) : Table kind α :=
  ⟨putAt table.rows ref.number new⟩

/-- The table after a change to the row of a reference. -/
def modify (table : Table kind α) (ref : Ref kind) (change : α -> α) : Table kind α :=
  table.put ref (change (table.row ref))

/-- The first reference that the table has never been told of. -/
def fresh (table : Table kind α) : Ref kind :=
  ⟨table.rows.length⟩

@[simp] theorem row_put_same (table : Table kind α) (ref : Ref kind) (new : α) :
    (table.put ref new).row ref = new := by
  simp [row, put, rowAt_putAt]

theorem row_put_of_ne (table : Table kind α) {ref other : Ref kind} (distinct : other ≠ ref)
    (new : α) : (table.put ref new).row other = table.row other := by
  have : other.number ≠ ref.number := fun same =>
    distinct (by cases other; cases ref; simp_all)
  simp [row, put, rowAt_putAt, this]

/-- The sum of some rows. -/
def sum (rows : List Nat) : Nat :=
  rows.foldr (· + ·) 0

/-- The sum of all rows. -/
def total (table : Table kind Nat) : Nat :=
  sum table.rows

theorem sum_putAt (rows : List Nat) (place new : Nat) :
    sum (putAt rows place new) + rowAt rows place = sum rows + new := by
  fun_induction putAt rows place new <;> simp_all [rowAt, sum] <;> omega

/-- Writing a row changes the total by what it changes the row. -/
theorem total_put (table : Table kind Nat) (ref : Ref kind) (new : Nat) :
    (table.put ref new).total + table.row ref = table.total + new :=
  sum_putAt table.rows ref.number new

end Table

end ScriptConsole
