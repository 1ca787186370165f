import ScriptConsole.Json.Lexeme.Basic

/-!
# What a reading gives and leaves

A reading carries the bound of what it leaves. `Reads` forgets it, so that readings of one
text under different bounds have one statement.
-/

namespace ScriptConsole.Json

/-- The reading succeeds with the value and leaves the rest. -/
def Reads {α : Type} {limit : Nat} (reading : Except Error (Taken α limit)) (value : α)
    (rest : List Char) : Prop :=
  ∃ within, reading = .ok ⟨value, rest, within⟩

namespace Reads

variable {α β : Type} {limit wider : Nat} {value : α} {rest : List Char}

theorem ok {taken : Taken α limit} (gives : taken.value = value) (leaves : taken.rest = rest) :
    Reads (.ok taken) value rest := by
  subst gives leaves
  exact ⟨taken.within, rfl⟩

theorem pure {taken : Taken α limit} (gives : taken.value = value) (leaves : taken.rest = rest) :
    Reads (Pure.pure taken) value rest :=
  .ok gives leaves

/-- A sequence reads what its second part does on what the first part gave. -/
theorem bind {first : Except Error (Taken α limit)}
    {next : Taken α limit -> Except Error (Taken β wider)} {result : β} {left : List Char}
    (reads : Reads first value rest)
    (continues : ∀ within, Reads (next ⟨value, rest, within⟩) result left) :
    Reads (first >>= next) result left := by
  obtain ⟨within, rfl⟩ := reads
  exact continues within

/-- A sequence fails as its second part does. -/
theorem bind_error {first : Except Error (Taken α limit)}
    {next : Taken α limit -> Except Error (Taken β wider)} {fault : Error}
    (reads : Reads first value rest) (fails : ∀ within, next ⟨value, rest, within⟩ = .error fault) :
    first >>= next = .error fault := by
  obtain ⟨within, rfl⟩ := reads
  exact fails within

end Reads

/-- Reading a literal name takes its letters. -/
theorem reads_readLetters (letters rest : List Char) :
    Reads (readLetters letters (letters ++ rest)) () rest := by
  induction letters with
  | nil =>
    unfold readLetters
    exact .ok rfl rfl
  | cons letter letters ih =>
    rw [List.cons_append, readLetters, if_pos rfl]
    exact ih.bind fun _ => .pure rfl rfl

end ScriptConsole.Json
