/-!
# Results that may fail

When a sequence of readings succeeds, each of them has succeeded. These are the facts
by which steps and readers that are written as sequences are taken apart and put
together.
-/

namespace ScriptConsole

variable {ε α β : Type}

/-- A sequence succeeds exactly if its first part does and the rest does on what the
first part gave. -/
theorem bind_eq_ok_iff {first : Except ε α} {rest : α -> Except ε β} {result : β} :
    first >>= rest = .ok result ↔ ∃ middle, first = .ok middle ∧ rest middle = .ok result := by
  cases first <;> simp [bind, Except.bind]

theorem pure_eq_ok_iff {value result : α} :
    (pure value : Except ε α) = .ok result ↔ value = result := by
  simp [pure, Except.pure]

theorem map_eq_ok_iff {change : α -> β} {first : Except ε α} {result : β} :
    change <$> first = .ok result ↔ ∃ value, first = .ok value ∧ change value = result := by
  cases first <;> simp [Functor.map, Except.map]

/-- What is guarded succeeds exactly if the guard is passed and it succeeds itself. -/
theorem guard_eq_ok_iff {refused : Prop} [Decidable refused] {failure : ε} {next : Except ε α}
    {result : α} :
    (if refused then .error failure else next) = .ok result ↔ ¬refused ∧ next = .ok result := by
  by_cases refuse : refused
  · simp [refuse]
  · simp [refuse]

theorem accepted_eq_ok_iff {accepted : Prop} [Decidable accepted] {failure : ε} {next : Except ε α}
    {result : α} :
    (if accepted then next else .error failure) = .ok result ↔ accepted ∧ next = .ok result := by
  by_cases accept : accepted
  · simp [accept]
  · simp [accept]

@[simp] theorem bind_ok (value : α) (rest : α -> Except ε β) :
    (Except.ok value >>= rest) = rest value :=
  rfl

@[simp] theorem bind_error (failure : ε) (rest : α -> Except ε β) :
    (Except.error failure >>= rest) = .error failure :=
  rfl

@[simp] theorem pure_eq_ok (value : α) : (pure value : Except ε α) = .ok value :=
  rfl

@[simp] theorem mapError_ok {δ : Type} (change : ε -> δ) (value : α) :
    (Except.ok value).mapError change = .ok value :=
  rfl

@[simp] theorem mapError_error {δ : Type} (change : ε -> δ) (failure : ε) :
    (Except.error failure : Except ε α).mapError change = .error (change failure) :=
  rfl

theorem mapError_eq_ok_iff {δ : Type} {change : ε -> δ} {first : Except ε α} {result : α} :
    first.mapError change = .ok result ↔ first = .ok result := by
  cases first with
  | error failure => exact ⟨nofun, nofun⟩
  | ok value => simp only [mapError_ok, Except.ok.injEq]

end ScriptConsole
