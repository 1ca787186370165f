import Mathlib.Data.List.DropRight
import ScriptConsole.MemoryLog

/-!
# The window of a log

A log is a window on the reports that it was given: it holds all of them if it has no
limit, and otherwise the last ones up to its limit. Taking a report in moves the window
on, and forgetting everything starts a new history.
-/

namespace ScriptConsole.MemoryLog

/-- The end of a history that a log with this limit has room for. -/
def window (limit : Option Nat) (history : List Report) : List Report :=
  match limit with
  | none => history
  | some limit => history.rtake limit

/-- The log holds what its limit leaves of the history, oldest first. -/
def Holds (log : MemoryLog) (history : List Report) : Prop :=
  log.entries = window log.limit history

theorem rtake_rtake {fewer more : Nat} (le : fewer ≤ more) (history : List Report) :
    (history.rtake more).rtake fewer = history.rtake fewer := by
  simp only [List.rtake_eq_reverse_take_reverse, List.reverse_reverse, List.take_take,
    Nat.min_eq_left le]

theorem window_suffix (limit : Option Nat) (history : List Report) :
    window limit history <:+ history := by
  cases limit with
  | none => exact List.suffix_rfl
  | some limit => exact List.drop_suffix _ _

theorem length_window_le (limit : Nat) (history : List Report) :
    (window (some limit) history).length ≤ limit := by
  simp only [window, List.rtake, List.length_drop]
  omega

theorem holds_empty (limit : Option Nat) : Holds { limit } [] := by
  cases limit with
  | none => rfl
  | some limit => exact (List.rtake_nil limit).symm

namespace Holds

variable {log : MemoryLog} {history : List Report}

/-- A new report moves the window on by one, and only what leaves it is forgotten. -/
theorem record (holds : log.Holds history) (report : Report) :
    (log.record report).Holds (history ++ [report]) := by
  unfold Holds MemoryLog.record at *
  split
  · next unlimited =>
    rw [unlimited] at holds ⊢
    exact congrArg (· ++ [report]) holds
  · next none =>
    rw [none] at holds ⊢
    exact holds.trans ((List.rtake_zero _).trans (List.rtake_zero _).symm)
  · next limit positive limited =>
    rw [limited] at holds ⊢
    obtain ⟨room, rfl⟩ : ∃ room, limit = room + 1 := Nat.exists_eq_succ_of_ne_zero positive
    have kept : log.entries.drop (log.entries.length + 1 - (room + 1)) = history.rtake room :=
      calc
        _ = log.entries.rtake room := by rw [Nat.add_sub_add_right, List.rtake]
        _ = (history.rtake (room + 1)).rtake room := by rw [holds, window]
        _ = history.rtake room := rtake_rtake (Nat.le_succ room) history
    simp only [kept, window, List.rtake_concat_succ]

theorem clear (log : MemoryLog) : log.clear.Holds [] :=
  holds_empty log.limit

theorem size_le (holds : log.Holds history) {limit : Nat} (limited : log.limit = some limit) :
    log.size ≤ limit := by
  unfold Holds at holds
  rw [size, holds, limited]
  exact length_window_le limit history

/-- A log holds the end of what an unlimited log with the same history holds. -/
theorem suffix (holds : log.Holds history) {full : MemoryLog} (other : full.Holds history)
    (unlimited : full.limit = none) : log.entries <:+ full.entries := by
  unfold Holds at holds other
  rw [holds, other, unlimited]
  exact window_suffix log.limit history

end Holds

end ScriptConsole.MemoryLog
