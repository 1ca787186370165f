import ScriptConsole.Decimal.Shortest
import ScriptConsole.Proofs.Decimal.Value

/-!
# Shortest decimals round back

Whatever grid the search for the shortest decimal ends on, the decimal lies in the
rounding interval, so reading it gives the double again. A point of a grid is tested with
whole numbers only; `step_mul_quarter` relates its unit to the quarters of the rounding
interval.
-/

namespace ScriptConsole

namespace Sighting

/-- Only a grid point of the interval is ever taken. -/
theorem contains_of_nearest? {tie : Tie} {sighting : Sighting} {index : ℕ}
    (taken : sighting.nearest? tie = some index) : sighting.contains index = true := by
  unfold nearest? at taken
  simp only at taken
  split at taken
  · next below above =>
    have choice : tie.choose (sighting.value / sighting.step) = sighting.value / sighting.step ∨
        tie.choose (sighting.value / sighting.step) = sighting.value / sighting.step + 1 := by
      cases tie with
      | up => exact .inr rfl
      | even =>
        simp only [Tie.choose]
        omega
    split_ifs at taken
    · cases taken
      exact below
    · cases taken
      exact above
    · cases taken
      rcases choice with same | same
      · rw [same]
        exact below
      · rw [same]
        exact above
  · next below _ =>
    cases taken
    exact below
  · next _ above =>
    cases taken
    exact above
  · cases taken

end Sighting

namespace Double

variable (number : Double) (place : ℤ)

/-- The unit that a sighting counts in, as whole numbers: one quarter of the last place is
this many. -/
def unitsPerQuarter : ℕ :=
  Nat.pow 2 (number.scale - 2).toNat * Nat.pow 10 (-place).toNat

theorem sight_lower : (number.sight place).lower = number.lowerEnd * number.unitsPerQuarter place :=
  rfl

theorem sight_upper : (number.sight place).upper = number.upperEnd * number.unitsPerQuarter place :=
  rfl

theorem sight_value :
    (number.sight place).value = 4 * number.significand * number.unitsPerQuarter place :=
  rfl

theorem unitsPerQuarter_pos : 0 < number.unitsPerQuarter place :=
  Nat.mul_pos (Nat.pow_pos two_pos) Decimal.ten_pow_pos

/-- A step of the grid and a quarter of the last place are counted in the same unit. -/
theorem step_mul_quarter :
    ((number.sight place).step : ℚ) * number.quarter = number.unitsPerQuarter place * 10 ^ place := by
  have opposite : (2 - number.scale).toNat = (-(number.scale - 2)).toNat := by
    congr 1
    ring
  rw [quarter, zpow_eq_div 2, zpow_eq_div 10]
  simp only [sight, unitsPerQuarter, opposite]
  push_cast [Nat.pow_eq]
  field_simp

/-- Ends of the interval and grid points, counted in units, in quarters and in powers of
ten. -/
theorem scaled_end_and_point (ends index : ℕ) :
    ((ends * number.unitsPerQuarter place : ℕ) : ℚ) * number.quarter =
        ends * number.quarter * number.unitsPerQuarter place ∧
      ((index * (number.sight place).step : ℕ) : ℚ) * number.quarter =
        index * 10 ^ place * number.unitsPerQuarter place := by
  have same := number.step_mul_quarter place
  constructor
  · push_cast
    ring
  · push_cast
    rw [mul_assoc, same]
    ring

/-- An end of the interval is compared with a grid point by whole numbers. -/
theorem units_le_steps_iff {ends index : ℕ} :
    ends * number.unitsPerQuarter place ≤ index * (number.sight place).step ↔
      (ends : ℚ) * number.quarter ≤ index * 10 ^ place := by
  have units : (0 : ℚ) < number.unitsPerQuarter place := by
    exact_mod_cast number.unitsPerQuarter_pos place
  obtain ⟨left, right⟩ := number.scaled_end_and_point place ends index
  rw [← Nat.cast_le (α := ℚ), ← mul_le_mul_iff_left₀ number.quarter_pos, left, right,
    mul_le_mul_iff_left₀ units]

theorem steps_le_units_iff {ends index : ℕ} :
    index * (number.sight place).step ≤ ends * number.unitsPerQuarter place ↔
      (index : ℚ) * 10 ^ place ≤ ends * number.quarter := by
  have units : (0 : ℚ) < number.unitsPerQuarter place := by
    exact_mod_cast number.unitsPerQuarter_pos place
  obtain ⟨left, right⟩ := number.scaled_end_and_point place ends index
  rw [← Nat.cast_le (α := ℚ), ← mul_le_mul_iff_left₀ number.quarter_pos, left, right,
    mul_le_mul_iff_left₀ units]

variable {number place}

/-- A grid point that the sighting finds in the interval is in the interval. -/
theorem owns_of_contains {index : ℕ} (found : (number.sight place).contains index = true) :
    number.Owns (Decimal.value ⟨index, place⟩) := by
  unfold Sighting.contains at found
  simp only at found
  split at found
  · next closed =>
    simp only [Bool.and_eq_true, decide_eq_true_eq] at found
    have even : number.significand % 2 = 0 := by simpa [sight] using closed
    exact {
      atLeast := (number.units_le_steps_iff place).1 found.1
      atMost := (number.steps_le_units_iff place).1 found.2
      within := fun odd => by omega }
  · simp only [Bool.and_eq_true, decide_eq_true_eq] at found
    have above := not_le.1 (mt (number.steps_le_units_iff place).2 (not_le.2 found.1))
    have below := not_le.1 (mt (number.units_le_steps_iff place).2 (not_le.2 found.2))
    exact ⟨above.le, below.le, fun _ => ⟨above, below⟩⟩

/-- A grid as fine as the double's own digits has a point on the double. -/
theorem step_dvd_value (fine : place ≤ number.exactPlace) :
    (number.sight place).step ∣ (number.sight place).value := by
  simp only [exactPlace] at fine
  have whole : place.toNat = 0 := by omega
  have fewer : (2 - number.scale).toNat ≤ 2 + (number.scale - 2).toNat + (-place).toNat := by omega
  simp only [sight, whole, Nat.pow_eq, pow_zero, mul_one]
  calc 2 ^ (2 - number.scale).toNat ∣ 2 ^ (2 + (number.scale - 2).toNat + (-place).toNat) :=
        pow_dvd_pow 2 fewer
    _ ∣ 4 * number.significand * (2 ^ (number.scale - 2).toNat * 10 ^ (-place).toNat) := by
        refine ⟨number.significand * 5 ^ (-place).toNat, ?_⟩
        rw [show (10 : ℕ) = 2 * 5 from rfl, mul_pow, pow_add, pow_add]
        ring

/-- On such a grid the point on the double is found. -/
theorem contains_exact (nonzero : 0 < number.significand) (fine : place ≤ number.exactPlace) :
    (number.sight place).contains ((number.sight place).value / (number.sight place).step) = true := by
  have exact := Nat.div_mul_cancel (step_dvd_value fine)
  have units := number.unitsPerQuarter_pos place
  unfold Sighting.contains
  simp only [exact]
  have low : (number.sight place).lower < (number.sight place).value := by
    rw [sight_lower, sight_value]
    exact Nat.mul_lt_mul_of_pos_right (lowerEnd_lt nonzero) units
  have high : (number.sight place).value < (number.sight place).upper := by
    rw [sight_upper, sight_value]
    exact Nat.mul_lt_mul_of_pos_right number.lt_upperEnd units
  split_ifs
  · simp [low.le, high.le]
  · simp [low, high]

/-- The search never leaves the rounding interval, if it goes down to a grid that is fine
enough. -/
theorem owns_searchPlaces (nonzero : 0 < number.significand) (tie : Tie) (remaining : ℕ)
    (fine : place - remaining ≤ number.exactPlace) :
    number.Owns (number.searchPlaces tie remaining place).value := by
  induction remaining generalizing place with
  | zero =>
    have exact : place ≤ number.exactPlace := by simpa using fine
    unfold searchPlaces
    cases taken : (number.sight place).nearest? tie with
    | none =>
      simp only [taken, Option.getD_none]
      exact owns_of_contains (contains_exact nonzero exact)
    | some index =>
      simp only [taken, Option.getD_some]
      exact owns_of_contains (Sighting.contains_of_nearest? taken)
  | succ remaining ih =>
    unfold searchPlaces
    split
    · next index taken => exact owns_of_contains (Sighting.contains_of_nearest? taken)
    · exact ih (by push_cast at fine; omega)

/-- The shortest decimal of a double other than zero rounds to it. -/
theorem owns_shortest (nonzero : 0 < number.significand) (tie : Tie) :
    number.Owns (number.shortest tie).value :=
  owns_searchPlaces nonzero tie _ (by omega)

end Double

end ScriptConsole
