import ScriptConsole.Decimal.Basic

/-!
# The shortest decimal of a double

The reals that round to a positive double form an interval around it. The grids
`10 ^ place` are tried from coarse to fine, and the first one with a point in
the interval gives the decimal with the fewest digits; of two points of one grid
the nearer is taken. If any point of a grid lies in the interval, then one of
the two neighbours of the double on that grid does, so only those are looked at.
The search ends at the latest on the grid that holds the double itself.
-/

namespace ScriptConsole

/-- Which of two equally near decimals is taken. -/
inductive Tie where
  /-- The larger magnitude. -/
  | up
  /-- The even last digit. -/
  | even
deriving DecidableEq, Repr

/-- The neighbour that a tie between `below` and `below + 1` goes to. -/
def Tie.choose (tie : Tie) (below : Nat) : Nat :=
  match tie with
  | .up => below + 1
  | .even => below + below % 2

/-- A positive double and its rounding interval next to the steps of one decimal
grid, all counted in one unit small enough to make every length whole. -/
structure Sighting where
  lower : Nat
  value : Nat
  upper : Nat
  /-- Whether the interval holds its two ends. -/
  closed : Bool
  /-- The distance between two points of the grid. -/
  step : Nat
deriving DecidableEq, Repr

namespace Sighting

/-- The grid point `index` lies in the interval. -/
def contains (sighting : Sighting) (index : Nat) : Bool :=
  let point := index * sighting.step
  if sighting.closed then sighting.lower ≤ point && point ≤ sighting.upper
  else sighting.lower < point && point < sighting.upper

/-- The nearest grid point in the interval, if it holds one. -/
def nearest? (tie : Tie) (sighting : Sighting) : Option Nat :=
  let below := sighting.value / sighting.step
  match sighting.contains below, sighting.contains (below + 1) with
  | true, true =>
    let middle := (2 * below + 1) * sighting.step
    if 2 * sighting.value < middle then some below
    else if middle < 2 * sighting.value then some (below + 1)
    else some (tie.choose below)
  | true, false => some below
  | false, true => some (below + 1)
  | false, false => none

end Sighting

namespace Double

/-- The double and its rounding interval against the grid `10 ^ place`. The ends
of the interval lie halfway to the neighbouring doubles, a quarter of a last
place is therefore the unit, and an even significand owns its ends. -/
def sight (number : Double) (place : Int) : Sighting :=
  let quarter := Nat.pow 2 (number.scale - 2).toNat * Nat.pow 10 (-place).toNat
  let value := 4 * number.significand
  { lower := (value - if number.startsBinade then 1 else 2) * quarter
    value := value * quarter
    upper := (value + 2) * quarter
    closed := number.significand % 2 = 0
    step := Nat.pow 2 (2 - number.scale).toNat * Nat.pow 10 place.toNat }

/-- A place whose power of ten is above the magnitude, read off the magnitude's
bit count: `2 ^ 3 < 10` bounds the large numbers and `10 ^ 3 < 2 ^ 10` the small
ones. -/
def coarsestPlace (number : Double) : Int :=
  let bitCount : Int := number.significand.log2 + 1 + number.scale
  if 0 ≤ bitCount then (bitCount + 2) / 3 else -(-bitCount * 3 / 10)

/-- A place whose grid holds the double itself. -/
def exactPlace (number : Double) : Int :=
  min number.scale 0

/-- Try `remaining` grids downwards from `place`, then the one after them
whatever it holds. -/
def searchPlaces (tie : Tie) (number : Double) : (remaining : Nat) -> (place : Int) -> Decimal
  | 0, place =>
    let sighting := number.sight place
    ⟨(sighting.nearest? tie).getD (sighting.value / sighting.step), place⟩
  | remaining + 1, place =>
    match (number.sight place).nearest? tie with
    | some coefficient => ⟨coefficient, place⟩
    | none => searchPlaces tie number remaining (place - 1)

/-- The decimal with the fewest digits that rounds to the magnitude of a finite
double other than zero, and the nearest one of those. -/
def shortest (tie : Tie) (number : Double) : Decimal :=
  number.searchPlaces tie (number.coarsestPlace - number.exactPlace).toNat number.coarsestPlace

end Double

end ScriptConsole
