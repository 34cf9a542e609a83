namespace PerspectiveBox.Shortest

-- The reals that round to a positive number, in quarters of its last place: the number itself is
-- `4 * mantissa`. Halfway to the next number is two quarters above. Below a power of two the
-- numbers lie twice as close, so there halfway is one quarter below. The ends round to the
-- number exactly when its mantissa is even.
structure Interval where
  low : Nat
  value : Nat
  high : Nat
  closed : Bool

def Interval.around (mantissa : Nat) (narrowBelow : Bool) : Interval where
  low := 4 * mantissa - if narrowBelow then 1 else 2
  value := 4 * mantissa
  high := 4 * mantissa + 2
  closed := mantissa % 2 = 0

-- The unit of the interval over the unit of the decimal grid, `2 ^ binary / 10 ^ grid`, as a
-- fraction of whole numbers.
def unitRatio (binary grid : Int) : Nat × Nat :=
  (Nat.pow 2 binary.toNat * Nat.pow 10 (-grid).toNat,
    Nat.pow 2 (-binary).toNat * Nat.pow 10 grid.toNat)

-- Whether `units` steps of the grid lie in the interval.
def Interval.contains (i : Interval) (ratio : Nat × Nat) (units : Nat) : Bool :=
  let low := i.low * ratio.1
  let high := i.high * ratio.1
  let point := units * ratio.2
  if i.closed then low ≤ point ∧ point ≤ high else low < point ∧ point < high

-- The point of the grid in the interval that is nearest to the value. If any point of the grid
-- lies in the interval, so does one of the value's two neighbours. Of two equally near ones the
-- larger is taken.
def Interval.gridPoint? (i : Interval) (ratio : Nat × Nat) : Option Nat :=
  let below := i.value * ratio.1 / ratio.2
  let remainder := i.value * ratio.1 % ratio.2
  match i.contains ratio below, i.contains ratio (below + 1) with
  | true, true => some (if 2 * remainder < ratio.2 then below else below + 1)
  | true, false => some below
  | false, true => some (below + 1)
  | false, false => none

-- An exponent of ten no smaller than that of the number: three tenths and a little is the
-- decimal logarithm of two.
def topExponent (mantissa : Nat) (exponent : Int) : Int :=
  ((mantissa.log2 + 1 + exponent) * 30103) / 100000 + 1

-- The first of ever finer decimal grids that meets the interval, with the point taken on it.
-- Seventeen digits always suffice for a double; the grids tried go beyond that.
def decimal (mantissa : Nat) (exponent : Int) (narrowBelow : Bool) : Nat × Int :=
  let interval := Interval.around mantissa narrowBelow
  let top := topExponent mantissa exponent
  let hit := (List.range 24).findSome? fun (step : Nat) =>
    let grid := top - step
    (interval.gridPoint? (unitRatio (exponent - 2) grid)).map (·, grid)
  hit.getD (mantissa * Nat.pow 2 exponent.toNat * Nat.pow 5 (-exponent).toNat, min exponent 0)

end PerspectiveBox.Shortest
