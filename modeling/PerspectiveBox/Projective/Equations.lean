import PerspectiveBox.Number.Scalar

namespace PerspectiveBox

open Scalar

-- The equation `y * Y + z * Z = c`.
structure Equation2 (K : Type) where
  y : K
  z : K
  c : K

-- The equation `x * X + y * Y + z * Z = c`.
structure Equation3 (K : Type) where
  x : K
  y : K
  z : K
  c : K

variable {K : Type} [Scalar K]

namespace Equation2

-- What is left of an equation when the pivot equation has been used up for the first unknown.
def eliminate (pivot e : Equation2 K) : K × K :=
  let l := e.y * (1 / pivot.y)
  (-pivot.z * l + e.z, -pivot.c * l + e.c)

def solve? (e₁ e₂ : Equation2 K) : Option (K × K) :=
  let (pivot, other) := if abs e₁.y < abs e₂.y then (e₂, e₁) else (e₁, e₂)
  if pivot.y == 0 then none
  else
    let (a, c) := eliminate pivot other
    if a == 0 then none
    else
      let z := c / a
      some ((-z * pivot.z + pivot.c) / pivot.y, z)

end Equation2

namespace Equation3

def eliminate (pivot e : Equation3 K) : Equation2 K :=
  let l := e.x * (1 / pivot.x)
  ⟨-pivot.y * l + e.y, -pivot.z * l + e.z, -pivot.c * l + e.c⟩

-- The pivot equation first; the equation it changes places with goes where it stood.
def pivoted (e₁ e₂ e₃ : Equation3 K) : Equation3 K × Equation3 K × Equation3 K :=
  if abs e₁.x < abs e₂.x then
    if abs e₂.x < abs e₃.x then (e₃, e₂, e₁) else (e₂, e₁, e₃)
  else if abs e₁.x < abs e₃.x then (e₃, e₂, e₁)
  else (e₁, e₂, e₃)

def solve? (e₁ e₂ e₃ : Equation3 K) : Option (K × K × K) :=
  let (pivot, f, g) := pivoted e₁ e₂ e₃
  if pivot.x == 0 then none
  else (Equation2.solve? (eliminate pivot f) (eliminate pivot g)).map fun (y, z) =>
    ((-y * pivot.y + (-z * pivot.z + pivot.c)) / pivot.x, y, z)

end Equation3

end PerspectiveBox
