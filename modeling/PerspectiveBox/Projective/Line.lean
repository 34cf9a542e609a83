import PerspectiveBox.Plane.Line
import PerspectiveBox.Projective.Projection

namespace PerspectiveBox

-- The screen image of a line parallel to an axis: through the vanishing point of the axis, or in
-- its direction if that is at infinity.
structure PerspectiveLine (K : Type) where
  line : Line K
  coord : Coord
  converges : Bool

variable {K : Type} [Scalar K]

namespace PerspectiveLine

def through (m : Projection K) (p : Point K) (c : Coord) : PerspectiveLine K :=
  let vp := m.column c
  { line := if vp.isFinite then .through p vp.toPoint else .along p vp.direction
    coord := c
    converges := vp.isFinite }

-- From the base point towards the vanishing point.
def direction (l : PerspectiveLine K) : Vec K := l.line.direction

end PerspectiveLine

namespace Projection

-- The direction in which lines along the axis run on screen from a point.
def directionFrom (m : Projection K) (p : Point K) (c : Coord) : Vec K :=
  (PerspectiveLine.through m p c).direction

-- Towards an infinite vanishing point, lines run in the same direction from everywhere.
theorem directionFrom_of_infinite {m : Projection K} {c : Coord} (h : m.isFinite c = false)
    (p : Point K) : m.directionFrom p c = (m.column c).direction := by
  have hcolumn : (m.column c).isFinite = false := h
  simp only [directionFrom, PerspectiveLine.direction, PerspectiveLine.through, hcolumn,
    Bool.false_eq_true, if_false, Line.along]

end Projection

end PerspectiveBox
