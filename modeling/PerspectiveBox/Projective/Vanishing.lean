import PerspectiveBox.Projective.Projection

namespace PerspectiveBox.Projection

open Scalar

variable {K : Type} [Scalar K]

-- A finite vanishing point becomes the direction to it from the image of the origin, an infinite
-- one the point at that offset. There is no answer when the points in question cannot be
-- displayed, nor for the origin itself.
def toggled? (m : Projection K) (c : Coord) : Option (Projection K) :=
  if c = .w then none
  else m.origin.point?.bind fun origin =>
    let column := m.column c
    if column.isFinite then
      column.point?.map fun vp => m.setColumn c (.ofDirection (vp - origin))
    else some (m.setColumn c (.ofPoint (origin + column.direction)))

-- The direction of an infinite vanishing point in degrees.
def angle? (m : Projection K) (c : Coord) : Option K :=
  if c = .w ∨ m.isFinite c then none
  else
    let direction := (m.column c).direction
    some (toDegrees (atan2 direction.y direction.x))

-- Points an infinite vanishing point along `v`, keeping the length of the direction stored: it
-- is the unit of length along the axis.
def setDirection (m : Projection K) (c : Coord) (v : Vec K) : Projection K :=
  if c = .w ∨ m.isFinite c then m
  else
    let zero := lengthOf (0 : K)
    let old := (m.column c).direction.length
    let new := v.length
    let scaled := if lengthLT zero old && lengthLT zero new then v * lengthRatio old new else v
    m.setColumn c (.ofDirection scaled)

-- Turns an infinite vanishing point by an angle in degrees.
def rotated? (m : Projection K) (c : Coord) (degrees : K) : Option (Projection K) :=
  (m.angle? c).map fun angle =>
    let a := toRadians (angle + degrees)
    m.setDirection c ⟨cos a, sin a⟩

end PerspectiveBox.Projection
