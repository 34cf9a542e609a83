import PerspectiveBox.Projective.Projection

namespace PerspectiveBox

open Scalar

-- Two opposite corners span a box; the other six take each coordinate from one of the two.
structure Corners (K : Type) where
  near : HPoint3 K
  far : HPoint3 K
  deriving BEq

namespace Corners

variable {K : Type} [Scalar K]

-- A corner is named by the axes along which its coordinate is that of the far corner.
def corner (c : Corners K) (id : AxisSet) : HPoint3 K where
  x := if id.hasX then c.far.x else c.near.x
  y := if id.hasY then c.far.y else c.near.y
  z := if id.hasZ then c.far.z else c.near.z
  w := 1

-- Where a corner appears on screen.
def screen (c : Corners K) (m : Projection K) (id : AxisSet) : Point K := m.screen (c.corner id)

def normalized (c : Corners K) : Corners K := ⟨c.near.normalized, c.far.normalized⟩

-- Whether both corners are known.
def areFinite (c : Corners K) : Bool := c.near.isFinite && c.far.isFinite

def center (c : Corners K) : HPoint3 K :=
  let n := c.normalized
  ⟨(n.near.x + n.far.x) / 2.0, (n.near.y + n.far.y) / 2.0, (n.near.z + n.far.z) / 2.0, 1⟩

def centerScreen (c : Corners K) (m : Projection K) : Point K := m.screen c.center

-- The four corners, in turn, of the face that lies farthest along an axis: the perspective lines
-- of the axis are drawn from there.
def farthestFace (c : Corners K) : Axis → List (HPoint3 K)
  | .x =>
    let x := larger c.near.x c.far.x
    [⟨x, c.near.y, c.near.z, 1⟩, ⟨x, c.far.y, c.near.z, 1⟩, ⟨x, c.far.y, c.far.z, 1⟩,
      ⟨x, c.near.y, c.far.z, 1⟩]
  | .y =>
    let y := larger c.near.y c.far.y
    [⟨c.near.x, y, c.near.z, 1⟩, ⟨c.far.x, y, c.near.z, 1⟩, ⟨c.far.x, y, c.far.z, 1⟩,
      ⟨c.near.x, y, c.far.z, 1⟩]
  | .z =>
    let z := larger c.near.z c.far.z
    [⟨c.far.x, c.far.y, z, 1⟩, ⟨c.far.x, c.near.y, z, 1⟩, ⟨c.near.x, c.near.y, z, 1⟩,
      ⟨c.near.x, c.far.y, z, 1⟩]

-- In canonical order the near corner is not below the far one in x and y, and below it in z.
-- These are the axes along which the corners are out of that order.
def everted (c : Corners K) : AxisSet :=
  let n := c.normalized
  ⟨n.near.x < n.far.x, n.near.y < n.far.y, n.far.z < n.near.z⟩

-- Exchanges the coordinates along an axis unless "the near one is smaller" is as wanted.
def ordered (c : Corners K) (axis : Coord) (nearSmaller : Bool) : Corners K :=
  let n := c.normalized
  if decide (n.near.get axis < n.far.get axis) = nearSmaller then n
  else ⟨n.near.set axis (n.far.get axis), n.far.set axis (n.near.get axis)⟩

-- Names the corners anew so that they stand in canonical order.
def relabeled (c : Corners K) : Corners K :=
  ((c.ordered .x false).ordered .y false).ordered .z true

end Corners

end PerspectiveBox
