import PerspectiveBox.Plane.Affine
import PerspectiveBox.Projective.Equations
import PerspectiveBox.Projective.Point

namespace PerspectiveBox

open Scalar

structure Projection (K : Type) where
  vpX : HPoint2 K
  vpY : HPoint2 K
  vpZ : HPoint2 K
  origin : HPoint2 K
  deriving BEq

namespace Projection

variable {K : Type} [Scalar K]

def column (m : Projection K) : Coord → HPoint2 K
  | .x => m.vpX
  | .y => m.vpY
  | .z => m.vpZ
  | .w => m.origin

def setColumn (m : Projection K) (c : Coord) (p : HPoint2 K) : Projection K :=
  match c with
  | .x => { m with vpX := p }
  | .y => { m with vpY := p }
  | .z => { m with vpZ := p }
  | .w => { m with origin := p }

def mapColumns (f : HPoint2 K → HPoint2 K) (m : Projection K) : Projection K :=
  ⟨f m.vpX, f m.vpY, f m.vpZ, f m.origin⟩

-- Whether lines along this coordinate converge on the page.
def isFinite (m : Projection K) (c : Coord) : Bool := (m.column c).isFinite

def image (m : Projection K) (p : HPoint3 K) : HPoint2 K where
  x := m.vpX.x * p.x + m.vpY.x * p.y + m.vpZ.x * p.z + m.origin.x * p.w
  y := m.vpX.y * p.x + m.vpY.y * p.y + m.vpZ.y * p.z + m.origin.y * p.w
  w := m.vpX.w * p.x + m.vpY.w * p.y + m.vpZ.w * p.z + m.origin.w * p.w

-- Where a point of space appears on screen.
def screen (m : Projection K) (p : HPoint3 K) : Point K := (m.image p).toPoint

-- The two unknown coordinates of a point that appears at `p` and has the coordinate `known`
-- along one axis. With the third unknown, the weight of the image, the columns of the unknown
-- axes and the screen point make three equations, one for each homogeneous coordinate.
def unknowns? (a b known origin : HPoint2 K) (p : Point K) (value : K) : Option (K × K) :=
  (Equation3.solve?
    ⟨a.x, b.x, -p.x, -(known.x * value + origin.x)⟩
    ⟨a.y, b.y, -p.y, -(known.y * value + origin.y)⟩
    ⟨a.w, b.w, -1, -(known.w * value + origin.w)⟩).bind fun (u, v, weight) =>
      if Scalar.isFinite u && Scalar.isFinite v && Scalar.isFinite weight then some (u, v)
      else none

-- The point of space that appears at `p` and has the given value along an axis, if the
-- configuration determines one.
def preimage? (m : Projection K) (p : Point K) (value : K) : Axis → Option (HPoint3 K)
  | .x => (unknowns? m.vpY m.vpZ m.vpX m.origin p value).map fun (y, z) => ⟨value, y, z, 1⟩
  | .y => (unknowns? m.vpX m.vpZ m.vpY m.origin p value).map fun (x, z) => ⟨x, value, z, 1⟩
  | .z => (unknowns? m.vpX m.vpY m.vpZ m.origin p value).map fun (x, y) => ⟨x, y, value, 1⟩

def preimage (m : Projection K) (p : Point K) (value : K) (axis : Axis) : HPoint3 K :=
  (m.preimage? p value axis).getD .nowhere

-- The preimage at a coordinate that need not be spatial: no point is fixed by its weight.
def preimageAt (m : Projection K) (p : Point K) (value : K) (c : Coord) : HPoint3 K :=
  (c.axis?.map (m.preimage p value)).getD .nowhere

-- Moves the whole picture over the page.
def applyAffine (m : Projection K) (f : Affine K) : Projection K := m.mapColumns f.apply

omit [Scalar K] in
theorem column_setColumn_same (m : Projection K) (c : Coord) (p : HPoint2 K) :
    (m.setColumn c p).column c = p := by
  cases c <;> rfl

omit [Scalar K] in
theorem column_mapColumns (m : Projection K) (f : HPoint2 K → HPoint2 K) (c : Coord) :
    (m.mapColumns f).column c = f (m.column c) := by
  cases c <;> rfl

end Projection

end PerspectiveBox
