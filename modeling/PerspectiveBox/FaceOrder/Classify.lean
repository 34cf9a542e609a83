import PerspectiveBox.FaceOrder.Case

namespace PerspectiveBox

-- How the configuration is found: by the directions at the reference corner, or, when all
-- vanishing points are finite, by the triangle that they span.
inductive OrderStrategy where
  | sectorHeuristics
  | vanishingTriangle
  deriving DecidableEq, Repr

variable {K : Type} [Scalar K]

namespace Projection

-- The axis whose direction at a point lies between the other two, or the empty set.
def centralAxis (m : Projection K) (p : Point K) : AxisSet :=
  let x := m.directionFrom p .x
  let y := m.directionFrom p .y
  let z := m.directionFrom p .z
  if x.between y z then .z
  else if y.between z x then .x
  else if z.between x y then .y
  else .empty

-- Whether the turn from the X direction to the Y direction at a point is clockwise.
def swapsXY (m : Projection K) (p : Point K) : Bool :=
  0 < (m.directionFrom p .x).det (m.directionFrom p .y)

end Projection

namespace Corners

def reference : AxisSet := .xy

-- The axis whose half-line from the reference corner crosses the opposite side of the triangle.
def triangleCentral (p x y z : Point K) : AxisSet :=
  if Line.rayCrosses p x y z then .x
  else if Line.rayCrosses p y z x then .y
  else if Line.rayCrosses p z x y then .z
  else .empty

def triangleCase (c : Corners K) (m : Projection K) : VanishingCase :=
  let x := m.vpX.toPoint
  let y := m.vpY.toPoint
  let z := m.vpZ.toPoint
  let p := c.screen m reference
  let central := triangleCentral p x y z
  let crosses (a b : Point K) (edge : AxisSet) : Option AxisSet :=
    if Line.rayCrosses a b p (c.screen m (reference ^^^ edge)) then some edge else none
  let crossed := match central with
    | .x => crosses z x .y
    | .y => crosses z y .x
    | .z => crosses x z .y <|> crosses x y .z
    | _ => none
  .triangle central crossed

-- The sector of two lines of an axis: through the reference corner and through its neighbour
-- along an edge.
def vpSector (c : Corners K) (m : Projection K) (vp edge axis : Axis) : SectorPosition :=
  c.vpSectorPosition m vp reference (reference ^^^ .single edge) (.single axis)

def oneFiniteCase (c : Corners K) (m : Projection K) (central : AxisSet) (swapped : Bool)
    (finite first second : Axis) : VanishingCase :=
  .oneFinite central swapped (c.vpSector m finite second first) (c.vpSector m finite first second)

def sectorCase (c : Corners K) (m : Projection K) : VanishingCase :=
  let p := c.screen m reference
  let central := m.centralAxis p
  let swapped := m.swapsXY p
  match m.isFinite .x, m.isFinite .y, m.isFinite .z with
  | false, false, false => .allInfinite central swapped
  | true, false, false => oneFiniteCase c m central swapped .x .y .z
  | false, true, false => oneFiniteCase c m central swapped .y .x .z
  | false, false, true => oneFiniteCase c m central swapped .z .x .y
  | _, _, _ => .severalFinite central swapped
    { xy := c.vpSector m .x .z .y
      xz := c.vpSector m .x .y .z
      yx := c.vpSector m .y .z .x
      yz := c.vpSector m .y .x .z
      zx := c.vpSector m .z .y .x
      zy := c.vpSector m .z .x .y }

def vanishingCase (c : Corners K) (m : Projection K) (strategy : OrderStrategy) :
    VanishingCase :=
  if strategy = .vanishingTriangle ∧ m.isFinite .x ∧ m.isFinite .y ∧ m.isFinite .z then
    c.triangleCase m
  else c.sectorCase m

-- The face order of the box. Along every axis on which the box is everted, the two faces have
-- changed places.
def faceOrder (c : Corners K) (m : Projection K) (strategy : OrderStrategy) : FaceOrder :=
  c.everted.axes.foldl (fun order axis => order.swapFaces (.single axis))
    (c.vanishingCase m strategy).order

-- Without a finite vanishing point the strategies agree, and the directions decide, which are the
-- same at every point.
theorem vanishingCase_of_infinite {m : Projection K} (h : ∀ a : Axis, m.isFinite a = false)
    (c : Corners K) (strategy : OrderStrategy) (p : Point K) :
    c.vanishingCase m strategy = .allInfinite (m.centralAxis p) (m.swapsXY p) := by
  have hx : m.isFinite .x = false := h .x
  have hy : m.isFinite .y = false := h .y
  have hz : m.isFinite .z = false := h .z
  rw [vanishingCase, if_neg (by simp [hx]), sectorCase]
  simp only [hx, hy, hz, Projection.centralAxis, Projection.swapsXY,
    Projection.directionFrom_of_infinite hx, Projection.directionFrom_of_infinite hy,
    Projection.directionFrom_of_infinite hz]

end Corners

end PerspectiveBox
