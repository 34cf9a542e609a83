import PerspectiveBox.Axis
import PerspectiveBox.Plane.Point

namespace PerspectiveBox

open Scalar

-- A weight of zero means a point at infinity, which is a direction.
structure HPoint2 (K : Type) where
  x : K
  y : K
  w : K
  deriving BEq

structure HPoint3 (K : Type) where
  x : K
  y : K
  z : K
  w : K
  deriving BEq

variable {K : Type} [Scalar K]

namespace HPoint2

def ofPoint (p : Point K) : HPoint2 K := ⟨p.x, p.y, 1⟩

def ofDirection (v : Vec K) : HPoint2 K := ⟨v.x, v.y, 0⟩

-- Whether the point lies in the plane and not at infinity.
def isFinite (p : HPoint2 K) : Bool := p.w != 0

-- Divided through by the weight. At infinity, or so near that the weight counts as zero, there
-- is nothing to divide by.
def normalize? (p : HPoint2 K) : Option (HPoint2 K) :=
  if abs p.w < epsilon then none
  else if p.w == 1 then some p
  else some ⟨p.x / p.w, p.y / p.w, p.w / p.w⟩

def normalized (p : HPoint2 K) : HPoint2 K := p.normalize?.getD p

-- The point of the plane, if it can be displayed.
def point? (p : HPoint2 K) : Option (Point K) :=
  if p.isFinite then
    let q : Point K := ⟨p.x / p.w, p.y / p.w⟩
    if q.isFinite then some q else none
  else none

def toPoint (p : HPoint2 K) : Point K := p.point?.getD .nowhere

def direction (p : HPoint2 K) : Vec K := ⟨p.x, p.y⟩

end HPoint2

namespace HPoint3

-- Stands for a point that could not be computed.
def nowhere : HPoint3 K := ⟨infinity, infinity, infinity, 1⟩

def get (p : HPoint3 K) : Coord → K
  | .x => p.x
  | .y => p.y
  | .z => p.z
  | .w => p.w

def set (p : HPoint3 K) (c : Coord) (value : K) : HPoint3 K :=
  match c with
  | .x => { p with x := value }
  | .y => { p with y := value }
  | .z => { p with z := value }
  | .w => { p with w := value }

def isFinite (p : HPoint3 K) : Bool :=
  p.w != 0 && (Scalar.isFinite p.x && Scalar.isFinite p.y && Scalar.isFinite p.z &&
    Scalar.isFinite p.w)

def normalize? (p : HPoint3 K) : Option (HPoint3 K) :=
  if abs p.w < epsilon then none
  else if p.w == 1 then some p
  else some ⟨p.x / p.w, p.y / p.w, p.z / p.w, p.w / p.w⟩

def normalized (p : HPoint3 K) : HPoint3 K := p.normalize?.getD p

omit [Scalar K] in
theorem get_set_same (p : HPoint3 K) (c : Coord) (v : K) : (p.set c v).get c = v := by
  cases c <;> rfl

omit [Scalar K] in
theorem get_set_other (p : HPoint3 K) {c d : Coord} (v : K) (h : c ≠ d) :
    (p.set c v).get d = p.get d := by
  cases c <;> cases d <;> first | rfl | exact absurd rfl h

end HPoint3

end PerspectiveBox
