import PerspectiveBox.Box.Face
import PerspectiveBox.FaceOrder.Sector

namespace PerspectiveBox

-- Face slots from the top of the stack to the bottom.
abbrev FaceOrder := List Nat

-- The position of each vanishing point against the lines of each other axis: `xy` is the X
-- vanishing point against the Y lines.
structure VpSectors where
  xy : SectorPosition
  xz : SectorPosition
  yx : SectorPosition
  yz : SectorPosition
  zx : SectorPosition
  zy : SectorPosition
  deriving DecidableEq, Repr

-- A configuration of the vanishing points as seen from the reference corner. The central axis is
-- the one whose direction lies between the other two, and is empty if there is none; the X and Y
-- directions may be swapped on screen. A single finite vanishing point is held against the lines
-- of the first and of the second axis beside its own.
inductive VanishingCase where
  | allInfinite (central : AxisSet) (swapped : Bool)
  | oneFinite (central : AxisSet) (swapped : Bool) (first second : SectorPosition)
  | severalFinite (central : AxisSet) (swapped : Bool) (sectors : VpSectors)
  -- All three are finite, and the edge at the reference corner that a side of their triangle
  -- crosses, if any, is told by its direction.
  | triangle (central : AxisSet) (crossedEdge : Option AxisSet)
  deriving DecidableEq, Repr

namespace FaceOrder

def parallel : AxisSet → Bool → FaceOrder
  | .x, false => [2, 0, 4, 1, 3, 5]
  | .x, true => [3, 1, 5, 2, 4, 0]
  | .y, false => [2, 3, 1, 4, 0, 5]
  | .y, true => [5, 0, 4, 1, 3, 2]
  | .z, false => [2, 0, 1, 4, 3, 5]
  | .z, true => [5, 3, 4, 1, 0, 2]
  | _, false => [2, 3, 4, 1, 0, 5]
  | _, true => [5, 0, 1, 4, 3, 2]

def oneFinite (central : AxisSet) (swapped : Bool) (first second : SectorPosition) : FaceOrder :=
  match central with
  | .x => if swapped then [5, 3, 1, 0, 2, 4] else [2, 4, 0, 1, 3, 5]
  | .y =>
    match second with
    | .toward => [1, 2, 3, 0, 5, 4]
    | .away => parallel .y false
    | .outside => if swapped then parallel .y true else [2, 3, 1, 5, 0, 4]
  | .z =>
    if second.isInside then
      if swapped then [5, 3, 4, 0, 1, 2] else [2, 1, 3, 0, 4, 5]
    else if first.isInside then parallel .z swapped
    else if swapped then [5, 3, 4, 0, 2, 1]
    else [0, 1, 2, 5, 4, 3]
  | _ => if swapped then [5, 0, 1, 3, 2, 4] else [2, 3, 4, 5, 0, 1]

def severalFinite (central : AxisSet) (swapped : Bool) (sectors : VpSectors) : FaceOrder :=
  match central, swapped with
  | .x, true => if sectors.yz = .away then [3, 1, 5, 0, 2, 4] else [1, 3, 5, 0, 2, 4]
  | .x, false =>
    if sectors.zy = .away then [2, 4, 0, 1, 3, 5]
    else if sectors.xy = .toward then [2, 4, 0, 5, 1, 3]
    else [2, 4, 0, 1, 3, 5]
  | .y, true => parallel .y true
  | .y, false => if sectors.yz = .toward then [2, 3, 1, 0, 5, 4] else [2, 3, 1, 5, 0, 4]
  | .z, true => parallel .z true
  | .z, false =>
    if sectors.zy = .toward then [2, 1, 0, 4, 3, 5]
    else if sectors.xy = .away then [2, 1, 0, 5, 4, 3]
    else [2, 0, 1, 5, 3, 4]
  | _, swapped => parallel .empty swapped

def triangle : AxisSet → Option AxisSet → FaceOrder
  | .x, some _ => [2, 1, 0, 4, 5, 3]
  | .x, none => [2, 4, 0, 5, 1, 3]
  | .y, some _ => [2, 1, 3, 0, 5, 4]
  | .y, none => [2, 3, 1, 5, 0, 4]
  | .z, some .y => parallel .z false
  | .z, some _ => [2, 1, 0, 5, 3, 4]
  | .z, none => [2, 1, 0, 3, 4, 5]
  | _, _ => parallel .empty false

-- Exchanges the two faces of an order that are orthogonal to an axis. With an order of anything
-- else, these are the first two entries whose plane does not contain the axis.
def swapFaces (order : FaceOrder) (axes : AxisSet) : FaceOrder :=
  match order.zipIdx.filter fun (slot, _) => !(Face.slotPlane slot).meets axes with
  | (a, i) :: (b, j) :: _ => (order.set i b).set j a
  | _ => order

end FaceOrder

-- The order called for, before any correction for eversion.
def VanishingCase.order : VanishingCase → FaceOrder
  | allInfinite central swapped => .parallel central swapped
  | oneFinite central swapped first second => .oneFinite central swapped first second
  | severalFinite central swapped sectors => .severalFinite central swapped sectors
  | triangle central crossedEdge => .triangle central crossedEdge

end PerspectiveBox
