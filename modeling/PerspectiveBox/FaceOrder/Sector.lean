import PerspectiveBox.Box.Corners
import PerspectiveBox.Projective.Line

namespace PerspectiveBox

-- Lines through a finite vanishing point leave an angle between them, parallel ones a strip. The
-- box edge between the two corners cuts the strip in the part towards the vanishing direction
-- and the part away from it; an angle has only the former.
inductive SectorPosition where
  | outside
  | toward
  | away
  deriving DecidableEq, Repr

def SectorPosition.sign : SectorPosition → Int
  | outside => 0
  | toward => 1
  | away => -1

def SectorPosition.isInside (s : SectorPosition) : Bool := s != outside

variable {K : Type} [Scalar K]

namespace Corners

def sectorPosition (c : Corners K) (m : Projection K) (p : Point K) (id₁ id₂ : AxisSet)
    (axis : Axis) : SectorPosition :=
  let p₁ := c.screen m id₁
  let p₂ := c.screen m id₂
  let vp := m.column axis
  if vp.isFinite then
    let v := vp.toPoint
    if Vec.between (p₁ - v) (p₂ - v) (p - v) then .toward else .outside
  else
    let l₁ := (PerspectiveLine.through m p₁ axis).line
    let l₂ := (PerspectiveLine.through m p₂ axis).line
    if l₁.sameSide p p₂ && l₂.sameSide p p₁ then
      let beyond := c.screen m (id₁ ^^^ .single axis)
      if (Line.through p₁ p₂).sameSide p beyond then .toward else .away
    else .outside

-- Only a single axis has lines at all.
def sectorPositionOf (c : Corners K) (m : Projection K) (p : Point K) (id₁ id₂ axes : AxisSet) :
    SectorPosition :=
  (axes.axis?.map (c.sectorPosition m p id₁ id₂)).getD .outside

-- The same for a vanishing point; one at infinity is always outside.
def vpSectorPosition (c : Corners K) (m : Projection K) (vp : Coord) (id₁ id₂ axes : AxisSet) :
    SectorPosition :=
  if m.isFinite vp then c.sectorPositionOf m (m.column vp).toPoint id₁ id₂ axes else .outside

end Corners

end PerspectiveBox
