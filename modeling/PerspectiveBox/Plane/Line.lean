import PerspectiveBox.Plane.Point

namespace PerspectiveBox

open Scalar

-- A line through a point, with its normal form: its points are those whose product with the
-- normal is the offset.
structure Line (K : Type) where
  point : Point K
  direction : Vec K
  normal : Vec K
  offset : K

variable {K : Type} [Scalar K]

namespace Line

def along (start : Point K) (direction : Vec K) : Line K where
  point := start
  direction := direction
  normal := direction.turned
  offset := direction.turned.dot start.position

def through (start finish : Point K) : Line K := along start (finish - start)

def withDirection (l : Line K) (direction : Vec K) : Line K := along l.point direction

-- The common point, unless the lines are nearly parallel.
def meet? (l m : Line K) : Option (Point K) :=
  let slope := l.direction.dot m.normal
  if abs slope ≤ epsilon then none
  else some (l.point + l.direction * ((m.offset - l.point.position.dot m.normal) / slope))

-- The orthogonal projection of a point. A line without direction has only its base point.
def closest (l : Line K) (p : Point K) : Point K :=
  (l.meet? (along p l.direction.turned)).getD l.point

-- How far a point is off the line, in lengths of the normal; the sign tells the side.
def side (l : Line K) (p : Point K) : K := l.normal.dot p.position - l.offset

def sameSide (l : Line K) (p q : Point K) : Bool := 0 < l.side p * l.side q

-- Whether the half-line from `a` through `b` reaches the line through `c` and `d`, where these
-- two have to lie on either side of it. If the line misses the segment from `a` to `b`, it must
-- lie beyond `b`.
def rayCrosses (a b c d : Point K) : Bool :=
  let ab := through a b
  let cd := through c d
  match ab.meet? cd with
  | none => false
  | some e =>
    if decide (ab.side c < 0) = decide (ab.side d < 0) then false
    else if decide (cd.side a < 0) ≠ decide (cd.side b < 0) then true
    else lengthLE (e - b).length (e - a).length

end Line

namespace Vec

-- The coefficients of `w` over the basis `v₁`, `v₂`, unless these are nearly dependent.
def coordinates? (v₁ v₂ w : Vec K) : Option (K × K) :=
  let d := v₁.det v₂
  if abs d < epsilon then none else some (w.det v₂ / d, v₁.det w / d)

-- Whether `w` lies in the closed sector from `v₁` to `v₂`. Between dependent directions there is
-- a half-plane if they are opposite, and nothing otherwise.
def between (v₁ v₂ w : Vec K) : Bool :=
  match coordinates? v₁ v₂ w with
  | some (a, b) => decide (0 ≤ a) && decide (0 ≤ b)
  | none => v₁.dot v₂ < 0

end Vec

-- Whether `p` lies in the quadrangle with these corners in order: in the angle at `a` and in the
-- angle at `c`.
def Point.inQuadrangle (p a b c d : Point K) : Bool :=
  (d - a).between (b - a) (p - a) && (d - c).between (b - c) (p - c)

end PerspectiveBox
