import PerspectiveBox.Plane.Affine
import PerspectiveBox.Proofs.Plane.Similar

namespace PerspectiveBox

-- A rotation and a shift after it.
structure Motion where
  cos : Rat
  sin : Rat
  dx : Rat
  dy : Rat
  unit : cos * cos + sin * sin = 1

namespace Motion

variable (g : Motion)

-- The map `x' = cos x - sin y + dx`, `y' = sin x + cos y + dy`.
def affine : Affine Exact :=
  .ofCoefficients (.rational g.cos) (.rational g.sin) (-.rational g.sin) (.rational g.cos)
    (.rational g.dx) (.rational g.dy)

def move (p : Point Rat) : Point Rat :=
  ⟨g.cos * p.x + -g.sin * p.y + g.dx, g.sin * p.x + g.cos * p.y + g.dy⟩

def similarity : Similarity := ⟨g.cos, g.sin, g.dx, g.dy, 1, g.unit, one_pos⟩

end Motion

end PerspectiveBox
