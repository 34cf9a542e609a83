import PerspectiveBox.Number.Scalar

namespace PerspectiveBox

structure Point (K : Type) where
  x : K
  y : K
  deriving BEq

structure Vec (K : Type) where
  x : K
  y : K
  deriving BEq

variable {K : Type} [Scalar K]

instance : HSub (Point K) (Point K) (Vec K) := ⟨fun p q => ⟨p.x - q.x, p.y - q.y⟩⟩

instance : HAdd (Point K) (Vec K) (Point K) := ⟨fun p v => ⟨p.x + v.x, p.y + v.y⟩⟩

instance : HMul (Vec K) K (Vec K) := ⟨fun v k => ⟨v.x * k, v.y * k⟩⟩

namespace Vec

def dot (v w : Vec K) : K := v.x * w.x + v.y * w.y

-- The determinant of the matrix with these columns: positive when the turn from the first to the
-- second is clockwise on a screen whose y axis points down.
def det (v w : Vec K) : K := v.x * w.y - v.y * w.x

-- A quarter turn.
def turned (v : Vec K) : Vec K := ⟨v.y, -v.x⟩

def length (v : Vec K) : Scalar.Length K := Scalar.norm v.x v.y

end Vec

namespace Point

-- Stands for a point that cannot be displayed.
def nowhere : Point K := ⟨Scalar.infinity, Scalar.infinity⟩

def isFinite (p : Point K) : Bool := Scalar.isFinite p.x && Scalar.isFinite p.y

-- The vector from the origin.
def position (p : Point K) : Vec K := ⟨p.x, p.y⟩

end Point

end PerspectiveBox
