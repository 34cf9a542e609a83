import PerspectiveBox.Projective.Point

namespace PerspectiveBox

-- A map of the page that acts on homogeneous points. It is affine if its last row equals `0 0 1`.
structure Affine (K : Type) where
  m11 : K
  m12 : K
  m13 : K
  m21 : K
  m22 : K
  m23 : K
  m31 : K
  m32 : K
  m33 : K
  deriving BEq

namespace Affine

variable {K : Type} [Scalar K]

def identity : Affine K := ⟨1, 0, 0, 0, 1, 0, 0, 0, 1⟩

-- The map `x' = a x + c y + e`, `y' = b x + d y + f`.
def ofCoefficients (a b c d e f : K) : Affine K := ⟨a, c, e, b, d, f, 0, 0, 1⟩

def shift (dx dy : K) : Affine K := { identity with m13 := dx, m23 := dy }

def scale (sx sy : K) : Affine K := { identity with m11 := sx, m22 := sy }

def rotation (angle : K) : Affine K :=
  let s := Scalar.sin angle
  let c := Scalar.cos angle
  { identity with m11 := c, m12 := -s, m21 := s, m22 := c }

-- The image of a homogeneous point with all three coordinates.
def act (m : Affine K) (p : HPoint2 K) : HPoint2 K where
  x := m.m11 * p.x + m.m12 * p.y + m.m13 * p.w
  y := m.m21 * p.x + m.m22 * p.y + m.m23 * p.w
  w := m.m31 * p.x + m.m32 * p.y + m.m33 * p.w

-- The matrix product: a point goes through `n` first and through `m` after it.
def compose (m n : Affine K) : Affine K :=
  let c₁ := m.act ⟨n.m11, n.m21, n.m31⟩
  let c₂ := m.act ⟨n.m12, n.m22, n.m32⟩
  let c₃ := m.act ⟨n.m13, n.m23, n.m33⟩
  ⟨c₁.x, c₂.x, c₃.x, c₁.y, c₂.y, c₃.y, c₁.w, c₂.w, c₃.w⟩

def applyPoint (m : Affine K) (p : Point K) : Point K :=
  let q := m.act ⟨p.x, p.y, 1⟩
  ⟨q.x, q.y⟩

-- The weight is kept, so a point at infinity stays there and only its direction is mapped.
def apply (m : Affine K) (p : HPoint2 K) : HPoint2 K :=
  { m.act p with w := p.w }

-- By cofactors; there is none when the determinant is zero.
def inverse? (m : Affine K) : Option (Affine K) :=
  let a := m.m22 * m.m33 - m.m32 * m.m23
  let b := m.m21 * m.m33 - m.m31 * m.m23
  let c := m.m21 * m.m32 - m.m31 * m.m22
  let d := m.m11 * a - m.m12 * b + m.m13 * c
  if d == 0 then none
  else some {
    m11 := a / d
    m12 := (m.m13 * m.m32 - m.m33 * m.m12) / d
    m13 := (m.m12 * m.m23 - m.m22 * m.m13) / d
    m21 := -b / d
    m22 := (m.m11 * m.m33 - m.m31 * m.m13) / d
    m23 := (m.m13 * m.m21 - m.m23 * m.m11) / d
    m31 := c / d
    m32 := (m.m12 * m.m31 - m.m32 * m.m11) / d
    m33 := (m.m11 * m.m22 - m.m21 * m.m12) / d }

def isIdentity (m : Affine K) : Bool := m == identity

end Affine

end PerspectiveBox
