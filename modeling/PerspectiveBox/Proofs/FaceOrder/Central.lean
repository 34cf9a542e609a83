import PerspectiveBox.FaceOrder.Classify
import PerspectiveBox.Proofs.Plane.Turn

namespace PerspectiveBox

-- The axes in a circle.
def Axis.next : Axis → Axis
  | x => y
  | y => z
  | z => x

-- The turns from X to Y, from Y to Z and from Z to X; the axis opposite to the odd one of them
-- lies between the other two.
def betweenAxis (xy yz zx : Bool) : AxisSet :=
  if xy != yz && xy != zx then .z
  else if yz != zx && yz != xy then .x
  else if zx != xy && zx != yz then .y
  else .empty

theorem betweenAxis_eq_empty_iff (xy yz zx : Bool) :
    betweenAxis xy yz zx = .empty ↔ xy = yz ∧ yz = zx := by
  revert xy yz zx
  decide

theorem exists_betweenAxis_eq_single {xy yz zx : Bool} (h : betweenAxis xy yz zx ≠ .empty) :
    ∃ a, betweenAxis xy yz zx = .single a := by
  rw [betweenAxis] at h ⊢
  split_ifs at h ⊢
  · exact ⟨.z, rfl⟩
  · exact ⟨.x, rfl⟩
  · exact ⟨.y, rfl⟩
  · exact absurd rfl h

-- With each turn told by the axis opposite to it: the order of the tests does not matter, as at
-- most one of three turns differs from both others.
theorem betweenAxis_eq_single_iff (turn : Axis → Bool) (a : Axis) :
    betweenAxis (turn .z) (turn .x) (turn .y) = .single a ↔
      ((turn a != turn a.next) && (turn a != turn a.next.next)) = true := by
  cases a <;> simp only [Axis.next] <;> generalize turn .x = x <;> generalize turn .y = y <;>
    generalize turn .z = z <;> revert x y z <;> decide

namespace Projection

variable {m : Projection Exact} {p : Point Exact} {u : Axis → Vec Rat}

theorem centralAxis_of_directions (hdirection : ∀ a : Axis, m.directionFrom p a = (u a).exact)
    (hapart : ∀ a b, a ≠ b → 1e-6 ≤ |(u a).cross (u b)|) :
    m.centralAxis p = betweenAxis (isPositive ((u .x).cross (u .y)))
      (isPositive ((u .y).cross (u .z))) (isPositive ((u .z).cross (u .x))) := by
  have hxy : 1e-6 ≤ |(u .x).cross (u .y)| := hapart .x .y nofun
  have hyz : 1e-6 ≤ |(u .y).cross (u .z)| := hapart .y .z nofun
  have hzx : 1e-6 ≤ |(u .z).cross (u .x)| := hapart .z .x nofun
  have hx : m.directionFrom p .x = (u .x).exact := hdirection .x
  have hy : m.directionFrom p .y = (u .y).exact := hdirection .y
  have hz : m.directionFrom p .z = (u .z).exact := hdirection .z
  have hxy0 := ne_zero_of_epsilon_le hxy
  have hyz0 := ne_zero_of_epsilon_le hyz
  have hzx0 := ne_zero_of_epsilon_le hzx
  simp only [centralAxis, betweenAxis, hx, hy, hz, Vec.between_turns hxy hyz0 hzx0,
    Vec.between_turns hyz hzx0 hxy0, Vec.between_turns hzx hxy0 hyz0]

end Projection

end PerspectiveBox
