import Mathlib.Tactic.LinearCombination
import PerspectiveBox.Proofs.Plane.Turn

namespace PerspectiveBox

-- A turn and a change of size, and a shift after them.
structure Similarity where
  cos : Rat
  sin : Rat
  dx : Rat
  dy : Rat
  factor : Rat
  factor_eq : cos * cos + sin * sin = factor
  positive : 0 < factor

namespace Similarity

variable (g : Similarity)

-- The map `x' = cos x - sin y + dx`, `y' = sin x + cos y + dy`.
def move (p : Point Rat) : Point Rat :=
  ⟨g.cos * p.x + -g.sin * p.y + g.dx, g.sin * p.x + g.cos * p.y + g.dy⟩

def turn (v : Vec Rat) : Vec Rat := ⟨g.cos * v.x + -g.sin * v.y, g.sin * v.x + g.cos * v.y⟩

theorem cross_turn (v w : Vec Rat) : (g.turn v).cross (g.turn w) = g.factor * v.cross w := by
  simp only [Vec.cross, turn]
  linear_combination (v.x * w.y - v.y * w.x) * g.factor_eq

theorem inner_turn (v w : Vec Rat) : (g.turn v).inner (g.turn w) = g.factor * v.inner w := by
  simp only [Vec.inner, turn]
  linear_combination (v.x * w.x + v.y * w.y) * g.factor_eq

theorem vecTo_move (p q : Point Rat) : (g.move p).vecTo (g.move q) = g.turn (p.vecTo q) := by
  simp only [Point.vecTo, move, turn, Vec.mk.injEq]
  constructor <;> ring

theorem area_move (p a b : Point Rat) :
    (g.move p).area (g.move a) (g.move b) = g.factor * p.area a b := by
  rw [Point.area, vecTo_move, vecTo_move, cross_turn, Point.area]

theorem isPositive_factor_mul (q : Rat) : isPositive (g.factor * q) = isPositive q :=
  decide_eq_decide.2 (mul_pos_iff_of_pos_left g.positive)

theorem factor_div (p q : Rat) : g.factor * p / (g.factor * q) = p / q :=
  mul_div_mul_left p q g.positive.ne'

-- The determinant `q` counts as zero just if the multiple of it does.
def Keeps (q : Rat) : Prop := 1e-6 ≤ |g.factor * q| ↔ 1e-6 ≤ |q|

-- The same where the threshold itself counts as zero.
def KeepsStrictly (q : Rat) : Prop := 1e-6 < |g.factor * q| ↔ 1e-6 < |q|

section

variable {g} {q : Rat}

theorem keeps_iff :
    decide (Scalar.abs (.rational g.factor * .rational q : Exact) < Scalar.epsilon) =
      decide (Scalar.abs (.rational q : Exact) < Scalar.epsilon) ↔ g.Keeps q := by
  rw [Exact.rational_mul, Exact.abs_rational, Exact.abs_rational, Exact.epsilon_eq,
    decide_eq_decide, Exact.rational_lt, Exact.rational_lt, ← not_le, ← not_le, not_iff_not]
  rfl

theorem keepsStrictly_iff :
    decide (Scalar.abs (.rational g.factor * .rational q : Exact) ≤ Scalar.epsilon) =
      decide (Scalar.abs (.rational q : Exact) ≤ Scalar.epsilon) ↔ g.KeepsStrictly q := by
  rw [Exact.rational_mul, Exact.abs_rational, Exact.abs_rational, Exact.epsilon_eq,
    decide_eq_decide, Exact.rational_le, Exact.rational_le, ← not_lt, ← not_lt, not_iff_not]
  rfl

end

variable {g} in
theorem between_turn {u v : Vec Rat} (h : g.Keeps (u.cross v)) (w : Vec Rat) :
    (g.turn u).exact.between (g.turn v).exact (g.turn w).exact =
      u.exact.between v.exact w.exact := by
  by_cases hfar : 1e-6 ≤ |u.cross v|
  · have hmoved : 1e-6 ≤ |(g.turn u).cross (g.turn v)| := by
      rw [cross_turn]
      exact h.2 hfar
    simp only [Vec.between_exact hfar, Vec.between_exact hmoved, cross_turn, factor_div]
  · have hmoved : ¬ 1e-6 ≤ |(g.turn u).cross (g.turn v)| := by
      rw [cross_turn]
      exact fun hnear => hfar (h.1 hnear)
    rw [Vec.between_exact_of_near hfar, Vec.between_exact_of_near hmoved, inner_turn]
    refine decide_eq_decide.2 ?_
    rw [← not_le, ← not_le, mul_nonneg_iff_of_pos_left g.positive]

theorem sameSide_move (p a b : Point Rat) (v : Vec Rat) :
    (Line.along (g.move p).exact (g.turn v).exact).sameSide (g.move a).exact (g.move b).exact =
      (Line.along p.exact v.exact).sameSide a.exact b.exact := by
  simp only [Line.sameSide, Line.side_along, vecTo_move, cross_turn, Exact.rational_mul,
    Exact.zero_eq, Exact.rational_lt, neg_mul_neg]
  refine decide_eq_decide.2 ?_
  rw [mul_mul_mul_comm]
  exact mul_pos_iff_of_pos_left (mul_pos g.positive g.positive)

variable {g} in
theorem rayCrosses_move {p a b c : Point Rat}
    (h : g.KeepsStrictly ((p.vecTo a).cross (b.vecTo c))) :
    Line.rayCrosses (g.move p).exact (g.move a).exact (g.move b).exact (g.move c).exact =
      Line.rayCrosses p.exact a.exact b.exact c.exact := by
  have hslope : ((g.move p).vecTo (g.move a)).cross ((g.move b).vecTo (g.move c)) =
      g.factor * (p.vecTo a).cross (b.vecTo c) := by
    rw [vecTo_move, vecTo_move, cross_turn]
  by_cases hfar : 1e-6 < |(p.vecTo a).cross (b.vecTo c)|
  · have hmoved : 1e-6 < |((g.move p).vecTo (g.move a)).cross ((g.move b).vecTo (g.move c))| := by
      rw [hslope]
      exact h.2 hfar
    have hnearer (t : Rat) :
        decide ((t - 1) ^ 2 * (g.factor * (p.vecTo a).inner (p.vecTo a)) ≤
          t ^ 2 * (g.factor * (p.vecTo a).inner (p.vecTo a))) =
        decide ((t - 1) ^ 2 * (p.vecTo a).inner (p.vecTo a) ≤
          t ^ 2 * (p.vecTo a).inner (p.vecTo a)) := by
      refine decide_eq_decide.2 ?_
      rw [mul_left_comm, mul_left_comm (t ^ 2)]
      exact mul_le_mul_iff_right₀ g.positive
    simp only [Line.rayCrosses, Line.meet?_through hfar, Line.meet?_through hmoved,
      Line.decide_side_neg, Line.lengthLE_along, area_move, vecTo_move, cross_turn, inner_turn,
      isPositive_factor_mul, factor_div, hnearer]
  · have hmoved : ¬ 1e-6 < |((g.move p).vecTo (g.move a)).cross ((g.move b).vecTo (g.move c))| := by
      rw [hslope]
      exact fun hmeet => hfar (h.1 hmeet)
    simp only [Line.rayCrosses, Line.meet?_through_of_parallel hfar,
      Line.meet?_through_of_parallel hmoved]

end Similarity

end PerspectiveBox
