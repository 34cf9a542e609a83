import Mathlib.Tactic.FieldSimp
import Mathlib.Tactic.Positivity
import PerspectiveBox.Proofs.Exact

namespace PerspectiveBox

def isPositive (q : Rat) : Bool := decide (0 < q)

theorem isPositive_mul {p q : Rat} (hp : p ≠ 0) (hq : q ≠ 0) :
    isPositive (p * q) = (isPositive p == isPositive q) := by
  rcases lt_or_gt_of_ne hp with hp | hp <;> rcases lt_or_gt_of_ne hq with hq | hq
  · simp [isPositive, mul_pos_of_neg_of_neg hp hq, hp.not_gt, hq.not_gt]
  · simp [isPositive, (mul_neg_of_neg_of_pos hp hq).not_gt, hp.not_gt, hq]
  · simp [isPositive, (mul_neg_of_pos_of_neg hp hq).not_gt, hp, hq.not_gt]
  · simp [isPositive, mul_pos hp hq, hp, hq]

theorem isPositive_mul_self {p : Rat} (hp : p ≠ 0) : isPositive (p * p) = true := by
  rw [isPositive_mul hp hp, beq_self_eq_true]

theorem mul_neg_iff_isPositive {p q : Rat} (hp : p ≠ 0) (hq : q ≠ 0) :
    p * q < 0 ↔ isPositive p ≠ isPositive q := by
  rw [ne_eq, ← beq_iff_eq, ← isPositive_mul hp hq, isPositive, decide_eq_true_iff, not_lt]
  exact ⟨le_of_lt, fun hle => lt_of_le_of_ne hle (mul_ne_zero hp hq)⟩

theorem isPositive_neg {p : Rat} (hp : p ≠ 0) : isPositive (-p) = !isPositive p := by
  rcases lt_or_gt_of_ne hp with hp | hp
  · simp [isPositive, hp, hp.not_gt]
  · simp [isPositive, hp, hp.le]

-- A quotient counts as a coefficient of a sector when numerator and denominator have one sign.
theorem nonneg_neg_div {p q : Rat} (hp : p ≠ 0) (hq : q ≠ 0) :
    decide (0 ≤ -p / q) = (isPositive p != isPositive q) := by
  rcases lt_or_gt_of_ne hp with hp | hp <;> rcases lt_or_gt_of_ne hq with hq | hq
  · simp [isPositive, hp.not_gt, hq.not_gt, (div_neg_of_pos_of_neg (neg_pos.2 hp) hq)]
  · simp [isPositive, hp.not_gt, hq, (div_pos (neg_pos.2 hp) hq).le]
  · simp [isPositive, hp, hq.not_gt, (div_pos_of_neg_of_neg (neg_neg_of_pos hp) hq).le]
  · simp [isPositive, hp, hq, (div_neg_of_neg_of_pos (neg_neg_of_pos hp) hq)]

-- What is added to a number has not carried it away from zero just when it has the other sign.
-- Either the sum has changed its sign, or it has become smaller.
theorem isPositive_ne_of_add {p q r : Rat} (hp : p ≠ 0) (hqr : 0 < q * r) (hsum : p + q + r ≠ 0) :
    (isPositive p != isPositive (p + q + r) || decide ((p + q + r) ^ 2 ≤ p ^ 2)) =
      (isPositive p != isPositive q) := by
  rcases pos_and_pos_or_neg_and_neg_of_mul_pos hqr with ⟨hq, hr⟩ | ⟨hq, hr⟩
  · rcases lt_or_gt_of_ne hp with hp | hp
    · rcases lt_or_gt_of_ne hsum with hs | hs
      · have hle : (p + q + r) ^ 2 ≤ p ^ 2 := by nlinarith
        simp [isPositive, hp.not_gt, hq, hle]
      · simp [isPositive, hp.not_gt, hq, hs]
    · have hs : 0 < p + q + r := by linarith
      have hgt : ¬ (p + q + r) ^ 2 ≤ p ^ 2 := by nlinarith
      simp [isPositive, hp, hq, hs, hgt]
  · rcases lt_or_gt_of_ne hp with hp | hp
    · have hs : p + q + r < 0 := by linarith
      have hgt : ¬ (p + q + r) ^ 2 ≤ p ^ 2 := by nlinarith
      simp [isPositive, hp.not_gt, hq.not_gt, hs.not_gt, hgt]
    · rcases lt_or_gt_of_ne hsum with hs | hs
      · simp [isPositive, hp, hq.not_gt, hs.not_gt]
      · have hle : (p + q + r) ^ 2 ≤ p ^ 2 := by nlinarith
        simp [isPositive, hp, hq.not_gt, hle]

namespace Vec

theorem cross_swap (v w : Vec Rat) : w.cross v = -v.cross w := by
  simp only [cross]
  ring

theorem cross_self (v : Vec Rat) : v.cross v = 0 := by
  simp only [cross]
  ring

theorem inner_self_pos {v w : Vec Rat} (h : v.cross w ≠ 0) : 0 < v.inner v := by
  have hne : v.x ≠ 0 ∨ v.y ≠ 0 := by
    by_contra hzero
    rw [not_or, not_not, not_not] at hzero
    refine h ?_
    rw [cross, hzero.1, hzero.2]
    ring
  rcases hne with hx | hy
  · exact add_pos_of_pos_of_nonneg (mul_self_pos.2 hx) (mul_self_nonneg _)
  · exact add_pos_of_nonneg_of_pos (mul_self_nonneg _) (mul_self_pos.2 hy)

-- A direction lies between two others when the turn from the one to the other is opposite to the
-- two turns that lead on.
theorem between_turns {u v w : Vec Rat} (h : 1e-6 ≤ |u.cross v|) (hvw : v.cross w ≠ 0)
    (hwu : w.cross u ≠ 0) : u.exact.between v.exact w.exact =
      ((isPositive (u.cross v) != isPositive (v.cross w)) &&
        (isPositive (u.cross v) != isPositive (w.cross u))) := by
  have huv : u.cross v ≠ 0 := ne_zero_of_epsilon_le h
  rw [between_exact h, cross_swap v w, cross_swap w u, nonneg_neg_div hvw huv,
    nonneg_neg_div hwu huv, bne_comm (a := isPositive (v.cross w)),
    bne_comm (a := isPositive (w.cross u))]

end Vec

namespace Point

-- The vector from one point to another.
def vecTo (p q : Point Rat) : Vec Rat := ⟨q.x - p.x, q.y - p.y⟩

-- Twice the area of a triangle, negative if its corners are gone through the other way.
def area (p a b : Point Rat) : Rat := (p.vecTo a).cross (p.vecTo b)

variable (p a b c : Point Rat)

theorem area_rotate : a.area b p = p.area a b := by
  simp only [area, vecTo, Vec.cross]
  ring

theorem area_swap : p.area b a = -p.area a b := Vec.cross_swap _ _

-- A triangle is made up of those that a point makes with its sides.
theorem area_add : a.area b c = p.area b c + p.area a b + p.area c a := by
  simp only [area, vecTo, Vec.cross]
  ring

theorem cross_side : (p.vecTo a).cross (b.vecTo c) = -(p.area a b + p.area c a) := by
  simp only [area, vecTo, Vec.cross]
  ring

end Point

namespace Line

variable {p a b c : Point Rat}

theorem side_along (p : Point Rat) (v : Vec Rat) (q : Point Rat) :
    (along p.exact v.exact).side q.exact = .rational (-v.cross (p.vecTo q)) := by
  refine congrArg Exact.rational ?_
  simp only [Point.vecTo, Vec.cross]
  ring

theorem side_through (p a b : Point Rat) :
    (through p.exact a.exact).side b.exact = .rational (-p.area a b) :=
  side_along p (p.vecTo a) b

theorem decide_side_neg (p a b : Point Rat) :
    decide ((through p.exact a.exact).side b.exact < 0) = isPositive (p.area a b) := by
  rw [side_through, Exact.zero_eq]
  simp only [Exact.rational_lt, neg_lt_zero, isPositive]

theorem slope_through (p a b c : Point Rat) :
    (through p.exact a.exact).direction.dot (through b.exact c.exact).normal =
      .rational ((p.vecTo a).cross (b.vecTo c)) := by
  refine congrArg Exact.rational ?_
  simp only [Point.vecTo, Vec.cross]
  ring

-- Where two lines meet, counted in steps from `p` to `a`.
theorem meet?_through (h : 1e-6 < |(p.vecTo a).cross (b.vecTo c)|) :
    (through p.exact a.exact).meet? (through b.exact c.exact) =
      some ((through p.exact a.exact).point + (through p.exact a.exact).direction *
        (Exact.rational (p.area b c / (p.vecTo a).cross (b.vecTo c)))) := by
  have hgap : (through b.exact c.exact).offset -
      (through p.exact a.exact).point.position.dot (through b.exact c.exact).normal =
        .rational (p.area b c) := by
    refine congrArg Exact.rational ?_
    simp only [Point.area, Point.vecTo, Vec.cross]
    ring
  have hfar : ¬ Scalar.abs (Exact.rational ((p.vecTo a).cross (b.vecTo c))) ≤ Scalar.epsilon := by
    rw [Exact.abs_rational, Exact.epsilon_eq, Exact.rational_le]
    exact not_le.2 h
  simp only [meet?, slope_through, hgap, if_neg hfar,
    Exact.rational_div _ _ (ne_zero_of_epsilon_le h.le)]

theorem meet?_through_of_parallel (h : ¬ 1e-6 < |(p.vecTo a).cross (b.vecTo c)|) :
    (through p.exact a.exact).meet? (through b.exact c.exact) = none := by
  have hnear : Scalar.abs (Exact.rational ((p.vecTo a).cross (b.vecTo c))) ≤ Scalar.epsilon := by
    rw [Exact.abs_rational, Exact.epsilon_eq, Exact.rational_le]
    exact not_lt.1 h
  simp only [meet?, slope_through, if_pos hnear]

-- The distance between two points of a line, squared.
theorem length_along (p a : Point Rat) (s t : Rat) :
    ((through p.exact a.exact).point + (through p.exact a.exact).direction * Exact.rational s -
      Point.exact ⟨p.x + (p.vecTo a).x * t, p.y + (p.vecTo a).y * t⟩).length =
        .rational ((s - t) ^ 2 * (p.vecTo a).inner (p.vecTo a)) := by
  refine congrArg Exact.rational ?_
  simp only [Point.vecTo, Vec.inner]
  ring

-- Which of `p` and `a` a point of their line is nearer to.
theorem lengthLE_along (p a : Point Rat) (s : Rat) :
    Scalar.lengthLE
      ((through p.exact a.exact).point + (through p.exact a.exact).direction * Exact.rational s -
        a.exact).length
      ((through p.exact a.exact).point + (through p.exact a.exact).direction * Exact.rational s -
        p.exact).length =
    decide ((s - 1) ^ 2 * (p.vecTo a).inner (p.vecTo a) ≤
      s ^ 2 * (p.vecTo a).inner (p.vecTo a)) := by
  have hp : p = ⟨p.x + (p.vecTo a).x * 0, p.y + (p.vecTo a).y * 0⟩ := by simp
  have ha : a = ⟨p.x + (p.vecTo a).x * 1, p.y + (p.vecTo a).y * 1⟩ := by simp [Point.vecTo]
  have hfrom := length_along p a s 0
  have hto := length_along p a s 1
  rw [← hp, sub_zero] at hfrom
  rw [← ha] at hto
  rw [hfrom, hto]
  rfl

-- The meeting point is not nearer to `a` than to `p` when the triangle on `a` is not the larger.
theorem lengthLE_meet (hab : p.area a b ≠ 0) (hslope : (p.vecTo a).cross (b.vecTo c) ≠ 0) :
    Scalar.lengthLE
      ((through p.exact a.exact).point + (through p.exact a.exact).direction *
        Exact.rational (p.area b c / (p.vecTo a).cross (b.vecTo c)) - a.exact).length
      ((through p.exact a.exact).point + (through p.exact a.exact).direction *
        Exact.rational (p.area b c / (p.vecTo a).cross (b.vecTo c)) - p.exact).length =
    decide (a.area b c ^ 2 ≤ p.area b c ^ 2) := by
  have hend : p.area b c - (p.vecTo a).cross (b.vecTo c) = a.area b c := by
    rw [Point.cross_side, Point.area_add p a b c]
    ring
  rw [lengthLE_along]
  refine decide_eq_decide.2 ?_
  rw [mul_le_mul_iff_left₀ (Vec.inner_self_pos hab), div_sub_one hslope, div_pow, div_pow,
    div_le_div_iff_of_pos_right (by positivity), hend]

-- The half-line reaches the line when it leaves `p` between `b` and `c`, in front or behind, and
-- these are seen from `p` in the direction of `a`.
theorem rayCrosses_turns (hslope : 1e-6 < |(p.vecTo a).cross (b.vecTo c)|) (hab : p.area a b ≠ 0)
    (hbc : p.area b c ≠ 0) (hca : p.area c a ≠ 0) (habc : a.area b c ≠ 0) :
    rayCrosses p.exact a.exact b.exact c.exact =
      ((isPositive (p.area a b) == isPositive (p.area c a)) &&
        (isPositive (p.area b c) != isPositive (p.area a b))) := by
  have hback : isPositive (p.area a c) = !isPositive (p.area c a) := by
    rw [Point.area_swap, isPositive_neg hca]
  simp only [rayCrosses, meet?_through hslope, decide_side_neg,
    lengthLE_meet hab (ne_zero_of_epsilon_le hslope.le), hback, Point.area_rotate p b c,
    Point.area_rotate a b c]
  by_cases hsame : isPositive (p.area a b) = isPositive (p.area c a)
  · have hmul : 0 < p.area a b * p.area c a := by
      have hpositive := isPositive_mul hab hca
      rw [hsame, beq_self_eq_true] at hpositive
      exact of_decide_eq_true hpositive
    have hadd := isPositive_ne_of_add hbc hmul (Point.area_add p a b c ▸ habc)
    rw [← Point.area_add] at hadd
    rw [if_neg (by simp [hsame]), hsame, beq_self_eq_true, Bool.true_and, ← hsame, ← hadd]
    by_cases hside : isPositive (p.area b c) = isPositive (a.area b c)
    · simp [hside]
    · simp [hside]
  · have hopposite : isPositive (p.area a b) = !isPositive (p.area c a) := Bool.eq_not.2 hsame
    rw [if_pos hopposite, beq_eq_false_iff_ne.2 hsame, Bool.false_and]

end Line

end PerspectiveBox
