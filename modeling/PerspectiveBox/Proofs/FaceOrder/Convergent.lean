import Mathlib.Tactic.LinearCombination
import PerspectiveBox.Proofs.FaceOrder.Central

namespace PerspectiveBox

-- The vanishing points are finite and do not lie on a line.
structure Projection.Convergent (m : Projection Exact) (v : Axis → Point Rat) : Prop where
  finite : ∀ a : Axis, (m.column a).toPoint = (v a).exact
  apart : (v .x).area (v .y) (v .z) ≠ 0

namespace Point

-- Seen from the point, no two corners lie nearly in one direction, and no corner lies nearly in
-- the direction in which the opposite side runs.
structure Clear (p : Point Rat) (v : Axis → Point Rat) : Prop where
  corners : ∀ a b, a ≠ b → 1e-6 ≤ |(p.vecTo (v a)).cross (p.vecTo (v b))|
  sides : ∀ a : Axis, 1e-6 < |(p.vecTo (v a)).cross ((v a.next).vecTo (v a.next.next))|

-- Barycentric coordinates: the weights with which this point is the mean of the corners.
structure IsBarycentric (p : Point Rat) (v : Axis → Point Rat) (t : Axis → Rat) : Prop where
  sum : t .x + t .y + t .z = 1
  x : t .x * (v .x).x + t .y * (v .y).x + t .z * (v .z).x = p.x
  y : t .x * (v .x).y + t .y * (v .y).y + t .z * (v .z).y = p.y

-- Strictly inside the triangle.
def IsWithin (p : Point Rat) (v : Axis → Point Rat) : Prop :=
  ∃ t, p.IsBarycentric v t ∧ ∀ a, 0 < t a

-- The triangle on the side opposite to a corner.
def sideArea (p : Point Rat) (v : Axis → Point Rat) (a : Axis) : Rat :=
  p.area (v a.next) (v a.next.next)

variable {p : Point Rat} {v : Axis → Point Rat} {t : Axis → Rat}

theorem sideArea_add (p : Point Rat) (v : Axis → Point Rat) :
    p.sideArea v .x + p.sideArea v .y + p.sideArea v .z = (v .x).area (v .y) (v .z) := by
  rw [area_add p]
  simp only [sideArea, Axis.next]
  ring

theorem area_axis (v : Axis → Point Rat) (a : Axis) :
    (v a).area (v a.next) (v a.next.next) = (v .x).area (v .y) (v .z) := by
  cases a
  · rfl
  · exact area_rotate (v .x) (v .y) (v .z)
  · exact (area_rotate (v .z) (v .x) (v .y)).symm

theorem IsBarycentric.mul_area (h : p.IsBarycentric v t) (a : Axis) :
    t a * (v .x).area (v .y) (v .z) = p.sideArea v a := by
  have hx : t .x = 1 - t .y - t .z := by linear_combination h.sum
  cases a <;> simp only [sideArea, area, vecTo, Vec.cross, Axis.next, ← h.x, ← h.y, hx] <;> ring

theorem exists_isBarycentric (p : Point Rat) (h : (v .x).area (v .y) (v .z) ≠ 0) :
    ∃ t, p.IsBarycentric v t := by
  have hsum := sideArea_add p v
  -- A coordinate is the mean of those of the corners if it is so before dividing by the area.
  have hmean {x y z w : Rat} (hw : p.sideArea v .x * x + p.sideArea v .y * y +
      p.sideArea v .z * z = w * (v .x).area (v .y) (v .z)) :
      p.sideArea v .x / (v .x).area (v .y) (v .z) * x +
        p.sideArea v .y / (v .x).area (v .y) (v .z) * y +
          p.sideArea v .z / (v .x).area (v .y) (v .z) * z = w := by
    field_simp
    exact hw.trans (mul_comm _ _)
  refine ⟨fun a => p.sideArea v a / (v .x).area (v .y) (v .z), ?_, hmean ?_, hmean ?_⟩
  · rw [← add_div, ← add_div, hsum, div_self h]
  · simp only [sideArea, area, vecTo, Vec.cross, Axis.next]
    ring
  · simp only [sideArea, area, vecTo, Vec.cross, Axis.next]
    ring

-- A point lies to one side of the line opposite to a corner or to the other.
def turn (p : Point Rat) (v : Axis → Point Rat) (a : Axis) : Bool := isPositive (p.sideArea v a)

section

variable (harea : (v .x).area (v .y) (v .z) ≠ 0) (hside : ∀ a, p.sideArea v a ≠ 0)
include harea hside

theorem IsBarycentric.mul_neg_iff (h : p.IsBarycentric v t) (a b : Axis) :
    t a * t b < 0 ↔ p.turn v a ≠ p.turn v b := by
  have hsquare : 0 < (v .x).area (v .y) (v .z) ^ 2 := by positivity
  have hmul : t a * t b * (v .x).area (v .y) (v .z) ^ 2 = p.sideArea v a * p.sideArea v b := by
    rw [← h.mul_area a, ← h.mul_area b]
    ring
  rw [← mul_lt_mul_iff_left₀ hsquare, zero_mul, hmul, mul_neg_iff_isPositive (hside a) (hside b)]
  rfl

theorem IsBarycentric.odd_iff (h : p.IsBarycentric v t) (a : Axis) :
    (∀ b, b ≠ a → t a * t b < 0) ↔
      ((p.turn v a != p.turn v a.next) && (p.turn v a != p.turn v a.next.next)) = true := by
  rw [Bool.and_eq_true, bne_iff_ne, bne_iff_ne, ← h.mul_neg_iff harea hside,
    ← h.mul_neg_iff harea hside]
  constructor
  · intro hodd
    exact ⟨hodd _ (by cases a <;> nofun), hodd _ (by cases a <;> nofun)⟩
  · rintro ⟨hnext, hthird⟩ b hb
    cases a <;> cases b <;> first | exact absurd rfl hb | assumption

-- The coordinates add up to one, so they cannot all be negative.
theorem isWithin_iff : p.IsWithin v ↔ p.turn v .z = p.turn v .x ∧ p.turn v .x = p.turn v .y := by
  constructor
  · rintro ⟨t, ht, hpos⟩
    have hneg := ht.mul_neg_iff harea hside
    exact ⟨not_not.1 (mt (hneg .z .x).2 (mul_pos (hpos .z) (hpos .x)).not_gt),
      not_not.1 (mt (hneg .x .y).2 (mul_pos (hpos .x) (hpos .y)).not_gt)⟩
  · rintro ⟨hzx, hxy⟩
    obtain ⟨t, ht⟩ := exists_isBarycentric p harea
    have hneg := ht.mul_neg_iff harea hside
    have hzx' : 0 ≤ t .z * t .x := not_lt.1 (mt (hneg .z .x).1 (not_not.2 hzx))
    have hxy' : 0 ≤ t .x * t .y := not_lt.1 (mt (hneg .x .y).1 (not_not.2 hxy))
    have hyz' : 0 ≤ t .y * t .z := not_lt.1 (mt (hneg .y .z).1 (not_not.2 (hxy ▸ hzx).symm))
    have hne (a : Axis) : t a ≠ 0 := left_ne_zero_of_mul (ht.mul_area a ▸ hside a)
    have hpos (a : Axis) (h : 0 ≤ t a * (t .x + t .y + t .z)) : 0 < t a := by
      rw [ht.sum, mul_one] at h
      exact lt_of_le_of_ne h (hne a).symm
    refine ⟨t, ht, fun a => hpos a ?_⟩
    cases a <;> nlinarith [mul_self_nonneg (t .x), mul_self_nonneg (t .y), mul_self_nonneg (t .z)]

end

end Point

namespace Projection.Convergent

variable {m : Projection Exact} {v : Axis → Point Rat} (hm : m.Convergent v) {p : Point Rat}
include hm

theorem isFinite_eq (a : Axis) : m.isFinite a = true := by
  have hpoint := hm.finite a
  rw [HPoint2.toPoint, HPoint2.point?] at hpoint
  split at hpoint
  · assumption
  · exact Exact.noConfusion (congrArg Point.x hpoint)

theorem directionFrom_eq (p : Point Rat) (a : Axis) :
    m.directionFrom p.exact a = (p.vecTo (v a)).exact := by
  have hfinite : (m.column a).isFinite = true := hm.isFinite_eq a
  simp only [directionFrom, PerspectiveLine.direction, PerspectiveLine.through, hfinite, if_true,
    hm.finite a]
  rfl

end Projection.Convergent

namespace Point.Clear

variable {p : Point Rat} {v : Axis → Point Rat} (hp : p.Clear v)
include hp

theorem sideArea_ne_zero (a : Axis) : p.sideArea v a ≠ 0 := by
  refine ne_zero_of_epsilon_le (hp.corners a.next a.next.next ?_)
  cases a <;> nofun

theorem between_eq (a : Axis) :
    (p.vecTo (v a.next)).exact.between (p.vecTo (v a.next.next)).exact (p.vecTo (v a)).exact =
      ((p.turn v a != p.turn v a.next) && (p.turn v a != p.turn v a.next.next)) := by
  have hnext := hp.sideArea_ne_zero a.next
  have hthird := hp.sideArea_ne_zero a.next.next
  have hapart : 1e-6 ≤ |(p.vecTo (v a.next)).cross (p.vecTo (v a.next.next))| :=
    hp.corners _ _ (by cases a <;> nofun)
  have hround : a.next.next.next = a := by cases a <;> rfl
  simp only [sideArea, hround] at hnext hthird
  rw [Vec.between_turns hapart hnext hthird]
  simp only [turn, sideArea, hround]
  rfl

theorem rayCrosses_eq (hv : (v .x).area (v .y) (v .z) ≠ 0) (a : Axis) :
    Line.rayCrosses p.exact (v a).exact (v a.next).exact (v a.next.next).exact =
      ((p.turn v a != p.turn v a.next) && (p.turn v a != p.turn v a.next.next)) := by
  have hnext := hp.sideArea_ne_zero a.next
  have hthird := hp.sideArea_ne_zero a.next.next
  have hround : a.next.next.next = a := by cases a <;> rfl
  simp only [sideArea, hround] at hnext hthird
  rw [Line.rayCrosses_turns (hp.sides a) hthird (hp.sideArea_ne_zero a) hnext (area_axis v a ▸ hv)]
  simp only [turn, sideArea, hround]
  generalize isPositive (p.area (v a.next) (v a.next.next)) = first
  generalize isPositive (p.area (v a.next.next) (v a)) = second
  generalize isPositive (p.area (v a) (v a.next)) = third
  revert first second third
  decide

end Point.Clear

namespace Projection.Convergent

variable {m : Projection Exact} {v : Axis → Point Rat} (hm : m.Convergent v) {p : Point Rat}
  (hp : p.Clear v)
include hm hp

theorem centralAxis_eq : m.centralAxis p.exact =
    betweenAxis (p.turn v .z) (p.turn v .x) (p.turn v .y) :=
  centralAxis_of_directions (u := fun a => p.vecTo (v a)) (hm.directionFrom_eq p) hp.corners

theorem centralAxis_eq_single_iff (a : Axis) : m.centralAxis p.exact = .single a ↔
    ((p.turn v a != p.turn v a.next) && (p.turn v a != p.turn v a.next.next)) = true := by
  rw [hm.centralAxis_eq hp]
  exact betweenAxis_eq_single_iff (p.turn v) a

theorem centralAxis_eq_empty_iff : m.centralAxis p.exact = .empty ↔ p.IsWithin v := by
  rw [hm.centralAxis_eq hp, betweenAxis_eq_empty_iff,
    Point.isWithin_iff hm.apart hp.sideArea_ne_zero]

theorem triangleCentral_eq : Corners.triangleCentral p.exact (v .x).exact (v .y).exact
    (v .z).exact = m.centralAxis p.exact := by
  have hx := hp.rayCrosses_eq hm.apart .x
  have hy := hp.rayCrosses_eq hm.apart .y
  have hz := hp.rayCrosses_eq hm.apart .z
  simp only [Axis.next] at hx hy hz
  rw [hm.centralAxis_eq hp, Corners.triangleCentral, hx, hy, hz]
  generalize p.turn v .x = x
  generalize p.turn v .y = y
  generalize p.turn v .z = z
  revert x y z
  decide

-- Both analyses find the same axis, whichever of the three tests comes first: none inside the
-- triangle of the vanishing points, and outside it the odd one among the barycentric coordinates.
theorem central_agree {c : Corners Exact} (hscreen : c.screen m Corners.reference = p.exact) :
    (∃ sectors, c.vanishingCase m .sectorHeuristics =
      .severalFinite (m.centralAxis p.exact) (m.swapsXY p.exact) sectors) ∧
    (∃ crossed, c.vanishingCase m .vanishingTriangle =
      .triangle (m.centralAxis p.exact) crossed) ∧
    (m.centralAxis p.exact = .empty ↔ p.IsWithin v) ∧
    (¬ p.IsWithin v → ∃ a, m.centralAxis p.exact = .single a) ∧
    (∃ t, p.IsBarycentric v t) ∧
    ∀ a : Axis,
      (∀ t, p.IsBarycentric v t →
        (m.centralAxis p.exact = .single a ↔ ∀ b, b ≠ a → t a * t b < 0)) ∧
      (m.centralAxis p.exact = .single a ↔
        (m.directionFrom p.exact a.next).between (m.directionFrom p.exact a.next.next)
          (m.directionFrom p.exact a) = true) ∧
      (m.centralAxis p.exact = .single a ↔
        Line.rayCrosses p.exact (m.column a).toPoint (m.column a.next).toPoint
          (m.column a.next.next).toPoint = true) := by
  have hx : m.isFinite .x = true := hm.isFinite_eq .x
  have hy : m.isFinite .y = true := hm.isFinite_eq .y
  have hz : m.isFinite .z = true := hm.isFinite_eq .z
  refine ⟨?_, ?_, hm.centralAxis_eq_empty_iff hp, fun hout => ?_,
    Point.exists_isBarycentric p hm.apart, fun a => ⟨fun t ht => ?_, ?_, ?_⟩⟩
  · rw [Corners.vanishingCase, if_neg (by simp), Corners.sectorCase]
    simp only [hx, hy, hz, hscreen]
    exact ⟨_, rfl⟩
  · have hcentral := hm.triangleCentral_eq hp
    have hvx : m.vpX.toPoint = (v .x).exact := hm.finite .x
    have hvy : m.vpY.toPoint = (v .y).exact := hm.finite .y
    have hvz : m.vpZ.toPoint = (v .z).exact := hm.finite .z
    rw [← hvx, ← hvy, ← hvz] at hcentral
    rw [Corners.vanishingCase, if_pos ⟨rfl, hx, hy, hz⟩, Corners.triangleCase]
    simp only [hscreen, hcentral]
    exact ⟨_, rfl⟩
  · have hne := mt (hm.centralAxis_eq_empty_iff hp).1 hout
    rw [hm.centralAxis_eq hp] at hne ⊢
    exact exists_betweenAxis_eq_single hne
  · rw [hm.centralAxis_eq_single_iff hp, ht.odd_iff hm.apart hp.sideArea_ne_zero]
  · rw [hm.centralAxis_eq_single_iff hp, hm.directionFrom_eq, hm.directionFrom_eq,
      hm.directionFrom_eq, hp.between_eq]
  · rw [hm.centralAxis_eq_single_iff hp, hm.finite, hm.finite, hm.finite,
      hp.rayCrosses_eq hm.apart]

end Projection.Convergent

-- The vanishing points of X and Y are on the horizon and that of Z is below it; the origin is
-- seen above the horizon.
def threePoint : Projection Exact :=
  ⟨HPoint2.exact ⟨0, 0, 1⟩, HPoint2.exact ⟨1000, 0, 1⟩, HPoint2.exact ⟨500, 800, 1⟩,
    HPoint2.exact ⟨500, -300, 1⟩⟩

def threePoints : Axis → Point Rat
  | .x => ⟨0, 0⟩
  | .y => ⟨1000, 0⟩
  | .z => ⟨500, 800⟩

def originBox : Corners Exact := ⟨HPoint3.exact ⟨0, 0, 0, 1⟩, HPoint3.exact ⟨0, 0, 0, 1⟩⟩

theorem convergent_threePoint : threePoint.Convergent threePoints := by
  refine ⟨fun a => ?_, by decide +kernel⟩
  cases a <;> exact (HPoint2.toPoint_exact (by decide)).trans (by norm_num [threePoints])

theorem clear_threePoints : Point.Clear ⟨500, -300⟩ threePoints := by
  refine ⟨fun a b hab => ?_, fun a => ?_⟩
  · cases a <;> cases b <;> first | exact absurd rfl hab | decide +kernel
  · cases a <;> decide +kernel

theorem central_agree_threePoint :
    threePoint.Convergent threePoints ∧ Point.Clear ⟨500, -300⟩ threePoints ∧
    originBox.screen threePoint Corners.reference = Point.exact ⟨500, -300⟩ ∧
    ∃ crossed, originBox.vanishingCase threePoint .vanishingTriangle = .triangle .z crossed := by
  have hscreen : originBox.screen threePoint Corners.reference = Point.exact ⟨500, -300⟩ := by
    have himage : threePoint.image (originBox.corner Corners.reference) =
        HPoint2.exact ⟨500, -300, 1⟩ := by
      show HPoint2.exact ⟨_, _, _⟩ = _
      norm_num
    rw [Corners.screen, Projection.screen, himage, HPoint2.toPoint_exact (by decide)]
    norm_num
  refine ⟨convergent_threePoint, clear_threePoints, hscreen, ?_⟩
  obtain ⟨-, hcase, -, -, -, haxis⟩ :=
    convergent_threePoint.central_agree clear_threePoints hscreen
  have hcentral := (haxis .z).2.2.2 (by decide +kernel)
  rw [hcentral] at hcase
  exact hcase

end PerspectiveBox
