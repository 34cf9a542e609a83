import Mathlib.LinearAlgebra.Matrix.NonsingularInverse
import PerspectiveBox.Proofs.Projective.Equations

namespace PerspectiveBox

namespace HPoint2

def vector (p : HPoint2 Rat) : Fin 3 → Rat := ![p.x, p.y, p.w]

def Independent (p q r : HPoint2 Rat) : Prop :=
  LinearIndependent Rat ![p.vector, q.vector, r.vector]

def det (p q r : HPoint2 Rat) : Rat :=
  p.x * (q.y * r.w - q.w * r.y) - p.y * (q.x * r.w - q.w * r.x) + p.w * (q.x * r.y - q.y * r.x)

theorem independent_iff (p q r : HPoint2 Rat) : p.Independent q r ↔ det p q r ≠ 0 := by
  have hdet : (Matrix.of ![p.vector, q.vector, r.vector]).det = det p q r := by
    simp [Matrix.det_fin_three, det, vector]
    ring
  have hrows := Matrix.linearIndependent_rows_iff_isUnit
    (A := Matrix.of ![p.vector, q.vector, r.vector])
  rw [Matrix.isUnit_iff_isUnit_det, isUnit_iff_ne_zero, hdet] at hrows
  exact hrows

end HPoint2

namespace Point

-- The homogeneous coordinates of a point of the screen with a given weight.
def weighted (p : Point Rat) (k : Rat) : HPoint2 Rat := ⟨k * p.x, k * p.y, k⟩

theorem det_weighted (p : Point Rat) (a b : HPoint2 Rat) (k : Rat) :
    a.det b (p.weighted k) = k * a.det b (p.weighted 1) := by
  simp only [HPoint2.det, weighted]
  ring

theorem toPoint_weighted (p : Point Rat) {k : Rat} (h : k ≠ 0) :
    (p.weighted k).exact.toPoint = p.exact := by
  rw [HPoint2.toPoint_exact h]
  simp only [weighted, mul_div_cancel_left₀ _ h]

end Point

namespace Axis

-- The axes beside this one.
def others : Axis → Axis × Axis
  | x => (y, z)
  | y => (x, z)
  | z => (x, y)

-- The point with this value along the axis, and the other two coordinates in order.
def point {K : Type} [One K] (a : Axis) (value u v : K) : HPoint3 K :=
  match a with
  | x => ⟨value, u, v, 1⟩
  | y => ⟨u, value, v, 1⟩
  | z => ⟨u, v, value, 1⟩

theorem point_exact (a : Axis) (value u v : Rat) :
    a.point (.rational value) (.rational u) (.rational v) = (a.point value u v).exact := by
  cases a <;> rfl

theorem w_point (a : Axis) (value u v : Rat) : (a.point value u v).w = 1 := by
  cases a <;> rfl

theorem get_point (a : Axis) (value u v : Rat) : (a.point value u v).get a = value := by
  cases a <;> rfl

theorem point_get (a : Axis) {p : HPoint3 Rat} (h : p.w = 1) :
    a.point (p.get a) (p.get a.others.1) (p.get a.others.2) = p := by
  obtain ⟨x, y, z, w⟩ := p
  obtain rfl : w = 1 := h
  cases a <;> rfl

end Axis

namespace HPoint3

theorem get_exact (p : HPoint3 Rat) (c : Coord) : p.exact.get c = .rational (p.get c) := by
  cases c <;> rfl

theorem isFinite_exact {p : HPoint3 Rat} (h : p.w = 1) : p.exact.isFinite = true := by
  simp [isFinite, bne, HPoint3.exact, Exact.isFinite_rational, Exact.beq_zero, h]

theorem isFinite_nowhere : (nowhere : HPoint3 Exact).isFinite = false := rfl

end HPoint3

namespace Projection

variable (m : Projection Rat) (p : Point Rat) (value : Rat) (axis : Axis)

-- Whether a point of the screen is independent of the columns whose coordinates are unknown.
def Separates (q : HPoint2 Rat) : Prop :=
  (m.column axis.others.1).Independent (m.column axis.others.2) q

-- Whether the plane at a value of an axis does not contain the center of the projection.
def MissesCenter : Prop := m.Separates axis (m.shown (axis.point value 0 0))

-- One of the three equations for the two unknown coordinates and the weight of the image.
def equation (f : HPoint2 Rat → Rat) (target : Rat) : Equation3 Rat :=
  ⟨f (m.column axis.others.1), f (m.column axis.others.2), -target,
    -(f (m.column axis) * value + f m.origin)⟩

theorem preimage?_eq : m.exact.preimage? p.exact (.rational value) axis =
    ((Equation3.solve? (m.equation value axis HPoint2.x p.x).exact
      (m.equation value axis HPoint2.y p.y).exact (m.equation value axis HPoint2.w 1).exact).bind
        fun (u, v, k) => if Scalar.isFinite u && Scalar.isFinite v && Scalar.isFinite k
          then some (u, v) else none).map fun (u, v) => axis.point (.rational value) u v := by
  cases axis <;> rfl

theorem det_equations : Equation3.det (m.equation value axis HPoint2.x p.x)
    (m.equation value axis HPoint2.y p.y) (m.equation value axis HPoint2.w 1) =
      -(m.column axis.others.1).det (m.column axis.others.2) (p.weighted 1) := by
  simp only [Equation3.det, equation, HPoint2.det, Point.weighted]
  ring

theorem shown_point_eq_iff (u v k : Rat) : m.shown (axis.point value u v) = p.weighted k ↔
    (m.equation value axis HPoint2.x p.x).Holds u v k ∧
    (m.equation value axis HPoint2.y p.y).Holds u v k ∧
    (m.equation value axis HPoint2.w 1).Holds u v k := by
  have hmoved {l r t : Rat} (f : HPoint2 Rat → Rat)
      (hl : l = f (m.column axis.others.1) * u + f (m.column axis.others.2) * v +
        (f (m.column axis) * value + f m.origin)) (hr : r = k * t) :
      l = r ↔ (m.equation value axis f t).Holds u v k := by
    rw [hl, hr]
    simp only [equation, Equation3.Holds]
    constructor <;> intro h <;> linear_combination h
  rw [shown, Point.weighted, HPoint2.mk.injEq]
  refine and_congr (hmoved HPoint2.x ?_ rfl) (and_congr (hmoved HPoint2.y ?_ rfl)
    (hmoved HPoint2.w ?_ (mul_one k).symm))
  all_goals
    cases axis <;> simp only [Axis.point, Axis.others, Axis.coord, column] <;> ring

theorem det_shown_point (u v : Rat) :
    (m.column axis.others.1).det (m.column axis.others.2) (m.shown (axis.point value u v)) =
      (m.column axis.others.1).det (m.column axis.others.2) (m.shown (axis.point value 0 0)) := by
  cases axis <;>
    simp only [Axis.point, Axis.others, Axis.coord, column, shown, HPoint2.det] <;>
    ring

variable {m p value axis}

theorem exists_preimage? (h : m.Separates axis (p.weighted 1)) (value : Rat) :
    ∃ u v k, m.exact.preimage? p.exact (.rational value) axis =
      some (axis.point value u v).exact ∧ m.shown (axis.point value u v) = p.weighted k := by
  have hdet : Equation3.det (m.equation value axis HPoint2.x p.x)
      (m.equation value axis HPoint2.y p.y) (m.equation value axis HPoint2.w 1) ≠ 0 := by
    rw [det_equations]
    exact neg_ne_zero.2 ((HPoint2.independent_iff _ _ _).1 h)
  obtain ⟨u, v, k, hsolve, hholds⟩ := Equation3.solve?_of_det_ne_zero hdet
  refine ⟨u, v, k, ?_, (shown_point_eq_iff m p value axis u v k).2 hholds⟩
  rw [preimage?_eq, hsolve, ← Axis.point_exact]
  simp [Exact.isFinite_rational]

theorem preimage?_eq_none (h : ¬ m.Separates axis (p.weighted 1)) :
    m.exact.preimage? p.exact (.rational value) axis = none := by
  have hdet : Equation3.det (m.equation value axis HPoint2.x p.x)
      (m.equation value axis HPoint2.y p.y) (m.equation value axis HPoint2.w 1) = 0 := by
    rw [det_equations, neg_eq_zero]
    exact not_not.1 (mt (HPoint2.independent_iff _ _ _).2 h)
  rw [preimage?_eq, Equation3.solve?_of_det_eq_zero hdet]
  rfl

-- No other point of the plane appears at the same place.
theorem eq_of_shown (h : m.Separates axis (p.weighted 1)) {u v k u' v' k' : Rat}
    (hs : m.shown (axis.point value u v) = p.weighted k)
    (hs' : m.shown (axis.point value u' v') = p.weighted k') : u = u' ∧ v = v' := by
  have hdet : Equation3.det (m.equation value axis HPoint2.x p.x)
      (m.equation value axis HPoint2.y p.y) (m.equation value axis HPoint2.w 1) ≠ 0 := by
    rw [det_equations]
    exact neg_ne_zero.2 ((HPoint2.independent_iff _ _ _).1 h)
  obtain ⟨hx, hy, hw⟩ := (shown_point_eq_iff m p value axis u v k).1 hs
  obtain ⟨hx', hy', hw'⟩ := (shown_point_eq_iff m p value axis u' v' k').1 hs'
  obtain ⟨hu, hv, -⟩ := Equation3.eq_of_holds hdet hx hy hw hx' hy' hw'
  exact ⟨hu, hv⟩

theorem preimage_eq_of_shown (h : m.Separates axis (p.weighted 1)) {u v k : Rat}
    (hs : m.shown (axis.point value u v) = p.weighted k) :
    m.exact.preimage p.exact (.rational value) axis = (axis.point value u v).exact := by
  obtain ⟨u', v', k', hfound, hs'⟩ := exists_preimage? h value
  obtain ⟨rfl, rfl⟩ := eq_of_shown h hs hs'
  rw [preimage, hfound, Option.getD_some]

-- A point is found exactly if the place on the screen is independent of the unknown columns.
theorem isFinite_preimage_iff :
    (m.exact.preimage p.exact (.rational value) axis).isFinite = true ↔
      m.Separates axis (p.weighted 1) := by
  by_cases h : m.Separates axis (p.weighted 1)
  · obtain ⟨u, v, k, -, hs⟩ := exists_preimage? h value
    simp [preimage_eq_of_shown h hs, h, HPoint3.isFinite_exact (axis.w_point value u v)]
  · simp [preimage, preimage?_eq_none h, h, HPoint3.isFinite_nowhere]

private theorem exists_exact_of_unknowns? {a b known origin : HPoint2 Exact} {q : Point Exact}
    {c u v : Exact} (h : unknowns? a b known origin q c = some (u, v)) :
    (∃ p : HPoint2 Rat, a = p.exact) ∧ (∃ p : HPoint2 Rat, b = p.exact) ∧
      (∃ p : HPoint2 Rat, known = p.exact) ∧ (∃ p : HPoint2 Rat, origin = p.exact) ∧
      (∃ p : Point Rat, q = p.exact) ∧ c.IsRational := by
  obtain ⟨⟨x, y, weight⟩, hsolve, hfinite⟩ := Option.bind_eq_some_iff.1 h
  have hweight : weight.IsRational := by
    dsimp only at hfinite
    split at hfinite
    · next hall => exact Exact.isRational_of_isFinite (Bool.and_eq_true_iff.1 hall).2
    · cases hfinite
  obtain ⟨hx, hy, hw⟩ := Equation3.isRational_of_solve? hsolve hweight
  obtain ⟨hcx, hox⟩ := Exact.isRational_of_add (Exact.isRational_of_neg hx.c)
  obtain ⟨hcy, hoy⟩ := Exact.isRational_of_add (Exact.isRational_of_neg hy.c)
  obtain ⟨hcw, how⟩ := Exact.isRational_of_add (Exact.isRational_of_neg hw.c)
  obtain ⟨hkx, hc⟩ := Exact.isRational_of_mul hcx
  obtain ⟨hky, -⟩ := Exact.isRational_of_mul hcy
  obtain ⟨hkw, -⟩ := Exact.isRational_of_mul hcw
  exact ⟨HPoint2.exists_exact hx.x hy.x hw.x, HPoint2.exists_exact hx.y hy.y hw.y,
    HPoint2.exists_exact hkx hky hkw, HPoint2.exists_exact hox hoy how,
    Point.exists_exact (Exact.isRational_of_neg hx.z) (Exact.isRational_of_neg hy.z), hc⟩

-- A point is found only for numbers.
theorem exists_exact_of_preimage {n : Projection Exact} {q : Point Exact} {c : Exact}
    (h : (n.preimage q c axis).isFinite = true) :
    (∃ m : Projection Rat, n = m.exact) ∧ (∃ p : Point Rat, q = p.exact) ∧ c.IsRational := by
  rw [preimage] at h
  cases hfound : n.preimage? q c axis with
  | none =>
    rw [hfound] at h
    cases h
  | some r =>
    obtain ⟨x, y, z, o⟩ := n
    cases axis <;>
    · obtain ⟨_, hunknowns, -⟩ := Option.map_eq_some_iff.1 hfound
      obtain ⟨⟨a, rfl⟩, ⟨b, rfl⟩, ⟨known, rfl⟩, ⟨origin, rfl⟩, hq, hc⟩ :=
        exists_exact_of_unknowns? hunknowns
      exact ⟨⟨⟨_, _, _, _⟩, rfl⟩, hq, hc⟩

theorem isFinite_of_unknowns? {K : Type} [Scalar K] {a b known origin : HPoint2 K} {q : Point K}
    {c u v : K} (h : unknowns? a b known origin q c = some (u, v)) :
    Scalar.isFinite u = true ∧ Scalar.isFinite v = true := by
  obtain ⟨⟨x, y, weight⟩, -, hfinite⟩ := Option.bind_eq_some_iff.1 h
  dsimp only at hfinite
  split at hfinite
  · next hall =>
    cases hfinite
    rw [Bool.and_eq_true, Bool.and_eq_true] at hall
    exact hall.1
  · cases hfinite

-- What is found is finite, so what is not finite was not found.
theorem preimage_eq_nowhere {n : Projection Exact} {q : Point Exact}
    (h : (n.preimage q (.rational value) axis).isFinite = false) :
    n.preimage q (.rational value) axis = .nowhere := by
  rw [preimage] at h ⊢
  cases hfound : n.preimage? q (.rational value) axis with
  | none => rfl
  | some r =>
    exfalso
    rw [hfound, Option.getD_some] at h
    cases axis <;>
    · obtain ⟨⟨u, v⟩, hunknowns, rfl⟩ := Option.map_eq_some_iff.1 hfound
      obtain ⟨hu, hv⟩ := isFinite_of_unknowns? hunknowns
      obtain ⟨_, rfl⟩ := Exact.isRational_of_isFinite hu
      obtain ⟨_, rfl⟩ := Exact.isRational_of_isFinite hv
      exact absurd (HPoint3.isFinite_exact (p := ⟨_, _, _, 1⟩) rfl) (ne_true_of_eq_false h)

-- What is found is seen where it was looked for, if it is seen at all.
theorem screen_preimage_of_seen
    (hfound : (m.exact.preimage p.exact (.rational value) axis).isFinite = true)
    (hseen : (m.exact.image (m.exact.preimage p.exact (.rational value) axis)).isFinite = true) :
    m.exact.screen (m.exact.preimage p.exact (.rational value) axis) = p.exact := by
  have hseparates := isFinite_preimage_iff.1 hfound
  obtain ⟨u, v, k, -, hshown⟩ := exists_preimage? hseparates value
  rw [preimage_eq_of_shown hseparates hshown, image_exact, hshown, HPoint2.isFinite_exact] at hseen
  rw [preimage_eq_of_shown hseparates hshown, screen, image_exact, hshown]
  exact p.toPoint_weighted (of_decide_eq_true hseen)

-- The image of a point that is found has a weight unless all planes through the point do.
theorem missesCenter_iff (h : m.Separates axis (p.weighted 1)) {u v k : Rat}
    (hs : m.shown (axis.point value u v) = p.weighted k) : m.MissesCenter value axis ↔ k ≠ 0 := by
  rw [MissesCenter, Separates, HPoint2.independent_iff, ← det_shown_point m value axis u v, hs,
    Point.det_weighted, mul_ne_zero_iff]
  exact and_iff_left ((HPoint2.independent_iff _ _ _).1 h)

-- A point that is found has the coordinate asked for. It appears where it was looked for if and
-- only if its plane does not contain the center of the projection, and otherwise nowhere.
theorem screen_preimage_iff
    (h : (m.exact.preimage p.exact (.rational value) axis).isFinite = true) :
    (m.exact.preimage p.exact (.rational value) axis).w = 1 ∧
    (m.exact.preimage p.exact (.rational value) axis).get axis = .rational value ∧
    (m.exact.screen (m.exact.preimage p.exact (.rational value) axis) = p.exact ↔
      m.MissesCenter value axis) ∧
    (¬ m.MissesCenter value axis →
      m.exact.image (m.exact.preimage p.exact (.rational value) axis) =
        HPoint2.exact ⟨0, 0, 0⟩ ∧
      m.exact.screen (m.exact.preimage p.exact (.rational value) axis) = .nowhere) := by
  have hseparates : m.Separates axis (p.weighted 1) := isFinite_preimage_iff.1 h
  obtain ⟨u, v, k, -, hshown⟩ := exists_preimage? hseparates value
  rw [preimage_eq_of_shown hseparates hshown, missesCenter_iff hseparates hshown, screen,
    image_exact, hshown]
  refine ⟨congrArg Exact.rational (axis.w_point value u v), ?_, ?_, ?_⟩
  · rw [HPoint3.get_exact, axis.get_point]
  · constructor
    · intro hscreen hk
      rw [HPoint2.toPoint_exact_of_zero hk] at hscreen
      exact Exact.noConfusion (congrArg Point.x hscreen)
    · exact p.toPoint_weighted
  · intro hk
    obtain rfl : k = 0 := not_not.1 hk
    refine ⟨?_, HPoint2.toPoint_exact_of_zero rfl⟩
    simp only [Point.weighted, zero_mul]

-- The point that a place on the screen was computed from is found again if and only if that
-- place is independent of the unknown columns. Otherwise nothing is found.
theorem preimage_screen_iff (axis : Axis) {q : HPoint3 Rat} (hweight : q.w = 1)
    (hfinite : (m.exact.image q.exact).isFinite = true) :
    (m.exact.preimage (m.exact.screen q.exact) (q.exact.get axis) axis = q.exact ↔
      (m.column axis.others.1).Independent (m.column axis.others.2) (m.shown q)) ∧
    (¬ (m.column axis.others.1).Independent (m.column axis.others.2) (m.shown q) →
      m.exact.preimage (m.exact.screen q.exact) (q.exact.get axis) axis = .nowhere) := by
  have hw : (m.shown q).w ≠ 0 := by
    rw [image_exact, HPoint2.isFinite_exact] at hfinite
    exact of_decide_eq_true hfinite
  let p : Point Rat := ⟨(m.shown q).x / (m.shown q).w, (m.shown q).y / (m.shown q).w⟩
  have hshown : m.shown q = p.weighted (m.shown q).w := by
    simp only [p, Point.weighted, mul_div_cancel₀ _ hw]
  have hscreen : m.exact.screen q.exact = p.exact := HPoint2.toPoint_exact hw
  have hseparates : (m.column axis.others.1).Independent (m.column axis.others.2) (m.shown q) ↔
      m.Separates axis (p.weighted 1) := by
    rw [Separates, HPoint2.independent_iff, HPoint2.independent_iff, hshown, Point.det_weighted,
      mul_ne_zero_iff]
    exact and_iff_right hw
  rw [hscreen, HPoint3.get_exact, hseparates]
  by_cases h : m.Separates axis (p.weighted 1)
  · rw [← axis.point_get hweight] at hshown
    rw [preimage_eq_of_shown h hshown, axis.point_get hweight]
    simp [h]
  · rw [preimage, preimage?_eq_none h]
    have hne : (HPoint3.nowhere : HPoint3 Exact) ≠ q.exact :=
      fun he => Exact.noConfusion (congrArg HPoint3.x he)
    simp [h, hne]

end Projection

-- Lines along Z lead to a vanishing point in front, and the center is one step behind the plane
-- of the picture.
def corridor : Projection Rat := ⟨⟨1, 0, 0⟩, ⟨0, 1, 0⟩, ⟨200, 100, 1⟩, ⟨0, 0, 1⟩⟩

theorem screen_preimage_corridor :
    (corridor.exact.preimage (Point.exact ⟨7, 7⟩) (.rational 1) .z).isFinite = true ∧
    corridor.exact.screen (corridor.exact.preimage (Point.exact ⟨7, 7⟩) (.rational 1) .z) =
      Point.exact ⟨7, 7⟩ := by
  have hfinite : (corridor.exact.preimage (Point.exact ⟨7, 7⟩) (.rational 1) .z).isFinite = true :=
    Projection.isFinite_preimage_iff.2 ((HPoint2.independent_iff _ _ _).2 (by decide +kernel))
  have hmisses : corridor.MissesCenter 1 .z :=
    (HPoint2.independent_iff _ _ _).2 (by decide +kernel)
  exact ⟨hfinite, (Projection.screen_preimage_iff hfinite).2.2.1.2 hmisses⟩

-- In the plane through the center every place on the screen leads to the center.
theorem center_not_shown :
    corridor.exact.preimage (Point.exact ⟨7, 7⟩) (.rational (-1)) .z =
      HPoint3.exact ⟨200, 100, -1, 1⟩ ∧
    (corridor.exact.preimage (Point.exact ⟨7, 7⟩) (.rational (-1)) .z).isFinite = true ∧
    corridor.exact.screen (corridor.exact.preimage (Point.exact ⟨7, 7⟩) (.rational (-1)) .z) ≠
      Point.exact ⟨7, 7⟩ := by
  have hfound : corridor.exact.preimage (Point.exact ⟨7, 7⟩) (.rational (-1)) .z =
      HPoint3.exact ⟨200, 100, -1, 1⟩ := by
    have hseparates : corridor.Separates .z (Point.weighted ⟨7, 7⟩ 1) :=
      (HPoint2.independent_iff _ _ _).2 (by decide +kernel)
    refine Projection.preimage_eq_of_shown (k := 0) hseparates ?_
    norm_num [Projection.shown, corridor, Axis.point, Point.weighted]
  rw [hfound]
  refine ⟨rfl, HPoint3.isFinite_exact rfl, ?_⟩
  have hnowhere : corridor.exact.screen (HPoint3.exact ⟨200, 100, -1, 1⟩) = .nowhere :=
    HPoint2.toPoint_exact_of_zero (p := corridor.shown ⟨200, 100, -1, 1⟩) (by decide +kernel)
  rw [hnowhere]
  intro h
  exact Exact.noConfusion (congrArg Point.x h)

theorem preimage_screen_corridor :
    (corridor.exact.image (HPoint3.exact ⟨3, 5, 1, 1⟩)).isFinite = true ∧
    corridor.exact.preimage (corridor.exact.screen (HPoint3.exact ⟨3, 5, 1, 1⟩)) (.rational 5) .y =
      HPoint3.exact ⟨3, 5, 1, 1⟩ := by
  have hfinite : (corridor.exact.image (HPoint3.exact ⟨3, 5, 1, 1⟩)).isFinite = true := by
    decide +kernel
  have hindependent : (corridor.column Axis.y.others.1).Independent
      (corridor.column Axis.y.others.2) (corridor.shown ⟨3, 5, 1, 1⟩) :=
    (HPoint2.independent_iff _ _ _).2 (by decide +kernel)
  exact ⟨hfinite, (Projection.preimage_screen_iff .y rfl hfinite).1.2 hindependent⟩

end PerspectiveBox
