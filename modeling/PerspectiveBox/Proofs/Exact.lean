import Mathlib.Algebra.Order.Ring.Rat
import Mathlib.Algebra.Order.Field.Basic
import Mathlib.Tactic.Linarith
import Mathlib.Tactic.Ring
import PerspectiveBox.Box.Corners
import PerspectiveBox.Number.Exact
import PerspectiveBox.Plane.Line

namespace PerspectiveBox

theorem ne_zero_of_epsilon_le {q : Rat} (h : 1e-6 ≤ |q|) : q ≠ 0 := by
  intro h0
  rw [h0, abs_zero] at h
  norm_num at h

namespace Exact

theorem zero_eq : (0 : Exact) = rational 0 := rfl

theorem one_eq : (1 : Exact) = rational 1 := rfl

theorem epsilon_eq : (Scalar.epsilon : Exact) = rational 1e-6 := rfl

theorem abs_rational (q : Rat) : Scalar.abs (rational q) = rational |q| := by
  rw [Scalar.abs]
  split
  · next h =>
    have hq : q < 0 := h
    rw [rational_neg, abs_of_neg hq]
  · next h =>
    have hq : ¬ q < 0 := h
    rw [abs_of_nonneg (not_lt.1 hq)]

theorem abs_lt_abs (p q : Rat) :
    Scalar.abs (rational p) < Scalar.abs (rational q) ↔ |p| < |q| := by
  rw [abs_rational, abs_rational, rational_lt]

theorem one_mul (x : Exact) : rational 1 * x = x := by
  cases x with
  | rational q => rw [rational_mul, Rat.one_mul]
  | undefined => rfl

theorem beq_zero (q : Rat) : (rational q == 0) = decide (q = 0) := rfl

def IsRational (x : Exact) : Prop := ∃ q, x = rational q

theorem isRational_of_isFinite {x : Exact} (h : Scalar.isFinite x = true) : x.IsRational := by
  cases x with
  | rational q => exact ⟨q, rfl⟩
  | undefined => exact absurd h nofun

-- An operation that hands on what is undefined has only numbers to compute a number from.
theorem isRational_of_strict {op : Exact → Exact → Exact} (hleft : ∀ y, op undefined y = undefined)
    (hright : ∀ x, op x undefined = undefined) {x y : Exact} (h : (op x y).IsRational) :
    x.IsRational ∧ y.IsRational := by
  obtain ⟨q, hq⟩ := h
  cases x with
  | undefined => exact absurd ((hleft y).symm.trans hq) nofun
  | rational p =>
    cases y with
    | undefined => exact absurd ((hright _).symm.trans hq) nofun
    | rational r => exact ⟨⟨p, rfl⟩, ⟨r, rfl⟩⟩

theorem isRational_of_add {x y : Exact} : (x + y).IsRational → x.IsRational ∧ y.IsRational :=
  isRational_of_strict (fun _ => rfl) fun x => by cases x <;> rfl

theorem isRational_of_mul {x y : Exact} : (x * y).IsRational → x.IsRational ∧ y.IsRational :=
  isRational_of_strict (fun _ => rfl) fun x => by cases x <;> rfl

theorem isRational_of_neg {x : Exact} (h : (-x).IsRational) : x.IsRational := by
  cases x with
  | rational q => exact ⟨q, rfl⟩
  | undefined =>
    obtain ⟨q, hq⟩ := h
    exact absurd hq nofun

theorem isRational_of_div {x y : Exact} : (x / y).IsRational → x.IsRational ∧ y.IsRational :=
  isRational_of_strict (fun _ => rfl) fun x => by cases x <;> rfl

end Exact

def Vec.exact (v : Vec Rat) : Vec Exact := ⟨.rational v.x, .rational v.y⟩

def Point.exact (p : Point Rat) : Point Exact := ⟨.rational p.x, .rational p.y⟩

def HPoint2.exact (p : HPoint2 Rat) : HPoint2 Exact := ⟨.rational p.x, .rational p.y, .rational p.w⟩

def HPoint3.exact (p : HPoint3 Rat) : HPoint3 Exact :=
  ⟨.rational p.x, .rational p.y, .rational p.z, .rational p.w⟩

def Projection.exact (m : Projection Rat) : Projection Exact :=
  ⟨m.vpX.exact, m.vpY.exact, m.vpZ.exact, m.origin.exact⟩

def Corners.exact (c : Corners Rat) : Corners Exact := ⟨c.near.exact, c.far.exact⟩

theorem Point.isFinite_exact (p : Point Rat) : p.exact.isFinite = true := by
  simp only [isFinite, exact, Exact.isFinite_rational, Bool.and_self]

theorem Point.exact_inj {p q : Point Rat} : p.exact = q.exact ↔ p = q := by
  obtain ⟨_, _⟩ := p
  obtain ⟨_, _⟩ := q
  simp [exact]

theorem Point.exists_exact {p : Point Exact} (hx : p.x.IsRational) (hy : p.y.IsRational) :
    ∃ q : Point Rat, p = q.exact := by
  obtain ⟨_, _⟩ := p
  obtain ⟨⟨x, rfl⟩, y, rfl⟩ := And.intro hx hy
  exact ⟨⟨x, y⟩, rfl⟩

namespace Vec

def inner (v w : Vec Rat) : Rat := v.x * w.x + v.y * w.y

def cross (v w : Vec Rat) : Rat := v.x * w.y - v.y * w.x

theorem det_exact (v w : Vec Rat) : v.exact.det w.exact = .rational (v.cross w) := rfl

-- Between directions that are far enough from dependent, the coefficients tell the sector.
theorem between_exact {v w : Vec Rat} (h : 1e-6 ≤ |v.cross w|) (u : Vec Rat) :
    v.exact.between w.exact u.exact =
      (decide (0 ≤ u.cross w / v.cross w) && decide (0 ≤ v.cross u / v.cross w)) := by
  have hne : v.cross w ≠ 0 := ne_zero_of_epsilon_le h
  have hfar : ¬ Scalar.abs (v.exact.det w.exact) < Scalar.epsilon := by
    rw [det_exact, Exact.abs_rational, Exact.epsilon_eq, Exact.rational_lt]
    exact not_lt.2 h
  have hcoordinates : coordinates? v.exact w.exact u.exact =
      some (.rational (u.cross w / v.cross w), .rational (v.cross u / v.cross w)) := by
    simp only [coordinates?, if_neg hfar]
    rw [det_exact, det_exact, det_exact, Exact.rational_div _ _ hne, Exact.rational_div _ _ hne]
  rw [between, hcoordinates]
  rfl

-- Between others only opposite ones enclose anything.
theorem between_exact_of_near {v w : Vec Rat} (h : ¬ 1e-6 ≤ |v.cross w|) (u : Vec Rat) :
    v.exact.between w.exact u.exact = decide (v.inner w < 0) := by
  have hnear : Scalar.abs (v.exact.det w.exact) < Scalar.epsilon := by
    rw [det_exact, Exact.abs_rational, Exact.epsilon_eq, Exact.rational_lt]
    exact not_le.1 h
  rw [between, coordinates?, if_pos hnear]
  rfl

end Vec

namespace HPoint2

theorem exact_inj {p q : HPoint2 Rat} : p.exact = q.exact ↔ p = q := by
  obtain ⟨_, _, _⟩ := p
  obtain ⟨_, _, _⟩ := q
  simp [exact]

theorem isFinite_exact (p : HPoint2 Rat) : p.exact.isFinite = decide (p.w ≠ 0) := by
  show (!(Exact.rational p.w == 0)) = decide (p.w ≠ 0)
  rw [Exact.beq_zero, decide_not]

-- A point of weight other than zero is a point of the plane.
theorem point?_exact {p : HPoint2 Rat} (h : p.w ≠ 0) :
    p.exact.point? = some (Point.exact ⟨p.x / p.w, p.y / p.w⟩) := by
  have hfinite : p.exact.isFinite = true := p.isFinite_exact.trans (decide_eq_true h)
  have hx : p.exact.x / p.exact.w = .rational (p.x / p.w) := Exact.rational_div _ _ h
  have hy : p.exact.y / p.exact.w = .rational (p.y / p.w) := Exact.rational_div _ _ h
  rw [point?, if_pos hfinite]
  simp only [hx, hy, Point.isFinite, Exact.isFinite_rational]
  rfl

theorem toPoint_exact {p : HPoint2 Rat} (h : p.w ≠ 0) :
    p.exact.toPoint = Point.exact ⟨p.x / p.w, p.y / p.w⟩ := by
  rw [toPoint, point?_exact h, Option.getD_some]

theorem toPoint_exact_of_zero {p : HPoint2 Rat} (h : p.w = 0) : p.exact.toPoint = .nowhere := by
  have hinfinite : p.exact.isFinite = false := by
    rw [isFinite_exact, decide_eq_false_iff_not, not_not]
    exact h
  simp [toPoint, point?, hinfinite]

theorem exists_exact {p : HPoint2 Exact} (hx : p.x.IsRational) (hy : p.y.IsRational)
    (hw : p.w.IsRational) : ∃ q : HPoint2 Rat, p = q.exact := by
  obtain ⟨_, _, _⟩ := p
  obtain ⟨⟨x, rfl⟩, ⟨y, rfl⟩, ⟨w, rfl⟩⟩ := And.intro hx (And.intro hy hw)
  exact ⟨⟨x, y, w⟩, rfl⟩

theorem exists_exact_of_toPoint {p : HPoint2 Exact} (h : p.toPoint.isFinite = true) :
    ∃ q : HPoint2 Rat, p = q.exact ∧ q.w ≠ 0 := by
  have hrational : (p.x / p.w).IsRational ∧ (p.y / p.w).IsRational := by
    unfold toPoint point? at h
    by_cases hp : p.isFinite = true
    · by_cases hq : (Point.mk (p.x / p.w) (p.y / p.w)).isFinite = true
      · rw [Point.isFinite, Bool.and_eq_true] at hq
        exact ⟨Exact.isRational_of_isFinite hq.1, Exact.isRational_of_isFinite hq.2⟩
      · simp only [if_pos hp, if_neg hq] at h
        exact absurd h nofun
    · simp only [if_neg hp] at h
      exact absurd h nofun
  obtain ⟨hx, hw⟩ := Exact.isRational_of_div hrational.1
  obtain ⟨q, rfl⟩ := exists_exact hx (Exact.isRational_of_div hrational.2).1 hw
  refine ⟨q, rfl, fun h0 => ?_⟩
  rw [HPoint2.exact, h0] at hrational
  exact absurd hrational.1 nofun

end HPoint2

namespace HPoint3

theorem exact_inj {p q : HPoint3 Rat} : p.exact = q.exact ↔ p = q := by
  obtain ⟨_, _, _, _⟩ := p
  obtain ⟨_, _, _, _⟩ := q
  simp [exact]

-- A point of weight one is its own normal form.
theorem normalized_exact {p : HPoint3 Rat} (h : p.w = 1) : p.exact.normalized = p.exact := by
  have hfar : ¬ Scalar.abs p.exact.w < Scalar.epsilon := by
    show ¬ Scalar.abs (Exact.rational p.w) < Scalar.epsilon
    rw [Exact.abs_rational, Exact.epsilon_eq, Exact.rational_lt, h]
    norm_num
  have hone : (p.exact.w == 1) = true := by
    show (Exact.rational p.w == 1) = true
    rw [Exact.one_eq, Exact.rational_beq, h]
    rfl
  rw [normalized, normalize?, if_neg hfar, if_pos hone]
  rfl

theorem exists_exact {p : HPoint3 Exact} (hx : p.x.IsRational) (hy : p.y.IsRational)
    (hz : p.z.IsRational) (hw : p.w.IsRational) : ∃ q : HPoint3 Rat, p = q.exact := by
  obtain ⟨_, _, _, _⟩ := p
  obtain ⟨⟨x, rfl⟩, ⟨y, rfl⟩, ⟨z, rfl⟩, ⟨w, rfl⟩⟩ := And.intro hx (And.intro hy (And.intro hz hw))
  exact ⟨⟨x, y, z, w⟩, rfl⟩

end HPoint3

-- Where a point of space goes: the columns weighted by its coordinates.
def Projection.shown (m : Projection Rat) (p : HPoint3 Rat) : HPoint2 Rat where
  x := m.vpX.x * p.x + m.vpY.x * p.y + m.vpZ.x * p.z + m.origin.x * p.w
  y := m.vpX.y * p.x + m.vpY.y * p.y + m.vpZ.y * p.z + m.origin.y * p.w
  w := m.vpX.w * p.x + m.vpY.w * p.y + m.vpZ.w * p.z + m.origin.w * p.w

namespace Projection

theorem exact_inj {m n : Projection Rat} : m.exact = n.exact ↔ m = n := by
  obtain ⟨⟨_, _, _⟩, ⟨_, _, _⟩, ⟨_, _, _⟩, _, _, _⟩ := m
  obtain ⟨⟨_, _, _⟩, ⟨_, _, _⟩, ⟨_, _, _⟩, _, _, _⟩ := n
  simp [exact, HPoint2.exact]

theorem image_exact (m : Projection Rat) (p : HPoint3 Rat) :
    m.exact.image p.exact = (m.shown p).exact := rfl

-- What appears on screen is a point with rational coordinates under a projection with such.
theorem exists_exact_of_screen {m : Projection Exact} {p : HPoint3 Exact}
    (h : (m.screen p).isFinite = true) :
    ∃ (n : Projection Rat) (q : HPoint3 Rat), m = n.exact ∧ p = q.exact ∧ (n.shown q).w ≠ 0 := by
  obtain ⟨r, hr, hw⟩ := HPoint2.exists_exact_of_toPoint h
  have hsum {a b c d : Exact} {q : Rat} (hq : a * p.x + b * p.y + c * p.z + d * p.w = .rational q) :
      (a.IsRational ∧ p.x.IsRational) ∧ (b.IsRational ∧ p.y.IsRational) ∧
        (c.IsRational ∧ p.z.IsRational) ∧ d.IsRational ∧ p.w.IsRational := by
    obtain ⟨habc, hd⟩ := Exact.isRational_of_add ⟨q, hq⟩
    obtain ⟨hab, hc⟩ := Exact.isRational_of_add habc
    obtain ⟨ha, hb⟩ := Exact.isRational_of_add hab
    exact ⟨Exact.isRational_of_mul ha, Exact.isRational_of_mul hb, Exact.isRational_of_mul hc,
      Exact.isRational_of_mul hd⟩
  obtain ⟨⟨hxx, hpx⟩, ⟨hyx, hpy⟩, ⟨hzx, hpz⟩, hox, hpw⟩ := hsum (congrArg HPoint2.x hr)
  obtain ⟨⟨hxy, -⟩, ⟨hyy, -⟩, ⟨hzy, -⟩, hoy, -⟩ := hsum (congrArg HPoint2.y hr)
  obtain ⟨⟨hxw, -⟩, ⟨hyw, -⟩, ⟨hzw, -⟩, how, -⟩ := hsum (congrArg HPoint2.w hr)
  obtain ⟨q, rfl⟩ := HPoint3.exists_exact hpx hpy hpz hpw
  obtain ⟨x, hx⟩ := HPoint2.exists_exact hxx hxy hxw
  obtain ⟨y, hy⟩ := HPoint2.exists_exact hyx hyy hyw
  obtain ⟨z, hz⟩ := HPoint2.exists_exact hzx hzy hzw
  obtain ⟨o, ho⟩ := HPoint2.exists_exact hox hoy how
  have hm : m = Projection.exact ⟨x, y, z, o⟩ := by
    rw [Projection.exact, ← hx, ← hy, ← hz, ← ho]
  refine ⟨⟨x, y, z, o⟩, q, hm, rfl, ?_⟩
  rw [hm, image_exact] at hr
  have hweight : (shown ⟨x, y, z, o⟩ q).w = r.w := Exact.rational.inj (congrArg HPoint2.w hr)
  rwa [hweight]

end Projection

end PerspectiveBox
