import Mathlib.Tactic.FieldSimp
import Mathlib.Tactic.LinearCombination
import PerspectiveBox.Proofs.Projective.Preimage
import PerspectiveBox.Proofs.Projective.Vanishing

namespace PerspectiveBox

-- The point so many steps away.
def Point.ahead (p : Point Rat) (v : Vec Rat) (t : Rat) : Point Rat :=
  ⟨p.x + t * v.x, p.y + t * v.y⟩

theorem Line.exists_of_meet? {K : Type} [Scalar K] {l m : Line K} {p : Point K}
    (h : l.meet? m = some p) : ∃ t : K, p = l.point + l.direction * t := by
  unfold meet? at h
  dsimp only at h
  split at h
  · cases h
  · exact ⟨_, (Option.some.inj h).symm⟩

-- The foot of a point is some steps from the base point of the line, none if the line has no
-- direction to speak of.
theorem Line.exists_closest (p : Point Rat) (v : Vec Rat) (q : Point Exact) :
    ∃ t : Exact, (along p.exact v.exact).closest q = p.exact + v.exact * t := by
  rw [closest]
  cases h : (along p.exact v.exact).meet? (along q (along p.exact v.exact).direction.turned) with
  | none =>
    refine ⟨.rational 0, ?_⟩
    show p.exact = Point.mk (.rational (p.x + v.x * 0)) (.rational (p.y + v.y * 0))
    rw [mul_zero, mul_zero, add_zero, add_zero, Point.exact]
  | some r => exact exists_of_meet? h

-- They are a number if the foot is a point.
theorem Line.exists_ahead_of_closest {p : Point Rat} {v : Vec Rat} {q : Point Exact}
    {s : Point Rat} (h : (along p.exact v.exact).closest q = s.exact) :
    ∃ t : Rat, s = p.ahead v t := by
  obtain ⟨t, ht⟩ := exists_closest p v q
  rw [ht] at h
  cases t with
  | undefined => exact Exact.noConfusion (congrArg Point.x h)
  | rational t =>
    refine ⟨t, ?_⟩
    have hx := Exact.rational.inj (congrArg Point.x h)
    have hy := Exact.rational.inj (congrArg Point.y h)
    rw [Point.ahead, mul_comm t, mul_comm t, hx, hy]

namespace HPoint2

def mix (a b : Rat) (p q : HPoint2 Rat) : HPoint2 Rat :=
  ⟨a * p.x + b * q.x, a * p.y + b * q.y, a * p.w + b * q.w⟩

theorem det_mix (a b : Rat) (p q r s : HPoint2 Rat) :
    p.det q (r.mix a b s) = a * p.det q r + b * p.det q s := by
  simp only [det, mix]
  ring

end HPoint2

namespace HPoint3

def mix (a b : Rat) (p q : HPoint3 Rat) : HPoint3 Rat :=
  ⟨a * p.x + b * q.x, a * p.y + b * q.y, a * p.z + b * q.z, a * p.w + b * q.w⟩

-- The point of weight one.
def divided (p : HPoint3 Rat) : HPoint3 Rat := ⟨p.x / p.w, p.y / p.w, p.z / p.w, 1⟩

theorem get_mix (a b : Rat) (p q : HPoint3 Rat) (c : Coord) :
    (p.mix a b q).get c = a * p.get c + b * q.get c := by
  cases c <;> rfl

-- Between two points, and beyond them.
def toward (p q : HPoint3 Rat) (r : Rat) : HPoint3 Rat :=
  ⟨p.x + r * (q.x - p.x), p.y + r * (q.y - p.y), p.z + r * (q.z - p.z), 1⟩

theorem divided_mix {a b : Rat} {p q : HPoint3 Rat} (hp : p.w = 1) (hq : q.w = 1)
    (hw : (p.mix a b q).w ≠ 0) : (p.mix a b q).divided = p.toward q (b / (p.mix a b q).w) := by
  simp only [mix, hp, hq, mul_one] at hw ⊢
  simp only [divided, toward, HPoint3.mk.injEq]
  refine ⟨?_, ?_, ?_, trivial⟩ <;>
  · field_simp
    ring

theorem get_divided (p : HPoint3 Rat) (a : Axis) : p.divided.get a = p.get a / p.w := by
  cases a <;> rfl

end HPoint3

-- The point at infinity to which an axis leads.
def Axis.unit (a : Axis) : HPoint3 Rat := HPoint3.set ⟨0, 0, 0, 0⟩ a 1

theorem Axis.w_unit (a : Axis) : a.unit.w = 0 := by
  cases a <;> rfl

theorem Axis.get_unit (a : Axis) {b : Axis} (h : a ≠ b) : a.unit.get b = 0 := by
  cases a <;> cases b <;> first | rfl | exact absurd rfl h

theorem HPoint3.divided_mix_unit {α β : Rat} {p : HPoint3 Rat} {a : Axis} (hp : p.w = 1)
    (hw : (p.mix α β a.unit).w ≠ 0) :
    (p.mix α β a.unit).divided = p.set a (p.get a + β / α) := by
  obtain ⟨x, y, z, w⟩ := p
  obtain rfl : w = 1 := hp
  simp only [mix, a.w_unit, mul_one, mul_zero, add_zero] at hw
  cases a <;>
  · simp only [divided, mix, Axis.unit, set, get, Axis.coord, mul_one, mul_zero, add_zero,
      HPoint3.mk.injEq]
    refine ⟨?_, ?_, ?_, trivial⟩ <;> field_simp

namespace Projection

variable {m : Projection Rat} {s : Point Rat}

theorem shown_mix (a b : Rat) (p q : HPoint3 Rat) :
    m.shown (p.mix a b q) = (m.shown p).mix a b (m.shown q) := by
  simp only [shown, HPoint3.mix, HPoint2.mix, HPoint2.mk.injEq]
  refine ⟨?_, ?_, ?_⟩ <;> ring

-- A point at infinity that has nothing along an axis is seen among the other two columns.
theorem det_shown_of_zero {axis : Axis} {q : HPoint3 Rat} (hw : q.w = 0) (ha : q.get axis = 0) :
    (m.column axis.others.1).det (m.column axis.others.2) (m.shown q) = 0 := by
  obtain ⟨x, y, z, w⟩ := q
  obtain rfl : w = 0 := hw
  cases axis
  all_goals
    simp only [HPoint3.get, Axis.coord] at ha
    subst ha
    simp only [Axis.others, Axis.coord, column, shown, HPoint2.det]
    ring

theorem shown_divided {q : HPoint3 Rat} (h : q.w ≠ 0) :
    m.shown q.divided = ⟨(m.shown q).x / q.w, (m.shown q).y / q.w, (m.shown q).w / q.w⟩ := by
  simp only [shown, HPoint3.divided, HPoint2.mk.injEq]
  refine ⟨?_, ?_, ?_⟩ <;> field_simp

-- Coordinates of a point of the plane that are seen at a place where points are found are those
-- of a point of space.
theorem weight_ne_zero_of_shown {axis : Axis} {value : Rat} {q : HPoint3 Rat}
    (h : m.Separates axis (s.weighted 1)) (hvalue : q.get axis = value * q.w)
    (hs : m.shown q = s.weighted 1) : q.w ≠ 0 := by
  intro hw
  rw [hw, mul_zero] at hvalue
  refine (HPoint2.independent_iff _ _ _).1 h ?_
  rw [← hs]
  exact det_shown_of_zero hw hvalue

-- They tell the point that is found there, and it is seen there unless they are those of the
-- center.
theorem preimage_of_shown {axis : Axis} (value : Rat) {q : HPoint3 Rat} {k : Rat}
    (h : m.Separates axis (s.weighted 1)) (hw : q.w ≠ 0) (hvalue : q.get axis = value * q.w)
    (hs : m.shown q = s.weighted k) :
    m.exact.preimage s.exact (.rational value) axis = q.divided.exact ∧
      (k ≠ 0 → m.exact.screen q.divided.exact = s.exact) := by
  have hdivided : m.shown q.divided = s.weighted (k / q.w) := by
    rw [shown_divided hw, hs]
    simp only [Point.weighted, HPoint2.mk.injEq]
    exact ⟨by ring, by ring, trivial⟩
  have hget : q.divided.get axis = value := by
    rw [HPoint3.get_divided, hvalue, mul_div_cancel_right₀ _ hw]
  constructor
  · rw [← axis.point_get (p := q.divided) rfl, hget] at hdivided ⊢
    exact preimage_eq_of_shown h hdivided
  · intro hk
    rw [screen, image_exact, hdivided]
    exact s.toPoint_weighted (div_ne_zero hk hw)

-- Between two points of a plane across an axis, on screen and so in space.
theorem exists_preimage_toward {axis : Axis} {p q : HPoint3 Rat} (hp : p.w = 1) (hq : q.w = 1)
    (hplane : q.get axis = p.get axis) (hpw : (m.shown p).w ≠ 0) (hqw : (m.shown q).w ≠ 0) {t : Rat}
    (hs : (m.shown p).place.ahead ((m.shown p).place.vecTo (m.shown q).place) t = s)
    (h : m.Separates axis (s.weighted 1)) :
    ∃ r, m.exact.preimage s.exact (.rational (p.get axis)) axis = (p.toward q r).exact := by
  have hmix : m.shown (p.mix ((1 - t) / (m.shown p).w) (t / (m.shown q).w) q) = s.weighted 1 := by
    rw [shown_mix, ← hs]
    simp only [HPoint2.mix, Point.weighted, Point.ahead, Point.vecTo, HPoint2.place,
      HPoint2.mk.injEq]
    refine ⟨by ring, by ring, ?_⟩
    field_simp
    ring
  have hvalue : (p.mix ((1 - t) / (m.shown p).w) (t / (m.shown q).w) q).get axis =
      p.get axis * (p.mix ((1 - t) / (m.shown p).w) (t / (m.shown q).w) q).w := by
    rw [HPoint3.get_mix, hplane, HPoint3.mix, hp, hq]
    ring
  have hw := weight_ne_zero_of_shown h hvalue hmix
  obtain ⟨hfound, -⟩ := preimage_of_shown (p.get axis) h hw hvalue hmix
  exact ⟨_, hfound.trans (congrArg HPoint3.exact (HPoint3.divided_mix hp hq hw))⟩

-- Where the pointer meets the line on screen through two points of a plane, a point of the line
-- through them in space is found.
theorem exists_preimage_closest_through {axis : Axis} {p q : HPoint3 Rat} (hp : p.w = 1)
    (hq : q.w = 1) (hplane : q.get axis = p.get axis) (hpw : (m.shown p).w ≠ 0)
    (hqw : (m.shown q).w ≠ 0) {pointer : Point Exact} {l : Line Exact}
    (hl : .through (m.exact.screen p.exact) (m.exact.screen q.exact) = l)
    (hfound : (m.exact.preimage (l.closest pointer) (.rational (p.get axis))
      axis).isFinite = true) :
    ∃ r, m.exact.preimage (l.closest pointer) (.rational (p.get axis)) axis =
      (p.toward q r).exact := by
  obtain ⟨-, ⟨s, hs⟩, -⟩ := exists_exact_of_preimage hfound
  rw [m.screen_exact hpw, m.screen_exact hqw] at hl
  obtain ⟨t, rfl⟩ := Line.exists_ahead_of_closest (p := (m.shown p).place)
    (v := (m.shown p).place.vecTo (m.shown q).place) (hl ▸ hs)
  rw [hs] at hfound ⊢
  exact exists_preimage_toward hp hq hplane hpw hqw rfl (isFinite_preimage_iff.1 hfound)

theorem shown_unit (a : Axis) : m.shown a.unit = m.column a := by
  cases a <;> simp [shown, Axis.unit, HPoint3.set, Axis.coord, column]

theorem det_column {a b : Axis} (hab : a ≠ b) :
    (m.column b.others.1).det (m.column b.others.2) (m.column a) = 0 := by
  rw [← shown_unit a]
  exact det_shown_of_zero a.w_unit (a.get_unit hab)

-- A step on screen towards the vanishing point of an axis, or in the direction of that.
theorem exists_weighted_ahead (p : Point Rat) (a : Axis) (t : Rat) :
    ∃ α β, (p.ahead (m.heading p a) t).weighted 1 = (p.weighted 1).mix α β (m.column a) := by
  simp only [HPoint2.mix, Point.weighted, Point.ahead, heading, HPoint2.mk.injEq]
  by_cases ha : (m.column a).w = 0
  · refine ⟨1, t, ?_⟩
    rw [if_pos ha, ha]
    simp only [HPoint2.direction]
    refine ⟨by ring, by ring, by ring⟩
  · refine ⟨1 - t, t / (m.column a).w, ?_⟩
    rw [if_neg ha]
    simp only [HPoint2.place, Point.vecTo]
    refine ⟨by ring, by ring, ?_⟩
    field_simp
    ring

-- So many steps along an axis from where a point is seen, a point is found on the line along that
-- axis. A center that is seen everywhere is found again.
theorem exists_preimage_along {a b : Axis} (hab : a ≠ b) {p : HPoint3 Rat} (hp : p.w = 1)
    {base : Point Rat} {k : Rat} (hbase : m.shown p = base.weighted k) {t : Rat}
    (hs : base.ahead (m.heading base a) t = s) (h : m.Separates b (s.weighted 1)) :
    ∃ z, m.exact.preimage s.exact (.rational (p.get b)) b = (p.set a z).exact ∧
      (k ≠ 0 → m.exact.screen (p.set a z).exact = s.exact) := by
  obtain ⟨α, β, hmix⟩ := exists_weighted_ahead (m := m) base a t
  rw [hs] at hmix
  -- A place that is the vanishing point itself determines no point.
  have hα : α ≠ 0 := by
    rintro rfl
    refine (HPoint2.independent_iff _ _ _).1 h ?_
    rw [hmix, HPoint2.det_mix, det_column hab, zero_mul, mul_zero, add_zero]
  have hshown : m.shown (p.mix α (k * β) a.unit) = s.weighted k := by
    obtain ⟨hx, hy, hw⟩ := HPoint2.mk.inj hmix
    rw [shown_mix, shown_unit, hbase]
    simp only [HPoint2.mix, Point.weighted, HPoint2.mk.injEq] at hx hy hw ⊢
    refine ⟨?_, ?_, ?_⟩
    · linear_combination -k * hx
    · linear_combination -k * hy
    · linear_combination -k * hw
  have hw : (p.mix α (k * β) a.unit).w ≠ 0 := by
    rw [HPoint3.mix, hp, a.w_unit]
    simpa using hα
  obtain ⟨hfound, hseen⟩ := preimage_of_shown (p.get b) h hw (by
    rw [HPoint3.get_mix, a.get_unit hab, HPoint3.mix, hp, a.w_unit]
    ring) hshown
  rw [HPoint3.divided_mix_unit hp hw] at hfound hseen
  exact ⟨_, hfound, hseen⟩

-- Where the pointer meets the perspective line that begins where a point is seen, a point on its
-- line along the axis is found.
theorem exists_preimage_closest_from {a b : Axis} (hab : a ≠ b) {p : HPoint3 Rat} (hp : p.w = 1)
    {base : Point Rat} {k : Rat} (hbase : m.shown p = base.weighted k) {pointer : Point Exact}
    {l : Line Exact} (hl : (PerspectiveLine.through m.exact base.exact a).line = l)
    (hfound : (m.exact.preimage (l.closest pointer) (.rational (p.get b)) b).isFinite = true) :
    ∃ z, m.exact.preimage (l.closest pointer) (.rational (p.get b)) b = (p.set a z).exact ∧
      (k ≠ 0 → m.exact.screen (p.set a z).exact = l.closest pointer) := by
  obtain ⟨-, ⟨s, hs⟩, -⟩ := exists_exact_of_preimage hfound
  rw [m.line_exact] at hl
  obtain ⟨t, rfl⟩ := Line.exists_ahead_of_closest (hl ▸ hs)
  rw [hs] at hfound ⊢
  exact exists_preimage_along hab hp hbase rfl (isFinite_preimage_iff.1 hfound)

-- If the point is seen on screen, so is the point found, and just there.
theorem exists_preimage_closest_along {a b : Axis} (hab : a ≠ b) {p : HPoint3 Rat} (hp : p.w = 1)
    (hpw : (m.shown p).w ≠ 0) {pointer : Point Exact} {l : Line Exact}
    (hl : (PerspectiveLine.through m.exact (m.exact.screen p.exact) a).line = l)
    (hfound : (m.exact.preimage (l.closest pointer) (.rational (p.get b)) b).isFinite = true) :
    ∃ z, m.exact.preimage (l.closest pointer) (.rational (p.get b)) b = (p.set a z).exact ∧
      m.exact.screen (p.set a z).exact = l.closest pointer := by
  have hbase : m.shown p = (m.shown p).place.weighted (m.shown p).w := by
    simp only [Point.weighted, HPoint2.place, mul_div_cancel₀ _ hpw]
  rw [m.screen_exact hpw] at hl
  obtain ⟨z, hz, hseen⟩ := exists_preimage_closest_from hab hp hbase hl hfound
  exact ⟨z, hz, hseen hpw⟩

end Projection

end PerspectiveBox
