import PerspectiveBox.Projective.Vanishing
import PerspectiveBox.Proofs.Projective.Line

namespace PerspectiveBox

namespace HPoint2

-- The weight of a finite point; a direction counts as it is.
def scale (p : HPoint2 Rat) : Rat := if p.w = 0 then 1 else p.w

-- The same finite point with weight one, or the same direction.
def reduced (p : HPoint2 Rat) : HPoint2 Rat := ⟨p.x / p.scale, p.y / p.scale, p.w / p.scale⟩

theorem reduced_of_infinite {p : HPoint2 Rat} (h : p.w = 0) : p.reduced = p := by
  simp only [reduced, scale, if_pos h, div_one]

theorem reduced_of_finite {p : HPoint2 Rat} (h : p.w ≠ 0) : p.reduced = p.place.weighted 1 := by
  simp only [reduced, scale, if_neg h, Point.weighted, place, one_mul, div_self h]

theorem reduced_eq_self_iff (p : HPoint2 Rat) : p.reduced = p ↔ p.w = 0 ∨ p.w = 1 := by
  by_cases h : p.w = 0
  · simp [reduced_of_infinite h, h]
  · rw [reduced_of_finite h, or_iff_right h]
    constructor
    · intro heq
      exact (congrArg HPoint2.w heq).symm
    · intro hone
      obtain ⟨x, y, w⟩ := p
      obtain rfl : w = 1 := hone
      simp [Point.weighted, place]

end HPoint2

namespace Projection

variable (m : Projection Rat) (a : Axis)

def toggled : Projection Rat :=
  m.setColumn a <|
    if (m.column a).w = 0 then
      ⟨m.origin.place.x + (m.column a).x, m.origin.place.y + (m.column a).y, 1⟩
    else
      ⟨(m.column a).place.x - m.origin.place.x, (m.column a).place.y - m.origin.place.y, 0⟩

theorem setColumn_exact (c : Coord) (p : HPoint2 Rat) :
    (m.setColumn c p).exact = m.exact.setColumn c p.exact := by
  cases c <;> rfl

theorem setColumn_setColumn (c : Coord) (p q : HPoint2 Rat) :
    (m.setColumn c p).setColumn c q = m.setColumn c q := by
  cases c <;> rfl

theorem setColumn_column (c : Coord) : m.setColumn c (m.column c) = m := by
  cases c <;> rfl

theorem origin_setColumn (p : HPoint2 Rat) : (m.setColumn a p).origin = m.origin := by
  cases a <;> rfl

variable {m} in
theorem toggled?_exact (h : m.origin.w ≠ 0) : m.exact.toggled? a = some (m.toggled a).exact := by
  have ha : a.coord ≠ .w := by cases a <;> decide
  have horigin : m.exact.origin.point? = some m.origin.place.exact := HPoint2.point?_exact h
  simp only [toggled?, if_neg ha, horigin, Option.bind_some, toggled, setColumn_exact,
    column_exact, HPoint2.isFinite_exact, decide_eq_true_eq]
  by_cases hw : (m.column a).w = 0
  · rw [if_neg (not_not.2 hw), if_pos hw]
    rfl
  · rw [if_pos hw, if_neg hw, HPoint2.point?_exact hw]
    rfl

theorem isFinite_toggled : (m.toggled a).exact.isFinite a = !m.exact.isFinite a := by
  rw [isFinite, isFinite, isFinite_column_exact, isFinite_column_exact, toggled,
    column_setColumn_same]
  by_cases hw : (m.column a).w = 0 <;> simp [hw]

theorem toggled_toggled : (m.toggled a).toggled a = m.setColumn a (m.column a).reduced := by
  rw [toggled, toggled, column_setColumn_same, origin_setColumn, setColumn_setColumn]
  congr 1
  by_cases hw : (m.column a).w = 0
  · rw [HPoint2.reduced_of_infinite hw, if_pos hw, if_neg one_ne_zero]
    simp only [HPoint2.place, div_one, add_sub_cancel_left]
    exact congrArg (HPoint2.mk _ _) hw.symm
  · rw [HPoint2.reduced_of_finite hw, if_neg hw, if_pos rfl]
    simp only [Point.weighted, add_sub_cancel, one_mul]

theorem shown_reduced (p : HPoint3 Rat) : (m.setColumn a (m.column a).reduced).shown p =
    m.shown (p.set a (p.get a / (m.column a).scale)) := by
  cases a <;>
  · simp only [setColumn, column, shown, HPoint2.reduced, HPoint3.set, HPoint3.get, Axis.coord,
      HPoint2.mk.injEq]
    refine ⟨?_, ?_, ?_⟩ <;> ring

theorem shown_reduced_iff : (∀ p, (m.setColumn a (m.column a).reduced).shown p = m.shown p) ↔
    (m.column a).w = 0 ∨ (m.column a).w = 1 := by
  rw [← HPoint2.reduced_eq_self_iff]
  constructor
  · intro h
    have hunit := h a.unit
    rwa [shown_unit, shown_unit, column_setColumn_same] at hunit
  · intro h p
    rw [h, setColumn_column]

variable {m} in
-- The second toggling undoes the first but for the weight of a finite column. What is shown is as
-- before just if that weight is one.
theorem toggled?_toggled? (h : m.origin.w ≠ 0) : ∃ n k : Projection Rat,
    m.exact.toggled? a = some n.exact ∧ n.exact.toggled? a = some k.exact ∧
    n.exact.isFinite a = !m.exact.isFinite a ∧
    k = m.setColumn a (m.column a).reduced ∧
    (∀ p : HPoint3 Rat, k.exact.image p.exact =
      m.exact.image (p.set a (p.get a / (m.column a).scale)).exact) ∧
    ((∀ p : HPoint3 Rat, k.exact.image p.exact = m.exact.image p.exact) ↔
      (m.column a).w = 0 ∨ (m.column a).w = 1) := by
  have horigin : (m.toggled a).origin.w ≠ 0 := by rwa [toggled, origin_setColumn]
  refine ⟨m.toggled a, (m.toggled a).toggled a, toggled?_exact a h, toggled?_exact a horigin,
    m.isFinite_toggled a, m.toggled_toggled a, fun p => ?_, ?_⟩
  · rw [toggled_toggled, image_exact, image_exact, shown_reduced]
  · simp only [toggled_toggled, image_exact, HPoint2.exact_inj]
    exact m.shown_reduced_iff a

-- The vanishing point of X is at `(2, 3)`, with twice its coordinates.
def heavy : Projection Rat := ⟨⟨4, 6, 2⟩, ⟨0, 1, 0⟩, ⟨200, 100, 1⟩, ⟨0, 0, 1⟩⟩

theorem toggled?_toggled?_heavy : heavy.origin.w ≠ 0 ∧ ∃ n : Projection Rat,
    heavy.exact.toggled? .x = some n.exact ∧
    n.exact.toggled? .x = some (Projection.exact ⟨⟨2, 3, 1⟩, ⟨0, 1, 0⟩, ⟨200, 100, 1⟩, ⟨0, 0, 1⟩⟩) ∧
    n.exact.isFinite Axis.x = !heavy.exact.isFinite Axis.x := by
  have horigin : heavy.origin.w ≠ 0 := one_ne_zero
  obtain ⟨n, k, hfirst, hsecond, hfinite, rfl, -, -⟩ := toggled?_toggled? .x horigin
  refine ⟨horigin, n, hfirst, hsecond.trans ?_, hfinite⟩
  norm_num [heavy, HPoint2.reduced, HPoint2.scale, setColumn, column, Axis.coord]

-- The point one unit along X is shown elsewhere after the vanishing point was toggled twice.
theorem screen_toggled?_heavy : heavy.origin.w ≠ 0 ∧ ∃ n k : Projection Rat,
    heavy.exact.toggled? .x = some n.exact ∧ n.exact.toggled? .x = some k.exact ∧
    heavy.exact.screen (HPoint3.exact ⟨1, 0, 0, 1⟩) = Point.exact ⟨4 / 3, 2⟩ ∧
    k.exact.screen (HPoint3.exact ⟨1, 0, 0, 1⟩) = Point.exact ⟨1, 3 / 2⟩ ∧
    ¬ ∀ p : HPoint3 Rat, k.exact.screen p.exact = heavy.exact.screen p.exact := by
  have horigin : heavy.origin.w ≠ 0 := one_ne_zero
  have hbefore : heavy.exact.screen (HPoint3.exact ⟨1, 0, 0, 1⟩) = Point.exact ⟨4 / 3, 2⟩ := by
    rw [screen_exact _ (by decide +kernel)]
    norm_num [heavy, shown, HPoint2.place]
  have hafter : ((heavy.toggled .x).toggled .x).exact.screen (HPoint3.exact ⟨1, 0, 0, 1⟩) =
      Point.exact ⟨1, 3 / 2⟩ := by
    rw [toggled_toggled, screen_exact _ (by decide +kernel)]
    norm_num [heavy, shown, HPoint2.place, HPoint2.reduced, HPoint2.scale, setColumn, column,
      Axis.coord]
  refine ⟨horigin, heavy.toggled .x, _, toggled?_exact .x horigin, toggled?_exact .x horigin,
    hbefore, hafter, fun h => ?_⟩
  have hsame := h ⟨1, 0, 0, 1⟩
  rw [hbefore, hafter] at hsame
  have hx := Exact.rational.inj (congrArg Point.x hsame)
  norm_num at hx

end Projection

end PerspectiveBox
