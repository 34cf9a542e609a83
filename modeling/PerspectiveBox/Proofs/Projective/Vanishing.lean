import PerspectiveBox.Projective.Line
import PerspectiveBox.Proofs.Plane.Turn

namespace PerspectiveBox

def HPoint2.place (p : HPoint2 Rat) : Point Rat := ⟨p.x / p.w, p.y / p.w⟩

namespace Projection

variable (m : Projection Rat)

theorem screen_exact {p : HPoint3 Rat} (h : (m.shown p).w ≠ 0) :
    m.exact.screen p.exact = (m.shown p).place.exact :=
  HPoint2.toPoint_exact h

theorem column_exact (c : Coord) : m.exact.column c = (m.column c).exact := by
  cases c <;> rfl

theorem isFinite_column_exact (c : Coord) :
    (m.exact.column c).isFinite = decide ((m.column c).w ≠ 0) := by
  rw [column_exact, HPoint2.isFinite_exact]

variable {m} in
theorem isFinite_column {c : Coord} (h : (m.column c).w ≠ 0) :
    (m.exact.column c).isFinite = true := by
  rw [isFinite_column_exact, decide_eq_true_iff]
  exact h

variable {m} in
theorem not_isFinite_column {c : Coord} (h : (m.column c).w = 0) :
    (m.exact.column c).isFinite = false := by
  rw [isFinite_column_exact, decide_eq_false_iff_not, not_not]
  exact h

theorem toPoint_column_exact {c : Coord} (h : (m.column c).w ≠ 0) :
    (m.exact.column c).toPoint = (m.column c).place.exact := by
  rw [column_exact, HPoint2.toPoint_exact h, HPoint2.place]

-- The direction in which lines along an axis run from a point.
def heading (p : Point Rat) (c : Coord) : Vec Rat :=
  if (m.column c).w = 0 then (m.column c).direction else p.vecTo (m.column c).place

theorem line_exact (p : Point Rat) (c : Coord) :
    (PerspectiveLine.through m.exact p.exact c).line = .along p.exact (m.heading p c).exact := by
  unfold heading
  by_cases h : (m.column c).w = 0
  · simp only [PerspectiveLine.through, not_isFinite_column h, if_pos h, Bool.false_eq_true,
      if_false]
    rw [column_exact]
    rfl
  · simp only [PerspectiveLine.through, isFinite_column h, if_neg h, if_true,
      toPoint_column_exact m h]
    rfl

theorem directionFrom_exact (p : Point Rat) (c : Coord) :
    m.exact.directionFrom p.exact c = (m.heading p c).exact :=
  congrArg Line.direction (m.line_exact p c)

end Projection

end PerspectiveBox
