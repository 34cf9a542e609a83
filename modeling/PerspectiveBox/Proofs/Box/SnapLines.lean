import PerspectiveBox.Proofs.Box.SnapMemory
import PerspectiveBox.Proofs.FaceOrder.Parallel
import PerspectiveBox.Proofs.Projective.Line

namespace PerspectiveBox

-- From one saved corner to the other over the ground plane.
def Corners.reach (c : Corners Rat) : Vec Rat := ⟨c.far.x - c.near.x, c.far.y - c.near.y⟩

namespace HPoint3

-- So many steps away from a point, in its plane of constant z.
def across (p : HPoint3 Rat) (v : Vec Rat) (t : Rat) : HPoint3 Rat :=
  ⟨p.x + t * v.x, p.y + t * v.y, p.z, 1⟩

theorem toward_across (p : HPoint3 Rat) (v : Vec Rat) (t : Rat) :
    p.toward (p.across v 1) t = p.across v t := by
  simp only [toward, across, HPoint3.mk.injEq]
  refine ⟨?_, ?_, ?_, trivial⟩ <;> ring

theorem across_one (p : HPoint3 Rat) (v : Vec Rat) :
    p.across v 1 = ⟨p.x + v.x, p.y + v.y, p.z, 1⟩ := by
  simp only [across, one_mul]

end HPoint3

-- The corner across the plane of constant z.
theorem AxisSet.xor_xy (id : AxisSet) : id ^^^ .xy = ⟨!id.hasX, !id.hasY, id.hasZ⟩ := by
  rcases id with ⟨_ | _, _ | _, _ | _⟩ <;> rfl

namespace SnapTarget

-- Where the construction lines lead from the start point: along the edges and along a diagonal.
-- The center has both diagonals. A corner has the main one if its x and y are of the same saved
-- corner, and the other one if they are not.
def steps (v : Vec Rat) : SnapTarget → List (Vec Rat)
  | .corner id => [⟨v.x, 0⟩, ⟨0, v.y⟩, if id.hasX = id.hasY then v else ⟨-v.x, v.y⟩]
  | .center => [⟨v.x, 0⟩, ⟨0, v.y⟩, v, ⟨-v.x, v.y⟩]

theorem steps_zero (v : Vec Rat) (target : SnapTarget) :
    (target.steps v)[0]? = some ⟨v.x, 0⟩ := by
  cases target <;> rfl

theorem steps_one (v : Vec Rat) (target : SnapTarget) :
    (target.steps v)[1]? = some ⟨0, v.y⟩ := by
  cases target <;> rfl

-- From a saved corner the diagonal leads to the opposite one of its plane.
theorem exists_across_diagonal {c : Corners Rat} {id : AxisSet} {p : HPoint3 Rat}
    (h : p.exact = c.exact.corner id) {v : Vec Rat}
    (hv : ((SnapTarget.corner id).steps c.reach)[2]? = some v) :
    ∃ t, (p.across v t).exact = c.exact.corner (id ^^^ .xy) := by
  rw [Corners.corner_exact, HPoint3.exact_inj] at h
  rw [Corners.corner_exact]
  refine ⟨if id.hasY then -1 else 1, congrArg HPoint3.exact ?_⟩
  subst h
  obtain rfl := Option.some.inj hv
  rw [id.xor_xy]
  rcases id with ⟨_ | _, _ | _, _ | _⟩ <;>
    simp [HPoint3.across, Corners.coordinate, Corners.reach, AxisSet.has, HPoint3.get, Axis.coord]

end SnapTarget

namespace SnapCall

def exact (c : SnapCall Rat) : SnapCall Exact :=
  ⟨c.map.exact, c.saved.exact, c.target, c.dragged.exact, c.start.exact⟩

variable {c : SnapCall Rat}

theorem isFinite_pointer (h : (c.map.shown c.dragged).w ≠ 0) :
    c.exact.pointer.isFinite = true := by
  rw [pointer, exact, c.map.screen_exact h]
  exact Point.isFinite_exact _

-- The construction lines run through the images of the start point and of the points one step
-- away.
theorem lines_exact (hw : c.start.w = 1) : c.exact.lines =
    (c.target.steps c.saved.reach).map fun v => .through (c.map.exact.screen c.start.exact)
      (c.map.exact.screen (c.start.across v 1).exact) := by
  obtain ⟨m, saved, target, dragged, x, y, z, w⟩ := c
  obtain rfl : w = 1 := hw
  cases target with
  | center =>
    simp only [SnapTarget.steps, HPoint3.across_one, List.map_cons, List.map_nil, add_zero,
      ← sub_eq_add_neg]
    rfl
  | corner id =>
    by_cases h : id.hasX = id.hasY
    all_goals
      simp only [lines, exact, Snap.lines, SnapTarget.steps, h, if_true, if_false,
        HPoint3.across_one, List.map_cons, List.map_nil, add_zero, ← sub_eq_add_neg]
      rfl

-- A point that is found at the foot of the pointer on a construction line.
theorem exists_across_of_pulledTo (hw : c.start.w = 1) (hpointer : (c.map.shown c.dragged).w ≠ 0)
    (hfrom : (c.map.shown c.start).w ≠ 0) {v : Vec Rat}
    (hto : (c.map.shown (c.start.across v 1)).w ≠ 0) {l : Line Exact}
    (hl : .through (c.map.exact.screen c.start.exact)
      (c.map.exact.screen (c.start.across v 1).exact) = l)
    (hfound : (c.exact.pulledTo l).isFinite = true) :
    ∃ t, c.exact.pulledTo l = (c.start.across v t).exact := by
  have hone : (c.start.across v 1).w = 1 := rfl
  have hplane : (c.start.across v 1).get Axis.z = c.start.get Axis.z := rfl
  have hpulled : c.exact.pulledTo l = c.map.exact.preimage
      (l.closest (c.map.shown c.dragged).place.exact) (.rational (c.start.get .z)) .z := by
    rw [← c.map.screen_exact hpointer]
    rfl
  rw [hpulled] at hfound ⊢
  obtain ⟨t, ht⟩ := Projection.exists_preimage_closest_through hw hone hplane hfrom hto hl hfound
  rw [HPoint3.toward_across] at ht
  exact ⟨t, ht⟩

-- A point that is found is so many steps from the start point along the line taken.
theorem exists_across_of_result (session : DragSession Exact) (hw : c.start.w = 1)
    (hpointer : (c.map.shown c.dragged).w ≠ 0) (hfrom : (c.map.shown c.start).w ≠ 0)
    (hto : ∀ v ∈ c.target.steps c.saved.reach, (c.map.shown (c.start.across v 1)).w ≠ 0)
    (hfound : (c.exact.result session).isFinite = true) :
    ∃ v t, (c.target.steps c.saved.reach)[(session.afterCall c.exact).lastLine]? = some v ∧
      c.exact.result session = (c.start.across v t).exact := by
  obtain ⟨l, hl, hr⟩ := DragSession.exists_line_afterCall session (isFinite_pointer hpointer)
  rw [lines_exact hw, List.getElem?_map, Option.map_eq_some_iff] at hl
  obtain ⟨v, hv, hthrough⟩ := hl
  rw [hr] at hfound ⊢
  obtain ⟨t, ht⟩ := exists_across_of_pulledTo hw hpointer hfrom (hto v (List.mem_of_getElem? hv))
    hthrough hfound
  exact ⟨v, t, hv, ht⟩

-- Whatever is remembered, there is a line for the pointer to be pulled to. A point that is found
-- there is in the plane of the start point and on an edge through it, or so many steps of a
-- diagonal away from it; from a saved corner that is the diagonal to the opposite one.
theorem result_on_line (c : SnapCall Rat) (session : DragSession Exact) (hw : c.start.w = 1)
    (hpointer : (c.map.exact.image c.dragged.exact).isFinite = true)
    (hfrom : (c.map.exact.image c.start.exact).isFinite = true)
    (hto : ∀ v ∈ c.target.steps c.saved.reach,
      (c.map.exact.image (c.start.across v 1).exact).isFinite = true) :
    let line := (session.afterCall c.exact).lastLine
    let r := c.exact.result session
    (∃ l, c.exact.lines[line]? = some l ∧ r = c.exact.pulledTo l) ∧
    (r.isFinite = true →
      r.z = .rational c.start.z ∧
      (line = 0 → r.y = .rational c.start.y) ∧
      (line = 1 → r.x = .rational c.start.x) ∧
      ∃ v t, (c.target.steps c.saved.reach)[line]? = some v ∧ r = (c.start.across v t).exact ∧
        ∀ id, c.target = .corner id → c.start.exact = c.saved.exact.corner id → line = 2 →
          ∃ k, (c.start.across v k).exact = c.saved.exact.corner (id ^^^ .xy)) := by
  simp only [Projection.image_exact, HPoint2.isFinite_exact, decide_eq_true_iff]
    at hpointer hfrom hto
  intro line r
  refine ⟨DragSession.exists_line_afterCall session (isFinite_pointer hpointer), fun hfound => ?_⟩
  obtain ⟨v, t, hv, hr⟩ : ∃ v t, (c.target.steps c.saved.reach)[line]? = some v ∧
      r = (c.start.across v t).exact := exists_across_of_result session hw hpointer hfrom hto hfound
  have hstill (q : Rat) : Exact.rational (q + t * 0) = .rational q := by rw [mul_zero, add_zero]
  refine ⟨congrArg HPoint3.z hr, fun h0 => ?_, fun h1 => ?_, v, t, hv, hr, ?_⟩
  · rw [h0, SnapTarget.steps_zero] at hv
    obtain rfl := Option.some.inj hv
    exact (congrArg HPoint3.y hr).trans (hstill _)
  · rw [h1, SnapTarget.steps_one] at hv
    obtain rfl := Option.some.inj hv
    exact (congrArg HPoint3.x hr).trans (hstill _)
  · intro id htarget hstart h2
    rw [h2, htarget] at hv
    exact SnapTarget.exists_across_diagonal hstart hv

-- The upper right corner at the back of a hall, dragged over the back wall.
def hallCall : SnapCall Rat where
  map := corridor
  saved := ⟨⟨0, 0, 0, 1⟩, ⟨1000, 2000, 1, 1⟩⟩
  target := .corner .xz
  dragged := ⟨700, 640, 1, 1⟩
  start := ⟨1000, 0, 1, 1⟩

-- The line remembered is one that only the center has.
def hallSession : DragSession Exact := { DragSession.default with lastLine := 3 }

theorem result_on_line_hall : hallCall.start.w = 1 ∧
    (hallSession.afterCall hallCall.exact).lastLine = 2 ∧
    (hallCall.exact.result hallSession).z = .rational 1 ∧
    ∃ v t, (hallCall.target.steps hallCall.saved.reach)[2]? = some v ∧
      hallCall.exact.result hallSession = (hallCall.start.across v t).exact ∧
      ∃ k, (hallCall.start.across v k).exact = hallCall.saved.exact.corner .yz := by
  have hline : (hallSession.afterCall hallCall.exact).lastLine = 2 := by decide +kernel
  obtain ⟨hz, -, -, v, t, hv, hr, hopposite⟩ :=
    (hallCall.result_on_line hallSession rfl (by decide +kernel) (by decide +kernel)
      (by decide +kernel)).2 (by decide +kernel)
  rw [hline] at hv
  exact ⟨rfl, hline, hz, v, t, hv, hr, hopposite .xz rfl rfl hline⟩

end SnapCall

end PerspectiveBox
