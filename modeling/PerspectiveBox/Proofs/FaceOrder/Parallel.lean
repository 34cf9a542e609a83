import PerspectiveBox.Proofs.FaceOrder.Central

namespace PerspectiveBox

namespace Vec

def zero : Vec Rat := ⟨0, 0⟩

-- The product with the quarter turn of another vector.
def turnedBy (t : Rat) (v : Vec Rat) : Vec Rat := ⟨t * v.y, -(t * v.x)⟩

theorem inner_turnedBy (t : Rat) (v w : Vec Rat) :
    (turnedBy t v).inner w = -(t * v.cross w) := by
  simp only [turnedBy, inner, cross]
  ring

-- A vector is zero if it is orthogonal to two independent ones.
theorem eq_zero_of_inner {u v w : Vec Rat} (h : v.cross w ≠ 0) (hv : u.inner v = 0)
    (hw : u.inner w = 0) : u = zero := by
  have hx : u.x * v.cross w = u.inner v * w.y - u.inner w * v.y := by
    simp only [inner, cross]
    ring
  have hy : u.y * v.cross w = u.inner w * v.x - u.inner v * w.x := by
    simp only [inner, cross]
    ring
  rw [hv, hw, zero_mul, zero_mul, sub_zero] at hx hy
  obtain ⟨x, y⟩ := u
  have hx0 : x = 0 := (mul_eq_zero.1 hx).resolve_right h
  have hy0 : y = 0 := (mul_eq_zero.1 hy).resolve_right h
  rw [hx0, hy0, zero]

theorem turnedBy_ne_zero {t : Rat} {v w : Vec Rat} (ht : t ≠ 0) (h : v.cross w ≠ 0) :
    turnedBy t v ≠ zero := by
  intro h0
  have hw := inner_turnedBy t v w
  rw [h0, zero, inner, zero_mul, zero_mul, add_zero] at hw
  exact mul_ne_zero ht h (neg_eq_zero.1 hw.symm)

-- Every direction goes with one of three vectors if and only if each two of them that follow one
-- another turn the same way.
theorem all_inner_pos_iff {u v w : Vec Rat} (hvw : v.cross w ≠ 0) (hwu : w.cross u ≠ 0) :
    (∀ d, d ≠ zero → 0 < d.inner u ∨ 0 < d.inner v ∨ 0 < d.inner w) ↔
      0 < u.cross v * v.cross w ∧ 0 < v.cross w * w.cross u := by
  constructor
  · intro h
    -- Otherwise a quarter turn of one of the vectors goes with none of them.
    have hfirst := h _ (turnedBy_ne_zero hvw hvw)
    have hsecond := h _ (turnedBy_ne_zero hwu hwu)
    simp only [inner_turnedBy, cross_self, mul_zero, neg_zero, lt_irrefl, false_or,
      or_false] at hfirst hsecond
    have hvu : v.cross u = -u.cross v := cross_swap u v
    have hwv : w.cross v = -v.cross w := cross_swap v w
    have hvw' : 0 < v.cross w * v.cross w := mul_self_pos.2 hvw
    have hwu' : 0 < w.cross u * w.cross u := mul_self_pos.2 hwu
    rw [hvu] at hfirst
    rw [hwv] at hsecond
    constructor
    · rcases hfirst with hpos | hneg
      · linarith
      · linarith
    · rcases hsecond with hneg | hpos
      · linarith
      · linarith
  · rintro ⟨h₁, h₂⟩ d hd
    by_contra hnot
    simp only [not_or, not_lt] at hnot
    obtain ⟨hu, hv, hw⟩ := hnot
    -- The vectors are dependent, with coefficients of one sign.
    have hsum : v.cross w * v.cross w * d.inner u + v.cross w * w.cross u * d.inner v +
        u.cross v * v.cross w * d.inner w = 0 := by
      simp only [inner, cross]
      ring
    have hu' : v.cross w * v.cross w * d.inner u ≤ 0 :=
      mul_nonpos_of_nonneg_of_nonpos (mul_self_nonneg _) hu
    have hv' : v.cross w * w.cross u * d.inner v ≤ 0 :=
      mul_nonpos_of_nonneg_of_nonpos h₂.le hv
    have hw' : u.cross v * v.cross w * d.inner w ≤ 0 :=
      mul_nonpos_of_nonneg_of_nonpos h₁.le hw
    have hv0 : v.cross w * w.cross u * d.inner v = 0 := by linarith
    have hw0 : u.cross v * v.cross w * d.inner w = 0 := by linarith
    exact hd (eq_zero_of_inner hvw ((mul_eq_zero.1 hv0).resolve_left h₂.ne')
      ((mul_eq_zero.1 hw0).resolve_left h₁.ne'))

end Vec

-- The direction in which lines along an axis run.
def Projection.toward (m : Projection Rat) (a : Axis) : Vec Rat := (m.column a).direction

-- All vanishing points are at infinity, in directions that are far enough from dependent.
structure Projection.Parallel (m : Projection Rat) : Prop where
  infinite : ∀ a : Axis, (m.column a).w = 0
  finite : m.origin.w ≠ 0
  apart : ∀ a b : Axis, a ≠ b → 1e-6 ≤ |(m.toward a).cross (m.toward b)|

-- The near corner lies above the far one in x and y and below it in z.
structure Corners.Canonical (c : Corners Rat) : Prop where
  nearWeight : c.near.w = 1
  farWeight : c.far.w = 1
  x : c.far.x < c.near.x
  y : c.far.y < c.near.y
  z : c.near.z < c.far.z

def AxisSet.all : List AxisSet := (List.range 8).map AxisSet.ofBits

-- Strictly inside the outline of some points: no line through the point has all on one side.
def Point.IsInside (p : Point Exact) (outline : List (Point Exact)) : Prop :=
  ∀ d : Vec Rat, d ≠ .zero → ∃ q ∈ outline, d.exact.dot p.position < d.exact.dot q.position

-- Whether a corner lies inside the outline of its box on screen.
def Corners.HasInside (c : Corners Exact) (m : Projection Exact) (id : AxisSet) : Prop :=
  (c.screen m id).IsInside (AxisSet.all.map (c.screen m))

namespace FaceOrder

-- Whether the face in a slot has a corner.
def hasCorner (slot : Nat) (id : AxisSet) : Bool :=
  ((Face.ofSlot? slot).map fun f => f.cornerIds.toList.contains id).getD false

def facesAt (id : AxisSet) : List Nat := (List.range Face.count).filter (hasCorner · id)

-- The faces at a corner are on top, and the faces at the opposite corner below them.
def shows (order : FaceOrder) (id : AxisSet) : Bool :=
  (order.take 3).isPerm (facesAt id) && (order.drop 3).isPerm (facesAt id.complement)

-- Whether two opposite faces are among the three on top.
def hasOpposites (order : FaceOrder) : Bool :=
  (order.take 3).any fun a => (order.take 3).any fun b =>
    a != b && Face.slotPlane a == Face.slotPlane b

-- The slot of a face by its number when the three front faces are numbered first.
def slotOf (number : Nat) : Nat := if number < 3 then 2 * number else 2 * (number - 3) + 1

end FaceOrder

theorem AxisSet.mem_all (id : AxisSet) : id ∈ all := by
  rcases id with ⟨_ | _, _ | _, _ | _⟩ <;> decide

theorem AxisSet.has_xor_single (id : AxisSet) (a b : Axis) :
    (id ^^^ single a).has b = (id.has b ^^ decide (a = b)) := by
  rcases id with ⟨_ | _, _ | _, _ | _⟩ <;> cases a <;> cases b <;> rfl

namespace Corners

variable (c : Corners Rat) (m : Projection Rat) (id : AxisSet)

def coordinate (a : Axis) : Rat := if id.has a then c.far.get a else c.near.get a

-- From a corner to its neighbour along an axis.
def step (a : Axis) : Rat :=
  if id.has a then c.near.get a - c.far.get a else c.far.get a - c.near.get a

def flat : Point Rat where
  x := (m.vpX.x * c.coordinate id .x + m.vpY.x * c.coordinate id .y +
    m.vpZ.x * c.coordinate id .z + m.origin.x) / m.origin.w
  y := (m.vpX.y * c.coordinate id .x + m.vpY.y * c.coordinate id .y +
    m.vpZ.y * c.coordinate id .z + m.origin.y) / m.origin.w

-- The same on screen.
def edge (a : Axis) : Vec Rat where
  x := c.step id a / m.origin.w * (m.toward a).x
  y := c.step id a / m.origin.w * (m.toward a).y

theorem corner_exact : c.exact.corner id =
    HPoint3.exact ⟨c.coordinate id .x, c.coordinate id .y, c.coordinate id .z, 1⟩ := by
  rcases id with ⟨_ | _, _ | _, _ | _⟩ <;> rfl

-- What the way from one corner to another has along an axis.
def stretch (other : AxisSet) (a : Axis) : Rat := if other.has a = id.has a then 0 else c.step id a

theorem coordinate_eq (other : AxisSet) (a : Axis) :
    c.coordinate other a = c.coordinate id a + c.stretch id other a := by
  simp only [coordinate, stretch, step]
  cases other.has a <;> cases id.has a <;> simp

theorem inner_flat (other : AxisSet) (d : Vec Rat) :
    d.inner ⟨(c.flat m other).x, (c.flat m other).y⟩ =
      d.inner ⟨(c.flat m id).x, (c.flat m id).y⟩ +
        (c.stretch id other .x / m.origin.w * d.inner (m.toward .x) +
          c.stretch id other .y / m.origin.w * d.inner (m.toward .y) +
          c.stretch id other .z / m.origin.w * d.inner (m.toward .z)) := by
  simp only [Vec.inner, flat, coordinate_eq c id other]
  have hx : m.toward .x = ⟨m.vpX.x, m.vpX.y⟩ := rfl
  have hy : m.toward .y = ⟨m.vpY.x, m.vpY.y⟩ := rfl
  have hz : m.toward .z = ⟨m.vpZ.x, m.vpZ.y⟩ := rfl
  rw [hx, hy, hz]
  ring

theorem inner_edge (a : Axis) (d : Vec Rat) :
    d.inner (c.edge m id a) = c.step id a / m.origin.w * d.inner (m.toward a) := by
  simp only [Vec.inner, edge]
  ring

end Corners

namespace Projection.Parallel

variable {m : Projection Rat} (hm : m.Parallel)
include hm

theorem screen_eq (c : Corners Rat) (id : AxisSet) :
    c.exact.screen m.exact id = (c.flat m id).exact := by
  have hx : m.vpX.w = 0 := hm.infinite .x
  have hy : m.vpY.w = 0 := hm.infinite .y
  have hz : m.vpZ.w = 0 := hm.infinite .z
  have himage : m.exact.image (c.exact.corner id) = HPoint2.exact
      ⟨m.vpX.x * c.coordinate id .x + m.vpY.x * c.coordinate id .y +
          m.vpZ.x * c.coordinate id .z + m.origin.x,
        m.vpX.y * c.coordinate id .x + m.vpY.y * c.coordinate id .y +
          m.vpZ.y * c.coordinate id .z + m.origin.y,
        m.origin.w⟩ := by
    rw [Corners.corner_exact, Projection.image]
    simp only [HPoint2.exact, HPoint3.exact, Projection.exact, Exact.rational_mul,
      Exact.rational_add, hx, hy, hz, zero_mul, zero_add, mul_one]
  rw [Corners.screen, Projection.screen, himage]
  exact (HPoint2.toPoint_exact (by exact hm.finite)).trans rfl

theorem cross_ne_zero {a b : Axis} (hab : a ≠ b) : (m.toward a).cross (m.toward b) ≠ 0 :=
  ne_zero_of_epsilon_le (hm.apart a b hab)

-- A corner is inside if and only if every direction goes with one of the edges from it.
theorem hasInside_iff_edges (c : Corners Rat) (id : AxisSet) :
    c.exact.HasInside m.exact id ↔ ∀ d : Vec Rat, d ≠ .zero →
      0 < d.inner (c.edge m id .x) ∨ 0 < d.inner (c.edge m id .y) ∨
        0 < d.inner (c.edge m id .z) := by
  have hflat (d : Vec Rat) (other : AxisSet) :
      d.exact.dot (c.exact.screen m.exact id).position <
        d.exact.dot (c.exact.screen m.exact other).position ↔
      0 < c.stretch id other .x / m.origin.w * d.inner (m.toward .x) +
        c.stretch id other .y / m.origin.w * d.inner (m.toward .y) +
        c.stretch id other .z / m.origin.w * d.inner (m.toward .z) := by
    rw [hm.screen_eq, hm.screen_eq]
    show d.inner ⟨(c.flat m id).x, (c.flat m id).y⟩ <
      d.inner ⟨(c.flat m other).x, (c.flat m other).y⟩ ↔ _
    rw [c.inner_flat m id other]
    exact lt_add_iff_pos_right _
  constructor
  · intro h d hd
    obtain ⟨q, hq, hlt⟩ := h d hd
    obtain ⟨other, -, rfl⟩ := List.mem_map.1 hq
    rw [hflat] at hlt
    by_contra hnot
    simp only [Corners.inner_edge, not_or, not_lt] at hnot
    obtain ⟨hx, hy, hz⟩ := hnot
    -- Each part of the way goes along an edge or not at all.
    have hpart {a : Axis} (ha : c.step id a / m.origin.w * d.inner (m.toward a) ≤ 0) :
        c.stretch id other a / m.origin.w * d.inner (m.toward a) ≤ 0 := by
      rw [Corners.stretch]
      split
      · rw [zero_div, zero_mul]
      · exact ha
    linarith [hpart hx, hpart hy, hpart hz]
  · intro h d hd
    have hneighbour {a : Axis} (ha : 0 < d.inner (c.edge m id a)) :
        ∃ q ∈ AxisSet.all.map (c.exact.screen m.exact),
          d.exact.dot (c.exact.screen m.exact id).position < d.exact.dot q.position := by
      refine ⟨_, List.mem_map_of_mem (AxisSet.mem_all (id ^^^ .single a)), ?_⟩
      rw [hflat]
      simp only [Corners.stretch, AxisSet.has_xor_single]
      rw [Corners.inner_edge] at ha
      cases a <;> simpa using ha
    rcases h d hd with hx | hy | hz
    · exact hneighbour hx
    · exact hneighbour hy
    · exact hneighbour hz

end Projection.Parallel

def insideBy (xy yz zx : Bool) (id : AxisSet) : Bool :=
  ((id.hasX == !id.hasZ) == (xy == yz)) && ((id.hasY == id.hasX) == (yz == zx))

def Projection.turn (m : Projection Rat) (a b : Axis) : Bool :=
  isPositive ((m.toward a).cross (m.toward b))

namespace Corners.Canonical

variable {c : Corners Rat} (hc : c.Canonical) (id : AxisSet)
include hc

theorem isPositive_stepX : isPositive (c.step id .x) = id.hasX := by
  have hstep : c.step id .x =
    if id.hasX then c.near.x - c.far.x else c.far.x - c.near.x := rfl
  rw [hstep, isPositive]
  cases id.hasX <;> simp [hc.x, hc.x.le]

theorem isPositive_stepY : isPositive (c.step id .y) = id.hasY := by
  have hstep : c.step id .y =
    if id.hasY then c.near.y - c.far.y else c.far.y - c.near.y := rfl
  rw [hstep, isPositive]
  cases id.hasY <;> simp [hc.y, hc.y.le]

theorem isPositive_stepZ : isPositive (c.step id .z) = !id.hasZ := by
  have hstep : c.step id .z =
    if id.hasZ then c.near.z - c.far.z else c.far.z - c.near.z := rfl
  rw [hstep, isPositive]
  cases id.hasZ <;> simp [hc.z, hc.z.le]

theorem step_ne_zero (a : Axis) : c.step id a ≠ 0 := by
  have hne : c.near.get a ≠ c.far.get a := by
    cases a
    · exact hc.x.ne'
    · exact hc.y.ne'
    · exact hc.z.ne
  rw [step]
  split
  · exact sub_ne_zero.2 hne
  · exact sub_ne_zero.2 hne.symm

end Corners.Canonical

theorem Corners.cross_edge (c : Corners Rat) (m : Projection Rat) (id : AxisSet) (a b : Axis) :
    (c.edge m id a).cross (c.edge m id b) =
      c.step id a / m.origin.w * (c.step id b / m.origin.w) *
        (m.toward a).cross (m.toward b) := by
  simp only [edge, Vec.cross]
  ring

namespace Projection.Parallel

variable {m : Projection Rat} (hm : m.Parallel) {c : Corners Rat} (hc : c.Canonical)
include hm hc

theorem cross_edge_ne_zero (id : AxisSet) {a b : Axis} (hab : a ≠ b) :
    (c.edge m id a).cross (c.edge m id b) ≠ 0 := by
  rw [c.cross_edge]
  exact mul_ne_zero (mul_ne_zero (div_ne_zero (hc.step_ne_zero id a) hm.finite)
    (div_ne_zero (hc.step_ne_zero id b) hm.finite)) (hm.cross_ne_zero hab)

-- Two turns of edges that follow one another, told by the edges they do not share.
theorem isPositive_turns (id : AxisSet) {a b d : Axis} (hab : a ≠ b) (hbd : b ≠ d) :
    isPositive ((c.edge m id a).cross (c.edge m id b) *
      (c.edge m id b).cross (c.edge m id d)) =
        ((isPositive (c.step id a) == isPositive (c.step id d)) ==
          (m.turn a b == m.turn b d)) := by
  have hsquare : c.step id b / m.origin.w / m.origin.w ≠ 0 :=
    div_ne_zero (div_ne_zero (hc.step_ne_zero id b) hm.finite) hm.finite
  have hends : c.step id a * c.step id d ≠ 0 :=
    mul_ne_zero (hc.step_ne_zero id a) (hc.step_ne_zero id d)
  have hcross : (m.toward a).cross (m.toward b) * (m.toward b).cross (m.toward d) ≠ 0 :=
    mul_ne_zero (hm.cross_ne_zero hab) (hm.cross_ne_zero hbd)
  have hproduct : (c.edge m id a).cross (c.edge m id b) *
      (c.edge m id b).cross (c.edge m id d) =
        c.step id a * c.step id d *
          ((m.toward a).cross (m.toward b) * (m.toward b).cross (m.toward d)) *
            (c.step id b / m.origin.w / m.origin.w * (c.step id b / m.origin.w / m.origin.w)) := by
    rw [c.cross_edge, c.cross_edge]
    ring
  rw [hproduct, isPositive_mul (mul_ne_zero hends hcross) (mul_ne_zero hsquare hsquare),
    isPositive_mul_self hsquare, isPositive_mul hends hcross,
    isPositive_mul (hc.step_ne_zero id a) (hc.step_ne_zero id d),
    isPositive_mul (hm.cross_ne_zero hab) (hm.cross_ne_zero hbd), beq_true]
  rfl

theorem hasInside_iff (id : AxisSet) : c.exact.HasInside m.exact id ↔
    insideBy (m.turn .x .y) (m.turn .y .z) (m.turn .z .x) id = true := by
  have hxy : Axis.x ≠ .y := nofun
  have hyz : Axis.y ≠ .z := nofun
  have hzx : Axis.z ≠ .x := nofun
  have hturns := Vec.all_inner_pos_iff (u := c.edge m id .x)
    (hm.cross_edge_ne_zero hc id hyz) (hm.cross_edge_ne_zero hc id hzx)
  rw [hm.hasInside_iff_edges, hturns, insideBy, Bool.and_eq_true]
  have hfirst := hm.isPositive_turns hc id hxy hyz
  have hsecond := hm.isPositive_turns hc id hyz hzx
  rw [hc.isPositive_stepX, hc.isPositive_stepZ] at hfirst
  rw [hc.isPositive_stepX, hc.isPositive_stepY] at hsecond
  rw [← hfirst, ← hsecond, isPositive, isPositive, decide_eq_true_iff, decide_eq_true_iff]

omit hm in
theorem everted_eq : c.exact.everted = .empty := by
  have hnear : c.exact.near.normalized = c.near.exact := HPoint3.normalized_exact hc.nearWeight
  have hfar : c.exact.far.normalized = c.far.exact := HPoint3.normalized_exact hc.farWeight
  have hx : ¬ c.near.x < c.far.x := not_lt.2 hc.x.le
  have hy : ¬ c.near.y < c.far.y := not_lt.2 hc.y.le
  have hz : ¬ c.far.z < c.near.z := not_lt.2 hc.z.le
  have hx' : ¬ (c.near.exact.x < c.far.exact.x) := hx
  have hy' : ¬ (c.near.exact.y < c.far.exact.y) := hy
  have hz' : ¬ (c.far.exact.z < c.near.exact.z) := hz
  simp only [Corners.everted, Corners.normalized, hnear, hfar, hx', hy', hz', decide_false]

omit hc in
theorem isFinite_eq (a : Axis) : m.exact.isFinite a = false := by
  have hw : (m.exact.column a).w = .rational 0 := by
    have h := hm.infinite a
    cases a <;> exact congrArg Exact.rational h
  rw [Projection.isFinite, HPoint2.isFinite, hw]
  rfl

omit hc in
theorem directionFrom_eq (p : Point Exact) (a : Axis) :
    m.exact.directionFrom p a = (m.toward a).exact := by
  rw [Projection.directionFrom_of_infinite (hm.isFinite_eq a)]
  cases a <;> rfl

omit hc in
theorem centralAxis_eq (p : Point Exact) : m.exact.centralAxis p =
    betweenAxis (m.turn .x .y) (m.turn .y .z) (m.turn .z .x) :=
  centralAxis_of_directions (hm.directionFrom_eq p) hm.apart

omit hc in
theorem swapsXY_eq (p : Point Exact) : m.exact.swapsXY p = m.turn .x .y := by
  have hx : m.exact.directionFrom p .x = (m.toward .x).exact := hm.directionFrom_eq p .x
  have hy : m.exact.directionFrom p .y = (m.toward .y).exact := hm.directionFrom_eq p .y
  rw [Projection.swapsXY, hx, hy, Vec.det_exact]
  rfl

theorem faceOrder_eq (strategy : OrderStrategy) : c.exact.faceOrder m.exact strategy =
    .parallel (betweenAxis (m.turn .x .y) (m.turn .y .z) (m.turn .z .x)) (m.turn .x .y) := by
  rw [Corners.faceOrder, everted_eq hc,
    Corners.vanishingCase_of_infinite hm.isFinite_eq c.exact strategy .nowhere, hm.centralAxis_eq,
    hm.swapsXY_eq]
  rfl

end Projection.Parallel

namespace FaceOrder

-- An order as it would be with its table read in the numbering it was written for.
def renumbered (order : FaceOrder) : FaceOrder := order.map slotOf

theorem not_shows_inside (xy yz zx : Bool) (id : AxisSet) (hid : insideBy xy yz zx id = true) :
    shows (parallel (betweenAxis xy yz zx) xy) id = false := by
  rcases id with ⟨_ | _, _ | _, _ | _⟩ <;> revert xy yz zx <;> decide

theorem exists_shows_renumbered (xy yz zx : Bool) :
    ∃ id, insideBy xy yz zx id = true ∧
      shows (renumbered (parallel (betweenAxis xy yz zx) xy)) id = true := by
  have h : ∀ xy yz zx, AxisSet.all.any (fun id => insideBy xy yz zx id &&
      shows (renumbered (parallel (betweenAxis xy yz zx) xy)) id) = true := by decide
  obtain ⟨id, -, hid⟩ := List.any_eq_true.1 (h xy yz zx)
  exact ⟨id, Bool.and_eq_true_iff.1 hid⟩

theorem hasOpposites_parallel (xy yz zx : Bool) :
    hasOpposites (parallel (betweenAxis xy yz zx) xy) = true ↔ betweenAxis xy yz zx ≠ .x := by
  revert xy yz zx
  decide

theorem inside_opposite (xy yz zx : Bool) : ∃ id, ∀ other, insideBy xy yz zx other = true ↔
    other = id ∨ other = id.complement := by
  have h : ∀ xy yz zx, AxisSet.all.any (fun id => AxisSet.all.all fun other =>
      insideBy xy yz zx other == (other == id || other == id.complement)) = true := by decide
  obtain ⟨id, -, hid⟩ := List.any_eq_true.1 (h xy yz zx)
  refine ⟨id, fun other => ?_⟩
  have hother := List.all_eq_true.1 hid other other.mem_all
  rw [beq_iff_eq] at hother
  rw [hother, Bool.or_eq_true, beq_iff_eq, beq_iff_eq]

end FaceOrder

namespace Projection.Parallel

variable {m : Projection Rat} (hm : m.Parallel) {c : Corners Rat} (hc : c.Canonical)
include hm hc

-- Two opposite corners lie inside the outline.
theorem exists_inside : ∃ id, ∀ other, c.exact.HasInside m.exact other ↔
    other = id ∨ other = id.complement := by
  obtain ⟨id, hid⟩ := FaceOrder.inside_opposite (m.turn .x .y) (m.turn .y .z) (m.turn .z .x)
  exact ⟨id, fun other => (hm.hasInside_iff hc other).trans (hid other)⟩

theorem not_shows (strategy : OrderStrategy) {id : AxisSet}
    (hid : c.exact.HasInside m.exact id) :
    (c.exact.faceOrder m.exact strategy).shows id = false := by
  rw [hm.faceOrder_eq hc]
  exact FaceOrder.not_shows_inside _ _ _ id ((hm.hasInside_iff hc id).1 hid)

-- The faces on top are never those at one of the two corners inside the outline, as they would be
-- with the front faces numbered first. Opposite faces are among them unless X runs between Y and Z.
theorem faceOrder_hides (strategy : OrderStrategy) :
    (∃ id, ∀ other, c.exact.HasInside m.exact other ↔ other = id ∨ other = id.complement) ∧
    (∀ id, c.exact.HasInside m.exact id →
      (c.exact.faceOrder m.exact strategy).shows id = false) ∧
    (∃ id, c.exact.HasInside m.exact id ∧
      (c.exact.faceOrder m.exact strategy).renumbered.shows id = true) ∧
    ((c.exact.faceOrder m.exact strategy).hasOpposites = true ↔
      m.exact.centralAxis (c.exact.screen m.exact Corners.reference) ≠ .x) := by
  refine ⟨hm.exists_inside hc, fun id => hm.not_shows hc strategy, ?_, ?_⟩
  · obtain ⟨id, hinside, hshows⟩ := FaceOrder.exists_shows_renumbered (m.turn .x .y)
      (m.turn .y .z) (m.turn .z .x)
    exact ⟨id, (hm.hasInside_iff hc id).2 hinside, by rw [hm.faceOrder_eq hc]; exact hshows⟩
  · rw [hm.faceOrder_eq hc, hm.centralAxis_eq]
    exact FaceOrder.hasOpposites_parallel _ _ _

end Projection.Parallel

def axonometric : Projection Rat := ⟨⟨1, 0, 0⟩, ⟨0, 1, 0⟩, ⟨1, 1, 0⟩, ⟨100, 100, 1⟩⟩

def axonometricBox : Corners Rat := ⟨⟨10, 10, 0, 1⟩, ⟨0, 0, 10, 1⟩⟩

theorem parallel_axonometric : axonometric.Parallel := by
  refine ⟨fun a => ?_, by decide, fun a b hab => ?_⟩
  · cases a <;> rfl
  · cases a <;> cases b <;> first | exact absurd rfl hab | decide +kernel

theorem canonical_axonometricBox : axonometricBox.Canonical :=
  ⟨rfl, rfl, by decide, by decide, by decide⟩

theorem faceOrder_hides_axonometric :
    axonometric.Parallel ∧ axonometricBox.Canonical ∧
    ∃ id, axonometricBox.exact.HasInside axonometric.exact id ∧
      (axonometricBox.exact.faceOrder axonometric.exact .sectorHeuristics).renumbered.shows id =
        true :=
  ⟨parallel_axonometric, canonical_axonometricBox,
    (parallel_axonometric.faceOrder_hides canonical_axonometricBox .sectorHeuristics).2.2.1⟩

-- The front and the rear face are the first and the third on top of the stack.
theorem not_inside_on_top : axonometric.Parallel ∧ axonometricBox.Canonical ∧
    axonometricBox.exact.faceOrder axonometric.exact .sectorHeuristics = [5, 3, 4, 1, 0, 2] ∧
    (¬ ∃ id, axonometricBox.exact.HasInside axonometric.exact id ∧
      (axonometricBox.exact.faceOrder axonometric.exact .sectorHeuristics).shows id = true) ∧
    (axonometricBox.exact.faceOrder axonometric.exact .sectorHeuristics).hasOpposites = true := by
  have horder := parallel_axonometric.faceOrder_eq canonical_axonometricBox .sectorHeuristics
  refine ⟨parallel_axonometric, canonical_axonometricBox, ?_, ?_, ?_⟩
  · rw [horder]
    decide +kernel
  · rintro ⟨id, hid, hshows⟩
    rw [parallel_axonometric.not_shows canonical_axonometricBox .sectorHeuristics hid] at hshows
    cases hshows
  · rw [horder]
    decide +kernel

end PerspectiveBox
