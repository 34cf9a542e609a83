import PerspectiveBox.FaceOrder.Classify
import PerspectiveBox.Proofs.Plane.Similar
import PerspectiveBox.Proofs.Projective.Affine

namespace PerspectiveBox

section

variable {K : Type} [Scalar K]

namespace Projection

-- Whether the triangle of the vanishing points decides.
def byTriangle (m : Projection K) (strategy : OrderStrategy) : Prop :=
  strategy = .vanishingTriangle ∧ m.isFinite .x ∧ m.isFinite .y ∧ m.isFinite .z

instance (m : Projection K) (strategy : OrderStrategy) : Decidable (m.byTriangle strategy) :=
  inferInstanceAs (Decidable (_ ∧ _))

-- Directions count as dependent below the threshold, the lines of the triangle as parallel at the
-- threshold too.
def countsAsZero (m : Projection K) (strategy : OrderStrategy) (d : K) : Bool :=
  if m.byTriangle strategy then Scalar.abs d ≤ Scalar.epsilon else Scalar.abs d < Scalar.epsilon

end Projection

namespace Corners

variable (c : Corners K) (m : Projection K)

-- The turn from the direction of one axis to that of another at the reference corner.
def turnAt (a b : Coord) : K :=
  (m.directionFrom (c.screen m reference) a).det (m.directionFrom (c.screen m reference) b)

-- The turn, at the vanishing point of an axis, from the reference corner to its neighbour along an
-- edge.
def angleAt (edge axis : Axis) : K :=
  (c.screen m reference - (m.column axis).toPoint).det
    (c.screen m (reference ^^^ .single edge) - (m.column axis).toPoint)

-- The half-line from the reference corner through a vanishing point, against the side of the
-- triangle that lies opposite.
def raySlope (a b d : Coord) : K :=
  ((m.column a).toPoint - c.screen m reference).det ((m.column d).toPoint - (m.column b).toPoint)

-- A side of the triangle, against an edge at the reference corner.
def sideSlope (a b : Coord) (edge : Axis) : K :=
  ((m.column b).toPoint - (m.column a).toPoint).det
    (c.screen m (reference ^^^ .single edge) - c.screen m reference)

-- The sectors that are looked into for a vanishing point: its axis, the edge between the lines,
-- and the axis of the lines.
def sectors : List (Axis × Axis × Axis) :=
  [(.x, .z, .y), (.x, .y, .z), (.y, .z, .x), (.y, .x, .z), (.z, .y, .x), (.z, .x, .y)]

def sectorDeterminants : List K :=
  [c.turnAt m .x .y, c.turnAt m .y .z, c.turnAt m .z .x] ++
    (sectors.filter fun (vp, _, axis) => m.isFinite vp && m.isFinite axis).map
      fun (_, edge, axis) => c.angleAt m edge axis

def triangleDeterminants : List K :=
  [c.raySlope m .x .y .z, c.raySlope m .y .z .x, c.raySlope m .z .x .y,
    c.sideSlope m .z .x .y, c.sideSlope m .z .y .x, c.sideSlope m .x .z .y, c.sideSlope m .x .y .z]

-- The determinants by which a box is classified.
def determinants (strategy : OrderStrategy) : List K :=
  if m.byTriangle strategy then c.triangleDeterminants m else c.sectorDeterminants m

theorem vanishingCase_byTriangle (strategy : OrderStrategy) : c.vanishingCase m strategy =
    if m.byTriangle strategy then c.triangleCase m else c.sectorCase m := rfl

end Corners

end

namespace Similarity

variable (g : Similarity)

def map : Affine Rat := ⟨g.cos, -g.sin, g.dx, g.sin, g.cos, g.dy, 0, 0, 1⟩

def projection (m : Projection Rat) : Projection Rat := m.moved g.map

theorem movedPoint_map (p : Point Rat) : g.map.movedPoint p = g.move p := by
  simp only [Affine.movedPoint, map, move, mul_one]

variable (m : Projection Rat) (c : Coord)

theorem column_projection : (g.projection m).column c = g.map.moved (m.column c) :=
  m.column_moved g.map c

theorem isFinite_projection :
    ((g.projection m).exact.column c).isFinite = (m.exact.column c).isFinite :=
  m.isFinite_column_moved g.map c

theorem byTriangle_projection (strategy : OrderStrategy) :
    (g.projection m).exact.byTriangle strategy = m.exact.byTriangle strategy := by
  simp only [Projection.byTriangle, Projection.isFinite, isFinite_projection]

variable {m c} in
theorem toPoint_projection (h : (m.column c).w ≠ 0) :
    ((g.projection m).exact.column c).toPoint = (g.move (m.column c).place).exact := by
  have hmoved : ((g.projection m).column c).w ≠ 0 := by rwa [column_projection]
  rw [Projection.toPoint_column_exact _ hmoved, column_projection, Affine.place_moved _ h,
    movedPoint_map]

theorem heading_move (p : Point Rat) :
    (g.projection m).heading (g.move p) c = g.turn (m.heading p c) := by
  have hweight : ((g.projection m).column c).w = (m.column c).w := by
    rw [column_projection]
    rfl
  unfold Projection.heading
  by_cases h : (m.column c).w = 0
  · rw [if_pos h, if_pos (hweight.trans h), column_projection]
    simp only [HPoint2.direction, Affine.moved, map, turn, h, mul_zero, add_zero]
  · rw [if_neg h, if_neg (hweight.trans_ne h), column_projection, Affine.place_moved _ h,
      movedPoint_map, vecTo_move]

theorem swapsXY_move (p : Point Rat) :
    (g.projection m).exact.swapsXY (g.move p).exact = m.exact.swapsXY p.exact := by
  unfold Projection.swapsXY
  simp only [Projection.directionFrom_exact, heading_move, Vec.det_exact, cross_turn]
  exact decide_eq_decide.2 (mul_pos_iff_of_pos_left g.positive)

variable {m} in
theorem centralAxis_move {p : Point Rat} (hxy : g.Keeps ((m.heading p .x).cross (m.heading p .y)))
    (hyz : g.Keeps ((m.heading p .y).cross (m.heading p .z)))
    (hzx : g.Keeps ((m.heading p .z).cross (m.heading p .x))) :
    (g.projection m).exact.centralAxis (g.move p).exact = m.exact.centralAxis p.exact := by
  unfold Projection.centralAxis
  simp only [Projection.directionFrom_exact, heading_move, between_turn hxy, between_turn hyz,
    between_turn hzx]

-- Where the corners of a box are on screen, and where they are through the similarity.
structure Moves (c : Corners Exact) (m : Projection Rat) (q : AxisSet → Point Rat) : Prop where
  before : ∀ id, c.screen m.exact id = (q id).exact
  after : ∀ id, c.screen (g.projection m).exact id = (g.move (q id)).exact

namespace Moves

variable {g} {c : Corners Exact} {m : Projection Rat} {q : AxisSet → Point Rat}
  (h : g.Moves c m q)
include h

theorem turnAt_before (a b : Coord) : c.turnAt m.exact a b =
    .rational ((m.heading (q Corners.reference) a).cross (m.heading (q Corners.reference) b)) := by
  rw [Corners.turnAt, h.before, Projection.directionFrom_exact, Projection.directionFrom_exact,
    Vec.det_exact]

theorem turnAt_after (a b : Coord) :
    c.turnAt (g.projection m).exact a b = .rational g.factor * c.turnAt m.exact a b := by
  rw [h.turnAt_before, Corners.turnAt, h.after, Projection.directionFrom_exact,
    Projection.directionFrom_exact, Vec.det_exact, heading_move, heading_move, cross_turn,
    Exact.rational_mul]

theorem angleAt_before (edge : Axis) {a : Axis} (ha : (m.column a).w ≠ 0) :
    c.angleAt m.exact edge a = .rational
      (((m.column a).place.vecTo (q Corners.reference)).cross
        ((m.column a).place.vecTo (q (Corners.reference ^^^ .single edge)))) := by
  rw [Corners.angleAt, h.before, h.before, Projection.toPoint_column_exact m ha]
  rfl

theorem angleAt_after (edge : Axis) {a : Axis} (ha : (m.column a).w ≠ 0) :
    c.angleAt (g.projection m).exact edge a = .rational g.factor * c.angleAt m.exact edge a := by
  rw [h.angleAt_before edge ha, Corners.angleAt, h.after, h.after, toPoint_projection g ha,
    Exact.rational_mul, ← cross_turn, ← vecTo_move, ← vecTo_move]
  rfl

theorem raySlope_before {a b d : Coord} (ha : (m.column a).w ≠ 0) (hb : (m.column b).w ≠ 0)
    (hd : (m.column d).w ≠ 0) : c.raySlope m.exact a b d = .rational
      (((q Corners.reference).vecTo (m.column a).place).cross
        ((m.column b).place.vecTo (m.column d).place)) := by
  rw [Corners.raySlope, h.before, Projection.toPoint_column_exact m ha,
    Projection.toPoint_column_exact m hb, Projection.toPoint_column_exact m hd]
  rfl

theorem raySlope_after {a b d : Coord} (ha : (m.column a).w ≠ 0) (hb : (m.column b).w ≠ 0)
    (hd : (m.column d).w ≠ 0) :
    c.raySlope (g.projection m).exact a b d = .rational g.factor * c.raySlope m.exact a b d := by
  rw [h.raySlope_before ha hb hd, Corners.raySlope, h.after, toPoint_projection g ha,
    toPoint_projection g hb, toPoint_projection g hd, Exact.rational_mul, ← cross_turn,
    ← vecTo_move, ← vecTo_move]
  rfl

theorem sideSlope_before (edge : Axis) {a b : Coord} (ha : (m.column a).w ≠ 0)
    (hb : (m.column b).w ≠ 0) : c.sideSlope m.exact a b edge = .rational
      (((m.column a).place.vecTo (m.column b).place).cross
        ((q Corners.reference).vecTo (q (Corners.reference ^^^ .single edge)))) := by
  rw [Corners.sideSlope, h.before, h.before, Projection.toPoint_column_exact m ha,
    Projection.toPoint_column_exact m hb]
  rfl

theorem sideSlope_after (edge : Axis) {a b : Coord} (ha : (m.column a).w ≠ 0)
    (hb : (m.column b).w ≠ 0) : c.sideSlope (g.projection m).exact a b edge =
      .rational g.factor * c.sideSlope m.exact a b edge := by
  rw [h.sideSlope_before edge ha hb, Corners.sideSlope, h.after, h.after, toPoint_projection g ha,
    toPoint_projection g hb, Exact.rational_mul, ← cross_turn, ← vecTo_move, ← vecTo_move]
  rfl

theorem sectorDeterminants_after : c.sectorDeterminants (g.projection m).exact =
    (c.sectorDeterminants m.exact).map (.rational g.factor * ·) := by
  simp only [Corners.sectorDeterminants, Projection.isFinite, isFinite_projection, h.turnAt_after,
    List.map_append, List.map_cons, List.map_nil, List.map_map]
  refine congrArg _ (List.map_congr_left fun ⟨vp, edge, a⟩ hmem => ?_)
  have hfinite := (Bool.and_eq_true _ _).mp (List.mem_filter.1 hmem).2
  rw [Projection.isFinite_column_exact, Projection.isFinite_column_exact] at hfinite
  exact h.angleAt_after edge (of_decide_eq_true hfinite.2)

theorem triangleDeterminants_after (hx : (m.column .x).w ≠ 0) (hy : (m.column .y).w ≠ 0)
    (hz : (m.column .z).w ≠ 0) : c.triangleDeterminants (g.projection m).exact =
      (c.triangleDeterminants m.exact).map (.rational g.factor * ·) := by
  simp only [Corners.triangleDeterminants, List.map_cons, List.map_nil, h.raySlope_after hx hy hz,
    h.raySlope_after hy hz hx, h.raySlope_after hz hx hy, h.sideSlope_after _ hz hx,
    h.sideSlope_after _ hz hy, h.sideSlope_after _ hx hz, h.sideSlope_after _ hx hy]

theorem determinants_after (strategy : OrderStrategy) :
    c.determinants (g.projection m).exact strategy =
      (c.determinants m.exact strategy).map (.rational g.factor * ·) := by
  simp only [Corners.determinants, byTriangle_projection]
  split
  · next htriangle =>
    obtain ⟨-, hx, hy, hz⟩ := htriangle
    rw [Projection.isFinite, Projection.isFinite_column_exact, decide_eq_true_eq] at hx hy hz
    exact h.triangleDeterminants_after hx hy hz
  · exact h.sectorDeterminants_after

theorem sectorPosition_eq (p : Point Rat) {id₁ id₂ : AxisSet} {a : Axis}
    (hkeeps : (m.column a).w ≠ 0 → g.Keeps
      (((m.column a).place.vecTo (q id₁)).cross ((m.column a).place.vecTo (q id₂)))) :
    c.sectorPosition (g.projection m).exact (g.move p).exact id₁ id₂ a =
      c.sectorPosition m.exact p.exact id₁ id₂ a := by
  have hsub (p q : Point Rat) : p.exact - q.exact = (q.vecTo p).exact := rfl
  have hthrough (p q : Point Rat) :
      Line.through p.exact q.exact = .along p.exact (p.vecTo q).exact := rfl
  simp only [Corners.sectorPosition, h.before, h.after, isFinite_projection]
  by_cases hw : (m.column a).w = 0
  -- At infinity the test is on which side of two lines the point lies, else between which
  -- directions.
  · simp only [Projection.not_isFinite_column hw, Projection.line_exact, heading_move, hthrough,
      vecTo_move, sameSide_move, Bool.false_eq_true, if_false]
  · simp only [Projection.isFinite_column hw, Projection.toPoint_column_exact m hw,
      toPoint_projection g hw, hsub, vecTo_move, between_turn (hkeeps hw), if_true]

theorem vpSector_eq (vp edge a : Axis)
    (hkeeps : (m.column vp).w ≠ 0 → (m.column a).w ≠ 0 → g.Keeps
      (((m.column a).place.vecTo (q Corners.reference)).cross
        ((m.column a).place.vecTo (q (Corners.reference ^^^ .single edge))))) :
    c.vpSector (g.projection m).exact vp edge a = c.vpSector m.exact vp edge a := by
  simp only [Corners.vpSector, Corners.vpSectorPosition, Projection.isFinite, isFinite_projection]
  by_cases hw : (m.column vp).w = 0
  · simp only [Projection.not_isFinite_column hw, Bool.false_eq_true, if_false]
  · have haxis : (AxisSet.single a).axis? = some a := by cases a <;> rfl
    simp only [Corners.sectorPositionOf, toPoint_projection g hw,
      Projection.toPoint_column_exact m hw, haxis, Option.map_some,
      h.sectorPosition_eq _ (hkeeps hw)]

-- The classification by sectors, with its determinants on their sides of the threshold.
theorem sectorCase_eq
    (hkeeps : ∀ d, Exact.rational d ∈ c.sectorDeterminants m.exact → g.Keeps d) :
    c.sectorCase (g.projection m).exact = c.sectorCase m.exact := by
  have hturn {a b : Coord} (hmem : c.turnAt m.exact a b ∈ c.sectorDeterminants m.exact) :
      g.Keeps ((m.heading (q Corners.reference) a).cross
        (m.heading (q Corners.reference) b)) := by
    rw [h.turnAt_before] at hmem
    exact hkeeps _ hmem
  have hcentral := g.centralAxis_move (hturn (.head _)) (hturn (.tail _ (.head _)))
    (hturn (.tail _ (.tail _ (.head _))))
  have hsector (vp edge a : Axis) (hmem : (vp, edge, a) ∈ Corners.sectors) :
      c.vpSector (g.projection m).exact vp edge a = c.vpSector m.exact vp edge a := by
    refine h.vpSector_eq vp edge a fun hvp ha => hkeeps _ ?_
    rw [← h.angleAt_before edge ha]
    refine List.mem_append_right _ (List.mem_map.2 ⟨_, List.mem_filter.2 ⟨hmem, ?_⟩, rfl⟩)
    simp only [Projection.isFinite, Projection.isFinite_column hvp, Projection.isFinite_column ha,
      Bool.and_self]
  simp only [Corners.sectorCase, Corners.oneFiniteCase, h.before, h.after, hcentral, swapsXY_move,
    Projection.isFinite, isFinite_projection,
    hsector .x .z .y (by decide),
    hsector .x .y .z (by decide),
    hsector .y .z .x (by decide),
    hsector .y .x .z (by decide),
    hsector .z .y .x (by decide),
    hsector .z .x .y (by decide)]

theorem triangleCase_eq (hx : (m.column .x).w ≠ 0) (hy : (m.column .y).w ≠ 0)
    (hz : (m.column .z).w ≠ 0)
    (hkeeps : ∀ d, Exact.rational d ∈ c.triangleDeterminants m.exact → g.KeepsStrictly d) :
    c.triangleCase (g.projection m).exact = c.triangleCase m.exact := by
  have hray {a b d : Coord} (ha : (m.column a).w ≠ 0) (hb : (m.column b).w ≠ 0)
      (hd : (m.column d).w ≠ 0)
      (hmem : c.raySlope m.exact a b d ∈ c.triangleDeterminants m.exact) :
      g.KeepsStrictly (((q Corners.reference).vecTo (m.column a).place).cross
        ((m.column b).place.vecTo (m.column d).place)) := by
    rw [h.raySlope_before ha hb hd] at hmem
    exact hkeeps _ hmem
  have hside (edge : Axis) {a b : Coord} (ha : (m.column a).w ≠ 0) (hb : (m.column b).w ≠ 0)
      (hmem : c.sideSlope m.exact a b edge ∈ c.triangleDeterminants m.exact) :
      g.KeepsStrictly (((m.column a).place.vecTo (m.column b).place).cross
        ((q Corners.reference).vecTo (q (Corners.reference ^^^ .single edge)))) := by
    rw [h.sideSlope_before edge ha hb] at hmem
    exact hkeeps _ hmem
  have hxp : m.exact.vpX.toPoint = _ := m.toPoint_column_exact hx
  have hyp : m.exact.vpY.toPoint = _ := m.toPoint_column_exact hy
  have hzp : m.exact.vpZ.toPoint = _ := m.toPoint_column_exact hz
  have hxm : (g.projection m).exact.vpX.toPoint = _ := g.toPoint_projection hx
  have hym : (g.projection m).exact.vpY.toPoint = _ := g.toPoint_projection hy
  have hzm : (g.projection m).exact.vpZ.toPoint = _ := g.toPoint_projection hz
  have hxray := rayCrosses_move (hray hx hy hz (by simp [Corners.triangleDeterminants]))
  have hyray := rayCrosses_move (hray hy hz hx (by simp [Corners.triangleDeterminants]))
  have hzray := rayCrosses_move (hray hz hx hy (by simp [Corners.triangleDeterminants]))
  have hzx := rayCrosses_move (hside .y hz hx (by simp [Corners.triangleDeterminants]))
  have hzy := rayCrosses_move (hside .x hz hy (by simp [Corners.triangleDeterminants]))
  have hxz := rayCrosses_move (hside .y hx hz (by simp [Corners.triangleDeterminants]))
  have hxy := rayCrosses_move (hside .z hx hy (by simp [Corners.triangleDeterminants]))
  simp only [AxisSet.single] at hzx hzy hxz hxy
  simp only [Corners.triangleCase, Corners.triangleCentral, h.before, h.after, hxp, hyp, hzp, hxm,
    hym, hzm, hxray, hyray, hzray, hzx, hzy, hxz, hxy]

theorem vanishingCase_eq (strategy : OrderStrategy)
    (hkept : ∀ d ∈ c.determinants m.exact strategy,
      m.exact.countsAsZero strategy (.rational g.factor * d) = m.exact.countsAsZero strategy d) :
    c.vanishingCase (g.projection m).exact strategy = c.vanishingCase m.exact strategy := by
  simp only [Corners.vanishingCase_byTriangle, byTriangle_projection]
  unfold Corners.determinants Projection.countsAsZero at hkept
  split
  · next htriangle =>
    obtain ⟨-, hx, hy, hz⟩ := id htriangle
    rw [Projection.isFinite, Projection.isFinite_column_exact, decide_eq_true_eq] at hx hy hz
    simp only [if_pos htriangle] at hkept
    exact h.triangleCase_eq hx hy hz fun d hmem => keepsStrictly_iff.1 (hkept _ hmem)
  · next hsectors =>
    simp only [if_neg hsectors] at hkept
    exact h.sectorCase_eq fun d hmem => keeps_iff.1 (hkept _ hmem)

end Moves

-- A page with all corners of a box on it.
theorem exists_moves {c : Corners Exact} {m : Projection Exact}
    (hfinite : ∀ id, (c.screen m id).isFinite = true) :
    ∃ n q, m = Projection.exact n ∧ g.Moves c n q := by
  obtain ⟨n, -, rfl, -, -⟩ := Projection.exists_exact_of_screen (hfinite .empty)
  have hcorner (id : AxisSet) :
      ∃ p : HPoint3 Rat, c.corner id = p.exact ∧ (n.shown p).w ≠ 0 := by
    obtain ⟨n', p, hn, hp, hw⟩ := Projection.exists_exact_of_screen (hfinite id)
    rw [Projection.exact_inj] at hn
    subst hn
    exact ⟨p, hp, hw⟩
  choose p hp hw using hcorner
  refine ⟨n, fun id => (n.shown (p id)).place, rfl, fun id => ?_, fun id => ?_⟩
  · rw [Corners.screen, hp]
    exact HPoint2.toPoint_exact (hw id)
  · have hshown : (g.projection n).shown (p id) = g.map.moved (n.shown (p id)) :=
      n.shown_moved g.map (p id)
    have hmoved : ((g.projection n).shown (p id)).w ≠ 0 := by
      rw [hshown]
      exact hw id
    rw [Corners.screen, hp, ← movedPoint_map, ← Affine.place_moved _ (hw id), ← hshown]
    exact HPoint2.toPoint_exact hmoved

-- The determinants are multiplied by the factor. While none of them crosses the threshold, neither
-- the configuration nor the order changes.
theorem faceOrder_similar {c : Corners Exact} {m : Projection Exact}
    (hfinite : ∀ id, (c.screen m id).isFinite = true) (strategy : OrderStrategy) :
    c.determinants (m.applyAffine g.map.exact) strategy =
      (c.determinants m strategy).map (.rational g.factor * ·) ∧
    ((∀ d ∈ c.determinants m strategy,
        m.countsAsZero strategy (.rational g.factor * d) = m.countsAsZero strategy d) →
      c.vanishingCase (m.applyAffine g.map.exact) strategy = c.vanishingCase m strategy ∧
      c.faceOrder (m.applyAffine g.map.exact) strategy = c.faceOrder m strategy) := by
  obtain ⟨n, q, rfl, hmoves⟩ := g.exists_moves hfinite
  refine ⟨hmoves.determinants_after strategy, fun hkept => ?_⟩
  have hcase : c.vanishingCase (n.exact.applyAffine g.map.exact) strategy =
      c.vanishingCase n.exact strategy := hmoves.vanishingCase_eq strategy hkept
  refine ⟨hcase, ?_⟩
  rw [Corners.faceOrder, hcase, ← Corners.faceOrder]

end Similarity

end PerspectiveBox
