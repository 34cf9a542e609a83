import PerspectiveBox.Proofs.Box.UnderPointer

namespace PerspectiveBox

-- One motion of the pointer that holds the center.
structure CenterMotion (K : Type) where
  map : Projection K
  pointer : Point K
  grip : Point K
  movement : AxisSet
  constrained : Bool
  session : DragSession K

namespace Corners

section

variable {K : Type} [Scalar K] (c saved : Corners K) (e : CenterMotion K)

-- Where the pointer is in the plane of the center, or what it snaps to there, or where it is on
-- the perspective line of the center.
def centerPoint : HPoint3 K :=
  if e.movement.hasZ then
    let line := (PerspectiveLine.through e.map e.grip .z).line
    e.map.preimage (line.closest e.pointer) ((c.near.x + c.far.x) / 2.0) .x
  else
    let z := (c.near.z + c.far.z) / 2.0
    let free := e.map.preimage e.pointer z .z
    if e.constrained then
      (e.map.snap saved .center free (e.map.preimage e.grip z .z) e.session).1
    else free

-- The corners about a center that has been moved to a point along the free axes.
def centerAt (movement : AxisSet) (p : HPoint3 K) : Corners K :=
  let rx := (c.far.x - c.near.x) / 2.0
  let ry := (c.far.y - c.near.y) / 2.0
  let rz := (c.far.z - c.near.z) / 2.0
  if movement.hasZ then
    ⟨⟨c.near.x, c.near.y, p.z - rz, 1⟩, ⟨c.far.x, c.far.y, p.z + rz, 1⟩⟩
  else
    { near := ⟨if movement.hasX then p.x - rx else c.near.x,
        if movement.hasY then p.y - ry else c.near.y, c.near.z, 1⟩
      far := ⟨if movement.hasX then p.x + rx else c.far.x,
        if movement.hasY then p.y + ry else c.far.y, c.far.z, 1⟩ }

def afterCenterMotion : Corners K :=
  ((target? (c.centerPoint saved e)).map (c.centerAt e.movement)).getD c

end

-- The corners moved by so much along each axis.
def shifted (c : Corners Rat) (v : Axis → Rat) : Corners Rat where
  near := ⟨c.near.x + v .x, c.near.y + v .y, c.near.z + v .z, c.near.w⟩
  far := ⟨c.far.x + v .x, c.far.y + v .y, c.far.z + v .z, c.far.w⟩

-- How far it is from the near corner to the far one along an axis.
def extent {K : Type} [Scalar K] (c : Corners K) (a : Axis) : K := c.far.get a - c.near.get a

theorem shifted_zero (c : Corners Rat) : c.shifted 0 = c := by
  simp [shifted]

theorem shifted_shifted (c : Corners Rat) (u v : Axis → Rat) :
    (c.shifted u).shifted v = c.shifted (u + v) := by
  simp only [shifted, Pi.add_apply, add_assoc]

theorem extent_shifted (c : Corners Rat) (v : Axis → Rat) :
    (c.shifted v).exact.extent = c.exact.extent := by
  funext a
  have hsame (p q r : Rat) :
      Exact.rational (q + r) - .rational (p + r) = .rational q - .rational p := by
    rw [Exact.rational_sub, Exact.rational_sub, add_sub_add_right_eq_sub]
  cases a <;> exact hsame _ _ _

theorem HasUnitWeights.shifted {c : Corners Rat} (h : c.exact.HasUnitWeights) (v : Axis → Rat) :
    (c.shifted v).exact.HasUnitWeights := h

theorem HasUnitWeights.everted_shifted {c : Corners Rat} (h : c.exact.HasUnitWeights)
    (v : Axis → Rat) : (c.shifted v).exact.everted = c.exact.everted := by
  have hsame (p q r : Rat) :
      decide (Exact.rational (p + r) < .rational (q + r)) =
        decide (Exact.rational p < .rational q) :=
    decide_eq_decide.2 (add_lt_add_iff_right r)
  rw [everted, everted, h.normalized_eq rfl, (h.shifted v).normalized_eq rfl]
  exact congr (congr (congrArg AxisSet.mk (hsame _ _ _)) (hsame _ _ _)) (hsame _ _ _)

theorem half_exact (q : Rat) : Exact.rational q / 2.0 = .rational (q / 2) := by
  rw [show (2.0 : Exact) = .rational 2 from congrArg Exact.rational (by norm_num),
    Exact.rational_div _ _ two_ne_zero]

-- How far the center goes along each axis when it is taken to a point.
def centerShift (c : Corners Rat) (movement : AxisSet) (p : HPoint3 Rat) : Axis → Rat
  | .x => if movement.hasZ = false ∧ movement.hasX then p.x - (c.near.x + c.far.x) / 2 else 0
  | .y => if movement.hasZ = false ∧ movement.hasY then p.y - (c.near.y + c.far.y) / 2 else 0
  | .z => if movement.hasZ then p.z - (c.near.z + c.far.z) / 2 else 0

-- The corners stay where they are from the center.
theorem HasUnitWeights.centerAt_eq {c : Corners Rat} (h : c.exact.HasUnitWeights)
    (movement : AxisSet) (p : HPoint3 Rat) :
    c.exact.centerAt movement p.exact = (c.shifted (c.centerShift movement p)).exact := by
  have hnear (k f q : Rat) : Exact.rational q - (.rational f - .rational k) / 2.0 =
      .rational (k + (q - (k + f) / 2)) := by
    rw [Exact.rational_sub, half_exact, Exact.rational_sub]
    congr 1
    ring
  have hfar (k f q : Rat) : Exact.rational q + (.rational f - .rational k) / 2.0 =
      .rational (f + (q - (k + f) / 2)) := by
    rw [Exact.rational_sub, half_exact, Exact.rational_add]
    congr 1
    ring
  obtain ⟨⟨nx, ny, nz, _⟩, fx, fy, fz, _⟩ := c
  obtain ⟨rfl, rfl⟩ := h.imp Exact.rational.inj Exact.rational.inj
  rcases movement with ⟨_ | _, _ | _, _ | _⟩
  all_goals
    simp [centerAt, Corners.exact, HPoint3.exact, Corners.shifted, centerShift, hnear, hfar,
      Exact.one_eq]

theorem HasUnitWeights.center_exact {c : Corners Rat} (h : c.exact.HasUnitWeights) :
    c.exact.center = HPoint3.exact ⟨(c.near.x + c.far.x) / 2, (c.near.y + c.far.y) / 2,
      (c.near.z + c.far.z) / 2, 1⟩ := by
  rw [center, h.normalized_eq rfl]
  simp [Corners.exact, HPoint3.exact, Exact.rational_add, half_exact, Exact.one_eq]

-- A motion that finds a point shifts the box, and one that does not leaves it alone.
theorem HasUnitWeights.exists_afterCenterMotion {c : Corners Rat} (h : c.exact.HasUnitWeights)
    (saved : Corners Exact) (e : CenterMotion Exact) :
    ∃ v, c.exact.afterCenterMotion saved e = (c.shifted v).exact := by
  rw [afterCenterMotion]
  cases hp : target? (c.exact.centerPoint saved e) with
  | none => exact ⟨0, by rw [shifted_zero]; rfl⟩
  | some p =>
    obtain ⟨-, hfinite⟩ := Option.filter_eq_some_iff.1 hp
    obtain ⟨q, rfl⟩ := HPoint3.exists_exact_of_isFinite hfinite
    exact ⟨_, h.centerAt_eq e.movement q⟩

-- Free in the plane, the center goes to the point that is found.
theorem HasUnitWeights.center_centerAt {c : Corners Rat} (h : c.exact.HasUnitWeights)
    {p : HPoint3 Rat} (hw : p.w = 1) (hz : p.z = (c.near.z + c.far.z) / 2) :
    (c.exact.centerAt .xy p.exact).center = p.exact := by
  obtain ⟨x, y, z, w⟩ := p
  obtain rfl : w = 1 := hw
  obtain rfl : z = (c.near.z + c.far.z) / 2 := hz
  rw [h.centerAt_eq, (h.shifted _).center_exact]
  simp only [Corners.shifted, centerShift, and_self, if_true, Bool.false_eq_true, if_false]
  congr 2 <;> ring

end Corners

namespace Box

section

variable {K : Type} [Scalar K]

def afterCenterMotion (b : Box K) (e : CenterMotion K) : Box K :=
  b.edited (.dragCenter e.map e.pointer e.grip e.movement e.constrained e.session)

def afterCenterMotions (b : Box K) (es : List (CenterMotion K)) : Box K :=
  es.foldl afterCenterMotion b

-- Whether a motion finds a point to take the center to.
def followsCenter (b : Box K) (e : CenterMotion K) : Bool :=
  (Corners.target? (b.corners.centerPoint b.saved e)).isSome

theorem dragCenter_of_freedom (b : Box K) {e : CenterMotion K} (hm : e.movement.IsFreedom) :
    ∃ next, b.dragCenter e.map e.pointer e.grip e.movement e.constrained e.session =
      .ok (b.afterCenterMotion e, next) ∧
    b.afterCenterMotion e = { b with corners := b.corners.afterCenterMotion b.saved e } := by
  have hmovement : checkMovement e.movement = .ok () := if_neg (not_or.2 hm)
  suffices hrun : ∃ next, b.dragCenter e.map e.pointer e.grip e.movement e.constrained e.session =
      .ok ({ b with corners := b.corners.afterCenterMotion b.saved e }, next) by
    obtain ⟨next, hrun⟩ := hrun
    rw [afterCenterMotion, edited, hrun]
    exact ⟨next, rfl, rfl⟩
  unfold dragCenter Corners.afterCenterMotion Corners.centerPoint Corners.centerAt
  simp only [hmovement]
  by_cases hz : e.movement.hasZ = true
  · simp only [if_pos hz]
    exact ⟨e.session, rfl⟩
  · simp only [if_neg hz, Corners.dragCenterInPlane?]
    by_cases hc : e.constrained = true
    · simp only [if_pos hc]
      exact ⟨_, rfl⟩
    · simp only [if_neg hc]
      exact ⟨_, rfl⟩

theorem afterCenterMotion_of_refused (b : Box K) {e : CenterMotion K}
    (hm : ¬ e.movement.IsFreedom) : b.afterCenterMotion e = b := by
  have hrefused : e.movement = .empty ∨ e.movement = .xyz := by
    rw [AxisSet.IsFreedom, ne_eq, ne_eq, ← not_or, not_not] at hm
    exact hm
  simp only [afterCenterMotion, edited, dragCenter, checkMovement, if_pos hrefused]
  rfl

end

theorem exists_afterCenterMotion {b : Box Exact} {c : Corners Rat} (hb : b.corners = c.exact)
    (h : c.exact.HasUnitWeights) (e : CenterMotion Exact) :
    ∃ v, b.afterCenterMotion e = { b with corners := (c.shifted v).exact } := by
  by_cases hm : e.movement.IsFreedom
  · obtain ⟨-, -, hmoved⟩ := b.dragCenter_of_freedom hm
    obtain ⟨v, hv⟩ := h.exists_afterCenterMotion b.saved e
    exact ⟨v, by rw [hmoved, hb, hv]⟩
  · exact ⟨0, by rw [afterCenterMotion_of_refused b hm, Corners.shifted_zero, ← hb]⟩

theorem exists_afterCenterMotions {b : Box Exact} {c : Corners Rat} (hb : b.corners = c.exact)
    (h : c.exact.HasUnitWeights) (es : List (CenterMotion Exact)) :
    ∃ v, b.afterCenterMotions es = { b with corners := (c.shifted v).exact } := by
  induction es generalizing b c with
  | nil => exact ⟨0, by rw [Corners.shifted_zero, ← hb]; rfl⟩
  | cons e es ih =>
    obtain ⟨u, hu⟩ := exists_afterCenterMotion hb h e
    obtain ⟨v, hv⟩ := ih (congrArg Box.corners hu) (h.shifted u)
    refine ⟨u + v, ?_⟩
    rw [afterCenterMotions, List.foldl_cons, ← afterCenterMotions, hv, hu,
      Corners.shifted_shifted]

-- Free in the plane, a motion that finds a point leaves the center under the pointer, if the
-- center can be seen at all.
theorem centerScreen_afterCenterMotion {b : Box Exact} {c : Corners Rat} (hb : b.corners = c.exact)
    (h : c.exact.HasUnitWeights) {e : CenterMotion Exact} {m : Projection Rat} {pointer : Point Rat}
    (hmap : e.map = m.exact) (hpointer : e.pointer = pointer.exact) (hmovement : e.movement = .xy)
    (hfree : e.constrained = false) (hfollows : b.followsCenter e = true)
    (hfinite : (m.exact.image (b.afterCenterMotion e).corners.center).isFinite = true) :
    (b.afterCenterMotion e).corners.centerScreen m.exact = pointer.exact := by
  obtain ⟨_, _, grip, _, _, session⟩ := e
  subst hmap hpointer hmovement hfree
  have hxy : AxisSet.xy.IsFreedom := by decide
  obtain ⟨-, -, hmoved⟩ := b.dragCenter_of_freedom
    (e := ⟨m.exact, pointer.exact, grip, .xy, false, session⟩) hxy
  obtain ⟨p, hp⟩ := Option.isSome_iff_exists.1 hfollows
  obtain ⟨hpoint, hfound⟩ := Corners.eq_of_target? (BoxCreation.preimage_w _ _ _ _) hp
  have hmiddle : (b.corners.near.z + b.corners.far.z) / 2.0 =
      .rational ((c.near.z + c.far.z) / 2) := by
    rw [hb]
    exact Corners.half_exact (c.near.z + c.far.z)
  rw [hmiddle] at hpoint hfound
  obtain ⟨q, rfl⟩ := HPoint3.exists_exact_of_isFinite (hpoint ▸ hfound)
  have hcenter : (c.exact.centerAt .xy q.exact).center = q.exact := by
    refine h.center_centerAt (Exact.rational.inj ?_) (Exact.rational.inj ?_)
    · exact (congrArg HPoint3.w hpoint).trans (BoxCreation.preimage_w _ _ _ _)
    · exact (congrArg HPoint3.z hpoint).trans (Projection.z_preimage hfound)
  have hmotion : b.corners.afterCenterMotion b.saved
      ⟨m.exact, pointer.exact, grip, .xy, false, session⟩ = c.exact.centerAt .xy q.exact := by
    rw [Corners.afterCenterMotion, hp, hb]
    rfl
  rw [hmoved] at hfinite ⊢
  simp only [hmotion, hcenter, Corners.centerScreen] at hfinite ⊢
  rw [hpoint] at hfinite ⊢
  exact Projection.screen_preimage_of_seen hfound hfinite

-- No motion fails unless it has no freedom, and all of them together shift the box: its extent and
-- its everted axes stay. Each motion that is free in the plane leaves the center under the pointer.
theorem rigid_afterCenterMotions {b : Box Exact} {c : Corners Rat} (hb : b.corners = c.exact)
    (h : b.corners.HasUnitWeights) (es : List (CenterMotion Exact)) :
    (∃ v, b.afterCenterMotions es = { b with corners := (c.shifted v).exact }) ∧
    (b.afterCenterMotions es).corners.extent = b.corners.extent ∧
    (b.afterCenterMotions es).corners.everted = b.corners.everted ∧
    (∀ e : CenterMotion Exact, e.movement.IsFreedom → ∃ next,
      (b.afterCenterMotions es).dragCenter e.map e.pointer e.grip e.movement e.constrained
        e.session = .ok (b.afterCenterMotions (es ++ [e]), next)) ∧
    ∀ (e : CenterMotion Exact) (m : Projection Rat) (pointer : Point Rat), e.map = m.exact →
      e.pointer = pointer.exact → e.movement = .xy → e.constrained = false →
      (b.afterCenterMotions es).followsCenter e = true →
      (m.exact.image (b.afterCenterMotions (es ++ [e])).corners.center).isFinite = true →
      (b.afterCenterMotions (es ++ [e])).corners.centerScreen m.exact = pointer.exact := by
  rw [hb] at h
  obtain ⟨v, hv⟩ := exists_afterCenterMotions hb h es
  have hconcat (e : CenterMotion Exact) :
      b.afterCenterMotions (es ++ [e]) = (b.afterCenterMotions es).afterCenterMotion e := by
    simp only [afterCenterMotions, List.foldl_append, List.foldl_cons, List.foldl_nil]
  refine ⟨⟨v, hv⟩, ?_, ?_, fun e hm => ?_, fun e m pointer hmap hpointer hmovement hfree => ?_⟩
  · rw [hv, hb]
    exact Corners.extent_shifted c v
  · rw [hv, hb]
    exact h.everted_shifted v
  · obtain ⟨next, hrun, -⟩ := (b.afterCenterMotions es).dragCenter_of_freedom hm
    exact ⟨next, by rw [hconcat, hrun]⟩
  · rw [hconcat]
    exact centerScreen_afterCenterMotion (congrArg Box.corners hv) (h.shifted v) hmap hpointer
      hmovement hfree

-- Along the corridor, then along a construction line, then anywhere in the plane.
def corridorMotions : List (CenterMotion Exact) :=
  [⟨corridor.exact, Point.exact ⟨60, 40⟩, Point.exact ⟨5, 5⟩, .xz, false, .default⟩,
    ⟨corridor.exact, Point.exact ⟨9, 40⟩, Point.exact ⟨5, 5⟩, .y, true, .default⟩]

def lastMotion : CenterMotion Exact :=
  ⟨corridor.exact, Point.exact ⟨30, 40⟩, Point.exact ⟨5, 5⟩, .xy, false, .default⟩

theorem rigid_afterCenterMotions_corridor : exactChest.corners.HasUnitWeights ∧
    (exactChest.afterCenterMotions corridorMotions).followsCenter lastMotion = true ∧
    (exactChest.afterCenterMotions corridorMotions).corners.extent = exactChest.corners.extent ∧
    (exactChest.afterCenterMotions (corridorMotions ++ [lastMotion])).corners.centerScreen
      corridor.exact = Point.exact ⟨30, 40⟩ := by
  have hfollows : (exactChest.afterCenterMotions corridorMotions).followsCenter lastMotion =
      true := by
    decide +kernel
  obtain ⟨-, hextent, -, -, hcenter⟩ :=
    rigid_afterCenterMotions rfl hasUnitWeights_exactChest corridorMotions
  exact ⟨hasUnitWeights_exactChest, hfollows, hextent,
    hcenter lastMotion corridor ⟨30, 40⟩ rfl rfl rfl rfl hfollows (by decide +kernel)⟩

end Box

end PerspectiveBox
