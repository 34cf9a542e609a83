import PerspectiveBox.Proofs.Box.CornerDrag
import PerspectiveBox.Proofs.Box.Weights
import PerspectiveBox.Proofs.Projective.Preimage

namespace PerspectiveBox

theorem HPoint3.exists_exact_of_isFinite {p : HPoint3 Exact} (h : p.isFinite = true) :
    ∃ q : HPoint3 Rat, p = q.exact := by
  simp only [isFinite, Bool.and_eq_true] at h
  obtain ⟨-, ⟨⟨hx, hy⟩, hz⟩, hw⟩ := h
  exact exists_exact (Exact.isRational_of_isFinite hx) (Exact.isRational_of_isFinite hy)
    (Exact.isRational_of_isFinite hz) (Exact.isRational_of_isFinite hw)

theorem HPoint2.toPoint_exact_eq_iff {p : HPoint2 Rat} (h : p.w ≠ 0) (q : Point Rat) :
    p.exact.toPoint = q.exact ↔ p = q.weighted p.w := by
  obtain ⟨x, y, w⟩ := p
  rw [toPoint_exact h]
  simp only [Point.exact, Point.weighted, Point.mk.injEq, Exact.rational.injEq, HPoint2.mk.injEq,
    div_eq_iff h, mul_comm, and_true]

-- A drag takes a point of weight one as it is, if it is one.
theorem Corners.eq_of_target? {p q : HPoint3 Exact} (hw : p.w = 1) (h : target? p = some q) :
    q = p ∧ p.isFinite = true := by
  rw [target?, HPoint3.normalize?, hw] at h
  split at h
  · cases h
  · rw [if_pos (show ((1 : Exact) == 1) = true from rfl), Option.filter_eq_some_iff,
      Option.some.injEq] at h
    obtain ⟨rfl, hfinite⟩ := h
    exact ⟨rfl, hfinite⟩

theorem Projection.z_preimage {m : Projection Exact} {p : Point Exact} {value : Exact}
    (h : (m.preimage p value .z).isFinite = true) : (m.preimage p value .z).z = value := by
  rw [preimage] at h ⊢
  cases hp : m.preimage? p value .z with
  | none =>
    rw [hp, Option.getD_none, HPoint3.isFinite_nowhere] at h
    cases h
  | some q =>
    obtain ⟨_, _, rfl⟩ := Option.map_eq_some_iff.1 hp
    rfl

-- A point moved along z is seen at the same place only if it has not moved, or if lines along z
-- are seen as points there.
theorem Projection.screen_moved_iff {m : Projection Rat} {p : Point Rat} {x y z z' k : Rat}
    (h : m.shown ⟨x, y, z, 1⟩ = p.weighted k) (hw : (m.shown ⟨x, y, z', 1⟩).w ≠ 0) :
    m.exact.screen (HPoint3.exact ⟨x, y, z', 1⟩) = p.exact ↔
      z = z' ∨ m.vpZ = p.weighted m.vpZ.w := by
  have hmoved : m.shown ⟨x, y, z', 1⟩ =
      ⟨k * p.x + (z' - z) * m.vpZ.x, k * p.y + (z' - z) * m.vpZ.y, k + (z' - z) * m.vpZ.w⟩ := by
    rw [Projection.shown, Point.weighted, HPoint2.mk.injEq] at h
    obtain ⟨hx, hy, hw⟩ := h
    rw [Projection.shown, HPoint2.mk.injEq]
    exact ⟨by linear_combination hx, by linear_combination hy, by linear_combination hw⟩
  have hvp : m.vpZ = p.weighted m.vpZ.w ↔
      m.vpZ.x = m.vpZ.w * p.x ∧ m.vpZ.y = m.vpZ.w * p.y := by
    obtain ⟨⟩ := m.vpZ
    simp [Point.weighted]
  rw [Projection.screen, image_exact, HPoint2.toPoint_exact_eq_iff hw, hmoved, hvp, Point.weighted,
    HPoint2.mk.injEq]
  constructor
  · rintro ⟨hx, hy, -⟩
    by_cases hz : z = z'
    · exact .inl hz
    · have hne : z' - z ≠ 0 := sub_ne_zero.2 (Ne.symm hz)
      refine .inr ⟨mul_left_cancel₀ hne ?_, mul_left_cancel₀ hne ?_⟩
      · linear_combination hx
      · linear_combination hy
  · rintro (rfl | ⟨hx, hy⟩)
    · exact ⟨by ring, by ring, rfl⟩
    · rw [hx, hy]
      exact ⟨by ring, by ring, rfl⟩

theorem Corners.corner_movedInPlane {K : Type} [Scalar K] (saved : Corners K) (id : AxisSet)
    (p : HPoint3 K) :
    (saved.movedInPlane id p).corner id = ⟨p.x, p.y, (saved.corner id).z, 1⟩ := by
  rcases id with ⟨_ | _, _ | _, _ | _⟩ <;> rfl

-- A corner taken to what is found in the plane at some value, but put into its own plane.
theorem Corners.screen_movedInPlane_iff {saved : Corners Rat} {id : AxisSet} {m : Projection Rat}
    {pointer : Point Rat} {value : Exact} {p : HPoint3 Exact}
    (hp : m.exact.preimage pointer.exact value .z = p) (hfound : p.isFinite = true)
    (hfinite :
      (m.exact.image ((saved.exact.movedInPlane id p).corner id)).isFinite = true) :
    (saved.exact.movedInPlane id p).screen m.exact id = pointer.exact ↔
      value = (saved.exact.corner id).z ∨ m.vpZ = pointer.weighted m.vpZ.w := by
  obtain ⟨q, hq⟩ := HPoint3.exists_exact_of_isFinite hfound
  subst hp
  obtain rfl : .rational q.z = value := by
    rw [← Projection.z_preimage hfound, hq]
    rfl
  have hseparates := Projection.isFinite_preimage_iff.1 hfound
  obtain ⟨x, y, k, -, hshown⟩ := Projection.exists_preimage? hseparates q.z
  rw [Projection.preimage_eq_of_shown hseparates hshown] at hfinite ⊢
  have hcorner : (saved.exact.movedInPlane id (Axis.z.point q.z x y).exact).corner id =
      HPoint3.exact ⟨x, y, saved.coordinate id .z, 1⟩ := by
    rw [corner_movedInPlane, corner_exact]
    rfl
  have hz : (saved.exact.corner id).z = .rational (saved.coordinate id .z) := by
    rw [corner_exact]
    rfl
  rw [hcorner, Projection.image_exact, HPoint2.isFinite_exact, decide_eq_true_iff] at hfinite
  rw [screen, hcorner, hz, Exact.rational.injEq]
  exact Projection.screen_moved_iff hshown hfinite

namespace Box

-- Motions in the plane leave a corner in the plane where it was when the drag began.
theorem z_afterMotions {K : Type} [Scalar K] (hone : ((1 : K) == 1) = true) {b : Box K}
    (h : b.corners.HasUnitWeights) (id : Nat) {es : List (DragMotion K)}
    (hes : ∀ e ∈ es, e.movement.hasZ = false) :
    ((b.beginDrag.afterMotions id es).corners.corner (.ofBits id)).z =
      (b.corners.corner (.ofBits id)).z := by
  have hstart : b.beginDrag.corners = b.corners := h.normalized_eq hone
  induction es using List.reverseRecOn with
  | nil => rw [afterMotions, List.foldl_nil, hstart]
  | append_singleton es e ih =>
    obtain ⟨hes, hz⟩ := (List.forall_mem_append.1 hes).imp_right List.forall_mem_singleton.1
    have hheld := (heldFrom_beginDrag hone h (.ofBits id)).afterMotions hone es
    rw [afterMotions_concat]
    obtain hsame | ⟨p, hmoved⟩ := afterMotion_cases hone hheld.unit id e
    · rw [hsame]
      exact ih hes
    · rw [hmoved]
      refine (Corners.z_cornerAt _ _ _ hz p).trans ?_
      rw [hheld.saved, hstart]

-- A motion in the plane that finds a point leaves the corner under the pointer if and only if the
-- corner was in the plane where the drag began, or the vanishing point of z is under the pointer.
-- Unless there was a motion in depth, it was in that plane.
theorem screen_dragCorner_iff {b : Box Exact} {c : Corners Rat} (hb : b.corners = c.exact)
    (h : b.corners.HasUnitWeights) {id : Nat} (hid : id ≤ 7) {es : List (DragMotion Exact)}
    {m : Projection Rat} {pointer : Point Rat} {session next : DragSession Exact}
    {moved : Box Exact}
    (hrun : (b.beginDrag.afterMotions id es).dragCorner m.exact id pointer.exact .xy false session =
      .ok (moved, next))
    (hfollows : (b.beginDrag.afterMotions id es).follows id
      ⟨m.exact, pointer.exact, .xy, false, session⟩ = true)
    (hfinite : (m.exact.image (moved.corners.corner (.ofBits id))).isFinite = true) :
    (moved.corners.screen m.exact (.ofBits id) = pointer.exact ↔
      ((b.beginDrag.afterMotions id es).corners.corner (.ofBits id)).z =
        (b.corners.corner (.ofBits id)).z ∨ m.vpZ = pointer.weighted m.vpZ.w) ∧
    ((∀ e ∈ es, e.movement.hasZ = false) →
      moved.corners.screen m.exact (.ofBits id) = pointer.exact) := by
  have hone : ((1 : Exact) == 1) = true := rfl
  have hheld := (heldFrom_beginDrag hone h (.ofBits id)).afterMotions hone es
  have hstart : b.beginDrag.corners = c.exact := (h.normalized_eq hone).trans hb
  have hplane : (∀ e ∈ es, e.movement.hasZ = false) → _ := z_afterMotions hone h id
  generalize b.beginDrag.afterMotions id es = held at *
  have hsaved : held.saved = c.exact := hheld.saved.trans hstart
  -- The motion takes the corner to what is found in the plane where the corner is.
  obtain ⟨p, hp⟩ := Option.isSome_iff_exists.1 hfollows
  obtain ⟨hpoint, hfound⟩ := Corners.eq_of_target? (BoxCreation.preimage_w _ _ _ _) hp
  have hxy : AxisSet.xy.IsFreedom := by decide
  obtain ⟨next', hrun'⟩ := held.dragCorner_run hid
    (e := ⟨m.exact, pointer.exact, .xy, false, session⟩) hxy
  obtain ⟨rfl, -⟩ := Prod.mk.inj (Except.ok.inj (hrun.symm.trans hrun'))
  have hmoved : held.corners.normalized.afterMotion held.saved (.ofBits id)
      ⟨m.exact, pointer.exact, .xy, false, session⟩ = c.exact.movedInPlane (.ofBits id) p := by
    rw [Corners.afterMotion, hp, hsaved]
    rfl
  have hiff : (c.exact.movedInPlane (.ofBits id) p).screen m.exact (.ofBits id) = pointer.exact ↔
      (held.corners.corner (.ofBits id)).z = (b.corners.corner (.ofBits id)).z ∨
        m.vpZ = pointer.weighted m.vpZ.w := by
    rw [hheld.unit.normalized_eq hone] at hpoint hfound
    rw [hb]
    refine Corners.screen_movedInPlane_iff hpoint.symm (hpoint ▸ hfound) ?_
    simp only [hmoved] at hfinite
    exact hfinite
  simp only [hmoved]
  exact ⟨hiff, fun hes => hiff.2 (.inl (hplane hes))⟩

def exactChest : Box Exact := .ofCorners "chest" (Corners.exact ⟨⟨0, 0, 0, 1⟩, ⟨10, 10, 10, 1⟩⟩)

def pull (pointer : Point Rat) (movement : AxisSet) : DragMotion Exact :=
  ⟨(Corners.oblique 1).exact, pointer.exact, movement, false, .default⟩

-- The chest with its near corner held, after a motion in the plane and after one in depth.
def shifted : Box Exact := exactChest.beginDrag.afterMotions 0 [pull ⟨5, 7⟩ .xy]

def deepened : Box Exact := exactChest.beginDrag.afterMotions 0 [pull ⟨2, 2⟩ .z]

theorem hasUnitWeights_exactChest : exactChest.corners.HasUnitWeights := ⟨rfl, rfl⟩

theorem dragCorner_pull (b : Box Exact) (pointer : Point Rat) : ∃ next,
    b.dragCorner (Corners.oblique 1).exact 0 pointer.exact .xy false .default =
      .ok (b.afterMotion 0 (pull pointer .xy), next) := by
  have hxy : AxisSet.xy.IsFreedom := by decide
  rw [afterMotion_of_freedom b (Nat.zero_le 7) (e := pull pointer .xy) hxy]
  exact b.dragCorner_run (e := pull pointer .xy) (Nat.zero_le 7) hxy

theorem screen_dragCorner_iff_chest : exactChest.corners.HasUnitWeights ∧
    shifted.follows 0 (pull ⟨3, 4⟩ .xy) = true ∧
    (shifted.afterMotion 0 (pull ⟨3, 4⟩ .xy)).corners.screen (Corners.oblique 1).exact
      (.ofBits 0) = Point.exact ⟨3, 4⟩ := by
  obtain ⟨next, hrun⟩ := dragCorner_pull shifted ⟨3, 4⟩
  have hfollows : shifted.follows 0 (pull ⟨3, 4⟩ .xy) = true := by decide +kernel
  refine ⟨hasUnitWeights_exactChest, hfollows, ?_⟩
  refine (screen_dragCorner_iff rfl hasUnitWeights_exactChest (Nat.zero_le 7) hrun hfollows
    (by decide +kernel)).2 ?_
  simp [pull]

-- After a motion in depth the corner is left beside the pointer.
theorem corner_beside_pointer : exactChest.corners.HasUnitWeights ∧
    deepened.follows 0 (pull ⟨5, 7⟩ .xy) = true ∧
    ∃ moved next, deepened.dragCorner (Corners.oblique 1).exact 0 (Point.exact ⟨5, 7⟩) .xy false
        .default = .ok (moved, next) ∧
      ((Corners.oblique 1).exact.image (moved.corners.corner (.ofBits 0))).isFinite = true ∧
      moved.corners.screen (Corners.oblique 1).exact (.ofBits 0) ≠ Point.exact ⟨5, 7⟩ := by
  obtain ⟨next, hrun⟩ := dragCorner_pull deepened ⟨5, 7⟩
  have hbeside : ((deepened.afterMotion 0 (pull ⟨5, 7⟩ .xy)).corners.screen
      (Corners.oblique 1).exact (.ofBits 0) == Point.exact ⟨5, 7⟩) = false := by
    decide +kernel
  refine ⟨hasUnitWeights_exactChest, by decide +kernel, _, next, hrun, by decide +kernel,
    fun hat => ?_⟩
  rw [hat] at hbeside
  exact absurd hbeside (by decide +kernel)

end Box

end PerspectiveBox
