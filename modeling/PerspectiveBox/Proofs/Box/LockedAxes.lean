import PerspectiveBox.Proofs.Box.CornerDrag

namespace PerspectiveBox

variable {K : Type}

-- The points differ at most in their coordinates along some axes.
structure HPoint3.AgreeOutside (axes : AxisSet) (p q : HPoint3 K) : Prop where
  x : axes.hasX = false → q.x = p.x
  y : axes.hasY = false → q.y = p.y
  z : axes.hasZ = false → q.z = p.z
  w : q.w = p.w

theorem HPoint3.AgreeOutside.refl (axes : AxisSet) (p : HPoint3 K) : AgreeOutside axes p p :=
  ⟨fun _ => rfl, fun _ => rfl, fun _ => rfl, rfl⟩

namespace Corners

structure AgreeOutside (axes : AxisSet) (c d : Corners K) : Prop where
  near : c.near.AgreeOutside axes d.near
  far : c.far.AgreeOutside axes d.far

theorem AgreeOutside.refl (axes : AxisSet) (c : Corners K) : AgreeOutside axes c c :=
  ⟨.refl axes c.near, .refl axes c.far⟩

variable [Scalar K] {c : Corners K} (h : c.HasUnitWeights)
include h

theorem agreeOutside_dragCenterInPlane? (saved : Corners K) (m : Projection K)
    (pointer grip : Point K) (movement : AxisSet) (constrained : Bool) (session : DragSession K)
    {d : Corners K}
    (hd : (c.dragCenterInPlane? saved m pointer grip movement constrained session).1 = some d) :
    AgreeOutside movement c d := by
  obtain ⟨p, -, rfl⟩ := Option.map_eq_some_iff.1 hd
  constructor
  · exact ⟨fun hx => if_neg (by simp [hx]), fun hy => if_neg (by simp [hy]),
      fun _ => rfl, h.1.symm⟩
  · exact ⟨fun hx => if_neg (by simp [hx]), fun hy => if_neg (by simp [hy]),
      fun _ => rfl, h.2.symm⟩

theorem agreeOutside_dragCenterAlongZ? (m : Projection K) (pointer grip : Point K)
    {movement : AxisSet} (hz : movement.hasZ = true) {d : Corners K}
    (hd : c.dragCenterAlongZ? m pointer grip = some d) : AgreeOutside movement c d := by
  obtain ⟨p, -, rfl⟩ := Option.map_eq_some_iff.1 hd
  have hfree : movement.hasZ ≠ false := ne_of_eq_of_ne hz nofun
  constructor
  · exact ⟨fun _ => rfl, fun _ => rfl, fun hlocked => absurd hlocked hfree, h.1.symm⟩
  · exact ⟨fun _ => rfl, fun _ => rfl, fun hlocked => absurd hlocked hfree, h.2.symm⟩

theorem agreeOutside_movedAlongZ {movement : AxisSet} (hz : movement.hasZ = true) (id : AxisSet)
    (p : HPoint3 K) : AgreeOutside movement c (c.movedAlongZ id movement p) := by
  have hfree : movement.hasZ ≠ false := ne_of_eq_of_ne hz nofun
  constructor
  · exact ⟨fun hx => if_neg (by simp [hx]), fun hy => if_neg (by simp [hy]),
      fun hlocked => absurd hlocked hfree, h.1.symm⟩
  · exact ⟨fun hx => if_neg (by simp [hx]), fun hy => if_neg (by simp [hy]),
      fun hlocked => absurd hlocked hfree, h.2.symm⟩

theorem agreeOutside_movedInPlane (id : AxisSet) (p : HPoint3 K) :
    AgreeOutside .xy c (c.movedInPlane id p) :=
  ⟨⟨nofun, nofun, fun _ => rfl, h.1.symm⟩, ⟨nofun, nofun, fun _ => rfl, h.2.symm⟩⟩

-- In its plane a corner keeps a locked coordinate only if the point it is taken to has the same.
theorem agreeOutside_movedInPlane_iff (movement id : AxisSet) (p : HPoint3 K) :
    AgreeOutside movement c (c.movedInPlane id p) ↔
      (movement.hasX = false → p.x = (c.corner id).x) ∧
      (movement.hasY = false → p.y = (c.corner id).y) := by
  have hx : p.x = (c.corner id).x ↔
      (c.movedInPlane id p).near.x = c.near.x ∧ (c.movedInPlane id p).far.x = c.far.x := by
    cases hid : id.hasX <;> simp [movedInPlane, corner, hid]
  have hy : p.y = (c.corner id).y ↔
      (c.movedInPlane id p).near.y = c.near.y ∧ (c.movedInPlane id p).far.y = c.far.y := by
    cases hid : id.hasY <;> simp [movedInPlane, corner, hid]
  rw [hx, hy]
  constructor
  · intro hagree
    exact ⟨fun hlocked => ⟨hagree.near.x hlocked, hagree.far.x hlocked⟩,
      fun hlocked => ⟨hagree.near.y hlocked, hagree.far.y hlocked⟩⟩
  · rintro ⟨hx, hy⟩
    exact ⟨⟨fun hlocked => (hx hlocked).1, fun hlocked => (hy hlocked).1, fun _ => rfl, h.1.symm⟩,
      ⟨fun hlocked => (hx hlocked).2, fun hlocked => (hy hlocked).2, fun _ => rfl, h.2.symm⟩⟩

-- What a motion of a corner leaves alone, from corners that are the saved ones.
theorem agreeOutside_afterMotion_iff (id : AxisSet) (e : DragMotion K) :
    AgreeOutside e.movement c (c.afterMotion c id e) ↔
      e.movement.hasZ = true ∨ ∀ p, c.cornerTarget? c id e = some p →
        (e.movement.hasX = false → p.x = (c.corner id).x) ∧
        (e.movement.hasY = false → p.y = (c.corner id).y) := by
  rw [afterMotion]
  cases c.cornerTarget? c id e with
  | none => simp [AgreeOutside.refl]
  | some p =>
    simp only [Option.map_some, Option.getD_some, Option.some.injEq, forall_eq', cornerAt]
    by_cases hz : e.movement.hasZ = true
    · simp only [hz, if_true, true_or, iff_true]
      exact agreeOutside_movedAlongZ h hz id p
    · simp only [Bool.eq_false_iff.2 hz, Bool.false_eq_true, if_false, false_or]
      exact agreeOutside_movedInPlane_iff h e.movement id p

theorem agreeOutside_afterMotion_of_plane (id : AxisSet) {e : DragMotion K}
    (hz : e.movement.hasZ = false) : AgreeOutside .xy c (c.afterMotion c id e) := by
  rw [afterMotion]
  cases c.cornerTarget? c id e with
  | none => exact .refl _ c
  | some p =>
    have hat : c.cornerAt c id e.movement p = c.movedInPlane id p :=
      if_neg (Bool.eq_false_iff.1 hz)
    rw [Option.map_some, hat]
    exact agreeOutside_movedInPlane h id p

end Corners

namespace Box

variable [Scalar K]

theorem dragCenter_run {b : Box K} (h : b.corners.HasUnitWeights) (m : Projection K)
    (pointer grip : Point K) {movement : AxisSet} (hm : movement.IsFreedom) (constrained : Bool)
    (session : DragSession K) : ∃ d next,
    b.dragCenter m pointer grip movement constrained session =
      .ok ({ b with corners := d }, next) ∧ b.corners.AgreeOutside movement d := by
  have hmovement : checkMovement movement = .ok () := if_neg (not_or.2 hm)
  have hkept {moved : Option (Corners K)}
      (hmoved : ∀ d, moved = some d → b.corners.AgreeOutside movement d) :
      b.corners.AgreeOutside movement (moved.getD b.corners) := by
    cases moved with
    | none => exact .refl _ _
    | some d => exact hmoved d rfl
  simp only [dragCenter, hmovement]
  by_cases hz : movement.hasZ = true
  · simp only [if_pos hz]
    exact ⟨_, _, rfl, hkept fun d => Corners.agreeOutside_dragCenterAlongZ? h m pointer grip hz⟩
  · simp only [if_neg hz]
    exact ⟨_, _, rfl, hkept fun d => Corners.agreeOutside_dragCenterInPlane? h _ _ _ _ _ _ _⟩

-- A drag of the center moves a box along the free axes only. So does a drag of a corner unless it
-- is in the plane: then a locked coordinate of the corner becomes that of the point it is taken to.
theorem agreeOutside_drag_iff (hone : ((1 : K) == 1) = true) {b : Box K}
    (h : b.corners.HasUnitWeights) (hsaved : b.saved = b.corners) {e : DragMotion K}
    (hm : e.movement.IsFreedom) :
    (∀ grip, ∃ d next,
      b.dragCenter e.map e.pointer grip e.movement e.constrained e.session =
        .ok ({ b with corners := d }, next) ∧ b.corners.AgreeOutside e.movement d) ∧
    (∀ id, 7 < id →
      b.dragCorner e.map id e.pointer e.movement e.constrained e.session =
        .error (.invalidCorner id)) ∧
    ∀ id ≤ 7, ∃ d next,
      b.dragCorner e.map id e.pointer e.movement e.constrained e.session =
        .ok ({ b with corners := d }, next) ∧
      (b.corners.AgreeOutside e.movement d ↔ e.movement.hasZ = true ∨
        ∀ p, b.corners.cornerTarget? b.corners (.ofBits id) e = some p →
          (e.movement.hasX = false → p.x = (b.corners.corner (.ofBits id)).x) ∧
          (e.movement.hasY = false → p.y = (b.corners.corner (.ofBits id)).y)) ∧
      (e.movement.hasZ = false → b.corners.AgreeOutside .xy d) := by
  refine ⟨fun grip => dragCenter_run h _ _ grip hm _ _, fun id hid => ?_, fun id hid => ?_⟩
  · have hmovement : checkMovement e.movement = .ok () := if_neg (not_or.2 hm)
    unfold dragCorner
    rw [hmovement, if_pos hid]
    rfl
  · obtain ⟨next, hrun⟩ := b.dragCorner_run hid hm
    rw [h.normalized_eq hone] at hrun
    refine ⟨_, next, hrun, ?_⟩
    rw [hsaved]
    exact ⟨Corners.agreeOutside_afterMotion_iff h _ e, Corners.agreeOutside_afterMotion_of_plane h _⟩

-- The pointer straight below the far corner of the chest, in a drag that is free along x.
def risePull : DragMotion Float := ⟨slanted, ⟨20, 23⟩, .x, false, .default⟩

theorem agreeOutside_drag_iff_chest : chest.corners.HasUnitWeights ∧
    chest.saved = chest.corners ∧ risePull.movement.IsFreedom ∧
    ∃ d next, chest.dragCorner slanted 7 ⟨20, 23⟩ .x false .default =
        .ok ({ chest with corners := d }, next) ∧
      (chest.corners.AgreeOutside .x d ↔ AxisSet.x.hasZ = true ∨
        ∀ p, chest.corners.cornerTarget? chest.corners (.ofBits 7) risePull = some p →
          (AxisSet.x.hasX = false → p.x = (chest.corners.corner (.ofBits 7)).x) ∧
          (AxisSet.x.hasY = false → p.y = (chest.corners.corner (.ofBits 7)).y)) ∧
      (AxisSet.x.hasZ = false → chest.corners.AgreeOutside .xy d) := by
  have hfree : risePull.movement.IsFreedom := by decide
  exact ⟨⟨rfl, rfl⟩, rfl, hfree,
    (agreeOutside_drag_iff (by decide) ⟨rfl, rfl⟩ rfl hfree).2.2 7 (by decide)⟩

-- The corner follows the pointer down, along the locked axis.
theorem not_agreeOutside_chest : chest.corners.HasUnitWeights ∧ chest.saved = chest.corners ∧
    risePull.movement.IsFreedom ∧
    ∃ d next, chest.dragCorner slanted 7 ⟨20, 23⟩ .x false .default =
        .ok ({ chest with corners := d }, next) ∧
      d.far.y = 13 ∧ ¬ chest.corners.AgreeOutside .x d := by
  have hfree : risePull.movement.IsFreedom := by decide
  obtain ⟨next, hrun⟩ := chest.dragCorner_run (Nat.le_refl 7) hfree
  have hy : (chest.corners.normalized.afterMotion chest.saved (.ofBits 7) risePull).far.y = 13 := by
    decide +kernel
  refine ⟨⟨rfl, rfl⟩, rfl, hfree, _, next, hrun, hy, fun hagree => ?_⟩
  have hkept := hagree.far.y rfl
  rw [hy] at hkept
  exact absurd hkept (by decide)

end Box

end PerspectiveBox
