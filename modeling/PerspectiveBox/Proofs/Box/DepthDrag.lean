import PerspectiveBox.Proofs.Box.UnderPointer
import PerspectiveBox.Proofs.Projective.Line

namespace PerspectiveBox

namespace Corners

variable {K : Type}

-- The corners with another z for one corner and those in its plane.
def withDepth (c : Corners K) (id : AxisSet) (z : K) : Corners K where
  near := if id.hasZ then c.near else { c.near with z := z }
  far := if id.hasZ then { c.far with z := z } else c.far

variable [Scalar K]

theorem corner_withDepth (c : Corners K) (id : AxisSet) (z : K) :
    (c.withDepth id z).corner id = (c.corner id).set .z z := by
  rcases id with ⟨_ | _, _ | _, _ | _⟩ <;> rfl

theorem HasUnitWeights.movedAlongZ_eq {c : Corners K} (h : c.HasUnitWeights) (id : AxisSet)
    (p : HPoint3 K) : c.movedAlongZ id .z p = c.withDepth id p.z := by
  obtain ⟨⟨_, _, _, _⟩, _, _, _, _⟩ := c
  obtain ⟨rfl, rfl⟩ := h
  rcases id with ⟨_ | _, _ | _, _ | _⟩ <;> rfl

-- What is found on the perspective line of a corner is the corner at another depth.
theorem exists_linePoint {c : Corners Rat} {id : AxisSet} {m : Projection Rat}
    (hfinite : (m.exact.image (c.exact.corner id)).isFinite = true) {pointer : Point Rat}
    {constrained : Bool} {session : DragSession Exact}
    (hfound : (c.exact.linePoint c.exact id
      ⟨m.exact, pointer.exact, .z, constrained, session⟩).isFinite = true) :
    ∃ z : Rat,
      c.exact.linePoint c.exact id ⟨m.exact, pointer.exact, .z, constrained, session⟩ =
        (c.exact.corner id).set .z (.rational z) ∧
      m.exact.screen ((c.exact.corner id).set .z (.rational z)) =
        (PerspectiveLine.through m.exact (c.exact.screen m.exact id) .z).line.closest
          pointer.exact := by
  let p : HPoint3 Rat := ⟨c.coordinate id .x, c.coordinate id .y, c.coordinate id .z, 1⟩
  have hcorner : c.exact.corner id = p.exact := corner_exact c id
  rw [hcorner, Projection.image_exact, HPoint2.isFinite_exact, decide_eq_true_iff] at hfinite
  have hpoint : c.exact.linePoint c.exact id ⟨m.exact, pointer.exact, .z, constrained, session⟩ =
      m.exact.preimage ((PerspectiveLine.through m.exact (m.exact.screen p.exact) .z).line.closest
        pointer.exact) (.rational (p.get .y)) .y := by
    rw [← HPoint3.get_exact, ← hcorner]
    rfl
  rw [hpoint] at hfound
  have hone : p.w = 1 := rfl
  obtain ⟨z, hz, hseen⟩ := Projection.exists_preimage_closest_along (a := .z) (b := .y) (by decide)
    hone hfinite rfl hfound
  have hset : (c.exact.corner id).set .z (.rational z) = (p.set .z z).exact := by rw [hcorner]; rfl
  refine ⟨z, ?_, ?_⟩
  · rw [hpoint, hset]
    exact hz
  · rw [hset, screen, hcorner]
    exact hseen

end Corners

namespace Box

section

variable {K : Type} [Scalar K]

-- The last of some motions that found a point when its turn came.
def lastFollowed? (b : Box K) (id : Nat) : List (DragMotion K) → Option (DragMotion K)
  | [] => none
  | e :: es =>
    ((b.afterMotion id e).lastFollowed? id es).or (if b.follows id e then some e else none)

variable (hone : ((1 : K) == 1) = true) {start b : Box K} {id : Nat} {movement : AxisSet}
  (hbegun : Begun start id movement) {es : List (DragMotion K)}
  (hes : ∀ e ∈ es, e.movement = movement)
include hone hbegun hes

theorem Placed.lastFollowed?_eq (h : Placed start (.ofBits id) movement b) :
    b.lastFollowed? id es = (es.filter (start.follows id)).getLast? := by
  induction es generalizing b with
  | nil => rfl
  | cons e es ih =>
    obtain ⟨rfl, hes⟩ := List.forall_mem_cons.1 hes
    rw [lastFollowed?, ih hes (h.afterMotion hone hbegun), h.follows_eq hone hbegun,
      List.filter_cons]
    by_cases hfollows : start.follows id e = true
    · rw [if_pos hfollows, if_pos hfollows, List.getLast?_cons]
      cases (es.filter (start.follows id)).getLast? <;> rfl
    · rw [if_neg hfollows, if_neg hfollows, Option.or_none]

-- It leads to the same box as if it were the only one.
theorem Begun.afterMotions_of_lastFollowed {e : DragMotion K}
    (h : start.lastFollowed? id es = some e) :
    e.movement = movement ∧ start.follows id e = true ∧
      start.afterMotions id es = start.afterMotion id e := by
  have hlast : (es.filter (start.follows id)).getLast? = some e := by
    rw [← h]
    exact (Placed.start.lastFollowed?_eq hone hbegun hes).symm
  obtain ⟨hmem, hfollows⟩ := List.mem_filter.1 (List.mem_of_getLast? hlast)
  refine ⟨hes e hmem, hfollows, ?_⟩
  rw [hbegun.afterMotions_eq hone hes, hlast]
  rfl

end

-- After motions along z the box is as when the drag began but for the z that the corner owns, and
-- the corner is seen where the pointer of the last motion that found a point meets its edge.
theorem slides_afterMotions {b : Box Exact} {c : Corners Rat} (hb : b.corners = c.exact)
    (h : b.corners.HasUnitWeights) {id : Nat} (hid : id ≤ 7) {m : Projection Rat}
    (hfinite : (m.exact.image (b.beginDrag.corners.corner (.ofBits id))).isFinite = true)
    {es : List (DragMotion Exact)} (hes : ∀ e ∈ es, e.movement = .z) {pointer : Point Rat}
    {constrained : Bool} {session : DragSession Exact}
    (hlast : b.beginDrag.lastFollowed? id es =
      some ⟨m.exact, pointer.exact, .z, constrained, session⟩) :
    ∃ z : Rat,
      b.beginDrag.afterMotions id es = { b.beginDrag with
        corners := b.beginDrag.corners.withDepth (.ofBits id) (.rational z) } ∧
      (b.beginDrag.afterMotions id es).corners.corner (.ofBits id) =
        (b.beginDrag.corners.corner (.ofBits id)).set .z (.rational z) ∧
      (b.beginDrag.afterMotions id es).corners.screen m.exact (.ofBits id) =
        (PerspectiveLine.through m.exact (b.beginDrag.corners.screen m.exact (.ofBits id))
          .z).line.closest pointer.exact := by
  have hone : ((1 : Exact) == 1) = true := rfl
  have hfree : AxisSet.z.IsFreedom := by decide
  have hunit : b.beginDrag.corners.HasUnitWeights := (heldFrom_beginDrag hone h .empty).unit
  have hbegun : Begun b.beginDrag id .z := ⟨hunit, rfl, hid, hfree⟩
  have hstart : b.beginDrag.corners = c.exact := (h.normalized_eq hone).trans hb
  obtain ⟨-, hfollows, hrun⟩ := hbegun.afterMotions_of_lastFollowed hone hes hlast
  obtain ⟨p, hp⟩ := Option.isSome_iff_exists.1 hfollows
  rw [hunit.normalized_eq hone, hbegun.saved] at hp
  obtain ⟨hpoint, hfound⟩ := Corners.eq_of_target? (BoxCreation.preimage_w _ _ _ _) hp
  have hplaced : Placed b.beginDrag (.ofBits id) .z b.beginDrag := .start
  have hmoved := hplaced.afterMotion_of_some hone hbegun hp
  rw [Corners.cornerAt, if_pos rfl, hunit.movedAlongZ_eq] at hmoved
  rw [hstart] at hpoint hfound hfinite
  obtain ⟨z, hz, hseen⟩ := Corners.exists_linePoint hfinite hfound
  have hdepth : p.z = .rational z := by
    rw [hpoint]
    exact (congrArg HPoint3.z hz).trans (HPoint3.get_set_same _ .z _)
  rw [hdepth] at hmoved
  refine ⟨z, hrun.trans hmoved, ?_, ?_⟩
  · rw [hrun, hmoved, Corners.corner_withDepth]
  · rw [hrun, hmoved, Corners.screen, Corners.corner_withDepth, hstart]
    exact hseen

def corridorPull (pointer : Point Rat) : DragMotion Exact :=
  ⟨corridor.exact, pointer.exact, .z, false, .default⟩

-- The second motion is towards the vanishing point, where no depth is found.
def corridorPulls : List (DragMotion Exact) := [corridorPull ⟨90, 70⟩, corridorPull ⟨200, 100⟩]

theorem slides_afterMotions_corridor : exactChest.corners.HasUnitWeights ∧
    (∀ e ∈ corridorPulls, e.movement = .z) ∧
    exactChest.beginDrag.lastFollowed? 0 corridorPulls = some (corridorPull ⟨90, 70⟩) ∧
    (exactChest.beginDrag.afterMotions 0 corridorPulls).corners.screen corridor.exact (.ofBits 0) =
      (PerspectiveLine.through corridor.exact
        (exactChest.beginDrag.corners.screen corridor.exact (.ofBits 0)) .z).line.closest
          (Point.exact ⟨90, 70⟩) := by
  have hes : ∀ e ∈ corridorPulls, e.movement = .z := by
    simp [corridorPulls, corridorPull]
  have hfirst : exactChest.beginDrag.follows 0 (corridorPull ⟨90, 70⟩) = true := by
    decide +kernel
  have hsecond : (exactChest.beginDrag.afterMotion 0 (corridorPull ⟨90, 70⟩)).follows 0
      (corridorPull ⟨200, 100⟩) = false := by
    decide +kernel
  have hlast : exactChest.beginDrag.lastFollowed? 0 corridorPulls =
      some (corridorPull ⟨90, 70⟩) := by
    simp [corridorPulls, lastFollowed?, hfirst, hsecond]
  obtain ⟨z, -, -, hseen⟩ := slides_afterMotions rfl hasUnitWeights_exactChest (Nat.zero_le 7)
    (by decide +kernel) hes hlast
  exact ⟨hasUnitWeights_exactChest, hes, hlast, hseen⟩

end Box

end PerspectiveBox
