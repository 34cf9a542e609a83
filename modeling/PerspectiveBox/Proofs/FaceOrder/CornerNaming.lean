import PerspectiveBox.Proofs.Box.Relabeled
import PerspectiveBox.Proofs.FaceOrder.Eversion

namespace PerspectiveBox

open Scalar

variable {K : Type} [Scalar K]

-- The plane of a face: the axis it is orthogonal to and where it cuts that axis.
structure FacePlane (K : Type) where
  normal : Axis
  value : K
  deriving BEq

def Corners.facePlane (c : Corners K) (f : Face) : FacePlane K where
  normal := f.normal
  value := match f.position with
    | .front => c.near.get f.normal
    | .rear => c.far.get f.normal

-- The planes of the faces that an order lists.
def Corners.planes (c : Corners K) (order : FaceOrder) : List (FacePlane K) :=
  (order.filterMap Face.ofSlot?).map c.facePlane

namespace Face

theorem ofSlot?_turnedSlot (axes : AxisSet) (slot : Nat) :
    ofSlot? (turnedSlot axes slot) = (ofSlot? slot).map (turned axes) := by
  cases h : ofSlot? slot with
  | none => rw [turnedSlot, h, Option.map_none, Option.getD_none, h, Option.map_none]
  | some f =>
    obtain rfl := slot_of_ofSlot? h
    -- The faces of slots are walked around forward, and stay so when they are turned over.
    have hforward : { f.turned axes with backward := false } = f.turned axes := by
      rw [ofSlot?_slot, Option.some.injEq] at h
      rw [← h, turned]
      split <;> rfl
    rw [turnedSlot_slot, ofSlot?_slot, hforward, Option.map_some]

theorem filterMap_turnedSlot (axes : AxisSet) (order : FaceOrder) :
    (order.map (turnedSlot axes)).filterMap ofSlot? =
      (order.filterMap ofSlot?).map (turned axes) := by
  rw [List.filterMap_map, List.map_filterMap]
  exact congrArg (order.filterMap ·) (funext (ofSlot?_turnedSlot axes))

-- The faces of a corner are those whose position is the corner's own along their normal.
theorem mem_cornerIds_iff (f : Face) (id : AxisSet) :
    id ∈ f.cornerIds.toList ↔ id.has f.normal = decide (f.position = .rear) := by
  rcases f with ⟨_ | _, _ | _, _ | _⟩ <;> rcases id with ⟨_ | _, _ | _, _ | _⟩ <;> decide

theorem normal_turned (f : Face) (axes : AxisSet) : (f.turned axes).normal = f.normal := by
  rw [turned]
  split <;> rfl

theorem mem_cornerIds_turned (f : Face) (axes id : AxisSet) :
    id ^^^ axes ∈ (f.turned axes).cornerIds.toList ↔ id ∈ f.cornerIds.toList := by
  have hopposite : decide (f.position.opposite = .rear) = !decide (f.position = .rear) := by
    cases f.position <;> rfl
  have hxor : (id ^^^ axes).has f.normal = (id.has f.normal ^^ axes.has f.normal) := by
    cases f.normal <;> rfl
  rw [mem_cornerIds_iff, mem_cornerIds_iff, normal_turned, hxor, turned]
  split
  · next h => rw [h, Bool.xor_true, opposite, hopposite, Bool.not_inj_iff]
  · next h => rw [eq_false_of_ne_true h, Bool.xor_false]

end Face

namespace Corners

variable {c : Corners K}

-- All corners of a face lie in its plane.
theorem get_corner_of_mem {f : Face} {id : AxisSet} (h : id ∈ f.cornerIds.toList) :
    (c.corner id).get f.normal = (c.facePlane f).value := by
  rw [get_corner, (f.mem_cornerIds_iff id).1 h]
  rcases f with ⟨normal, _ | _, backward⟩ <;> rfl

-- The order of a box leaves no face out.
theorem length_planes_faceOrder (m : Projection K) (strategy : OrderStrategy) :
    (c.planes (c.faceOrder m strategy)).length = Face.count := by
  rw [planes, List.length_map, ((c.complete_faceOrder m strategy).filterMap _).length_eq]
  rfl

variable [OrdersNumbers K] (h : c.HasUnitWeights) (hn : c.AreNumbers)
include h hn

-- A face of the relabeled box lies where it lay before, turned over if the box was everted.
theorem facePlane_relabeled (f : Face) :
    (c.relabeled.facePlane f == c.facePlane (f.turned c.everted)) = true := by
  have hmem : f.cornerIds.a ∈ f.cornerIds.toList := List.mem_cons_self
  have hturned := get_corner_of_mem (c := c) ((f.mem_cornerIds_turned c.everted _).2 hmem)
  have hvalue := HPoint3.beq_iff.1 (h.corner_relabeled hn f.cornerIds.a) f.normal
  rw [f.normal_turned] at hturned
  rw [get_corner_of_mem hmem, hturned] at hvalue
  have hbeq (p q : FacePlane K) : (p == q) = (p.normal == q.normal && p.value == q.value) := rfl
  rw [hbeq, Bool.and_eq_true, beq_iff_eq]
  exact ⟨(f.normal_turned c.everted).symm, hvalue⟩

theorem planes_relabeled (order : FaceOrder) :
    (c.relabeled.planes order == c.planes (order.map (Face.turnedSlot c.everted))) = true := by
  rw [planes, planes, Face.filterMap_turnedSlot, List.map_map]
  induction order.filterMap Face.ofSlot? with
  | nil => rfl
  | cons f faces ih =>
    rw [List.map_cons, List.map_cons, List.cons_beq_cons, Bool.and_eq_true]
    exact ⟨facePlane_relabeled h hn f, ih⟩

-- Relabeling a box leaves all six faces in the order in which they lie on top of one another.
theorem planes_faceOrder_relabeled {m : Projection K} (hm : ∀ a : Axis, m.isFinite a = false)
    (strategy : OrderStrategy) :
    (c.planes (c.faceOrder m strategy)).length = Face.count ∧
    (c.relabeled.planes (c.relabeled.faceOrder m strategy) ==
      c.planes (c.faceOrder m strategy)) = true := by
  have hcase : c.relabeled.vanishingCase m strategy = c.vanishingCase m strategy := by
    rw [vanishingCase_of_infinite hm c.relabeled strategy .nowhere,
      vanishingCase_of_infinite hm c strategy .nowhere]
  have horder : c.relabeled.faceOrder m strategy = (c.vanishingCase m strategy).order := by
    rw [faceOrder_eq_map, h.everted_relabeled, hcase, funext Face.turnedSlot_empty, List.map_id']
  refine ⟨length_planes_faceOrder m strategy, ?_⟩
  rw [horder, faceOrder_eq_map c]
  exact planes_relabeled h hn _

end Corners

-- A view without a finite vanishing point, the depth drawn at an angle.
def slantedView : Projection Float := ⟨⟨1, 0, 0⟩, ⟨0, 1, 0⟩, ⟨0.3, -0.4, 0⟩, ⟨0, 0, 1⟩⟩

theorem planes_faceOrder_insideOut :
    insideOut.HasUnitWeights ∧ insideOut.AreNumbers ∧
    (∀ a : Axis, slantedView.isFinite a = false) ∧
    insideOut.faceOrder slantedView .sectorHeuristics = [3, 0, 4, 2, 5, 1] ∧
    insideOut.relabeled.faceOrder slantedView .sectorHeuristics = [3, 1, 5, 2, 4, 0] ∧
    (insideOut.relabeled.planes (insideOut.relabeled.faceOrder slantedView .sectorHeuristics) ==
      insideOut.planes (insideOut.faceOrder slantedView .sectorHeuristics)) = true := by
  have hunit : insideOut.HasUnitWeights := ⟨rfl, rfl⟩
  have hnumbers : insideOut.AreNumbers := by decide +kernel
  have hparallel (a : Axis) : slantedView.isFinite a = false := by
    cases a <;> decide +kernel
  exact ⟨hunit, hnumbers, hparallel, by decide +kernel, by decide +kernel,
    (Corners.planes_faceOrder_relabeled hunit hnumbers hparallel .sectorHeuristics).2⟩

end PerspectiveBox
