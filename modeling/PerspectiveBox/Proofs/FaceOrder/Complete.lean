import Mathlib.Data.List.Perm.Basic
import PerspectiveBox.FaceOrder.Classify

namespace PerspectiveBox

namespace FaceOrder

-- An order of the six slots.
abbrev Complete (order : FaceOrder) : Prop := order.Perm (List.range Face.count)

theorem complete_parallel (central : AxisSet) (swapped : Bool) :
    (parallel central swapped).Complete := by
  unfold parallel
  split <;> decide

theorem complete_oneFinite (central : AxisSet) (swapped : Bool) (first second : SectorPosition) :
    (oneFinite central swapped first second).Complete := by
  unfold oneFinite
  split
  · split <;> decide
  · split
    · decide
    · decide
    · split <;> decide
  · split
    · split <;> decide
    · split
      · exact complete_parallel .z swapped
      · split <;> decide
  · split <;> decide

theorem complete_severalFinite (central : AxisSet) (swapped : Bool) (sectors : VpSectors) :
    (severalFinite central swapped sectors).Complete := by
  unfold severalFinite
  split
  · split <;> decide
  · split
    · decide
    · split <;> decide
  · decide
  · split <;> decide
  · decide
  · split
    · decide
    · split <;> decide
  · exact complete_parallel .empty swapped

theorem complete_triangle (central : AxisSet) (crossedEdge : Option AxisSet) :
    (triangle central crossedEdge).Complete := by
  unfold triangle
  split <;> decide

theorem complete_order (c : VanishingCase) : c.order.Complete := by
  cases c with
  | allInfinite central swapped => exact complete_parallel central swapped
  | oneFinite central swapped first second =>
    exact complete_oneFinite central swapped first second
  | severalFinite central swapped sectors => exact complete_severalFinite central swapped sectors
  | triangle central crossedEdge => exact complete_triangle central crossedEdge

-- Exchanging two entries of a list.
private theorem exchange_perm {α : Type} {l : List α} {a b : α} {i j : Nat} (hi : l[i]? = some a)
    (hj : l[j]? = some b) : ((l.set i b).set j a).Perm l := by
  obtain ⟨hil, rfl⟩ := List.getElem?_eq_some_iff.1 hi
  obtain ⟨hjl, rfl⟩ := List.getElem?_eq_some_iff.1 hj
  have hswap : (l.toArray.swap i j hil hjl).Perm l.toArray := Array.swap_perm hil hjl
  rw [List.swap_toArray] at hswap
  exact hswap.toList

theorem swapFaces_perm (order : FaceOrder) (axes : AxisSet) :
    (order.swapFaces axes).Perm order := by
  unfold swapFaces
  split
  · next a i b j rest h =>
    have hentry {e : Nat × Nat} (he : e ∈ (a, i) :: (b, j) :: rest) : order[e.2]? = some e.1 := by
      rw [← h] at he
      exact List.mem_zipIdx_iff_getElem?.1 (List.mem_filter.1 he).1
    exact exchange_perm (hentry List.mem_cons_self)
      (hentry (List.mem_cons_of_mem _ List.mem_cons_self))
  · exact .refl _

end FaceOrder

theorem Corners.complete_faceOrder {K : Type} [Scalar K] (c : Corners K) (m : Projection K)
    (strategy : OrderStrategy) : (c.faceOrder m strategy).Complete := by
  rw [faceOrder]
  generalize c.everted.axes = axes
  have horder := FaceOrder.complete_order (c.vanishingCase m strategy)
  generalize (c.vanishingCase m strategy).order = order at horder
  induction axes generalizing order with
  | nil => exact horder
  | cons axis axes ih => exact ih _ ((order.swapFaces_perm (.single axis)).trans horder)

end PerspectiveBox
