import PerspectiveBox.Proofs.Box.Made
import PerspectiveBox.Proofs.FaceOrder.Complete

namespace PerspectiveBox

variable {K : Type}

namespace Box

-- What lowering does to the slots: the lowered one comes first, and the others stay in turn.
theorem slots_lowered {sides : List (Side K)} {slot : Nat} (h : slot ∈ sides.map Side.slot) :
    (lowered sides slot).map Side.slot = slot :: (sides.map Side.slot).erase slot := by
  obtain ⟨s, hs, hslot⟩ := List.mem_map.1 h
  rw [lowered]
  cases hfind : sides.find? fun s => s.slot == slot with
  | none => exact absurd (beq_iff_eq.2 hslot) (List.find?_eq_none.1 hfind s hs)
  | some t =>
    have ht : t.slot = slot := by simpa using List.find?_some hfind
    simp only [List.map_cons, ht, List.cons.injEq, true_and]
    rw [List.erase_eq_eraseP, List.eraseP_map]
    congr 2
    funext u
    simp only [Function.comp, beq_eq_beq]
    exact eq_comm

-- The faces of the order are on the bottom, the first of them on top of the rest.
theorem slots_restacked {sides : List (Side K)} {order : FaceOrder} (hnodup : order.Nodup)
    (hmem : ∀ slot ∈ order, slot ∈ sides.map Side.slot) :
    (restacked sides order).map Side.slot =
      order.reverse ++ (sides.map Side.slot).diff order := by
  rw [restacked]
  induction order generalizing sides with
  | nil => rfl
  | cons slot order ih =>
    obtain ⟨hout, hnodup⟩ := List.nodup_cons.1 hnodup
    obtain ⟨hslot, hmem⟩ := List.forall_mem_cons.1 hmem
    have hlowered := slots_lowered hslot
    have hrest : ∀ other ∈ order, other ∈ (lowered sides slot).map Side.slot := by
      intro other hother
      have hne : other ≠ slot := fun he => hout (he ▸ hother)
      rw [hlowered]
      exact List.mem_cons_of_mem _ ((List.mem_erase_of_ne hne).2 (hmem other hother))
    rw [List.foldl_cons, ih hnodup hrest, hlowered, List.cons_diff_of_not_mem hout,
      List.reverse_cons, List.append_assoc, List.diff_cons]
    rfl

-- A stack of just the faces of the order is that order from the top.
theorem slots_restacked_of_perm {sides : List (Side K)} {order : FaceOrder}
    (hnodup : order.Nodup) (h : (sides.map Side.slot).Perm order) :
    (restacked sides order).map Side.slot = order.reverse := by
  have hnone (l : List Nat) : l.diff l = [] := by
    induction l with
    | nil => rfl
    | cons a l ih => rw [List.diff_cons, List.erase_cons_head, ih]
  have hrest : (sides.map Side.slot).diff order = [] :=
    List.perm_nil.1 (hnone order ▸ h.diff_right order)
  rw [slots_restacked hnodup fun _ hslot => h.mem_iff.2 hslot, hrest, List.append_nil]

-- The stored order has every face once, and the stack is that order from the top.
def Stacked (b : Box K) : Prop :=
  ∀ order, b.order = some order → order.Complete ∧ b.paintOrder = order.reverse

theorem Stacked.congr {b c : Box K} (h : b.Stacked) (horder : c.order = b.order)
    (hpaint : c.paintOrder = b.paintOrder) : c.Stacked := by
  rw [Stacked, horder, hpaint]
  exact h

variable [Scalar K]

-- There is one side for each face.
theorem Made.complete_paintOrder {b : Box K} (h : b.Made) :
    FaceOrder.Complete b.paintOrder := by
  have hslots := h.slots_perm
  rw [styles, List.map_map] at hslots
  exact hslots

theorem paintOrder_redraw (b : Box K) (m : Projection K) :
    (b.redraw m).paintOrder = b.paintOrder := by
  simp only [paintOrder, redraw, List.map_map]
  rfl

theorem Stacked.redraw {b : Box K} (h : b.Stacked) (m : Projection K) : (b.redraw m).Stacked :=
  h.congr rfl (paintOrder_redraw b m)

-- Another order than the stored one is stacked anew, whatever the stack was.
theorem Made.stacked_updateOrder {b : Box K} (h : b.Made) {m : Projection K}
    {strategy : OrderStrategy} (hnew : b.order ≠ some (b.corners.faceOrder m strategy)) :
    (b.updateOrder m strategy).2.Stacked := by
  simp only [Box.updateOrder, if_neg hnew]
  intro order horder
  have hcomplete := b.corners.complete_faceOrder m strategy
  obtain rfl := Option.some.inj horder
  have hnodup : (b.corners.faceOrder m strategy).Nodup :=
    hcomplete.nodup_iff.2 List.nodup_range
  exact ⟨hcomplete,
    slots_restacked_of_perm hnodup (h.complete_paintOrder.trans hcomplete.symm)⟩

theorem updateOrder_of_order {b : Box K} {m : Projection K} {strategy : OrderStrategy}
    (h : b.order = some (b.corners.faceOrder m strategy)) : (b.updateOrder m strategy).2 = b := by
  simp only [Box.updateOrder, if_pos h]

theorem Stacked.updateOrder {b : Box K} (h : b.Stacked) (hmade : b.Made) (m : Projection K)
    (strategy : OrderStrategy) : (b.updateOrder m strategy).2.Stacked := by
  by_cases horder : b.order = some (b.corners.faceOrder m strategy)
  · rw [updateOrder_of_order horder]
    exact h
  · exact hmade.stacked_updateOrder horder

theorem corners_updateOrder (b : Box K) (m : Projection K) (strategy : OrderStrategy) :
    (b.updateOrder m strategy).2.corners = b.corners := by
  simp only [Box.updateOrder]
  split <;> rfl

-- After an update the stored order is the present one.
theorem order_updateOrder (b : Box K) (m : Projection K) (strategy : OrderStrategy) :
    (b.updateOrder m strategy).2.order = some (b.corners.faceOrder m strategy) := by
  simp only [Box.updateOrder]
  split
  · next h => exact h
  · rfl

end Box

end PerspectiveBox
