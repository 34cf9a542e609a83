import PerspectiveBox.Proofs.Box.Drawn
import PerspectiveBox.Proofs.FaceOrder.Eversion

namespace PerspectiveBox

variable {K : Type} [Scalar K]

namespace Box

-- The edit that stores an order and leaves the stack as it is.
def Edit.storesOnly : Edit K → Bool
  | .recomputeOrder _ _ => true
  | _ => false

-- A box as it was made and edited, with the edit that last changed the order stored in it.
inductive Traced : Box K → Option (Edit K) → Prop where
  | ofCorners (id : String) (corners : Corners K) : Traced (.ofCorners id corners) none
  | kept {b : Box K} {last : Option (Edit K)} (h : Traced b last) {e : Edit K}
      (hkept : (b.edited e).order = b.order) : Traced (b.edited e) last
  | changed {b : Box K} {last : Option (Edit K)} (h : Traced b last) {e : Edit K}
      (hnew : (b.edited e).order ≠ b.order) : Traced (b.edited e) (some e)
  | linked {b : Box K} {last : Option (Edit K)} (h : Traced b last) (link : Link) :
      Traced { b with link := link } last

variable {b : Box K} {e : Edit K} {last : Option (Edit K)}

theorem Traced.made (h : Traced b last) : b.Made := by
  induction h with
  | ofCorners id corners => exact .ofCorners id corners
  | kept _ _ ih => exact ih.edited _
  | changed _ _ ih => exact ih.edited _
  | linked _ link ih => exact ih.linked link

-- Every box that was made and edited has such a trace.
theorem Made.exists_traced (h : b.Made) : ∃ last, Traced b last := by
  induction h with
  | ofCorners id corners => exact ⟨none, .ofCorners id corners⟩
  | @edited b h e ih =>
    obtain ⟨last, htraced⟩ := ih
    by_cases horder : (b.edited e).order = b.order
    · exact ⟨last, htraced.kept horder⟩
    · exact ⟨some e, htraced.changed horder⟩
  | linked _ link ih =>
    obtain ⟨last, htraced⟩ := ih
    exact ⟨last, htraced.linked link⟩

-- What an edit does to the stored order and the stack: it leaves the stack and, unless it only
-- stores an order, the order alone, or it updates the box, perhaps after redrawing it.
theorem edited_cases (b : Box K) (e : Edit K) :
    ((b.edited e).paintOrder = b.paintOrder ∧
      ((b.edited e).order = b.order ∨ e.storesOnly = true)) ∨
    ∃ c m strategy, b.edited e = (Box.updateOrder c m strategy).2 ∧ c.order = b.order ∧
      c.paintOrder = b.paintOrder ∧ (b.Made → c.Made) := by
  cases e with
  | dragCorner =>
    rw [edited, afterDrag_of_corners fun _ _ h => eq_of_dragCorner h]
    exact .inl ⟨rfl, .inl rfl⟩
  | dragCenter =>
    rw [edited, afterDrag_of_corners fun _ _ h => eq_of_dragCenter h]
    exact .inl ⟨rfl, .inl rfl⟩
  | setStyle slot style => exact .inl ⟨paintOrder_setStyle b slot style, .inl rfl⟩
  | redrawSide slot corners m =>
    refine .inl ⟨?_, .inl rfl⟩
    simp only [edited, paintOrder, List.map_map]
    refine List.map_congr_left fun s _ => ?_
    simp only [Function.comp]
    split <;> rfl
  | redraw m => exact .inl ⟨paintOrder_redraw b m, .inl rfl⟩
  | recomputeOrder m strategy =>
    simp only [edited, recomputeOrder]
    split <;> exact .inl ⟨rfl, .inr rfl⟩
  | updateOrder m strategy => exact .inr ⟨b, m, strategy, rfl, rfl, rfl, fun h => h⟩
  | update m strategy =>
    exact .inr ⟨b.redraw m, m, strategy, rfl, rfl, paintOrder_redraw b m,
      fun h => h.edited (.redraw m)⟩
  | _ => exact .inl ⟨rfl, .inl rfl⟩

-- No edit restacks the sides without storing another order.
theorem paintOrder_edited (h : (b.edited e).order = b.order) :
    (b.edited e).paintOrder = b.paintOrder := by
  obtain ⟨hpaint, -⟩ | ⟨c, m, strategy, he, horder, hpaint, -⟩ := edited_cases b e
  · exact hpaint
  · rw [he, order_updateOrder, ← horder] at h
    rw [he, updateOrder_of_order h.symm, hpaint]

-- An edit that stores another order restacks the sides, unless it only stores the order.
theorem Made.stacked_edited (h : b.Made) (hnew : (b.edited e).order ≠ b.order)
    (hrestacks : e.storesOnly = false) : (b.edited e).Stacked := by
  obtain ⟨-, hkept | hstores⟩ | ⟨c, m, strategy, he, horder, -, hmade⟩ := edited_cases b e
  · exact absurd hkept hnew
  · rw [hrestacks] at hstores
    cases hstores
  · rw [he] at hnew ⊢
    refine (hmade h).stacked_updateOrder fun hsame => hnew ?_
    rw [updateOrder_of_order hsame, horder]

theorem Traced.stacked (h : Traced b last) (hlast : ∀ e ∈ last, e.storesOnly = false) :
    b.Stacked := by
  induction h with
  | ofCorners => nofun
  | kept _ hkept ih => exact (ih hlast).congr hkept (paintOrder_edited hkept)
  | @changed _ _ h e hnew _ => exact h.made.stacked_edited hnew (hlast e rfl)
  | linked _ _ ih => exact (ih hlast).congr rfl rfl

-- After an update the sides are stacked in the order computed if it was another one than the stored
-- one. Otherwise the update changes nothing, and they are if they were so before; that is certain
-- if the stored order was last changed by an edit that restacks.
theorem Made.paintOrder_updateOrder (h : b.Made) (m : Projection K) (strategy : OrderStrategy) :
    (b.order = some (b.corners.faceOrder m strategy) → (b.updateOrder m strategy).2 = b) ∧
    ((b.updateOrder m strategy).2.paintOrder.reverse = b.corners.faceOrder m strategy ↔
      b.order ≠ some (b.corners.faceOrder m strategy) ∨
        b.paintOrder.reverse = b.corners.faceOrder m strategy) ∧
    (∃ last, Traced b last) ∧ ∀ last, Traced b last → (∀ e ∈ last, e.storesOnly = false) →
      (b.updateOrder m strategy).2.paintOrder.reverse = b.corners.faceOrder m strategy := by
  have htop (hstacked : (b.updateOrder m strategy).2.Stacked) :
      (b.updateOrder m strategy).2.paintOrder.reverse = b.corners.faceOrder m strategy := by
    rw [(hstacked _ (order_updateOrder b m strategy)).2, List.reverse_reverse]
  refine ⟨updateOrder_of_order, ?_, h.exists_traced, fun last htraced hlast => ?_⟩
  · by_cases horder : b.order = some (b.corners.faceOrder m strategy)
    · rw [updateOrder_of_order horder]
      exact ⟨.inr, fun hpaint => hpaint.resolve_left (not_not.2 horder)⟩
    · exact iff_of_true (htop (h.stacked_updateOrder horder)) (.inl horder)
  · exact htop ((htraced.stacked hlast).updateOrder h m strategy)

-- A box that was updated, and one whose order was only stored.
def updatedInsideOut : Box Float :=
  (Box.ofCorners "b" insideOut).edited (.update insideOutView .sectorHeuristics)

def storedInsideOut : Box Float :=
  (Box.ofCorners "b" insideOut).edited (.recomputeOrder insideOutView .sectorHeuristics)

theorem paintOrder_updateOrder_insideOut : updatedInsideOut.Made ∧
    Traced updatedInsideOut (some (.update insideOutView .sectorHeuristics)) ∧
    (updatedInsideOut.updateOrder insideOutView .sectorHeuristics).2.paintOrder.reverse =
      updatedInsideOut.corners.faceOrder insideOutView .sectorHeuristics := by
  have hnew : updatedInsideOut.order ≠ (Box.ofCorners "b" insideOut).order := by
    rw [updatedInsideOut, edited, update, order_updateOrder]
    exact Option.some_ne_none _
  have htraced : Traced updatedInsideOut (some (.update insideOutView .sectorHeuristics)) :=
    .changed (.ofCorners "b" insideOut) hnew
  have hlast : ∀ e ∈ some (Edit.update insideOutView .sectorHeuristics), e.storesOnly = false :=
    fun _ he => Option.mem_some_iff.1 he ▸ rfl
  obtain ⟨-, -, -, hstacked⟩ :=
    htraced.made.paintOrder_updateOrder insideOutView .sectorHeuristics
  exact ⟨htraced.made, htraced, hstacked _ htraced hlast⟩

-- An order that was only stored is not stacked by the next update.
theorem not_all_restacked : ¬ ∀ b : Box Float, b.Made → ∀ m strategy,
    (b.updateOrder m strategy).2.paintOrder.reverse = b.corners.faceOrder m strategy := by
  intro hall
  have hmade : storedInsideOut.Made := .edited (.ofCorners "b" insideOut) _
  have hstack : (storedInsideOut.updateOrder insideOutView .sectorHeuristics).2.paintOrder.reverse ≠
      storedInsideOut.corners.faceOrder insideOutView .sectorHeuristics := by decide +kernel
  exact hstack (hall storedInsideOut hmade insideOutView .sectorHeuristics)

end Box

end PerspectiveBox
