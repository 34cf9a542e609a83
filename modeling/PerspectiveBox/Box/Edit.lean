import PerspectiveBox.Box.Drag

namespace PerspectiveBox

namespace Box

inductive Edit (K : Type) where
  | setNear (p : HPoint3 K)
  | setFar (p : HPoint3 K)
  | relabel
  | saveCorners
  | cancelDrag
  | dragCorner (map : Projection K) (id : Nat) (pointer : Point K) (movement : AxisSet)
      (constrained : Bool) (session : DragSession K)
  | dragCenter (map : Projection K) (pointer grip : Point K) (movement : AxisSet)
      (constrained : Bool) (session : DragSession K)
  | setStyle (slot : Nat) (style : Option String)
  -- Redraws the side in a slot, possibly for other corners than those of the box.
  | redrawSide (slot : Nat) (corners : Corners K) (map : Projection K)
  | redraw (map : Projection K)
  | recomputeOrder (map : Projection K) (strategy : OrderStrategy)
  | updateOrder (map : Projection K) (strategy : OrderStrategy)
  | update (map : Projection K) (strategy : OrderStrategy)

variable {K : Type} [Scalar K]

-- The box after a drag. A drag that is refused moves nothing.
def afterDrag (b : Box K) : Except SceneError (Box K × DragSession K) → Box K
  | .ok (moved, _) => moved
  | .error _ => b

def edited (b : Box K) : Edit K → Box K
  | .setNear p => b.setNear p
  | .setFar p => b.setFar p
  | .relabel => b.relabel
  | .saveCorners => b.saveCorners
  | .cancelDrag => b.cancelDrag
  | .dragCorner map id pointer movement constrained session =>
    b.afterDrag (b.dragCorner map id pointer movement constrained session)
  | .dragCenter map pointer grip movement constrained session =>
    b.afterDrag (b.dragCenter map pointer grip movement constrained session)
  | .setStyle slot style => b.setStyle slot style
  | .redrawSide slot corners map =>
    { b with sides := b.sides.map fun s => if s.slot = slot then s.redrawn corners map else s }
  | .redraw map => b.redraw map
  | .recomputeOrder map strategy => (b.recomputeOrder map strategy).2
  | .updateOrder map strategy => (b.updateOrder map strategy).2
  | .update map strategy => b.update map strategy

omit [Scalar K] in
theorem afterDrag_of_corners {b : Box K} {r : Except SceneError (Box K × DragSession K)}
    (h : ∀ moved next, r = .ok (moved, next) → moved = { b with corners := moved.corners }) :
    b.afterDrag r = { b with corners := (b.afterDrag r).corners } := by
  cases r with
  | ok r => exact h r.1 r.2 rfl
  | error e => rfl

theorem edited_link (b : Box K) (e : Edit K) :
    (b.edited e).id = b.id ∧ (b.edited e).link = b.link := by
  cases e with
  | dragCorner =>
    rw [edited, afterDrag_of_corners fun _ _ h => eq_of_dragCorner h]
    exact ⟨rfl, rfl⟩
  | dragCenter =>
    rw [edited, afterDrag_of_corners fun _ _ h => eq_of_dragCenter h]
    exact ⟨rfl, rfl⟩
  | recomputeOrder => simp only [edited, recomputeOrder]; split <;> exact ⟨rfl, rfl⟩
  | updateOrder => simp only [edited, updateOrder]; split <;> exact ⟨rfl, rfl⟩
  | update => simp only [edited, update, updateOrder]; split <;> exact ⟨rfl, rfl⟩
  | _ => exact ⟨rfl, rfl⟩

end Box

end PerspectiveBox
