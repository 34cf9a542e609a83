import PerspectiveBox.Proofs.Box.Stack
import PerspectiveBox.Proofs.Scene.Reachable

namespace PerspectiveBox

variable {K : Type}

-- The corners of a box that is being drawn.
def BoxCreation.corners (c : BoxCreation K) : Corners K := ⟨c.origin, c.draggedCorner⟩

variable [Scalar K]

namespace Box

-- A box that began with corners of a kind, and what became of it. The projection is none from
-- when it is linked anew or its corners are moved until it is redrawn.
inductive Drawn (P : Corners K → Prop) : Box K → Option (Projection K) → Prop where
  | ofCorners (id : String) {corners : Corners K} (h : P corners) :
      Drawn P (.ofCorners id corners) none
  | created (id : String) {creation : BoxCreation K} (h : P creation.corners) :
      Drawn P (creation.toBox id) none
  | styled {b : Box K} (h : Drawn P b none) (slot : Nat) (style : Option String) :
      Drawn P (b.setStyle slot style) none
  | linked {b : Box K} {shown : Option (Projection K)} (h : Drawn P b shown) (link : Link) :
      Drawn P { b with link := link } none
  | redrawn {b : Box K} {shown : Option (Projection K)} (h : Drawn P b shown)
      (m : Projection K) : Drawn P (b.redraw m) m
  | reordered {b : Box K} {shown : Option (Projection K)} (h : Drawn P b shown)
      (m : Projection K) (strategy : OrderStrategy) : Drawn P (b.updateOrder m strategy).2 shown
  | saved {b : Box K} {shown : Option (Projection K)} (h : Drawn P b shown) :
      Drawn P b.saveCorners shown
  | cancelled {b : Box K} {shown : Option (Projection K)} (h : Drawn P b shown) :
      Drawn P b.cancelDrag none
  | cornerDragged {b moved : Box K} {shown : Option (Projection K)} (h : Drawn P b shown)
      {m : Projection K} {id : Nat} {pointer : Point K} {movement : AxisSet} {constrained : Bool}
      {session next : DragSession K}
      (hdrag : b.dragCorner m id pointer movement constrained session = .ok (moved, next)) :
      Drawn P moved none
  | centerDragged {b moved : Box K} {shown : Option (Projection K)} (h : Drawn P b shown)
      {m : Projection K} {pointer grip : Point K} {movement : AxisSet} {constrained : Bool}
      {session next : DragSession K}
      (hdrag : b.dragCenter m pointer grip movement constrained session = .ok (moved, next)) :
      Drawn P moved none

variable {P : Corners K → Prop} {b : Box K} {shown : Option (Projection K)}

theorem Drawn.forget (h : Drawn P b shown) : Drawn P b none := h.linked b.link

theorem Drawn.updated (h : Drawn P b shown) (m : Projection K) (strategy : OrderStrategy) :
    Drawn P (b.update m strategy) m :=
  (h.redrawn m).reordered m strategy

theorem Drawn.refreshed (h : Drawn P b shown) (m : Projection K) (strategy : OrderStrategy) :
    Drawn P (b.refresh m strategy) m :=
  h.saved.updated m strategy

theorem Drawn.made (h : Drawn P b shown) : b.Made := by
  induction h with
  | ofCorners id _ => exact .ofCorners id _
  | created id _ => exact .edited (.edited (.ofCorners id _) .relabel) .saveCorners
  | styled _ slot style ih => exact ih.edited (.setStyle slot style)
  | linked _ link ih => exact ih.linked link
  | redrawn _ m ih => exact ih.edited (.redraw m)
  | reordered _ m strategy ih => exact ih.edited (.updateOrder m strategy)
  | saved _ ih => exact ih.edited .saveCorners
  | cancelled _ ih => exact ih.edited .cancelDrag
  | cornerDragged _ hdrag ih => exact edited_dragCorner hdrag ▸ ih.edited (.dragCorner ..)
  | centerDragged _ hdrag ih => exact edited_dragCenter hdrag ▸ ih.edited (.dragCenter ..)

omit [Scalar K] in
theorem paintOrder_setStyle (b : Box K) (slot : Nat) (style : Option String) :
    (b.setStyle slot style).paintOrder = b.paintOrder := by
  simp only [paintOrder, setStyle, List.map_map]
  refine List.map_congr_left fun s _ => ?_
  simp only [Function.comp]
  split <;> rfl

theorem Drawn.stacked (h : Drawn P b shown) : b.Stacked := by
  induction h with
  | ofCorners => nofun
  | created => nofun
  | styled _ slot style ih => exact ih.congr rfl (paintOrder_setStyle _ slot style)
  | linked _ _ ih => exact ih.congr rfl rfl
  | redrawn _ m ih => exact ih.redraw m
  | reordered h m strategy ih => exact ih.updateOrder h.made m strategy
  | saved _ ih => exact ih.congr rfl rfl
  | cancelled _ ih => exact ih.congr rfl rfl
  | cornerDragged _ hdrag ih =>
    rw [eq_of_dragCorner hdrag]
    exact ih.congr rfl rfl
  | centerDragged _ hdrag ih =>
    rw [eq_of_dragCenter hdrag]
    exact ih.congr rfl rfl

-- Every side of which there is a shape in the projection has that shape.
def Shows (b : Box K) (m : Projection K) : Prop :=
  ∀ s ∈ b.sides, ∀ path, s.shape b.corners m = .ok path → s.path = some path

end Box

theorem Side.shape?_of_shape {s : Side K} {c : Corners K} {m : Projection K} {path : SidePath K}
    (h : s.shape c m = .ok path) : s.shape? c m = some path := by
  rw [shape] at h
  cases hshape : s.shape? c m with
  | none =>
    rw [hshape] at h
    cases h
  | some other =>
    rw [hshape] at h
    cases h
    rfl

namespace Box

theorem shows_redraw (b : Box K) (m : Projection K) : (b.redraw m).Shows m := by
  intro s hs path hshape
  obtain ⟨t, -, rfl⟩ := List.mem_map.1 hs
  have ht : t.shape? b.corners m = some path := Side.shape?_of_shape hshape
  rw [Side.redrawn, ht]
  rfl

-- Restacking keeps the sides as they are.
theorem Shows.updateOrder {b : Box K} {m : Projection K} (h : b.Shows m) (n : Projection K)
    (strategy : OrderStrategy) : (b.updateOrder n strategy).2.Shows m := by
  intro s hs path hshape
  rw [corners_updateOrder] at hshape
  exact h s ((sides_updateOrder_perm b n strategy).mem_iff.1 hs) path hshape

end Box

def Corners.HasUnitWeights (c : Corners K) : Prop := c.near.w = 1 ∧ c.far.w = 1

section UnitWeights

-- One is equal to itself, as a double and as an exact number.
variable (hone : ((1 : K) == 1) = true)

include hone

theorem HPoint3.normalized_of_unit {p : HPoint3 K} (h : p.w = 1) : p.normalized = p := by
  rw [normalized, normalize?, h]
  simp only [hone, if_true]
  split <;> rfl

theorem Corners.HasUnitWeights.normalized_eq {c : Corners K} (h : c.HasUnitWeights) :
    c.normalized = c := by
  rw [normalized, HPoint3.normalized_of_unit hone h.1, HPoint3.normalized_of_unit hone h.2]

theorem Corners.HasUnitWeights.ordered {c : Corners K} (h : c.HasUnitWeights) (axis : Axis)
    (nearSmaller : Bool) : (c.ordered axis nearSmaller).HasUnitWeights := by
  rw [Corners.ordered, h.normalized_eq hone]
  split
  · exact h
  · cases axis <;> exact h

theorem Corners.HasUnitWeights.relabeled {c : Corners K} (h : c.HasUnitWeights) :
    c.relabeled.HasUnitWeights :=
  ((h.ordered hone .x false).ordered hone .y false).ordered hone .z true

omit hone in
-- A drag moves the corners to points of weight one, if it moves them at all.
private theorem unit_getD {c : Corners K} (h : c.HasUnitWeights) (p : Option (HPoint3 K))
    {moved : HPoint3 K → Corners K} (hmoved : ∀ p, (moved p).HasUnitWeights) :
    ((p.map moved).getD c).HasUnitWeights := by
  cases p with
  | none => exact h
  | some p => exact hmoved p

theorem Corners.HasUnitWeights.dragCorner {b moved : Box K} (h : b.corners.HasUnitWeights)
    {m : Projection K} {id : Nat} {pointer : Point K} {movement : AxisSet} {constrained : Bool}
    {session next : DragSession K}
    (hdrag : b.dragCorner m id pointer movement constrained session = .ok (moved, next)) :
    moved.corners.HasUnitWeights := by
  unfold Box.dragCorner at hdrag
  simp only [bind, Except.bind, h.normalized_eq hone] at hdrag
  split at hdrag
  · cases hdrag
  · split at hdrag
    · cases hdrag
    · cases hdrag
      simp only
      split
      · exact unit_getD h _ fun _ => ⟨rfl, rfl⟩
      · exact unit_getD h _ fun _ => ⟨rfl, rfl⟩

omit hone in
theorem Corners.HasUnitWeights.dragCenter {b moved : Box K} (h : b.corners.HasUnitWeights)
    {m : Projection K} {pointer grip : Point K} {movement : AxisSet} {constrained : Bool}
    {session next : DragSession K}
    (hdrag : b.dragCenter m pointer grip movement constrained session = .ok (moved, next)) :
    moved.corners.HasUnitWeights := by
  unfold Box.dragCenter at hdrag
  simp only [bind, Except.bind] at hdrag
  split at hdrag
  · cases hdrag
  · cases hdrag
    simp only
    split
    · exact unit_getD h _ fun _ => ⟨rfl, rfl⟩
    · exact unit_getD h _ fun _ => ⟨rfl, rfl⟩

namespace Box

variable {b : Box K} {shown : Option (Projection K)}

theorem Drawn.unit (h : Drawn Corners.HasUnitWeights b shown) :
    b.corners.HasUnitWeights ∧ b.saved.HasUnitWeights := by
  induction h with
  | ofCorners _ h => exact ⟨h, h⟩
  | created _ h =>
    have hsaved := h.relabeled hone
    rw [← hsaved.normalized_eq hone] at hsaved
    exact ⟨hsaved, hsaved⟩
  | styled _ _ _ ih => exact ih
  | linked _ _ ih => exact ih
  | redrawn _ _ ih => exact ih
  | reordered _ m strategy ih =>
    simp only [updateOrder]
    split <;> exact ih
  | saved _ ih =>
    have hsaved := ih.1
    rw [← hsaved.normalized_eq hone] at hsaved
    exact ⟨hsaved, hsaved⟩
  | cancelled _ ih => exact ⟨ih.2, ih.2⟩
  | cornerDragged _ hdrag ih =>
    refine ⟨ih.1.dragCorner hone hdrag, ?_⟩
    rw [eq_of_dragCorner hdrag]
    exact ih.2
  | centerDragged _ hdrag ih =>
    refine ⟨ih.1.dragCenter hdrag, ?_⟩
    rw [eq_of_dragCenter hdrag]
    exact ih.2

-- Normalizing does not move the corners, so a box keeps showing itself when they are saved.
theorem Drawn.shows (h : Drawn Corners.HasUnitWeights b shown) {m : Projection K}
    (hm : shown = some m) : b.Shows m := by
  induction h with
  | redrawn _ n =>
    obtain rfl := Option.some.inj hm
    exact shows_redraw _ _
  | reordered _ n strategy ih => exact (ih hm).updateOrder n strategy
  | @saved b _ h ih =>
    have hcorners : b.saveCorners.corners = b.corners := (h.unit hone).1.normalized_eq hone
    intro s hs path hshape
    rw [hcorners] at hshape
    exact ih hm s hs path hshape
  | _ => cases hm

end Box

end UnitWeights

namespace BoxCreation

-- The ways in which a new box is drawn with the pointer.
inductive Gestured : BoxCreation K → Prop where
  | start (m : Projection K) (click : Point K) : Gestured (.start m click)
  | drag {c : BoxCreation K} (h : Gestured c) (m : Projection K) (pointer : Point K)
      (free : Bool) : Gestured (c.drag m pointer free)
  | extrude {c : BoxCreation K} (h : Gestured c) : Gestured c.extrude

theorem preimage_w (m : Projection K) (p : Point K) (value : K) (axis : Axis) :
    (m.preimage p value axis).w = 1 := by
  rw [Projection.preimage]
  cases h : m.preimage? p value axis with
  | none => rfl
  | some q =>
    cases axis <;>
    · obtain ⟨_, _, rfl⟩ := Option.map_eq_some_iff.1 h
      rfl

-- Every point that is found under the pointer has weight one.
theorem Gestured.unit (hone : ((1 : K) == 1) = true) {c : BoxCreation K} (h : c.Gestured) :
    c.corners.HasUnitWeights := by
  have hraised (m : Projection K) (p : Point K) : (spanned m p).2.w = 1 := by
    have hground := preimage_w m p 0 .z
    simp only [spanned, HPoint3.normalized_of_unit hone hground]
    exact hground
  induction h with
  | start m click => exact ⟨preimage_w m click 0 .z, hraised m click⟩
  | @drag c _ m pointer free ih =>
    rw [BoxCreation.drag]
    split
    · -- A pointer that is over no point leaves the corner where it is.
      have hcorner (p : Point K) (x : K) :
          (if (m.preimage p x .x).isFinite then m.preimage p x .x else c.draggedCorner).w = 1 := by
        split
        · exact preimage_w m p x .x
        · exact ih.2
      exact ⟨ih.1, hcorner _ _⟩
    · exact ⟨ih.1, hraised m pointer⟩
  | extrude _ ih => exact ih

end BoxCreation

end PerspectiveBox
