import PerspectiveBox.Proofs.Box.Extrusion
import PerspectiveBox.Proofs.Box.UnderPointer

namespace PerspectiveBox

namespace BoxCreation

-- What is looked up under the pointer: the dragged corner, or the base corner below it.
def sought {K : Type} [Scalar K] (c : BoxCreation K) (m : Projection K) (pointer : Point K)
    (free : Bool) : HPoint3 K :=
  if c.extruded then
    if free then m.preimage pointer c.baseCorner.normalized.x .x else c.pulled m pointer
  else m.preimage pointer 0 .z

-- While a box is extruded, its corner follows to what is found and to nothing else.
theorem draggedCorner_drag_of_extruded {K : Type} [Scalar K] {c : BoxCreation K}
    (hext : c.extruded = true) (m : Projection K) (pointer : Point K) (free : Bool) :
    (c.drag m pointer free).draggedCorner =
      if (c.sought m pointer free).isFinite then c.sought m pointer free
      else c.draggedCorner := by
  rw [drag_of_extruded m hext, sought, if_pos hext]
  cases free <;> rfl

-- What becomes of the dragged corner where no point of the ground is found.
def lost : HPoint3 Exact := HPoint3.nowhere.set .z Box.initialDepth

theorem spanned_eq (m : Projection Exact) (p : Point Exact) :
    (spanned m p).2 = (m.preimage p 0 .z).set .z Box.initialDepth := by
  rw [← HPoint3.normalized_of_unit OrdersNumbers.isNumber_one (preimage_w m p 0 .z)]
  rfl

theorem spanned_of_lost {m : Projection Exact} {p : Point Exact}
    (h : (m.preimage p 0 .z).isFinite = false) : (spanned m p).2 = lost := by
  have hnowhere : m.preimage p 0 .z = .nowhere := Projection.preimage_eq_nowhere h
  rw [spanned_eq, hnowhere, lost]

theorem isFinite_spanned (m : Projection Exact) (p : Point Exact) :
    (spanned m p).2.isFinite = (m.preimage p 0 .z).isFinite := by
  cases h : (m.preimage p 0 .z).isFinite with
  | false =>
    rw [spanned_of_lost h]
    rfl
  | true =>
    have hw := preimage_w m p 0 .z
    rw [spanned_eq]
    obtain ⟨q, hq⟩ := HPoint3.exists_exact_of_isFinite h
    rw [hq] at hw ⊢
    exact HPoint3.isFinite_exact (p := q.set .z 0.25) (Exact.rational.inj hw)

-- The base corner was looked up on the ground. The corner above it is there if the base corner is.
structure Grounded (m : Projection Exact) (c : BoxCreation Exact) : Prop where
  found : c.baseCorner = m.preimage c.base 0 .z
  finite : c.draggedCorner.isFinite = c.baseCorner.isFinite
  lost : c.draggedCorner.isFinite = false → c.draggedCorner = lost

namespace Grounded

variable {m : Projection Exact} {c : BoxCreation Exact}

theorem span (m : Projection Exact) (c : BoxCreation Exact) (p : Point Exact) :
    Grounded m (c.span m p) :=
  ⟨rfl, isFinite_spanned m p, fun h => spanned_of_lost ((isFinite_spanned m p).symm.trans h)⟩

theorem normalized_eq (h : Grounded m c) : c.baseCorner.normalized = c.baseCorner := by
  rw [h.found]
  exact HPoint3.normalized_of_unit OrdersNumbers.isNumber_one (preimage_w m c.base 0 .z)

-- Without a base corner there is no plane in which the pointer could be looked up.
theorem isFinite_of_sought (h : Grounded m c) (hext : c.extruded = true) {pointer : Point Exact}
    {free : Bool} (hsought : (c.sought m pointer free).isFinite = true) :
    c.baseCorner.isFinite = true := by
  have hx : c.baseCorner.normalized.x.IsRational := by
    rw [sought, if_pos hext] at hsought
    cases free with
    | true => exact (Projection.exists_exact_of_preimage hsought).2.2
    | false => exact (Projection.exists_exact_of_preimage hsought).2.2
  obtain ⟨x, hx⟩ := hx
  by_contra hlost
  rw [h.found, Bool.not_eq_true] at hlost
  have hnowhere : m.preimage c.base 0 .z = .nowhere := Projection.preimage_eq_nowhere hlost
  rw [h.normalized_eq, h.found, hnowhere] at hx
  cases hx

theorem drag (h : Grounded m c) (pointer : Point Exact) (free : Bool) :
    Grounded m (c.drag m pointer free) := by
  cases hext : c.extruded with
  | false =>
    rw [BoxCreation.drag, hext]
    exact .span m c pointer
  | true =>
    have hbase : (c.drag m pointer free).base = c.base := by rw [drag_of_extruded m hext]; rfl
    have hcorner : (c.drag m pointer free).baseCorner = c.baseCorner := by
      rw [drag_of_extruded m hext]
      exact h.normalized_eq
    have hdragged := draggedCorner_drag_of_extruded hext m pointer free
    cases hsought : (c.sought m pointer free).isFinite with
    | true =>
      rw [if_pos hsought] at hdragged
      refine ⟨by rw [hcorner, hbase, h.found], ?_, fun hlost => ?_⟩
      · rw [hcorner, hdragged, hsought, h.isFinite_of_sought hext hsought]
      · rw [hdragged, hsought] at hlost
        cases hlost
    | false =>
      rw [if_neg (ne_true_of_eq_false hsought)] at hdragged
      refine ⟨by rw [hcorner, hbase, h.found], ?_, ?_⟩
      · rw [hcorner, hdragged, h.finite]
      · rw [hdragged]
        exact h.lost

theorem afterStrokes (h : Grounded m c) (strokes : List (Stroke Exact)) :
    Grounded m (c.afterStrokes m strokes) := by
  induction strokes generalizing c with
  | nil => exact h
  | cons s strokes ih =>
    cases s with
    | drag pointer free => exact ih (h.drag pointer free)
    | extrude => exact ih ⟨h.found, h.finite, h.lost⟩

theorem drawn (m : Projection Exact) (click : Point Exact) (strokes : List (Stroke Exact)) :
    Grounded m (drawn m click strokes) :=
  (span m (start m click) click).afterStrokes strokes

end Grounded

section

variable (m : Projection Exact) (click : Point Exact) (strokes : List (Stroke Exact))

-- The corner is there if the base was found where the pointer was last before the box was
-- extruded.
theorem isFinite_draggedCorner_drawn : (drawn m click strokes).draggedCorner.isFinite =
    (m.preimage (lastSpan click strokes) 0 .z).isFinite := by
  have hsame := sameBase_drawn OrdersNumbers.isNumber_one m click strokes
  rw [(Grounded.drawn m click strokes).finite, hsame.baseCorner, baseCorner_baseDrawn]

theorem origin_drawn : (drawn m click strokes).origin = m.preimage click 0 .z := by
  have hsame := sameBase_drawn OrdersNumbers.isNumber_one m click strokes
  rw [hsame.origin, baseDrawn_eq]
  rfl

theorem areFinite_toBox (id : String) : ((drawn m click strokes).toBox id).corners.areFinite =
    ((m.preimage click 0 .z).isFinite && (m.preimage (lastSpan click strokes) 0 .z).isFinite) := by
  have hunit : (drawn m click strokes).corners.HasUnitWeights :=
    (gestured_drawn m click strokes).unit OrdersNumbers.isNumber_one
  have hbox : ((drawn m click strokes).toBox id).corners =
      (drawn m click strokes).corners.relabeled := by
    rw [toBox_eq OrdersNumbers.isNumber_one hunit]
    rfl
  rw [hbox, hunit.areFinite_relabeled, Corners.areFinite, corners, origin_drawn,
    isFinite_draggedCorner_drawn]

end

-- A box drawn from a point of the ground has both corners exactly if the place where its base was
-- spanned last shows one, too. A motion to which nothing corresponds leaves the corner of a box
-- that is extruded, and takes that of a base that is being spanned.
theorem areFinite_toBox_iff {m : Projection Exact} {click : Point Exact}
    (hclick : (m.preimage click 0 .z).isFinite = true) (strokes : List (Stroke Exact)) :
    (∀ id, ((drawn m click strokes).toBox id).corners.areFinite = true ↔
      (m.preimage (lastSpan click strokes) 0 .z).isFinite = true) ∧
    ∀ pointer free, ((drawn m click strokes).sought m pointer free).isFinite = false →
      (((drawn m click strokes).drag m pointer free).draggedCorner =
          (drawn m click strokes).draggedCorner ↔
        (drawn m click strokes).extruded = true ∨
          (m.preimage (lastSpan click strokes) 0 .z).isFinite = false) := by
  refine ⟨fun id => by rw [areFinite_toBox, hclick, Bool.true_and], fun pointer free hlost => ?_⟩
  rw [← isFinite_draggedCorner_drawn]
  cases hext : (drawn m click strokes).extruded with
  | true =>
    rw [draggedCorner_drag_of_extruded hext, if_neg (ne_true_of_eq_false hlost)]
    exact iff_of_true rfl (.inl rfl)
  | false =>
    have hspan : ((drawn m click strokes).drag m pointer free).draggedCorner = lost := by
      rw [sought, hext] at hlost
      rw [BoxCreation.drag, hext]
      exact spanned_of_lost hlost
    rw [hspan]
    constructor
    · intro hsame
      rw [← hsame]
      exact .inr rfl
    · rintro (h | h)
      · cases h
      · exact ((Grounded.drawn m click strokes).lost h).symm

-- Lines along x lead to a point on the left edge, which is the horizon of the ground.
def page : Projection Rat := ⟨⟨0, 4, 1⟩, ⟨0, 8, 0⟩, ⟨8, 4, 1⟩, ⟨4, 2, 1⟩⟩

def pageStrokes : List (Stroke Exact) :=
  [.drag (Point.exact ⟨1, 5⟩) false, .extrude, .drag (Point.exact ⟨2, 5⟩) true]

-- To the right edge, where no point of the plane of the corner appears, the corner does not follow.
theorem areFinite_toBox_page :
    (page.exact.preimage (Point.exact ⟨2, 4⟩) 0 .z).isFinite = true ∧
    ((drawn page.exact (Point.exact ⟨2, 4⟩) pageStrokes).sought page.exact (Point.exact ⟨8, 5⟩)
      true).isFinite = false ∧
    ((drawn page.exact (Point.exact ⟨2, 4⟩) pageStrokes).toBox "box").corners.areFinite = true ∧
    ((drawn page.exact (Point.exact ⟨2, 4⟩) pageStrokes).drag page.exact (Point.exact ⟨8, 5⟩)
      true).draggedCorner = (drawn page.exact (Point.exact ⟨2, 4⟩) pageStrokes).draggedCorner := by
  have hclick : (page.exact.preimage (Point.exact ⟨2, 4⟩) 0 .z).isFinite = true := by
    decide +kernel
  have hbase : (page.exact.preimage (lastSpan (Point.exact ⟨2, 4⟩) pageStrokes) 0 .z).isFinite =
      true := by
    decide +kernel
  have hlost : ((drawn page.exact (Point.exact ⟨2, 4⟩) pageStrokes).sought page.exact
      (Point.exact ⟨8, 5⟩) true).isFinite = false := by
    decide +kernel
  obtain ⟨hfinite, hkept⟩ := areFinite_toBox_iff hclick pageStrokes
  exact ⟨hclick, hlost, (hfinite "box").2 hbase, (hkept _ true hlost).2 (.inl rfl)⟩

-- At the left edge a base loses its corner.
theorem not_areFinite_page :
    (page.exact.preimage (Point.exact ⟨2, 4⟩) 0 .z).isFinite = true ∧
    (Point.exact ⟨0, 5⟩).isFinite = true ∧
    ((drawn page.exact (Point.exact ⟨2, 4⟩)
      [.drag (Point.exact ⟨1, 5⟩) false]).toBox "box").corners.areFinite = true ∧
    ((drawn page.exact (Point.exact ⟨2, 4⟩)
      [.drag (Point.exact ⟨1, 5⟩) false, .drag (Point.exact ⟨0, 5⟩) false]).toBox
        "box").corners.areFinite = false := by
  decide +kernel

end BoxCreation

end PerspectiveBox
