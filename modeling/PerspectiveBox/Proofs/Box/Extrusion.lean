import PerspectiveBox.Proofs.Box.LockedAxes
import PerspectiveBox.Proofs.Box.Relabeled
import PerspectiveBox.Proofs.Projective.Line

namespace PerspectiveBox

namespace BoxCreation

variable {K : Type}

-- What is done with the pointer after the first click.
inductive Stroke (K : Type) where
  | drag (pointer : Point K) (free : Bool)
  | extrude

def Stroke.isDrag : Stroke K → Bool
  | .drag .. => true
  | .extrude => false

-- Where the pointer was last before the box was extruded.
def lastSpan (click : Point K) : List (Stroke K) → Point K
  | .drag pointer _ :: strokes => lastSpan pointer strokes
  | .extrude :: _ => click
  | [] => click

variable [Scalar K]

def afterStroke (c : BoxCreation K) (m : Projection K) : Stroke K → BoxCreation K
  | .drag pointer free => c.drag m pointer free
  | .extrude => c.extrude

def afterStrokes (c : BoxCreation K) (m : Projection K) (strokes : List (Stroke K)) :
    BoxCreation K :=
  strokes.foldl (fun c s => c.afterStroke m s) c

def drawn (m : Projection K) (click : Point K) (strokes : List (Stroke K)) : BoxCreation K :=
  (start m click).afterStrokes m strokes

-- The drawing when its base was complete, just before it was extruded.
def baseDrawn (m : Projection K) (click : Point K) (strokes : List (Stroke K)) : BoxCreation K :=
  drawn m click (strokes.takeWhile Stroke.isDrag)

theorem gestured_afterStrokes {c : BoxCreation K} (h : c.Gestured) (m : Projection K)
    (strokes : List (Stroke K)) : (c.afterStrokes m strokes).Gestured := by
  induction strokes generalizing c with
  | nil => exact h
  | cons s strokes ih =>
    cases s with
    | drag pointer free => exact ih (h.drag m pointer free)
    | extrude => exact ih h.extrude

theorem gestured_drawn (m : Projection K) (click : Point K) (strokes : List (Stroke K)) :
    (drawn m click strokes).Gestured :=
  gestured_afterStrokes (.start m click) m strokes

section

variable (m : Projection K) {c : BoxCreation K}

theorem drag_of_extruded (h : c.extruded = true) (p : Point K) (free : Bool) :
    c.drag m p free = c.deepen m p free :=
  if_pos h

-- Before that, the base is spanned anew by every drag.
theorem drag_span (h : c.extruded = false) (p q : Point K) (free : Bool) :
    (c.span m p).drag m q free = c.span m q :=
  if_neg (ne_true_of_eq_false h)

-- So it is spanned by where the pointer was last.
theorem afterStrokes_span (h : c.extruded = false) (p : Point K) (strokes : List (Stroke K)) :
    (c.span m p).afterStrokes m (strokes.takeWhile Stroke.isDrag) =
      c.span m (lastSpan p strokes) := by
  induction strokes generalizing p with
  | nil => rfl
  | cons s strokes ih =>
    cases s with
    | extrude => rfl
    | drag q free =>
      rw [lastSpan, ← ih q, ← drag_span m h p q free]
      rfl

variable (click : Point K) (strokes : List (Stroke K))

theorem start_eq_span : start m click = (start m click).span m click := rfl

theorem baseDrawn_eq :
    baseDrawn m click strokes = (start m click).span m (lastSpan click strokes) := by
  rw [baseDrawn, drawn, start_eq_span]
  exact afterStrokes_span m rfl click strokes

theorem baseCorner_baseDrawn :
    (baseDrawn m click strokes).baseCorner = m.preimage (lastSpan click strokes) 0 .z := by
  rw [baseDrawn_eq]
  rfl

end

-- The drawings have the same base.
structure SameBase (b c : BoxCreation K) : Prop where
  origin : c.origin = b.origin
  base : c.base = b.base
  baseCorner : c.baseCorner = b.baseCorner

section SameBase

variable (hone : ((1 : K) == 1) = true) {b c : BoxCreation K} (hw : b.baseCorner.w = 1)
  (hext : c.extruded = true) (m : Projection K)
include hone hw hext

theorem SameBase.afterStroke (h : SameBase b c) (s : Stroke K) :
    SameBase b (c.afterStroke m s) ∧ (c.afterStroke m s).extruded = true := by
  cases s with
  | extrude => exact ⟨⟨h.origin, h.base, h.baseCorner⟩, rfl⟩
  | drag pointer free =>
    have hcorner : c.baseCorner.normalized = b.baseCorner := by
      rw [h.baseCorner, HPoint3.normalized_of_unit hone hw]
    rw [BoxCreation.afterStroke, drag_of_extruded m hext]
    exact ⟨⟨h.origin, h.base, hcorner⟩, hext⟩

-- Once a box is extruded its base stays.
theorem SameBase.afterStrokes (h : SameBase b c) (strokes : List (Stroke K)) :
    SameBase b (c.afterStrokes m strokes) := by
  induction strokes generalizing c with
  | nil => exact h
  | cons s strokes ih =>
    obtain ⟨hnext, hext⟩ := h.afterStroke hone hw hext m s
    exact ih hext hnext

end SameBase

theorem sameBase_drawn (hone : ((1 : K) == 1) = true) (m : Projection K) (click : Point K)
    (strokes : List (Stroke K)) : SameBase (baseDrawn m click strokes) (drawn m click strokes) := by
  suffices hspanned : ∀ (c : BoxCreation K) (p : Point K), c.extruded = false →
      SameBase (c.span m (lastSpan p strokes)) ((c.span m p).afterStrokes m strokes) by
    rw [baseDrawn_eq]
    exact hspanned (start m click) click rfl
  intro c p hext
  induction strokes generalizing p with
  | nil => exact ⟨rfl, rfl, rfl⟩
  | cons s strokes ih =>
    cases s with
    | drag q free =>
      have hnext := ih q
      rw [← drag_span m hext p q free] at hnext
      exact hnext
    | extrude =>
      have hspan : SameBase (c.span m p) (c.span m p).extrude := ⟨rfl, rfl, rfl⟩
      exact hspan.afterStrokes hone (preimage_w m p 0 .z) rfl m strokes

-- What is found where the pointer meets the perspective line of the base corner.
def pulled (c : BoxCreation K) (m : Projection K) (pointer : Point K) : HPoint3 K :=
  m.preimage ((PerspectiveLine.through m c.base .z).line.closest pointer) c.baseCorner.normalized.x
    .x

end BoxCreation

namespace Corners.AgreeOutside

variable {K : Type} [Scalar K] {axes : AxisSet} {c d : Corners K} (h : AgreeOutside axes c d)
include h

theorem corner {id id' : AxisSet} (hid : ∀ a, axes.has a = false → id'.has a = id.has a) :
    (c.corner id).AgreeOutside axes (d.corner id') where
  x hx := by
    have hsame : id'.hasX = id.hasX := hid .x hx
    simp only [Corners.corner, hsame, h.near.x hx, h.far.x hx]
  y hy := by
    have hsame : id'.hasY = id.hasY := hid .y hy
    simp only [Corners.corner, hsame, h.near.y hy, h.far.y hy]
  z hz := by
    have hsame : id'.hasZ = id.hasZ := hid .z hz
    simp only [Corners.corner, hsame, h.near.z hz, h.far.z hz]
  w := rfl

theorem has_misordered (a : Axis) (ha : axes.has a = false) :
    d.misordered.has a = c.misordered.has a := by
  cases a with
  | x => simp only [misordered, AxisSet.has, h.near.x ha, h.far.x ha]
  | y => simp only [misordered, AxisSet.has, h.near.y ha, h.far.y ha]
  | z => simp only [misordered, AxisSet.has, h.near.z ha, h.far.z ha]

-- Along each axis the corners are put in order apart from the other axes.
theorem relabeled [OrdersNumbers K] (hc : c.HasUnitWeights) (hd : d.HasUnitWeights) :
    AgreeOutside axes c.relabeled d.relabeled := by
  rw [hc.relabeled_eq, hd.relabeled_eq]
  refine ⟨h.corner h.has_misordered, h.corner fun a ha => ?_⟩
  have hsame := congrArg not (h.has_misordered a ha)
  cases a <;> exact hsame

end Corners.AgreeOutside

namespace BoxCreation

theorem toBox_eq {K : Type} [Scalar K] (hone : ((1 : K) == 1) = true) {c : BoxCreation K}
    (h : c.corners.HasUnitWeights) (id : String) :
    c.toBox id = .ofCorners id c.corners.relabeled := by
  have hnormal := (h.relabeled hone).normalized_eq hone
  have hbox : c.toBox id = { Box.ofCorners id c.corners.relabeled with
    corners := c.corners.relabeled.normalized, saved := c.corners.relabeled.normalized } := rfl
  rw [hbox, hnormal]
  rfl

end BoxCreation

end PerspectiveBox
