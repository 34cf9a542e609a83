import PerspectiveBox.Document.Element
import PerspectiveBox.Projective.Coordinates
import PerspectiveBox.Scene.Attachment

namespace PerspectiveBox

variable {K : Type} [Scalar K] [Numeric K]

namespace PerspectiveElement

def column? (text : Option String) : Option (HPoint2 K) := do
  (HPoint2.ofText (← text)).toOption

-- The projection of a perspective, if all four columns can be read.
def projection? (e : PerspectiveElement) : Option (Projection K) := do
  return ⟨← column? e.vpX, ← column? e.vpY, ← column? e.vpZ, ← column? e.origin⟩

def ofPerspective (p : Perspective K) : PerspectiveElement where
  id := p.id
  vpX := p.map.vpX.text
  vpY := p.map.vpY.text
  vpZ := p.map.vpZ.text
  origin := p.map.origin.text

end PerspectiveElement

namespace BoxElement

-- A corner. It is unset if there is no text for it or none that can be read, and also if all
-- coordinates are zero.
def corner (text : Option String) : HPoint3 K :=
  match text.map HPoint3.ofText with
  | some (.ok p) => if p == ⟨0, 0, 0, 0⟩ then .nowhere else p
  | _ => .nowhere

def styled (b : Box K) (e : SideElement) : Box K :=
  match Face.ofCode? e.code.toInt with
  | some f => b.setStyle f.slot e.style
  | none => b

-- A box with the styles of its sides. Sides without a face are passed over.
def toBox (e : BoxElement) : Box K :=
  e.sides.foldl styled (.ofCorners e.id ⟨corner e.corner0, corner e.corner7⟩)

def ofCorner (p : HPoint3 K) : Option String :=
  if p.isFinite then some p.normalized.text else none

def ofSide (s : Side K) : SideElement := ⟨.ofNat s.face.code, s.pathData?, s.style⟩

def ofBox (b : Box K) (href : Option String) : BoxElement where
  id := b.id
  perspective := href
  corner0 := ofCorner b.corners.near
  corner7 := ofCorner b.corners.far
  sides := b.sides.map ofSide

end BoxElement

namespace Document

def perspectives (d : Document) : List PerspectiveElement :=
  d.elements.filterMap fun
    | .perspective e => some e
    | _ => none

def boxes (d : Document) : List BoxElement :=
  d.elements.filterMap fun
    | .box e => some e
    | _ => none

end Document

namespace Scene

-- Of several perspectives with one id, the first that can be read is loaded.
def loadPerspective (s : Scene K) (e : PerspectiveElement) : Scene K :=
  match s.findPerspective e.id, (e.projection? : Option (Projection K)) with
  | none, some map => (s.insertPerspective ⟨e.id, map, []⟩).2
  | _, _ => s

-- A box that is in a perspective and has both corners is brought up to date.
def loadBox (e : BoxElement) : SceneM K Unit := do
  let key ← modifyGet fun s => s.insertBox e.toBox
  setHref key e.perspective
  let b ← box key
  if b.link.isAttached && b.corners.areFinite then updateBox key

-- Loading fails on the settings only. Perspectives are loaded before boxes, so it does not matter
-- where in the document they stand.
def ofDocument (d : Document) (settings : Settings K) : Except SceneError (Scene K) := do
  let s := d.perspectives.foldl loadPerspective (← withSettings settings)
  match (d.boxes.forM loadBox).run s with
  | .ok _ s => return s
  | .error e _ => throw e

-- Normalizes the corners of all boxes that have both.
def saveBoxes (s : Scene K) : Scene K :=
  s.modifyBoxes s.boxes.keys fun b => if b.corners.areFinite then b.saveCorners else b

-- The perspectives first, then the boxes.
def toDocument (s : Scene K) : Document where
  elements :=
    (s.perspectives.values.map fun p => .perspective (.ofPerspective p)) ++
      s.boxes.values.map fun b => .box (.ofBox b (s.hrefForWrite b))

def write (s : Scene K) : Document × Scene K :=
  let s := s.saveBoxes
  (s.toDocument, s)

end Scene

end PerspectiveBox
