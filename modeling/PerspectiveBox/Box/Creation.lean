import PerspectiveBox.Box.Basic
import PerspectiveBox.Projective.Line

namespace PerspectiveBox

open Scalar

-- The first click puts a corner on the ground plane, and dragging from there spans the base. Then
-- the box is extruded: the opposite corner moves along its perspective line, or freely in its
-- plane.
structure BoxCreation (K : Type) where
  -- Where the first click was.
  origin : HPoint3 K
  -- The corner of the base opposite to the origin, on screen and in space.
  base : Point K
  baseCorner : HPoint3 K
  -- The corner under the pointer, likewise.
  dragged : Point K
  draggedCorner : HPoint3 K
  extruded : Bool

namespace BoxCreation

variable {K : Type} [Scalar K]

-- The ground point under the pointer, and above it the corner that gives the box its first depth.
def spanned (m : Projection K) (p : Point K) : HPoint3 K × HPoint3 K :=
  let ground := m.preimage p 0 .z
  (ground, { ground.normalized with z := Box.initialDepth })

def start (m : Projection K) (click : Point K) : BoxCreation K :=
  let (ground, raised) := spanned m click
  ⟨ground, click, ground, click, raised, false⟩

-- From here on the depth is dragged.
def extrude (c : BoxCreation K) : BoxCreation K := { c with extruded := true }

def span (c : BoxCreation K) (m : Projection K) (pointer : Point K) : BoxCreation K :=
  let (ground, raised) := spanned m pointer
  { c with base := pointer, baseCorner := ground, dragged := pointer, draggedCorner := raised }

def deepen (c : BoxCreation K) (m : Projection K) (pointer : Point K) (free : Bool) :
    BoxCreation K :=
  let p := if free then pointer else (PerspectiveLine.through m c.base .z).line.closest pointer
  let baseCorner := c.baseCorner.normalized
  let corner := m.preimage p baseCorner.x .x
  { c with
    baseCorner := baseCorner
    dragged := p
    draggedCorner := if corner.isFinite then corner else c.draggedCorner }

-- Follows the pointer.
def drag (c : BoxCreation K) (m : Projection K) (pointer : Point K) (free : Bool) :
    BoxCreation K :=
  if c.extruded then c.deepen m pointer free else c.span m pointer

-- The box drawn so far, with its corners in canonical order.
def toBox (c : BoxCreation K) (id : String) : Box K :=
  ((Box.ofCorners id ⟨c.origin, c.draggedCorner⟩).relabel).saveCorners

end BoxCreation

end PerspectiveBox
