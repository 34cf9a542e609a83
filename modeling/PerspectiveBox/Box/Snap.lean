import PerspectiveBox.Box.Corners
import PerspectiveBox.Plane.Line
import PerspectiveBox.Settings.Basic

namespace PerspectiveBox

open Scalar

inductive SnapTarget where
  | corner (id : AxisSet)
  | center
  deriving DecidableEq, Repr

-- What a drag remembers from one motion to the next: the index of the line taken last.
structure DragSession (K : Type) where
  lastLine : Nat
  threshold : K
  zoom : K

variable {K : Type} [Scalar K]

namespace DragSession

def start (s : Settings K) : DragSession K := ⟨0, s.snapThreshold, s.zoom⟩

def default : DragSession K := start .default

end DragSession

namespace Snap

-- The construction lines on screen through a start point. The extent is that of the saved box. A
-- corner has the diagonal to its opposite in the plane: the main one when its x and y are of the
-- same corner.
def lines (m : Projection K) (saved : Corners K) (target : SnapTarget) (start : HPoint3 K) :
    List (Line K) :=
  let dx := saved.far.x - saved.near.x
  let dy := saved.far.y - saved.near.y
  let screen (x y : K) := m.screen ⟨x, y, start.z, 1⟩
  let a := screen start.x start.y
  let alongX := Line.through a (screen (start.x + dx) start.y)
  let alongY := Line.through a (screen start.x (start.y + dy))
  let mainDiagonal := Line.through a (screen (start.x + dx) (start.y + dy))
  let otherDiagonal := Line.through a (screen (start.x - dx) (start.y + dy))
  match target with
  | .corner id => [alongX, alongY, if id.hasX = id.hasY then mainDiagonal else otherDiagonal]
  | .center => [alongX, alongY, mainDiagonal, otherDiagonal]

-- The index of the smallest of some lengths, the first of equal ones. What is not below infinity
-- does not count, and if nothing counts the index is zero.
def nearest (lengths : List (Length K)) : Nat :=
  (lengths.zipIdx.foldl
    (fun best candidate => if lengthLT candidate.1 best.1 then candidate else best)
    (lengthOf infinity, 0)).2

-- The line to take at these distances: the last one as long as all lines are within the
-- threshold, and the nearest otherwise.
def choose (session : DragSession K) (distances : List (Length K)) : Nat :=
  if distances.all (lengthLE · (lengthOf session.threshold)) &&
      session.lastLine < distances.length then
    session.lastLine
  else nearest distances

end Snap

open Snap in
-- The dragged point pulled to a construction line, in the plane of the start point. A point
-- without an image is left alone.
def Projection.snap (m : Projection K) (saved : Corners K) (target : SnapTarget)
    (dragged start : HPoint3 K) (session : DragSession K) : HPoint3 K × DragSession K :=
  let pointer := m.screen dragged
  if pointer.isFinite then
    let snapped := (lines m saved target start).map fun l => l.closest pointer
    let distances := snapped.map fun s => scaleLength (s - pointer).length session.zoom
    let index := choose session distances
    (m.preimage (snapped[index]?.getD pointer) start.z .z, { session with lastLine := index })
  else (dragged, session)

end PerspectiveBox
