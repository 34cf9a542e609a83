import PerspectiveBox.Scene.Display

namespace PerspectiveBox

variable {K : Type} [Scalar K]

namespace Scene

-- A change of a vanishing point, which tells whether it took place.
def changeVp (p : PerspectiveKey) (change : Perspective K → Bool × Perspective K) :
    SceneM K Bool := do
  let (changed, new) := change (← perspective p)
  modify fun s => s.modifyPerspective p fun _ => new
  if changed then refreshBoxes p
  return changed

def toggleVp (p : PerspectiveKey) (c : Coord) : SceneM K Bool := changeVp p fun p => p.toggle c

-- Toggles a vanishing point of several perspectives, one after the other.
def toggleVps (ps : List PerspectiveKey) (c : Coord) : SceneM K Unit :=
  ps.forM fun p => do
    let _ ← toggleVp p c

def setVpState (p : PerspectiveKey) (c : Coord) (state : VpState) : SceneM K Bool :=
  changeVp p fun p => p.setState c state

def rotateVp (p : PerspectiveKey) (c : Coord) (angle : K) (fine : Bool) : SceneM K Bool :=
  changeVp p fun p => p.rotate c angle fine

-- The boxes are redrawn but keep their face order.
def setVp (p : PerspectiveKey) (c : Coord) (vp : HPoint2 K) : SceneM K Unit := do
  let _ ← perspective p
  modify fun s => s.modifyPerspective p fun p => p.setVp c vp
  redrawBoxes p

end Scene

end PerspectiveBox
