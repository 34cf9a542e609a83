import PerspectiveBox.Box.Drag
import PerspectiveBox.Scene.Display

namespace PerspectiveBox

variable {K : Type} [Scalar K]

namespace Scene

def beginDrag (key : BoxKey) : SceneM K (DragSession K) := do
  let _ ← box key
  modify fun s => s.modifyBox key Box.beginDrag
  return .start (← get).settings

-- Moves a box in its projection, and updates it.
def drag (key : BoxKey)
    (motion : Box K → Projection K → Except SceneError (Box K × DragSession K)) :
    SceneM K (DragSession K) := do
  let m ← mapOf key
  let (b, session) ← MonadExcept.ofExcept (motion (← box key) m)
  modify fun s => s.modifyBox key fun _ => b.update m s.settings.strategy
  return session

def dragCorner (key : BoxKey) (id : Nat) (pointer : Point K) (movement : AxisSet)
    (constrained : Bool) (session : DragSession K) : SceneM K (DragSession K) :=
  drag key fun b m => b.dragCorner m id pointer movement constrained session

def dragCenter (key : BoxKey) (pointer grip : Point K) (movement : AxisSet)
    (constrained : Bool) (session : DragSession K) : SceneM K (DragSession K) :=
  drag key fun b m => b.dragCenter m pointer grip movement constrained session

-- The corners are kept also for a box that is in no perspective, which cannot be updated.
def finishDrag (key : BoxKey) : SceneM K Unit := do
  let _ ← box key
  modify fun s => s.modifyBox key Box.saveCorners
  updateBox key

-- A box that is in no perspective just gets its corners back.
def cancelDrag (key : BoxKey) : SceneM K Unit := do
  let _ ← box key
  modify fun s => s.modifyBox key Box.cancelDrag
  if ((← get).perspectiveOf? key).isSome then updateBox key

end Scene

end PerspectiveBox
