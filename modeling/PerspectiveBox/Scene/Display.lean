import PerspectiveBox.Scene.Basic

namespace PerspectiveBox

variable {K : Type} [Scalar K]

namespace Box

-- Takes the present corners as the start of a drag, and updates the box.
def refresh (b : Box K) (m : Projection K) (strategy : OrderStrategy) : Box K :=
  b.saveCorners.update m strategy

end Box

namespace Scene

-- Redraws a box that is in a perspective.
def redrawBox (s : Scene K) (key : BoxKey) : Scene K :=
  match s.mapOf? key with
  | some m => s.modifyBox key fun b => b.redraw m
  | none => s

def updateBox (key : BoxKey) : SceneM K Unit := do
  let m ← mapOf key
  modify fun s => s.modifyBox key fun b => b.update m s.settings.strategy

-- Changes every box that a perspective lists.
def changeBoxes (p : PerspectiveKey)
    (f : Projection K → OrderStrategy → Box K → Box K) : SceneM K Unit := do
  let p ← perspective p
  modify fun s => s.modifyBoxes p.boxes (f p.map s.settings.strategy)

def redrawBoxes (p : PerspectiveKey) : SceneM K Unit :=
  changeBoxes p fun m _ b => b.redraw m

def refreshBoxes (p : PerspectiveKey) : SceneM K Unit :=
  changeBoxes p fun m strategy b => b.refresh m strategy

def reorderBoxes (p : PerspectiveKey) : SceneM K Unit :=
  changeBoxes p fun m strategy b => (b.updateOrder m strategy).2

end Scene

end PerspectiveBox
