import PerspectiveBox.Scene.Attachment

namespace PerspectiveBox

variable {K : Type}

namespace Scene

-- The perspectives of the selected boxes, in the order in which the selection comes to them.
def selectedPerspectives (s : Scene K) (selection : List BoxKey) : List PerspectiveKey :=
  (selection.filterMap s.perspectiveOf?).foldl
    (fun found p => if found.contains p then found else found ++ [p]) []

def hasAllBoxes (p : PerspectiveKey) (selection : List BoxKey) : SceneM K Bool := do
  return (← perspective p).boxes.all selection.contains

-- The selected boxes of a perspective.
def selectedBoxes (p : PerspectiveKey) (selection : List BoxKey) : SceneM K (List BoxKey) := do
  return (← perspective p).boxes.filter selection.contains

variable [Scalar K]

-- A perspective that has just the selected boxes of `p`: this one, or a copy of it.
def isolate (p : PerspectiveKey) (selection : List BoxKey) :
    SceneM K PerspectiveKey := do
  if ← hasAllBoxes p selection then return p
  let fork ← duplicatePerspective p
  (← selectedBoxes p selection).forM fun key => move key fork
  return fork

-- Maps the selection over the page, and tells in which perspectives it is now.
def transformSelection (selection : List BoxKey) (f : Affine K) :
    SceneM K (List PerspectiveKey) := do
  ((← get).selectedPerspectives selection).mapM fun p => do
    let target ← isolate p selection
    modify fun s => s.modifyPerspective target fun p => p.applyAffine f
    refreshBoxes target
    return target

end Scene

end PerspectiveBox
