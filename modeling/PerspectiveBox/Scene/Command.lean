import PerspectiveBox.Box.Edit
import PerspectiveBox.Scene.Document
import PerspectiveBox.Scene.Drag
import PerspectiveBox.Scene.Selection
import PerspectiveBox.Scene.Vanishing

namespace PerspectiveBox

-- A scene is changed by a run of commands and by nothing else. A command stands under the type of
-- its answer.
inductive Command (K : Type) : Type → Type where
  | setSettings (settings : Settings K) : Command K Unit
  | insertPerspective (p : Perspective K) : Command K PerspectiveKey
  | addPerspective (map : Projection K) : Command K PerspectiveKey
  | addDefaultPerspective : Command K PerspectiveKey
  | duplicatePerspective (p : PerspectiveKey) : Command K PerspectiveKey
  | removePerspective (p : PerspectiveKey) : Command K (Perspective K)
  | removeUnusedPerspectives : Command K Nat
  | setCurrent (p : PerspectiveKey) : Command K Unit
  | currentOrDefault : Command K PerspectiveKey
  | absorb (keep other : PerspectiveKey) : Command K Unit
  | addBox (corners : Corners K) (p : PerspectiveKey) : Command K BoxKey
  | addCreatedBox (creation : BoxCreation K) : Command K BoxKey
  | removeBox (b : BoxKey) : Command K (Box K)
  | flattenBox (b : BoxKey) : Command K (List PlainPath)
  | editBox (b : BoxKey) (edit : Box.Edit K) : Command K Unit
  | attach (b : BoxKey) (p : PerspectiveKey) : Command K LinkChange
  | detach (b : BoxKey) : Command K LinkChange
  | move (b : BoxKey) (p : PerspectiveKey) : Command K Unit
  | setHref (b : BoxKey) (href : Option String) : Command K Unit
  | transformSelection (selection : List BoxKey) (f : Affine K) : Command K (List PerspectiveKey)
  | toggleVp (p : PerspectiveKey) (c : Coord) : Command K Bool
  | toggleVps (ps : List PerspectiveKey) (c : Coord) : Command K Unit
  | setVpState (p : PerspectiveKey) (c : Coord) (state : VpState) : Command K Bool
  | rotateVp (p : PerspectiveKey) (c : Coord) (angle : K) (fine : Bool) : Command K Bool
  | setVp (p : PerspectiveKey) (c : Coord) (vp : HPoint2 K) : Command K Unit
  | redrawBoxes (p : PerspectiveKey) : Command K Unit
  | refreshBoxes (p : PerspectiveKey) : Command K Unit
  | reorderBoxes (p : PerspectiveKey) : Command K Unit
  | updateBox (b : BoxKey) : Command K Unit
  | beginDrag (b : BoxKey) : Command K (DragSession K)
  | dragCorner (b : BoxKey) (id : Nat) (pointer : Point K) (movement : AxisSet)
      (constrained : Bool) (session : DragSession K) : Command K (DragSession K)
  | dragCenter (b : BoxKey) (pointer grip : Point K) (movement : AxisSet)
      (constrained : Bool) (session : DragSession K) : Command K (DragSession K)
  | finishDrag (b : BoxKey) : Command K Unit
  | cancelDrag (b : BoxKey) : Command K Unit
  | write : Command K Document

variable {K : Type} [Scalar K]

def Scene.editBox (key : BoxKey) (edit : Box.Edit K) : SceneM K Unit := do
  let _ ← box key
  modify fun s => s.modifyBox key fun b => b.edited edit

def Command.run [Numeric K] {α : Type} : Command K α → SceneM K α
  | setSettings settings => Scene.setSettings settings
  | insertPerspective p => modifyGet fun s => s.insertPerspective p
  | addPerspective map => modifyGet fun s => s.addPerspective map
  | addDefaultPerspective => modifyGet fun s => s.addDefaultPerspective
  | duplicatePerspective p => Scene.duplicatePerspective p
  | removePerspective p => Scene.removePerspective p
  | removeUnusedPerspectives => modifyGet fun s => s.removeUnusedPerspectives
  | setCurrent p => Scene.setCurrent p
  | currentOrDefault => modifyGet fun s => s.currentOrDefault
  | absorb keep other => Scene.absorb keep other
  | addBox corners p => Scene.addBox corners p
  | addCreatedBox creation => Scene.addCreatedBox creation
  | removeBox b => Scene.removeBox b
  | flattenBox b => Scene.flattenBox b
  | editBox b edit => Scene.editBox b edit
  | attach b p => Scene.attach b p
  | detach b => Scene.detach b
  | move b p => Scene.move b p
  | setHref b href => Scene.setHref b href
  | transformSelection selection f => Scene.transformSelection selection f
  | toggleVp p c => Scene.toggleVp p c
  | toggleVps ps c => Scene.toggleVps ps c
  | setVpState p c state => Scene.setVpState p c state
  | rotateVp p c angle fine => Scene.rotateVp p c angle fine
  | setVp p c vp => Scene.setVp p c vp
  | redrawBoxes p => Scene.redrawBoxes p
  | refreshBoxes p => Scene.refreshBoxes p
  | reorderBoxes p => Scene.reorderBoxes p
  | updateBox b => Scene.updateBox b
  | beginDrag b => Scene.beginDrag b
  | dragCorner b id pointer movement constrained session =>
    Scene.dragCorner b id pointer movement constrained session
  | dragCenter b pointer grip movement constrained session =>
    Scene.dragCenter b pointer grip movement constrained session
  | finishDrag b => Scene.finishDrag b
  | cancelDrag b => Scene.cancelDrag b
  | write => modifyGet fun s => s.write

end PerspectiveBox
