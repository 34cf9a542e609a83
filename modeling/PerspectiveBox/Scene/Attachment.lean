import PerspectiveBox.Box.Creation
import PerspectiveBox.Scene.Display

namespace PerspectiveBox

variable {K : Type}

namespace Scene

def modifyTarget (s : Scene K) (target : Option PerspectiveKey)
    (f : Perspective K → Perspective K) : Scene K :=
  match target with
  | some p => s.modifyPerspective p f
  | none => s

-- Moves a box from the list of one perspective to that of another.
def relist (s : Scene K) (key : BoxKey) (change : LinkChange) : Scene K :=
  if change.isChange then
    (s.modifyTarget change.old fun p => p.removeBox key).modifyTarget change.new
      fun p => p.addBox key
  else s

-- Gives a box another link.
def setLink (key : BoxKey) (link : Link) : SceneM K LinkChange := do
  let change : LinkChange := ⟨(← box key).link.target, link.target⟩
  modify fun s => (s.modifyBox key fun b => { b with link := link }).relist key change
  return change

theorem setLink_run (key : BoxKey) (link : Link) (s : Scene K) :
    (setLink key link).run s = match s.boxes.get? key with
      | some b =>
        let change : LinkChange := ⟨b.link.target, link.target⟩
        .ok change ((s.modifyBox key fun b => { b with link := link }).relist key change)
      | none => .error (.unknownBox key) s := by
  have hbox := box_run key s
  rw [EStateM.run] at hbox
  simp only [setLink, EStateM.run, bind, EStateM.bind, hbox]
  cases s.boxes.get? key <;> rfl

variable [Scalar K]

def attach (key : BoxKey) (p : PerspectiveKey) : SceneM K LinkChange := do
  let id := (← perspective p).id
  let change ← setLink key ⟨Reference.write id, p⟩
  modify fun s => s.redrawBox key
  return change

omit [Scalar K] in
def detach (key : BoxKey) : SceneM K LinkChange := setLink key .none

-- Attaches a box to another perspective.
def move (key : BoxKey) (p : PerspectiveKey) : SceneM K Unit := do
  let _ ← box key
  let _ ← attach key p

-- Links a box by a reference. One to no perspective of the scene is kept as a text. Without a
-- reference, or with a bad one, the box is detached.
def setHref (key : BoxKey) (href : Option String) : SceneM K Unit := do
  let link := (← box key).link
  if href.isSome && link.href == href && link.isAttached then return
  match href, href.map Reference.read with
  | some href, some (.ok id) =>
    let _ ← setLink key ⟨href, (← get).findPerspective id⟩
    modify fun s => s.redrawBox key
  | _, _ =>
    let _ ← detach key

omit [Scalar K] in
-- The reference under which a box is saved. A box without one is put into the current
-- perspective.
def hrefForWrite (s : Scene K) (b : Box K) : Option String :=
  b.link.href <|>
    ((s.current.bind s.perspectives.get?).map fun p => Reference.write p.id)

-- Attaches the boxes of one perspective to another that projects in the same way.
def absorb (keep other : PerspectiveKey) : SceneM K Unit := do
  if keep = other then return
  unless ← coincide keep other do
    throw (.perspectivesDiffer (← perspective keep).id (← perspective other).id)
  (← perspective other).boxes.forM fun key => do
    move key keep
    modify fun s => s.modifyBox key Box.saveCorners

omit [Scalar K] in
-- The box is put in without its link.
def insertBox (s : Scene K) (b : Box K) : BoxKey × Scene K :=
  let (key, boxes) := s.boxes.insert { b with link := .none }
  (key, { s with boxes := boxes })

def addTo (p : PerspectiveKey) (make : String → Box K) : SceneM K BoxKey := do
  let id ← modifyGet fun s => s.freshId "box3d"
  let key ← modifyGet fun s => s.insertBox (make id)
  let _ ← attach key p
  return key

def addBox (corners : Corners K) (p : PerspectiveKey) : SceneM K BoxKey := do
  let _ ← perspective p
  addTo p fun id => .ofCorners id corners

-- Puts a drawn box into the current perspective.
def addCreatedBox (creation : BoxCreation K) : SceneM K BoxKey := do
  addTo (← modifyGet currentOrDefault) creation.toBox

omit [Scalar K] in
def removeBox (key : BoxKey) : SceneM K (Box K) := do
  let _ ← detach key
  let b ← box key
  modify fun s => { s with boxes := s.boxes.erase key }
  return b

omit [Scalar K] in
-- Replaces a box by plain paths, the bottom one first.
def flattenBox [Numeric K] (key : BoxKey) : SceneM K (List PlainPath) := do
  return (← removeBox key).sides.map Side.toPlainPath

end Scene

end PerspectiveBox
