import PerspectiveBox.Box.Basic
import PerspectiveBox.Scene.Perspective
import PerspectiveBox.Scene.SlotTable
import PerspectiveBox.Settings.Basic

namespace PerspectiveBox

-- A box knows its perspective and a perspective lists its boxes; the operations on scenes keep the
-- two sides in step.
structure Scene (K : Type) where
  settings : Settings K
  perspectives : SlotTable .perspective (Perspective K)
  boxes : SlotTable .box (Box K)
  -- The perspective in which new boxes are drawn.
  current : Option PerspectiveKey
  -- The number in the id that was generated last. It has no bound here; `searchTurn` counts in
  -- thirty-two bits, and finds the same ids as long as the numbers do not run out.
  lastNumber : Nat

-- An operation on a scene. What it changed before it failed stays changed.
abbrev SceneM (K : Type) := EStateM SceneError (Scene K)

namespace Scene

variable {K : Type}

section Settings

variable [Scalar K]

def ofSettings (settings : Settings K) : Scene K := ⟨settings, .empty, .empty, none, 0⟩

def empty : Scene K := ofSettings .default

-- An empty scene, if its settings are in range.
def withSettings (settings : Settings K) : Except SceneError (Scene K) := do
  settings.validate
  return ofSettings settings

def setSettings (settings : Settings K) : SceneM K Unit := do
  MonadExcept.ofExcept settings.validate
  modify fun s => { s with settings := settings }

end Settings

def perspective (key : PerspectiveKey) : SceneM K (Perspective K) := do
  match (← get).perspectives.get? key with
  | some p => return p
  | none => throw (.unknownPerspective key)

def box (key : BoxKey) : SceneM K (Box K) := do
  match (← get).boxes.get? key with
  | some b => return b
  | none => throw (.unknownBox key)

def findPerspective (s : Scene K) (id : String) : Option PerspectiveKey :=
  s.perspectives.find? fun p => p.id == id

def findBox (s : Scene K) (id : String) : Option BoxKey := s.boxes.find? fun b => b.id == id

-- The perspective to which a box is attached.
def perspectiveOf? (s : Scene K) (key : BoxKey) : Option PerspectiveKey := do
  let target ← (← s.boxes.get? key).link.target
  guard (s.perspectives.contains target)
  return target

def perspectiveOf (key : BoxKey) : SceneM K PerspectiveKey := do
  let _ ← box key
  match (← get).perspectiveOf? key with
  | some p => return p
  | none => throw .noPerspective

-- The projection that a box is subject to.
def mapOf? (s : Scene K) (key : BoxKey) : Option (Projection K) :=
  ((s.perspectiveOf? key).bind s.perspectives.get?).map Perspective.map

def mapOf (key : BoxKey) : SceneM K (Projection K) := do
  return (← perspective (← perspectiveOf key)).map

theorem perspective_run (key : PerspectiveKey) (s : Scene K) :
    (perspective key).run s = match s.perspectives.get? key with
      | some p => .ok p s
      | none => .error (.unknownPerspective key) s := by
  have h : (perspective key).run s = EStateM.run (match s.perspectives.get? key with
    | some p => pure p
    | none => throw (.unknownPerspective key)) s := rfl
  rw [h]
  cases s.perspectives.get? key <;> rfl

theorem box_run (key : BoxKey) (s : Scene K) :
    (box key).run s = match s.boxes.get? key with
      | some b => .ok b s
      | none => .error (.unknownBox key) s := by
  have h : (box key).run s = EStateM.run (match s.boxes.get? key with
    | some b => pure b
    | none => throw (.unknownBox key)) s := rfl
  rw [h]
  cases s.boxes.get? key <;> rfl

def modifyPerspective (s : Scene K) (key : PerspectiveKey) (f : Perspective K → Perspective K) :
    Scene K :=
  { s with perspectives := s.perspectives.modify key f }

def modifyBox (s : Scene K) (key : BoxKey) (f : Box K → Box K) : Scene K :=
  { s with boxes := s.boxes.modify key f }

def modifyBoxes (s : Scene K) (keys : List BoxKey) (f : Box K → Box K) : Scene K :=
  { s with boxes := s.boxes.modifyAll keys f }

def ids (s : Scene K) : List String :=
  s.perspectives.values.map Perspective.id ++ s.boxes.values.map Box.id

-- The first number after `last` that makes an id which is not taken. Of more numbers than there
-- are taken ids one is free, so the last number needs no test.
def freeNumber (taken : List String) (stem : String) (last : Nat) : Nat → Nat
  | 0 => last + 1
  | tests + 1 =>
    if taken.contains (stem ++ toString (last + 1)) then
      freeNumber taken stem (last + 1) tests
    else last + 1

-- An id that nothing in the scene has, made of a stem and a number.
def freshId (s : Scene K) (stem : String) : String × Scene K :=
  let number := freeNumber s.ids stem s.lastNumber s.ids.length
  (stem ++ toString number, { s with lastNumber := number })

-- The perspective is put in without its boxes. The first one becomes the current perspective.
def insertPerspective (s : Scene K) (p : Perspective K) : PerspectiveKey × Scene K :=
  let (key, perspectives) := s.perspectives.insert { p with boxes := [] }
  (key, { s with perspectives := perspectives, current := s.current <|> some key })

def addPerspective (s : Scene K) (map : Projection K) : PerspectiveKey × Scene K :=
  let (id, s) := s.freshId "perspective"
  s.insertPerspective ⟨id, map, []⟩

def addDefaultPerspective [Scalar K] (s : Scene K) : PerspectiveKey × Scene K :=
  let (id, s) := s.freshId "perspective"
  s.insertPerspective (.forDocument id s.settings.documentWidth s.settings.documentHeight)

def duplicatePerspective (key : PerspectiveKey) : SceneM K PerspectiveKey := do
  let p ← perspective key
  modifyGet fun s => s.addPerspective p.map

def removePerspective (key : PerspectiveKey) : SceneM K (Perspective K) := do
  let p ← perspective key
  unless p.boxes.isEmpty do throw (.perspectiveInUse p.id)
  modify fun s =>
    { s with
      perspectives := s.perspectives.erase key
      current := if s.current = some key then none else s.current }
  return p

-- Removes the perspectives without boxes, the current one excepted, and counts them.
def removeUnusedPerspectives (s : Scene K) : Nat × Scene K :=
  let kept := s.perspectives.retain fun key p => !p.boxes.isEmpty || s.current = some key
  (s.perspectives.size - kept.size, { s with perspectives := kept })

def setCurrent (key : PerspectiveKey) : SceneM K Unit := do
  let _ ← perspective key
  modify fun s => { s with current := some key }

-- The current perspective. If there is none, it is the default one, put in now.
def currentOrDefault [Scalar K] (s : Scene K) : PerspectiveKey × Scene K :=
  match s.current.filter s.perspectives.contains with
  | some key => (key, s)
  | none =>
    let (key, s) := s.addDefaultPerspective
    (key, { s with current := some key })

-- Whether two perspectives project in the same way.
def coincide [Scalar K] (p q : PerspectiveKey) : SceneM K Bool := do
  return (← perspective p).coincides (← perspective q)

end Scene

end PerspectiveBox
