import PerspectiveBox.Proofs.Scene.Run

namespace PerspectiveBox

variable {K : Type} [Scalar K]

namespace Box

-- A drag as it goes on. What it has changed of the box and of the session stays if it fails later.
abbrev DragM (K : Type) [Scalar K] : Type → Type := EStateM SceneError (Box K × DragSession K)

inductive DragStep (K : Type) where
  | corner (id : Nat) (pointer : Point K) (movement : AxisSet) (constrained : Bool)
  | center (pointer grip : Point K) (movement : AxisSet) (constrained : Bool)

namespace DragStep

-- The session is changed first, then the corners are.
def follow (motion : Box K → DragSession K → Option (Corners K) × DragSession K) :
    DragM K Unit := do
  let moved ← modifyGet fun (b, session) => ((motion b session).1, b, (motion b session).2)
  modify fun (b, session) => ({ b with corners := moved.getD b.corners }, session)

def perform (m : Projection K) : DragStep K → DragM K Unit
  | .corner id pointer movement constrained => do
    MonadExcept.ofExcept (checkMovement movement)
    if 7 < id then throw (.invalidCorner id)
    modify fun (b, session) => ({ b with corners := b.corners.normalized }, session)
    follow fun b session =>
      if movement.hasZ then
        (b.corners.dragCornerAlongZ? b.saved m (.ofBits id) pointer movement, session)
      else b.corners.dragCornerInPlane? b.saved m (.ofBits id) pointer constrained session
  | .center pointer grip movement constrained => do
    MonadExcept.ofExcept (checkMovement movement)
    follow fun b session =>
      if movement.hasZ then (b.corners.dragCenterAlongZ? m pointer grip, session)
      else b.corners.dragCenterInPlane? b.saved m pointer grip movement constrained session

-- What the step makes of a box and a session, if it is not refused.
def outcome (step : DragStep K) (session : DragSession K) (b : Box K) (m : Projection K) :
    Except SceneError (Box K × DragSession K) :=
  match step with
  | .corner id pointer movement constrained =>
    b.dragCorner m id pointer movement constrained session
  | .center pointer grip movement constrained =>
    b.dragCenter m pointer grip movement constrained session

-- A step is refused, if it is, before anything is changed.
theorem perform_run (step : DragStep K) (m : Projection K) (b : Box K) (session : DragSession K) :
    (step.perform m).run (b, session) = match step.outcome session b m with
      | .ok next => .ok ⟨⟩ next
      | .error e => .error e (b, session) := by
  cases step with
  | corner id pointer movement constrained =>
    simp only [perform, outcome, dragCorner, EStateM.run_bind]
    cases checkMovement movement with
    | error e => rfl
    | ok =>
      by_cases hid : 7 < id
      · simp only [if_pos hid]
        rfl
      · simp only [if_neg hid]
        cases movement.hasZ <;> rfl
  | center pointer grip movement constrained =>
    simp only [perform, outcome, dragCenter, EStateM.run_bind]
    cases checkMovement movement with
    | error e => rfl
    | ok => cases movement.hasZ <;> rfl

end DragStep

end Box

namespace Scene

abbrev DragM (K : Type) [Scalar K] : Type → Type := EStateM SceneError (Scene K × DragSession K)

def onScene {α : Type} (operation : SceneM K α) : DragM K α := fun (s, session) =>
  match operation.run s with
  | .ok a t => .ok a (t, session)
  | .error e t => .error e (t, session)

-- What has become of the box is put back into the scene, also if the motion failed.
def onBox (key : BoxKey) (motion : Box.DragM K Unit) : DragM K Unit := fun (s, session) =>
  match s.boxes.get? key with
  | none => .error (.unknownBox key) (s, session)
  | some b =>
    match motion.run (b, session) with
    | .ok _ (c, next) => .ok ⟨⟩ (s.modifyBox key fun _ => c, next)
    | .error e (c, next) => .error e (s.modifyBox key fun _ => c, next)

def performDrag (key : BoxKey) (step : Box.DragStep K) : DragM K Unit := do
  let m ← onScene (mapOf key)
  onBox key (step.perform m)
  onScene (modify fun s => s.modifyBox key fun b => b.update m s.settings.strategy)

theorem onScene_run {α : Type} (operation : SceneM K α) (s : Scene K) (session : DragSession K) :
    (onScene operation).run (s, session) = match operation.run s with
      | .ok a t => .ok a (t, session)
      | .error e t => .error e (t, session) := rfl

theorem onBox_run {key : BoxKey} {s : Scene K} {b : Box K} (hb : s.boxes.get? key = some b)
    (motion : Box.DragM K Unit) (session : DragSession K) :
    (onBox key motion).run (s, session) = match motion.run (b, session) with
      | .ok _ (c, next) => .ok ⟨⟩ (s.modifyBox key fun _ => c, next)
      | .error e (c, next) => .error e (s.modifyBox key fun _ => c, next) := by
  rw [EStateM.run, onBox]
  simp only [hb]

-- What is done step by step to the scene and the session comes to what the command answers.
theorem performDrag_run (key : BoxKey) (step : Box.DragStep K) (s : Scene K)
    (session : DragSession K) : (performDrag key step).run (s, session) =
      match (drag key (step.outcome session)).run s with
      | .ok next t => .ok ⟨⟩ (t, next)
      | .error e t => .error e (t, session) := by
  cases hm : s.mapOf? key with
  | none =>
    obtain ⟨e, he⟩ := mapOf_run_of_none hm
    rw [performDrag, drag, EStateM.run_bind, EStateM.run_bind, onScene_run, he]
  | some m =>
    obtain ⟨b, hb⟩ := box_of_mapOf? hm
    rw [drag_run _ hb hm, performDrag, EStateM.run_bind, onScene_run, mapOf_run_of_some hm]
    simp only
    rw [EStateM.run_bind, onBox_run hb, Box.DragStep.perform_run]
    cases step.outcome session b m with
    | error e =>
      have hsame : (s.modifyBox key fun _ => b) = s :=
        modifyBox_eq_self fun c hc => Option.some.inj (hb.symm.trans hc)
      simp only [hsame]
    | ok next =>
      obtain ⟨c, next⟩ := next
      have hupdated := modifyBox_modifyBox s key (fun _ => c)
        fun b => b.update m s.settings.strategy
      simp only [← hupdated]
      rfl

end Scene

end PerspectiveBox
