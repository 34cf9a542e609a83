import PerspectiveBox.Box.Basic
import PerspectiveBox.Box.Snap
import PerspectiveBox.Projective.Line

namespace PerspectiveBox

variable {K : Type} [Scalar K]

namespace Corners

-- The point a drag arrives at: what remains of a preimage once it is known to be one.
def target? (p : HPoint3 K) : Option (HPoint3 K) := p.normalize?.filter HPoint3.isFinite

-- The saved corners with the coordinates that a corner owns in its plane moved to `p`.
def movedInPlane (saved : Corners K) (id : AxisSet) (p : HPoint3 K) : Corners K where
  near := ⟨if id.hasX then saved.near.x else p.x, if id.hasY then saved.near.y else p.y,
    saved.near.z, 1⟩
  far := ⟨if id.hasX then p.x else saved.far.x, if id.hasY then p.y else saved.far.y,
    saved.far.z, 1⟩

-- The corners with the z of one corner moved to `p`, and those of its x and y that are free.
def movedAlongZ (c : Corners K) (id movement : AxisSet) (p : HPoint3 K) : Corners K where
  near := ⟨if !id.hasX && movement.hasX then p.x else c.near.x,
    if !id.hasY && movement.hasY then p.y else c.near.y,
    if id.hasZ then c.near.z else p.z, 1⟩
  far := ⟨if id.hasX && movement.hasX then p.x else c.far.x,
    if id.hasY && movement.hasY then p.y else c.far.y,
    if id.hasZ then p.z else c.far.z, 1⟩

-- The corners after a corner was dragged in its plane, from where they were saved.
def dragCornerInPlane? (c saved : Corners K) (m : Projection K) (id : AxisSet)
    (pointer : Point K) (constrained : Bool) (session : DragSession K) :
    Option (Corners K) × DragSession K :=
  let z := if id.hasZ then c.far.z else c.near.z
  let free := m.preimage pointer z .z
  let (p, session) :=
    if constrained then m.snap saved (.corner id) free (saved.corner id) session
    else (free, session)
  ((target? p).map (saved.movedInPlane id), session)

def dragCornerAlongZ? (c saved : Corners K) (m : Projection K) (id : AxisSet)
    (pointer : Point K) (movement : AxisSet) : Option (Corners K) :=
  let line := (PerspectiveLine.through m (saved.screen m id) .z).line
  let known : Axis := if movement.hasY then .x else .y
  let p := m.preimage (line.closest pointer) ((c.corner id).get known) known
  (target? p).map (c.movedAlongZ id movement)

def dragCenterInPlane? (c saved : Corners K) (m : Projection K) (pointer grip : Point K)
    (movement : AxisSet) (constrained : Bool) (session : DragSession K) :
    Option (Corners K) × DragSession K :=
  let z := (c.near.z + c.far.z) / 2.0
  let rx := (c.far.x - c.near.x) / 2.0
  let ry := (c.far.y - c.near.y) / 2.0
  let free := m.preimage pointer z .z
  let (p, session) :=
    if constrained then m.snap saved .center free (m.preimage grip z .z) session
    else (free, session)
  let moved (p : HPoint3 K) : Corners K :=
    { near := ⟨if movement.hasX then p.x - rx else c.near.x,
        if movement.hasY then p.y - ry else c.near.y, c.near.z, 1⟩
      far := ⟨if movement.hasX then p.x + rx else c.far.x,
        if movement.hasY then p.y + ry else c.far.y, c.far.z, 1⟩ }
  ((target? p).map moved, session)

def dragCenterAlongZ? (c : Corners K) (m : Projection K) (pointer grip : Point K) :
    Option (Corners K) :=
  let x := (c.near.x + c.far.x) / 2.0
  let rz := (c.far.z - c.near.z) / 2.0
  let line := (PerspectiveLine.through m grip .z).line
  (target? (m.preimage (line.closest pointer) x .x)).map fun p =>
    ⟨⟨c.near.x, c.near.y, p.z - rz, 1⟩, ⟨c.far.x, c.far.y, p.z + rz, 1⟩⟩

end Corners

namespace Box

-- A drag is free along one axis or two.
def checkMovement (movement : AxisSet) : Except SceneError Unit :=
  if movement = .empty ∨ movement = .xyz then .error (.invalidMovement movement) else .ok ()

-- Moves a corner, given by number, to where the pointer is.
def dragCorner (b : Box K) (m : Projection K) (id : Nat) (pointer : Point K) (movement : AxisSet)
    (constrained : Bool) (session : DragSession K) :
    Except SceneError (Box K × DragSession K) := do
  checkMovement movement
  if 7 < id then throw (.invalidCorner id)
  let corner := AxisSet.ofBits id
  let c := b.corners.normalized
  let (moved, session) :=
    if movement.hasZ then (c.dragCornerAlongZ? b.saved m corner pointer movement, session)
    else c.dragCornerInPlane? b.saved m corner pointer constrained session
  return ({ b with corners := moved.getD c }, session)

-- Moves the whole box so that its center follows the pointer from where it was gripped.
def dragCenter (b : Box K) (m : Projection K) (pointer grip : Point K) (movement : AxisSet)
    (constrained : Bool) (session : DragSession K) :
    Except SceneError (Box K × DragSession K) := do
  checkMovement movement
  let c := b.corners
  let (moved, session) :=
    if movement.hasZ then (c.dragCenterAlongZ? m pointer grip, session)
    else c.dragCenterInPlane? b.saved m pointer grip movement constrained session
  return ({ b with corners := moved.getD c }, session)

-- A drag moves the corners of a box and changes nothing else about it.
theorem eq_of_dragCorner {b moved : Box K} {m : Projection K} {id : Nat} {pointer : Point K}
    {movement : AxisSet} {constrained : Bool} {session next : DragSession K}
    (h : b.dragCorner m id pointer movement constrained session = .ok (moved, next)) :
    moved = { b with corners := moved.corners } := by
  unfold dragCorner at h
  simp only [bind, Except.bind] at h
  split at h
  · cases h
  · split at h
    · cases h
    · cases h
      rfl

theorem eq_of_dragCenter {b moved : Box K} {m : Projection K} {pointer grip : Point K}
    {movement : AxisSet} {constrained : Bool} {session next : DragSession K}
    (h : b.dragCenter m pointer grip movement constrained session = .ok (moved, next)) :
    moved = { b with corners := moved.corners } := by
  unfold dragCenter at h
  simp only [bind, Except.bind] at h
  split at h
  · cases h
  · cases h
    rfl

end Box

end PerspectiveBox
