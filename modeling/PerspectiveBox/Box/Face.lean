import PerspectiveBox.Axis

namespace PerspectiveBox

-- Four things met in turn on the way around a face.
structure Quad (α : Type) where
  a : α
  b : α
  c : α
  d : α
  deriving BEq, DecidableEq

namespace Quad

def toList {α : Type} (q : Quad α) : List α := [q.a, q.b, q.c, q.d]

def map {α β : Type} (f : α → β) (q : Quad α) : Quad β := ⟨f q.a, f q.b, f q.c, f q.d⟩

end Quad

-- The face through the near corner, or the one through the far corner.
inductive FacePosition where
  | front
  | rear
  deriving DecidableEq, Repr

-- A face can be walked around in two ways; backward, its axes are taken in descending order.
structure Face where
  normal : Axis
  position : FacePosition
  backward : Bool
  deriving DecidableEq, Repr

def FacePosition.bit : FacePosition → Nat
  | front => 0
  | rear => 8

namespace Face

def count : Nat := 6

-- The axes that span the face, in the order of the walk.
def span (f : Face) : Axis × Axis :=
  let (a, b) := match f.normal with
    | .x => (Axis.y, Axis.z)
    | .y => (Axis.x, Axis.z)
    | .z => (Axis.x, Axis.y)
  if f.backward then (b, a) else (a, b)

def plane (f : Face) : AxisSet := (AxisSet.single f.normal).complement

-- The bits of the plane, with eight more for the face of the far corner.
def code (f : Face) : Nat := f.plane.bits + f.position.bit

-- A code names the plane of the face or its normal. Nothing else is a code.
def ofCode? (code : Int) : Option Face :=
  if 0 ≤ code ∧ code < 16 then
    let axes := AxisSet.ofBits code.toNat
    (axes.axis? <|> axes.complement.axis?).map fun normal =>
      ⟨normal, if code < 8 then .front else .rear, false⟩
  else none

def slot (f : Face) : Nat :=
  (match f.normal with | .x => 0 | .y => 2 | .z => 4) +
    (match f.position with | .front => 0 | .rear => 1)

def ofSlot? : Nat → Option Face
  | 0 => some ⟨.x, .front, false⟩
  | 1 => some ⟨.x, .rear, false⟩
  | 2 => some ⟨.y, .front, false⟩
  | 3 => some ⟨.y, .rear, false⟩
  | 4 => some ⟨.z, .front, false⟩
  | 5 => some ⟨.z, .rear, false⟩
  | _ => none

def slotPlane (slot : Nat) : AxisSet := ((ofSlot? slot).map plane).getD .empty

-- The names of the corners on the walk around the face.
def cornerIds (f : Face) : Quad AxisSet :=
  let start := match f.position with
    | .front => .empty
    | .rear => AxisSet.single f.normal
  let first := AxisSet.single f.span.1
  let second := AxisSet.single f.span.2
  ⟨start, start ^^^ first, start ^^^ first ^^^ second, start ^^^ second⟩

def ofSpan? : Axis → Axis → Option (Axis × Bool)
  | .y, .z => some (.x, false)
  | .z, .y => some (.x, true)
  | .x, .z => some (.y, false)
  | .z, .x => some (.y, true)
  | .x, .y => some (.z, false)
  | .y, .x => some (.z, true)
  | _, _ => none

-- The face whose walk starts at these corners, given by number. The steps to the second and to
-- the fourth corner tell its axes; only a walk from corner zero is around a front face.
def ofCornerIds? (ids : Quad Nat) : Option Face := do
  let start := AxisSet.ofBits ids.a
  let first ← (start ^^^ AxisSet.ofBits ids.b).axis?
  let second ← (start ^^^ AxisSet.ofBits ids.d).axis?
  let (normal, backward) ← ofSpan? first second
  return ⟨normal, if ids.a = 0 then .front else .rear, backward⟩

def label (f : Face) : String :=
  match f.normal, f.position with
  | .z, .front => "front"
  | .z, .rear => "rear"
  | .y, .front => "top"
  | .y, .rear => "bottom"
  | .x, .front => "right"
  | .x, .rear => "left"

-- The plane and the label: the key of a default style for the face.
def name (f : Face) : String := f.plane.name ++ f.label

theorem slot_lt (f : Face) : f.slot < count := by
  rcases f with ⟨_ | _, _ | _, _ | _⟩ <;> decide

theorem ofSlot?_slot (f : Face) : ofSlot? f.slot = some { f with backward := false } := by
  rcases f with ⟨_ | _, _ | _, _⟩ <;> rfl

theorem ofCode?_code (f : Face) : ofCode? f.code = some { f with backward := false } := by
  rcases f with ⟨_ | _, _ | _, _ | _⟩ <;> decide

theorem slot_of_ofSlot? {n : Nat} {f : Face} (h : ofSlot? n = some f) : f.slot = n := by
  unfold ofSlot? at h
  split at h <;> first | cases h; rfl | cases h

end Face

end PerspectiveBox
