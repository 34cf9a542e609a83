import PerspectiveBox.Box.Side
import PerspectiveBox.FaceOrder.Classify
import PerspectiveBox.Scene.Link

namespace PerspectiveBox

-- Everything a box displays follows from its corners and the projection of its perspective, which
-- is passed in.
structure Box (K : Type) where
  id : String
  corners : Corners K
  -- The corners from which the present drag started.
  saved : Corners K
  order : Option FaceOrder
  -- The paint stack, the bottom side first.
  sides : List (Side K)
  link : Link

namespace Box

variable {K : Type} [Scalar K]

-- The depth of a box that has not been pulled out of the ground plane yet.
def initialDepth : K := 0.25

-- A box with its sides in the order of their slots, in no perspective.
def ofCorners (id : String) (corners : Corners K) : Box K where
  id := id
  corners := corners
  saved := corners
  order := none
  sides := ((List.range Face.count).filterMap Face.ofSlot?).map Side.ofFace
  link := .none

-- A replaced corner is also the new start of a drag.
def setNear (b : Box K) (p : HPoint3 K) : Box K :=
  { b with corners.near := p, saved.near := p }

def setFar (b : Box K) (p : HPoint3 K) : Box K :=
  { b with corners.far := p, saved.far := p }

-- Takes the present corners, normalized, as the start of a drag.
def saveCorners (b : Box K) : Box K :=
  { b with corners := b.corners.normalized, saved := b.corners.normalized }

def beginDrag (b : Box K) : Box K := b.saveCorners

def cancelDrag (b : Box K) : Box K := { b with corners := b.saved }

def relabel (b : Box K) : Box K := { b with corners := b.corners.relabeled }

def side? (b : Box K) (slot : Nat) : Option (Side K) := b.sides.find? fun s => s.slot == slot

-- Restyles the side in a slot.
def setStyle (b : Box K) (slot : Nat) (style : Option String) : Box K :=
  { b with sides := b.sides.map fun s => if s.slot = slot then { s with style := style } else s }

-- The slots of the paint stack, bottom first.
def paintOrder (b : Box K) : List Nat := b.sides.map Side.slot

-- Takes the first side of a slot out of the stack and puts it at the bottom.
def lowered (sides : List (Side K)) (slot : Nat) : List (Side K) :=
  match sides.find? fun s => s.slot == slot with
  | some s => s :: sides.eraseP fun s => s.slot == slot
  | none => sides

-- Lowering the slots of an order one after the other leaves its first one on top.
def restacked (sides : List (Side K)) (order : FaceOrder) : List (Side K) :=
  order.foldl lowered sides

-- Computes the face order anew. Tells whether it is another one than before.
def recomputeOrder (b : Box K) (m : Projection K) (strategy : OrderStrategy) : Bool × Box K :=
  let order := b.corners.faceOrder m strategy
  if b.order = some order then (false, b) else (true, { b with order := some order })

-- Computes the face order anew and restacks the sides if it changed.
def updateOrder (b : Box K) (m : Projection K) (strategy : OrderStrategy) : Bool × Box K :=
  let order := b.corners.faceOrder m strategy
  if b.order = some order then (false, b)
  else (true, { b with order := some order, sides := restacked b.sides order })

-- Redraws all sides.
def redraw (b : Box K) (m : Projection K) : Box K :=
  { b with sides := b.sides.map fun s => s.redrawn b.corners m }

-- How many sides have a shape in this projection.
def drawableCount (b : Box K) (m : Projection K) : Nat :=
  b.sides.countP fun s => (s.shape? b.corners m).isSome

def update (b : Box K) (m : Projection K) (strategy : OrderStrategy) : Box K :=
  ((b.redraw m).updateOrder m strategy).2

end Box

end PerspectiveBox
