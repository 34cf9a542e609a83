import PerspectiveBox.Projective.Vanishing
import PerspectiveBox.Scene.Key

namespace PerspectiveBox

inductive VpState where
  | finite
  | infinite
  deriving DecidableEq, Repr

structure Perspective (K : Type) where
  id : String
  map : Projection K
  -- In the order in which they were attached.
  boxes : List BoxKey

namespace Perspective

variable {K : Type} [Scalar K]

-- The perspective of a fresh page: X vanishes at the left edge and Z at the right one, Y is
-- vertical and parallel, and the origin lies in the upper middle.
def forDocument (id : String) (width height : K) : Perspective K where
  id := id
  map :=
    { vpX := ⟨0, height / 2.0, 1⟩
      vpY := ⟨0, 1000.0, 0⟩
      vpZ := ⟨width, height / 2.0, 1⟩
      origin := ⟨width / 2.0, height / 3.0, 1⟩ }
  boxes := []

def hasBox (p : Perspective K) (key : BoxKey) : Bool := p.boxes.contains key

def addBox (p : Perspective K) (key : BoxKey) : Perspective K :=
  if p.hasBox key then p else { p with boxes := p.boxes ++ [key] }

def removeBox (p : Perspective K) (key : BoxKey) : Perspective K :=
  { p with boxes := p.boxes.filter (· ≠ key) }

def vpState (p : Perspective K) (c : Coord) : VpState :=
  if p.map.isFinite c then .finite else .infinite

def infiniteDirection? (p : Perspective K) (c : Coord) : Option (Vec K) :=
  if p.map.isFinite c then none else some (p.map.column c).direction

-- Each change of a vanishing point tells whether it took place.
def changed (p : Perspective K) : Option (Projection K) → Bool × Perspective K
  | some map => (true, { p with map := map })
  | none => (false, p)

def toggle (p : Perspective K) (c : Coord) : Bool × Perspective K :=
  p.changed (p.map.toggled? c)

def setState (p : Perspective K) (c : Coord) (state : VpState) : Bool × Perspective K :=
  if p.vpState c = state then (false, p) else p.toggle c

-- Turns an infinite vanishing point by an angle in degrees. A fine turn is by half a degree in
-- the direction of the angle.
def rotate (p : Perspective K) (c : Coord) (angle : K) (fine : Bool) : Bool × Perspective K :=
  let step :=
    if fine then if 0 < angle then 0.5 else if angle < 0 then -0.5 else 0
    else angle
  p.changed (p.map.rotated? c step)

def setVp (p : Perspective K) (c : Coord) (vp : HPoint2 K) : Perspective K :=
  { p with map := p.map.setColumn c vp }

def applyAffine (p : Perspective K) (f : Affine K) : Perspective K :=
  { p with map := p.map.applyAffine f }

-- Whether both project in the same way.
def coincides (p q : Perspective K) : Bool := p.map == q.map

end Perspective

end PerspectiveBox
