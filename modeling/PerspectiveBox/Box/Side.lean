import PerspectiveBox.Box.Corners
import PerspectiveBox.Box.Face
import PerspectiveBox.Error
import PerspectiveBox.Json.Value
import PerspectiveBox.Number.Numeral

namespace PerspectiveBox

abbrev SidePath (K : Type) := Quad (Point K)

-- A side without its box, as an ordinary path.
structure PlainPath where
  d : String
  style : Option String
  deriving DecidableEq, Repr

-- A path with its data, and with a style if it has one.
def PlainPath.toJson (p : PlainPath) : Json :=
  .record (("d", .text p.d) :: p.style.toList.map fun style => ("style", .text style))

structure Side (K : Type) where
  face : Face
  path : Option (SidePath K)
  style : Option String

namespace Side

def ofFace {K : Type} (f : Face) : Side K := ⟨f, none, none⟩

def ofCode {K : Type} (code : Int) : Except SceneError (Side K) :=
  match Face.ofCode? code with
  | some f => .ok (ofFace f)
  | none => .error (.invalidSideType code)

def slot {K : Type} (s : Side K) : Nat := s.face.slot

variable {K : Type} [Scalar K]

def corners (s : Side K) (c : Corners K) : Quad (HPoint3 K) := s.face.cornerIds.map c.corner

-- The quadrilateral on screen, if all four corners can be displayed.
def shape? (s : Side K) (c : Corners K) (m : Projection K) : Option (SidePath K) := do
  let corners := s.corners c
  return ⟨← (m.image corners.a).point?, ← (m.image corners.b).point?,
    ← (m.image corners.c).point?, ← (m.image corners.d).point?⟩

def shape (s : Side K) (c : Corners K) (m : Projection K) : Except SceneError (SidePath K) :=
  match s.shape? c m with
  | some path => .ok path
  | none => .error (.nonFiniteCorner s.slot)

-- Follows the box. Where there is no new shape, the last one stays.
def redrawn (s : Side K) (c : Corners K) (m : Projection K) : Side K :=
  { s with path := s.shape? c m <|> s.path }

end Side

section PathData

variable {K : Type} [Numeric K]

-- One move, three lines and a close.
def SidePath.data (p : SidePath K) : String :=
  let point (command : String) (q : Point K) : String :=
    command ++ " " ++ (Numeric.toNumeral q.x).text ++ "," ++ (Numeric.toNumeral q.y).text ++ " "
  point "M" p.a ++ point "L" p.b ++ point "L" p.c ++ point "L" p.d ++ "Z"

def Side.pathData? (s : Side K) : Option String := s.path.map SidePath.data

def Side.toPlainPath (s : Side K) : PlainPath := ⟨s.pathData?.getD "", s.style⟩

end PathData

end PerspectiveBox
