namespace PerspectiveBox

inductive Axis where
  | x | y | z
  deriving DecidableEq, Repr

-- The four homogeneous coordinates of space. A projection has a column for each: the vanishing
-- point of an axis, or the image of the origin for the weight `w`.
inductive Coord where
  | x | y | z | w
  deriving DecidableEq, Repr

namespace Axis

def all : List Axis := [x, y, z]

def coord : Axis → Coord
  | x => .x
  | y => .y
  | z => .z

instance : Coe Axis Coord := ⟨coord⟩

end Axis

namespace Coord

def all : List Coord := [x, y, z, w]

def index : Coord → Nat
  | x => 0
  | y => 1
  | z => 2
  | w => 3

def name : Coord → String
  | x => "X"
  | y => "Y"
  | z => "Z"
  | w => "W"

def axis? : Coord → Option Axis
  | x => some .x
  | y => some .y
  | z => some .z
  | w => none

end Coord

-- A set of axes serves as a plane, as the name of a box corner, and as the freedom of a drag.
structure AxisSet where
  hasX : Bool
  hasY : Bool
  hasZ : Bool
  deriving DecidableEq, Repr

namespace AxisSet

@[match_pattern] abbrev empty : AxisSet := ⟨false, false, false⟩
@[match_pattern] abbrev x : AxisSet := ⟨true, false, false⟩
@[match_pattern] abbrev y : AxisSet := ⟨false, true, false⟩
@[match_pattern] abbrev z : AxisSet := ⟨false, false, true⟩
@[match_pattern] abbrev xy : AxisSet := ⟨true, true, false⟩
@[match_pattern] abbrev xz : AxisSet := ⟨true, false, true⟩
@[match_pattern] abbrev yz : AxisSet := ⟨false, true, true⟩
@[match_pattern] abbrev xyz : AxisSet := ⟨true, true, true⟩

def single : Axis → AxisSet
  | .x => x
  | .y => y
  | .z => z

def has (s : AxisSet) : Axis → Bool
  | .x => s.hasX
  | .y => s.hasY
  | .z => s.hasZ

-- The axes of the set in order.
def axes (s : AxisSet) : List Axis := Axis.all.filter s.has

-- The set as a number: one bit an axis, from X up. Higher bits of a number are passed over.
def bits (s : AxisSet) : Nat := s.hasX.toNat + 2 * s.hasY.toNat + 4 * s.hasZ.toNat

def ofBits (n : Nat) : AxisSet := ⟨n.testBit 0, n.testBit 1, n.testBit 2⟩

instance : XorOp AxisSet :=
  ⟨fun a b => ⟨a.hasX ^^ b.hasX, a.hasY ^^ b.hasY, a.hasZ ^^ b.hasZ⟩⟩

instance : AndOp AxisSet :=
  ⟨fun a b => ⟨a.hasX && b.hasX, a.hasY && b.hasY, a.hasZ && b.hasZ⟩⟩

instance : OrOp AxisSet :=
  ⟨fun a b => ⟨a.hasX || b.hasX, a.hasY || b.hasY, a.hasZ || b.hasZ⟩⟩

def isEmpty (s : AxisSet) : Bool := s == empty

-- Whether every axis of `t` is in `s`.
def includes (s t : AxisSet) : Bool := (s &&& t) == t

def meets (s t : AxisSet) : Bool := !(s &&& t).isEmpty

def size (s : AxisSet) : Nat := s.axes.length

def isSingle (s : AxisSet) : Bool := s.size == 1

def isPlane (s : AxisSet) : Bool := s.size == 2

-- The other axes: a plane goes to its normal, an axis to the plane orthogonal to it.
def complement (s : AxisSet) : AxisSet := ⟨!s.hasX, !s.hasY, !s.hasZ⟩

-- What is left beside two axes.
def third (a b : AxisSet) : AxisSet := (a ||| b).complement

def first? (s : AxisSet) : Option Axis := s.axes.head?

def second? (s : AxisSet) : Option Axis := s.axes[1]?

-- The lowest axis outside the set.
def perpendicular? (s : AxisSet) : Option Axis := s.complement.first?

def axis? : AxisSet → Option Axis
  | x => some .x
  | y => some .y
  | z => some .z
  | _ => none

-- The axes beside a single axis, in order.
def remaining? : AxisSet → Option (Axis × Axis)
  | x => some (.y, .z)
  | y => some (.x, .z)
  | z => some (.x, .y)
  | _ => none

instance : LT AxisSet := ⟨fun a b => a.bits < b.bits⟩

instance : DecidableLT AxisSet := fun a b => inferInstanceAs (Decidable (a.bits < b.bits))

def name (s : AxisSet) : String :=
  if s.isEmpty then "NONE" else String.join (s.axes.map fun a => a.coord.name)

-- The name with its kind, as a key or a mask is shown in a trace.
def tag (s : AxisSet) : String := "AxisMask(" ++ s.name ++ ")"

end AxisSet

end PerspectiveBox
