namespace PerspectiveBox

-- A number system for plane and space geometry, which is written once over it: drawing runs it in
-- double precision, and exact rationals say what the picture is apart from rounding. Equality `==`,
-- `<` and `≤` are the tests the geometry makes; they need not be total, since a double may be no
-- number at all.
-- Lengths of plane vectors form a type of their own. Only comparing and scaling are asked of
-- them, so a number system without square roots can hold them as signed squares.
class Scalar (K : Type) extends Zero K, One K, Add K, Sub K, Mul K, Div K, Neg K, BEq K,
    LT K, LE K, OfScientific K where
  [decidableLT : DecidableLT K]
  [decidableLE : DecidableLE K]
  sin : K → K
  cos : K → K
  atan2 : K → K → K
  Length : Type
  norm : K → K → Length
  scaleLength : Length → K → Length
  lengthOf : K → Length
  lengthRatio : Length → Length → K
  lengthLT : Length → Length → Bool
  lengthLE : Length → Length → Bool

attribute [reducible, instance] Scalar.decidableLT Scalar.decidableLE

namespace Scalar

variable {K : Type} [Scalar K]

-- Determinants, denominators and weights below this count as zero.
def epsilon : K := 1e-6

-- What lies beyond every number.
def infinity : K := 1 / 0

-- A number cancels against itself; an infinity or a non-number does not.
def isFinite (x : K) : Bool := x - x == 0

def abs (x : K) : K := if x < 0 then -x else x

-- The larger of two numbers. An operand that is no number (it differs from itself) is passed over.
def larger (x y : K) : K := if x == x then if x < y then y else x else y

-- Degrees and radians.
def toDegrees (x : K) : K := x * 57.29577951308232

def toRadians (x : K) : K := x * 0.017453292519943295

end Scalar

end PerspectiveBox
