import PerspectiveBox.Number.Scalar
import PerspectiveBox.Number.Numeral
import PerspectiveBox.Number.Shortest

namespace PerspectiveBox.Double

instance : Scalar Float where
  zero := 0
  one := 1
  decidableLT := fun x y => inferInstanceAs (Decidable (x < y))
  decidableLE := fun x y => inferInstanceAs (Decidable (x ≤ y))
  sin := Float.sin
  cos := Float.cos
  atan2 := Float.atan2
  Length := Float
  norm x y := Float.sqrt (x * x + y * y)
  scaleLength length k := length * k
  lengthOf := id
  lengthRatio := (· / ·)
  lengthLT x y := x < y
  lengthLE x y := x ≤ y

def negative (x : Float) : Bool := x.toBits >>> 63 = 1

def exponentField (x : Float) : Nat := (x.toBits >>> 52).toNat % 2048

def fractionField (x : Float) : Nat := x.toBits.toNat % Nat.pow 2 52

-- A finite double is `mantissa * 2 ^ exponent` up to its sign. The smallest exponent is shared
-- by the numbers without the leading bit.
def mantissa (x : Float) : Nat :=
  if exponentField x = 0 then fractionField x else Nat.pow 2 52 + fractionField x

def exponent (x : Float) : Int := max (exponentField x) 1 - 1075

-- The numbers below a power of two lie closer together, except at the end of the range.
def narrowBelow (x : Float) : Bool := fractionField x = 0 ∧ 1 < exponentField x

def toNumeral (x : Float) : Numeral :=
  if x.isNaN then .notANumber
  else if x.isInf then .infinite (negative x)
  else if mantissa x = 0 then .decimal (negative x) 0 0
  else
    let (units, exponent) := Shortest.decimal (mantissa x) (exponent x) (narrowBelow x)
    .decimal (negative x) units exponent

def signed (negative : Bool) (x : Float) : Float := if negative then -x else x

-- Every double lies between the three hundred and tenth power of ten and the inverse of a power
-- somewhat larger, so numerals far outside need no arithmetic.
def ofNumeral : Numeral → Float
  | .decimal negative units exponent =>
    let magnitude := (Numeral.digitsOf units).length + exponent
    signed negative <|
      if units = 0 ∨ magnitude < -330 then 0
      else if 330 < magnitude then 1 / 0
      else Float.ofScientific units (exponent < 0) exponent.natAbs
  | .infinite negative => signed negative (1 / 0)
  | .notANumber => 0 / 0

instance : Numeric Float := ⟨toNumeral, ofNumeral⟩

end PerspectiveBox.Double
