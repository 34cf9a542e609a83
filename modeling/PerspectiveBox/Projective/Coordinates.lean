import PerspectiveBox.Number.Numeral
import PerspectiveBox.Projective.Projection
import PerspectiveBox.Text.Blank
import PerspectiveBox.Text.Quoted

namespace PerspectiveBox

-- Why a text is not a point.
inductive CoordError where
  | empty
  -- A point with this many coordinates beside the weight, and the number of parts found instead.
  | componentCount (dimension found : Nat)
  | notANumber (index : Nat) (text : String)
  deriving DecidableEq, Repr

def CoordError.message : CoordError → String
  | empty => "coordinate string is empty"
  | componentCount dimension found =>
    "expected " ++ toString dimension ++ " or " ++ toString (dimension + 1) ++
      " components, found " ++ toString found
  | notANumber index text =>
    "component " ++ toString index ++ " is not a number: " ++ Text.quoted text

variable {K : Type} [Scalar K] [Numeric K]

namespace CoordText

-- The parts of a text, without the white space around them.
def parts (s : List Char) : List (List Char) := (Text.splitOn ':' s).map Text.trim

def isBlank (s : List Char) : Bool := (Text.trim s).isEmpty

def number (index : Nat) (part : List Char) : Except CoordError K :=
  match Numeral.ofChars? part with
  | some n => .ok (Numeric.ofNumeral n)
  | none => .error (.notANumber index (String.ofList part))

-- The numbers that the parts stand for, from the part of this index on.
def numbers (index : Nat) : List (List Char) → Except CoordError (List K)
  | [] => .ok []
  | part :: parts => do
    let x ← number index part
    let xs ← numbers (index + 1) parts
    return x :: xs

-- Points of either kind are read like this, each with its number of coordinates beside the weight.
-- A weight that is left out is one.
def components? (dimension : Nat) (s : List Char) : Except CoordError (List K) :=
  if isBlank s then .error .empty
  else if (parts s).length = dimension then (numbers 0 (parts s)).map (· ++ [1])
  else if (parts s).length = dimension + 1 then numbers 0 (parts s)
  else .error (.componentCount dimension (parts s).length)

def write (components : List K) : List Char :=
  List.intercalate [' ', ':', ' '] (components.map fun k => (Numeric.toNumeral k).chars)

end CoordText

open CoordText

-- There are always three components here, and four for a point of space, so no default is taken.
def HPoint2.ofComponents (c : List K) : HPoint2 K := ⟨c.getD 0 1, c.getD 1 1, c.getD 2 1⟩

def HPoint2.ofChars (s : List Char) : Except CoordError (HPoint2 K) :=
  (components? 2 s).map ofComponents

def HPoint2.ofText (s : String) : Except CoordError (HPoint2 K) := ofChars s.toList

def HPoint2.components (p : HPoint2 K) : List K := [p.x, p.y, p.w]

def HPoint2.chars (p : HPoint2 K) : List Char := write p.components

def HPoint2.text (p : HPoint2 K) : String := String.ofList p.chars

def HPoint3.ofComponents (c : List K) : HPoint3 K :=
  ⟨c.getD 0 1, c.getD 1 1, c.getD 2 1, c.getD 3 1⟩

def HPoint3.ofChars (s : List Char) : Except CoordError (HPoint3 K) :=
  (components? 3 s).map ofComponents

def HPoint3.ofText (s : String) : Except CoordError (HPoint3 K) := ofChars s.toList

def HPoint3.components (p : HPoint3 K) : List K := [p.x, p.y, p.z, p.w]

def HPoint3.chars (p : HPoint3 K) : List Char := write p.components

def HPoint3.text (p : HPoint3 K) : String := String.ofList p.chars

-- The columns of a projection, each after the name of its coordinate.
def Projection.text (m : Projection K) : String :=
  String.intercalate " | " (Coord.all.map fun c => c.name ++ ": " ++ (m.column c).text)

end PerspectiveBox
