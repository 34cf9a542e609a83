import PerspectiveBox.Number.Scalar

namespace PerspectiveBox

-- A quotient by zero is undefined, and so is everything computed from it. What is undefined
-- differs from itself and stands in no order, so it is never taken for a number.
inductive Exact where
  | rational (q : Rat)
  | undefined
  deriving Repr

namespace Exact

private def map₂ (f : Rat → Rat → Exact) : Exact → Exact → Exact
  | rational p, rational q => f p q
  | _, _ => undefined

private def compare (r : Rat → Rat → Prop) : Exact → Exact → Prop
  | rational p, rational q => r p q
  | _, _ => False

private def decideCompare (r : Rat → Rat → Prop) (h : ∀ p q, Decidable (r p q)) :
    (x y : Exact) → Decidable (compare r x y)
  | rational p, rational q => h p q
  | rational _, undefined => .isFalse id
  | undefined, _ => .isFalse id

instance : Add Exact := ⟨map₂ fun p q => rational (p + q)⟩

instance : Sub Exact := ⟨map₂ fun p q => rational (p - q)⟩

instance : Mul Exact := ⟨map₂ fun p q => rational (p * q)⟩

instance : Div Exact := ⟨map₂ fun p q => if q = 0 then undefined else rational (p / q)⟩

instance : LT Exact := ⟨compare (· < ·)⟩

instance : LE Exact := ⟨compare (· ≤ ·)⟩

instance : Neg Exact where
  neg
    | rational q => rational (-q)
    | undefined => undefined

instance : BEq Exact where
  beq
    | rational p, rational q => p == q
    | _, _ => false

instance : OfScientific Exact := ⟨fun m s e => rational (OfScientific.ofScientific m s e)⟩

-- A number times its own size: squares with the sign of what was squared. They compare as the
-- numbers do.
def signedSquare : Exact → Exact
  | rational q => rational (if q < 0 then -(q * q) else q * q)
  | undefined => undefined

-- Signed squares of lengths. No square root is taken, so the ratio of two lengths has no value;
-- nor have the functions of an angle. An undefined length counts as infinite.
instance : Scalar Exact where
  zero := rational 0
  one := rational 1
  decidableLT := decideCompare (· < ·) fun _ _ => inferInstance
  decidableLE := decideCompare (· ≤ ·) fun _ _ => inferInstance
  sin _ := undefined
  cos _ := undefined
  atan2 _ _ := undefined
  Length := Exact
  norm x y := x * x + y * y
  scaleLength length k := length * signedSquare k
  lengthOf := signedSquare
  lengthRatio _ _ := undefined
  lengthLT
    | rational p, rational q => p < q
    | rational _, undefined => true
    | undefined, _ => false
  lengthLE
    | rational p, rational q => p ≤ q
    | _, undefined => true
    | undefined, rational _ => false

variable (p q : Rat)

theorem rational_add : rational p + rational q = rational (p + q) := rfl

theorem rational_sub : rational p - rational q = rational (p - q) := rfl

theorem rational_mul : rational p * rational q = rational (p * q) := rfl

theorem rational_neg : -rational q = rational (-q) := rfl

theorem rational_div (h : q ≠ 0) : rational p / rational q = rational (p / q) := if_neg h

theorem rational_lt : rational p < rational q ↔ p < q := Iff.rfl

theorem rational_le : rational p ≤ rational q ↔ p ≤ q := Iff.rfl

theorem rational_beq : (rational p == rational q) = (p == q) := rfl

theorem isFinite_rational : Scalar.isFinite (rational q) = true := by
  show (q - q == 0) = true
  exact beq_iff_eq.2 Rat.sub_self

end Exact

end PerspectiveBox
