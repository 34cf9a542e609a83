import Mathlib.Data.Prod.Lex
import PerspectiveBox.Number.Double
import PerspectiveBox.Proofs.Exact

namespace PerspectiveBox

open Scalar

-- Lengths need not be in a total order, since one that is no number stands in no order. This is
-- enough to find a smallest one.
class OrdersLengths (K : Type) [Scalar K] : Prop where
  irrefl (a : Length K) : lengthLT a a = false
  trans {a b c : Length K} : lengthLT a b = true → lengthLT b c = true → lengthLT a c = true
  below_infinity {a b : Length K} :
    lengthLT a b = true → lengthLT a (lengthOf (infinity : K)) = true

instance : OrdersLengths Exact where
  irrefl a := by
    cases a with
    | rational p => exact decide_eq_false (lt_irrefl p)
    | undefined => rfl
  trans {a b c} hab hbc := by
    cases a with
    | undefined => cases hab
    | rational p =>
      cases b with
      | undefined => cases hbc
      | rational q =>
        cases c with
        | undefined => rfl
        | rational r => exact decide_eq_true ((of_decide_eq_true hab).trans (of_decide_eq_true hbc))
  below_infinity {a b} h := by
    cases a with
    | undefined => cases h
    | rational p => rfl

namespace Double

open Float.Model

-- Where a number stands: first by its sign and whether it is finite, then by its size.
def rank : UnpackedFloat → Option (Int ×ₗ Int ×ₗ Int)
  | .notANumber => none
  | .infinity .negative => some (toLex (-2, toLex (0, 0)))
  | .finite .negative m e _ => some (toLex (-1, toLex (-e, -m)))
  | .zero _ => some (toLex (0, toLex (0, 0)))
  | .finite .positive m e _ => some (toLex (1, toLex (e, m)))
  | .infinity .positive => some (toLex (2, toLex (0, 0)))

theorem lt_iff_rank (x y : UnpackedFloat) :
    x.lt y = true ↔ ∃ k l, rank x = some k ∧ rank y = some l ∧ k < l := by
  have hsign : compare UnpackedFloat.Sign.negative .positive = .lt := rfl
  rcases x with (_ | _) | _ | _ | ⟨_ | _, m, e, _⟩ <;>
    rcases y with (_ | _) | _ | _ | ⟨_ | _, n, f, _⟩ <;>
    dsimp only [UnpackedFloat.lt, UnpackedFloat.compare, rank] <;>
    simp [Prod.Lex.toLex_lt_toLex, hsign]
  · rw [Ordering.then_eq_gt, compare_gt_iff_gt, compare_eq_iff_eq, compare_gt_iff_gt]
  · rw [Ordering.then_eq_lt, compare_lt_iff_lt, compare_eq_iff_eq, compare_lt_iff_lt]

theorem lt_infinity_of_lt {x y : UnpackedFloat} (h : x.lt y = true) :
    x.lt (.infinity .positive) = true := by
  rcases x with (_ | _) | _ | _ | _
  · rfl
  · rcases y with (_ | _) | _ | _ | _ <;> cases h
  · cases h
  · rfl
  · rfl

theorem lengthLT_iff (x y : Float) :
    lengthLT (K := Float) x y = true ↔ x.toModel.unpack.lt y.toModel.unpack = true := by
  show decide (x < y) = true ↔ _
  rw [decide_eq_true_iff]
  exact decide_eq_true_iff

instance : OrdersLengths Float where
  irrefl x := by
    rw [Bool.eq_false_iff, ne_eq, lengthLT_iff, lt_iff_rank]
    rintro ⟨k, l, hk, hl, hlt⟩
    obtain rfl := Option.some.inj (hk.symm.trans hl)
    exact lt_irrefl _ hlt
  trans {x y z} hxy hyz := by
    rw [lengthLT_iff, lt_iff_rank] at hxy hyz ⊢
    obtain ⟨k, l, hx, hy, hkl⟩ := hxy
    obtain ⟨l', n, hy', hz, hln⟩ := hyz
    obtain rfl := Option.some.inj (hy.symm.trans hy')
    exact ⟨k, n, hx, hz, hkl.trans hln⟩
  below_infinity {x y} h := by
    rw [lengthLT_iff] at h ⊢
    exact lt_infinity_of_lt h

end Double

end PerspectiveBox
