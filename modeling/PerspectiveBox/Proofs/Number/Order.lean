import PerspectiveBox.Proofs.Number.Length

namespace PerspectiveBox

open Scalar

def Scalar.IsNumber {K : Type} [Scalar K] (x : K) : Prop := (x == x) = true

instance {K : Type} [Scalar K] (x : K) : Decidable (IsNumber x) :=
  inferInstanceAs (Decidable ((x == x) = true))

-- What is no number stands outside of the order, so nothing is asked of it but that the order is
-- strict.
class OrdersNumbers (K : Type) [Scalar K] : Prop where
  isNumber_one : IsNumber (1 : K)
  asymm {x y : K} : x < y → ¬ y < x
  le_of_not_lt {x y : K} : IsNumber x → IsNumber y → ¬ x < y → y ≤ x
  beq_of_not_lt {x y : K} : IsNumber x → IsNumber y → ¬ x < y → ¬ y < x → (x == y) = true

theorem Exact.isRational_of_isNumber {x : Exact} (h : IsNumber x) : x.IsRational := by
  cases x with
  | rational q => exact ⟨q, rfl⟩
  | undefined => cases h

instance : OrdersNumbers Exact where
  isNumber_one := rfl
  asymm {x y} hxy hyx := by
    cases x with
    | undefined => exact hxy
    | rational p =>
      cases y with
      | undefined => exact hxy
      | rational q => exact lt_asymm ((Exact.rational_lt p q).1 hxy) ((Exact.rational_lt q p).1 hyx)
  le_of_not_lt hx hy h := by
    obtain ⟨p, rfl⟩ := Exact.isRational_of_isNumber hx
    obtain ⟨q, rfl⟩ := Exact.isRational_of_isNumber hy
    rw [Exact.rational_lt] at h
    exact (Exact.rational_le q p).2 (not_lt.1 h)
  beq_of_not_lt hx hy hxy hyx := by
    obtain ⟨p, rfl⟩ := Exact.isRational_of_isNumber hx
    obtain ⟨q, rfl⟩ := Exact.isRational_of_isNumber hy
    rw [Exact.rational_lt] at hxy hyx
    rw [Exact.rational_beq, beq_iff_eq]
    exact le_antisymm (not_lt.1 hyx) (not_lt.1 hxy)

namespace Double

open Float.Model

theorem beq_eq_compare (x y : UnpackedFloat) : x.beq y = (x.compare y == some .eq) := rfl

theorem beq_iff_rank (x y : UnpackedFloat) :
    x.beq y = true ↔ ∃ k, rank x = some k ∧ rank y = some k := by
  rw [beq_eq_compare]
  rcases x with (_ | _) | _ | _ | ⟨_ | _, m, e, _⟩ <;>
    rcases y with (_ | _) | _ | _ | ⟨_ | _, n, f, _⟩ <;>
    dsimp only [UnpackedFloat.compare, rank] <;>
    simp
  · rfl
  · rfl
  · exact and_congr eq_comm eq_comm
  · exact and_congr eq_comm eq_comm

theorem le_iff_rank (x y : UnpackedFloat) :
    x.le y = true ↔ ∃ k l, rank x = some k ∧ rank y = some l ∧ k ≤ l := by
  have hle : x.le y = true ↔ x.lt y = true ∨ x.beq y = true := by
    rw [UnpackedFloat.le, UnpackedFloat.lt, beq_eq_compare]
    cases x.compare y with
    | none => simp
    | some o => cases o <;> decide
  rw [hle, lt_iff_rank, beq_iff_rank]
  constructor
  · rintro (⟨k, l, hk, hl, hlt⟩ | ⟨k, hk, hl⟩)
    · exact ⟨k, l, hk, hl, hlt.le⟩
    · exact ⟨k, k, hk, hl, le_refl k⟩
  · rintro ⟨k, l, hk, hl, hle⟩
    rcases hle.lt_or_eq with hlt | rfl
    · exact .inl ⟨k, l, hk, hl, hlt⟩
    · exact .inr ⟨k, hk, hl⟩

theorem float_lt_iff (x y : Float) :
    x < y ↔ ∃ k l, rank x.toModel.unpack = some k ∧ rank y.toModel.unpack = some l ∧ k < l := by
  rw [← lt_iff_rank]
  exact decide_eq_true_iff

theorem float_le_iff (x y : Float) :
    x ≤ y ↔ ∃ k l, rank x.toModel.unpack = some k ∧ rank y.toModel.unpack = some l ∧ k ≤ l := by
  rw [← le_iff_rank]
  exact decide_eq_true_iff

theorem exists_rank {x : Float} (h : IsNumber x) : ∃ k, rank x.toModel.unpack = some k := by
  obtain ⟨k, hk, -⟩ := (beq_iff_rank _ _).1 h
  exact ⟨k, hk⟩

instance : OrdersNumbers Float where
  isNumber_one := by
    show ((1 : Float) == 1) = true
    decide
  asymm {x y} hxy hyx := by
    rw [float_lt_iff] at hxy hyx
    obtain ⟨k, l, hx, hy, hkl⟩ := hxy
    obtain ⟨l', k', hy', hx', hlk⟩ := hyx
    obtain rfl := Option.some.inj (hx.symm.trans hx')
    obtain rfl := Option.some.inj (hy.symm.trans hy')
    exact lt_asymm hkl hlk
  le_of_not_lt {x y} hx hy h := by
    obtain ⟨k, hk⟩ := exists_rank hx
    obtain ⟨l, hl⟩ := exists_rank hy
    have hlk : l ≤ k := not_lt.1 fun hkl => h ((float_lt_iff x y).2 ⟨k, l, hk, hl, hkl⟩)
    exact (float_le_iff y x).2 ⟨l, k, hl, hk, hlk⟩
  beq_of_not_lt {x y} hx hy hxy hyx := by
    obtain ⟨k, hk⟩ := exists_rank hx
    obtain ⟨l, hl⟩ := exists_rank hy
    have hlk : l ≤ k := not_lt.1 fun hkl => hxy ((float_lt_iff x y).2 ⟨k, l, hk, hl, hkl⟩)
    have hkl : k ≤ l := not_lt.1 fun hlk => hyx ((float_lt_iff y x).2 ⟨l, k, hl, hk, hlk⟩)
    obtain rfl := le_antisymm hkl hlk
    exact (beq_iff_rank _ _).2 ⟨k, hk, hl⟩

end Double

end PerspectiveBox
