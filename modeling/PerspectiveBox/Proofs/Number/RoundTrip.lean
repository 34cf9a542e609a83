import PerspectiveBox.Proofs.Number.Positional
import PerspectiveBox.Proofs.Number.Reading
import PerspectiveBox.Proofs.Number.Shortest

namespace PerspectiveBox.Double

open Float.Model UnpackedFloat

theorem narrowBelow_of_power {x : Float} (hm : mantissa x = 2 ^ 52) (he : -1074 < exponent x) :
    narrowBelow x = true := by
  have hfraction := fractionField_lt x
  rw [exponent] at he
  rw [mantissa, if_neg (by omega)] at hm
  refine decide_eq_true ⟨?_, by omega⟩
  exact Nat.add_left_cancel (hm.trans (Nat.add_zero _).symm)

theorem toNumeral_eq (x : Float) : toNumeral x =
    if exponentField x = 2047 then
      if fractionField x = 0 then .infinite (negative x) else .notANumber
    else if mantissa x = 0 then .decimal (negative x) 0 0
    else
      let (units, exponent) := Shortest.decimal (mantissa x) (exponent x) (narrowBelow x)
      .decimal (negative x) units exponent := by
  rw [toNumeral, isNaN_eq, isInf_eq, unpack_eq]
  split
  · split <;> rfl
  · split <;> rfl

theorem isFinite_of_toNumeral {x : Float} {negative : Bool} {units : Nat} {e : Int}
    (h : toNumeral x = .decimal negative units e) : x.isFinite = true := by
  rw [toNumeral_eq] at h
  show x.toModel.unpack.isFinite = true
  rw [unpack_eq]
  split at h
  · split at h <;> cases h
  · next hfinite =>
    rw [if_neg hfinite]
    split <;> rfl

-- Any numeral of the same number is read as the double.
theorem ofNumeral_of_sameNumber {x : Float} {n : Numeral}
    (h : Numeral.SameNumber (toNumeral x) n) : ofNumeral n = x := by
  rw [toNumeral_eq] at h
  split at h
  · next htop =>
    split at h
    · next hzero =>
      obtain ⟨⟩ := h
      have hunpack : x.toModel.unpack = .infinity (sign x) := by
        rw [unpack_eq, if_pos htop, if_pos hzero]
      rw [ofNumeral, signed_infinity, ← hunpack, ofUnpacked_unpack]
    · next hne =>
      obtain ⟨⟩ := h
      have hunpack : x.toModel.unpack = .notANumber := by
        rw [unpack_eq, if_pos htop, if_neg hne]
      rw [ofNumeral, zero_div_zero, ← hunpack, ofUnpacked_unpack]
  · next hfinite =>
    split at h
    · next hzero =>
      cases h with
      | @decimal _ _ units _ e hvalue =>
        have hunits : units = 0 := by
          rw [Nat.cast_zero, zero_mul, zero_eq_mul] at hvalue
          exact_mod_cast hvalue.resolve_right (zpow_ne_zero e (by norm_num))
        rw [hunits, ofNumeral_zero hfinite hzero]
    · next hne =>
      obtain ⟨_, hvalue⟩ := h
      obtain ⟨w, hw, hdecimal⟩ := Shortest.decimal_nearest (canonical x) (Nat.pos_of_ne_zero hne)
        (fun hm he => narrowBelow_of_power hm he)
      exact ofNumeral_decimal hfinite hw (hvalue.symm.trans hdecimal)

theorem map_ofChars?_chars (x : Float) :
    (Numeral.ofChars? (toNumeral x).chars).map ofNumeral = some x := by
  obtain ⟨n, hliteral, hsame⟩ := Numeral.exists_literal_chars (toNumeral x)
  rw [hliteral.ofChars?_eq, Option.map_some, ofNumeral_of_sameNumber hsame]

end PerspectiveBox.Double
