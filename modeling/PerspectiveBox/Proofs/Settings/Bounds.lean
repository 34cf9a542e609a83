import PerspectiveBox.Proofs.Number.Double
import PerspectiveBox.Proofs.Number.Order
import PerspectiveBox.Proofs.Number.Packing
import PerspectiveBox.Settings.Basic

namespace PerspectiveBox

namespace Double

open Float.Model

-- The bits of zero, apart from the one for the sign.
def IsZero (x : Float) : Prop := x.toBits.toNat % 2 ^ 63 = 0

-- The bits of the numbers above zero: there is no sign, and those of infinity come next.
def IsPositive (x : Float) : Prop := 0 < x.toBits.toNat ∧ x.toBits.toNat < 2047 * 2 ^ 52

instance (x : Float) : Decidable (IsZero x) := inferInstanceAs (Decidable (_ = _))

instance (x : Float) : Decidable (IsPositive x) := inferInstanceAs (Decidable (_ ∧ _))

variable (x : Float)

theorem negative_iff : negative x = true ↔ 2 ^ 63 ≤ x.toBits.toNat := by
  have hlt := x.toBits.toNat_lt
  have htop : (x.toBits >>> 63).toNat = x.toBits.toNat / 2 ^ 63 := by
    rw [UInt64.toNat_shiftRight, Nat.shiftRight_eq_div_pow]
    rfl
  rw [negative, decide_eq_true_iff, ← UInt64.toNat_inj, htop]
  show x.toBits.toNat / 2 ^ 63 = 1 ↔ _
  omega

theorem exponentField_eq_div : exponentField x = x.toBits.toNat / 2 ^ 52 % 2048 := by
  rw [exponentField, UInt64.toNat_shiftRight, Nat.shiftRight_eq_div_pow]
  rfl

theorem mantissa_eq_zero_iff : mantissa x = 0 ↔ exponentField x = 0 ∧ fractionField x = 0 := by
  rw [mantissa, Nat.pow_eq]
  split <;> omega

theorem isZero_iff : IsZero x ↔ exponentField x ≠ 2047 ∧ mantissa x = 0 := by
  rw [mantissa_eq_zero_iff, exponentField_eq_div, fractionField, Nat.pow_eq, IsZero]
  omega

theorem isPositive_iff :
    IsPositive x ↔ exponentField x ≠ 2047 ∧ mantissa x ≠ 0 ∧ negative x = false := by
  have hlt := x.toBits.toNat_lt
  rw [ne_eq (mantissa x), mantissa_eq_zero_iff, ← Bool.not_eq_true, negative_iff,
    exponentField_eq_div, fractionField, Nat.pow_eq, IsPositive]
  omega

theorem isFinite_iff : Scalar.isFinite x = true ↔ exponentField x ≠ 2047 := by
  rw [isFinite_eq, unpack_eq]
  by_cases htop : exponentField x = 2047
  · rw [if_pos htop]
    split <;> simp [htop, UnpackedFloat.isFinite]
  · rw [if_neg htop]
    split <;> simp [htop, UnpackedFloat.isFinite]

theorem rank_zero : rank (0 : Float).toModel.unpack = some (toLex (0, toLex (0, 0))) := rfl

theorem rank_of_finite (h : exponentField x ≠ 2047) : rank x.toModel.unpack =
    some (if mantissa x = 0 then toLex (0, toLex (0, 0))
      else if negative x = true then toLex (-1, toLex (-exponent x, -(mantissa x : Int)))
      else toLex (1, toLex (exponent x, (mantissa x : Int)))) := by
  rw [unpack_eq, if_neg h, sign]
  by_cases hm : mantissa x = 0
  · rw [dif_pos hm, if_pos hm]
    rfl
  · rw [dif_neg hm, if_neg hm]
    cases negative x <;> rfl

theorem zero_lt_iff (h : exponentField x ≠ 2047) :
    0 < x ↔ mantissa x ≠ 0 ∧ negative x = false := by
  rw [float_lt_iff, rank_zero, rank_of_finite x h]
  by_cases hm : mantissa x = 0
  · simp [hm]
  · cases negative x <;> simp [hm, Prod.Lex.toLex_lt_toLex]

theorem zero_le_iff (h : exponentField x ≠ 2047) :
    0 ≤ x ↔ mantissa x = 0 ∨ negative x = false := by
  rw [float_le_iff, rank_zero, rank_of_finite x h]
  by_cases hm : mantissa x = 0
  · simp [hm]
  · cases negative x <;> simp [hm, Prod.Lex.toLex_le_toLex]

-- An infinity is not finite, and what is no number is not finite either.
theorem zero_lt_and_isFinite_iff : 0 < x ∧ Scalar.isFinite x = true ↔ IsPositive x := by
  rw [isFinite_iff, isPositive_iff, and_comm]
  exact and_congr_right (zero_lt_iff x)

theorem zero_le_and_isFinite_iff :
    0 ≤ x ∧ Scalar.isFinite x = true ↔ IsZero x ∨ IsPositive x := by
  rw [isFinite_iff, isZero_iff, isPositive_iff, ← and_or_left, and_comm]
  refine and_congr_right fun h => (zero_le_iff x h).trans ?_
  rw [or_and_left]
  exact (and_iff_right (em _)).symm

end Double

namespace Settings

-- Settings in range, by the bits of their numbers.
structure InBounds (s : Settings Float) : Prop where
  snapThreshold : Double.IsZero s.snapThreshold ∨ Double.IsPositive s.snapThreshold
  zoom : Double.IsPositive s.zoom
  documentWidth : Double.IsPositive s.documentWidth
  documentHeight : Double.IsPositive s.documentHeight

-- What is out of range, of the settings in their order the first.
inductive HasFault (s : Settings Float) : SettingsFault → Prop where
  | snapThreshold (h : ¬ (Double.IsZero s.snapThreshold ∨ Double.IsPositive s.snapThreshold)) :
      HasFault s .snapThreshold
  | zoom (hsnap : Double.IsZero s.snapThreshold ∨ Double.IsPositive s.snapThreshold)
      (h : ¬ Double.IsPositive s.zoom) : HasFault s .zoom
  | documentSize (hsnap : Double.IsZero s.snapThreshold ∨ Double.IsPositive s.snapThreshold)
      (hzoom : Double.IsPositive s.zoom)
      (h : ¬ (Double.IsPositive s.documentWidth ∧ Double.IsPositive s.documentHeight)) :
      HasFault s .documentSize

variable (s : Settings Float)

theorem isThreshold_iff (x : Float) : (decide (0 ≤ x) && Scalar.isFinite x) = true ↔
    Double.IsZero x ∨ Double.IsPositive x := by
  rw [Bool.and_eq_true, decide_eq_true_iff, Double.zero_le_and_isFinite_iff]

theorem isPositive_iff (x : Float) : isPositive x = true ↔ Double.IsPositive x := by
  rw [isPositive, Bool.and_eq_true, decide_eq_true_iff, Double.zero_lt_and_isFinite_iff]

theorem fault?_eq : s.fault? =
    if Double.IsZero s.snapThreshold ∨ Double.IsPositive s.snapThreshold then
      if Double.IsPositive s.zoom then
        if Double.IsPositive s.documentWidth ∧ Double.IsPositive s.documentHeight then none
        else some .documentSize
      else some .zoom
    else some .snapThreshold := by
  simp only [fault?, Bool.not_eq_true', ← Bool.not_eq_true, ite_not, isThreshold_iff,
    Bool.and_eq_true (isPositive _), isPositive_iff]

variable {s}

theorem fault?_of_inBounds (h : s.InBounds) : s.fault? = none := by
  rw [fault?_eq, if_pos h.snapThreshold, if_pos h.zoom, if_pos ⟨h.documentWidth, h.documentHeight⟩]

theorem fault?_of_hasFault {fault : SettingsFault} (h : s.HasFault fault) :
    s.fault? = some fault := by
  rw [fault?_eq]
  cases h with
  | snapThreshold hsnap => rw [if_neg hsnap]
  | zoom hsnap hzoom => rw [if_pos hsnap, if_neg hzoom]
  | documentSize hsnap hzoom hsize => rw [if_pos hsnap, if_pos hzoom, if_neg hsize]

variable (s)

theorem inBounds_or_hasFault : s.InBounds ∨ ∃ fault, s.HasFault fault := by
  by_cases hsnap : Double.IsZero s.snapThreshold ∨ Double.IsPositive s.snapThreshold
  · by_cases hzoom : Double.IsPositive s.zoom
    · by_cases hsize : Double.IsPositive s.documentWidth ∧ Double.IsPositive s.documentHeight
      · exact .inl ⟨hsnap, hzoom, hsize.1, hsize.2⟩
      · exact .inr ⟨_, .documentSize hsnap hzoom hsize⟩
    · exact .inr ⟨_, .zoom hsnap hzoom⟩
  · exact .inr ⟨_, .snapThreshold hsnap⟩

theorem fault?_eq_none_iff : s.fault? = none ↔ s.InBounds := by
  refine ⟨fun h => ?_, fault?_of_inBounds⟩
  obtain hin | ⟨fault, hfault⟩ := s.inBounds_or_hasFault
  · exact hin
  · rw [fault?_of_hasFault hfault] at h
    cases h

theorem fault?_eq_some_iff (fault : SettingsFault) : s.fault? = some fault ↔ s.HasFault fault := by
  refine ⟨fun h => ?_, fault?_of_hasFault⟩
  obtain hin | ⟨other, hother⟩ := s.inBounds_or_hasFault
  · rw [fault?_of_inBounds hin] at h
    cases h
  · rw [fault?_of_hasFault hother] at h
    exact Option.some.inj h ▸ hother

theorem validate_eq_ok_iff : s.validate = .ok () ↔ s.fault? = none := by
  rw [validate]
  cases s.fault? <;> simp

theorem validate_eq_error_iff (e : SceneError) :
    s.validate = .error e ↔ ∃ fault, s.fault? = some fault ∧ e = .settings fault := by
  rw [validate]
  cases s.fault? <;> simp [eq_comm]

end Settings

end PerspectiveBox
