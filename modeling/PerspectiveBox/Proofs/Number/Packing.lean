import PerspectiveBox.Number.Double
import PerspectiveBox.Proofs.Number.Rounding

namespace PerspectiveBox.Double

open Float.Model UnpackedFloat

theorem toNat_unpackExponent (b : BitVec Format.binary64.numBits) :
    (unpackExponent b).toNat = b.toNat / 2 ^ 52 % 2 ^ 11 := by
  simp only [unpackExponent, BitVec.toNat_cast, BitVec.extractLsb_toNat, Nat.shiftRight_eq_div_pow]

theorem toNat_unpackMantissa (b : BitVec Format.binary64.numBits) :
    (unpackMantissa b).toNat = b.toNat % 2 ^ 52 := by
  simp only [unpackMantissa, BitVec.toNat_cast, BitVec.extractLsb_toNat, Nat.shiftRight_zero]

theorem toNat_unpackSign (b : BitVec Format.binary64.numBits) :
    (unpackSign b).toNat = b.toNat / 2 ^ 63 % 2 := by
  simp only [unpackSign, BitVec.toNat_cast, BitVec.extractLsb_toNat, Nat.shiftRight_eq_div_pow]

theorem toNat_append {n k : Nat} (a : BitVec n) (b : BitVec k) :
    (a ++ b).toNat = a.toNat * 2 ^ k + b.toNat := by
  rw [BitVec.toNat_append, ← Nat.shiftLeft_add_eq_or_of_lt b.isLt, Nat.shiftLeft_eq]

def sign (x : Float) : Sign := if negative x then .negative else .positive

def bits (x : Float) : BitVec Format.binary64.numBits := x.toModel.toBits.toBitVec

theorem unpack_toModel (x : Float) :
    x.toModel.unpack = UnpackedFloat.unpack .binary64 (bits x) := rfl

theorem exponentField_eq (x : Float) : exponentField x = (unpackExponent (bits x)).toNat := by
  rw [toNat_unpackExponent, exponentField, UInt64.toNat_shiftRight, Nat.shiftRight_eq_div_pow]
  rfl

theorem fractionField_eq (x : Float) : fractionField x = (unpackMantissa (bits x)).toNat := by
  rw [toNat_unpackMantissa, fractionField]
  rfl

theorem sign_eq (x : Float) : sign x = Sign.ofBitVec (unpackSign (bits x)) := by
  have hlt : (bits x).toNat < 2 ^ 64 := (bits x).isLt
  have htop : (x.toBits >>> 63).toNat = (unpackSign (bits x)).toNat := by
    rw [toNat_unpackSign, UInt64.toNat_shiftRight, Nat.shiftRight_eq_div_pow]
    show (bits x).toNat / 2 ^ 63 = _
    omega
  have hnegative : negative x = decide (unpackSign (bits x) = 1#1) := by
    refine decide_eq_decide.2 ?_
    rw [← UInt64.toNat_inj, htop, ← BitVec.toNat_inj]
    rfl
  rw [sign, hnegative]
  have hbit : ∀ b : BitVec 1, b = 0#1 ∨ b = 1#1 := by decide
  rcases hbit (unpackSign (bits x)) with h | h <;> rw [h] <;> rfl

-- A double is what its fields say.
theorem unpack_eq (x : Float) : x.toModel.unpack =
    if exponentField x = 2047 then
      if fractionField x = 0 then .infinity (sign x) else .notANumber
    else if h : mantissa x = 0 then .zero (sign x)
    else .finite (sign x) (mantissa x) (exponent x) (Nat.pos_of_ne_zero h) := by
  have hones : unpackExponent (bits x) = -1#_ ↔ exponentField x = 2047 := by
    rw [exponentField_eq, ← BitVec.toNat_inj]
    rfl
  have hzeros : unpackExponent (bits x) = 0#_ ↔ exponentField x = 0 := by
    rw [exponentField_eq, ← BitVec.toNat_inj]
    rfl
  have hfraction : unpackMantissa (bits x) = 0#_ ↔ fractionField x = 0 := by
    rw [fractionField_eq, ← BitVec.toNat_inj]
    rfl
  rw [unpack_toModel, UnpackedFloat.unpack]
  simp only [hones, hzeros, hfraction, ← sign_eq]
  by_cases htop : exponentField x = 2047
  · rw [if_pos htop, if_pos htop]
  · rw [if_neg htop, if_neg htop]
    have hbias : Format.binary64.exponentBias = 1023 := by decide
    by_cases hlow : exponentField x = 0
    · have hmantissa : mantissa x = fractionField x := if_pos hlow
      have hexponent : exponent x = -1074 := by
        rw [exponent, hlow]
        rfl
      rw [if_pos hlow]
      by_cases hzero : fractionField x = 0
      · rw [dif_pos hzero, dif_pos (hmantissa.trans hzero)]
      · rw [dif_neg hzero, dif_neg (hmantissa.trans_ne hzero), finite.injEq, hmantissa, hexponent,
          fractionField_eq, ← exponentField_eq, hlow, hbias]
        exact ⟨rfl, rfl, by norm_num⟩
    · have hmantissa : mantissa x = 2 ^ 52 + fractionField x := if_neg hlow
      have hexponent : exponent x = exponentField x - 1075 := by
        rw [exponent]
        omega
      rw [if_neg hlow, dif_neg (by omega), finite.injEq, hmantissa, hexponent, toNat_append,
        ← fractionField_eq, ← exponentField_eq, hbias]
      refine ⟨rfl, rfl, ?_⟩
      push_cast
      ring

theorem pack_finite {s : Sign} {m : Nat} {e : Int} (h : Canonical m e) (he : e ≤ 971)
    (hm : 0 < m) : UnpackedFloat.pack .binary64 (.finite s m e hm) =
      packComponents .binary64 s (BitVec.ofNat _ (if 2 ^ 52 ≤ m then (e + 1075).toNat else 0))
        (BitVec.ofNat _ m) := by
  have hbias : (e + Format.binary64.exponentBias + Format.binary64.mantissaBitsWithoutImplicit) =
      e + 1075 := by
    have hbits : (Format.binary64.mantissaBitsWithoutImplicit : Int) = 52 := rfl
    have hbias : (Format.binary64.exponentBias : Int) = 1023 := by decide
    omega
  have hlow := h.low
  have htop : ¬ 2 ^ Format.binary64.exponentBits ≤ (e + 1075).toNat + 1 := by
    show ¬ 2 ^ 11 ≤ (e + 1075).toNat + 1
    omega
  have hfull : m.log2 + 1 = Format.binary64.mantissaBits ↔ 2 ^ 52 ≤ m := by
    have hlt := (Nat.log2_lt hm.ne').2 h.lt
    rw [← Nat.le_log2 hm.ne']
    show m.log2 + 1 = 53 ↔ _
    omega
  simp only [UnpackedFloat.pack, hbias, if_neg htop, hfull]
  split <;> rfl

theorem unpack_pack {s : Sign} {m : Nat} {e : Int} (h : Canonical m e) (he : e ≤ 971)
    (hm : 0 < m) : (Float.Model.pack (.finite s m e hm)).unpack = .finite s m e hm := by
  show UnpackedFloat.unpack .binary64 (UnpackedFloat.pack .binary64 (.finite s m e hm)) = _
  have hlow := h.low
  have hlt := h.lt
  have hbias : Format.binary64.exponentBias = 1023 := by decide
  have hones : (-BitVec.ofNat Format.binary64.exponentBits 1).toNat = 2047 := rfl
  rw [pack_finite h he, UnpackedFloat.unpack]
  simp only [unpackExponent_packComponents, unpackMantissa_packComponents,
    unpackSign_packComponents, Sign.ofBitVec_toBitVec, ← BitVec.toNat_inj,
    toNat_append,
    BitVec.toNat_ofNat, hbias, hones]
  by_cases hfull : 2 ^ 52 ≤ m
  · have hfield : (e + 1075).toNat % 2 ^ Format.binary64.exponentBits = (e + 1075).toNat :=
      Nat.mod_eq_of_lt (by show _ < 2 ^ 11; omega)
    rw [if_pos hfull, hfield, if_neg (by omega), if_neg (by simp; omega), finite.injEq]
    refine ⟨rfl, ?_, ?_⟩
    · show 1 * 2 ^ 52 + m % 2 ^ 52 = m
      omega
    · show ((e + 1075).toNat : Int) - (1023 + 52) = e
      omega
  · obtain rfl := h.full.resolve_left hfull
    have hfield : (0 : Nat) % 2 ^ Format.binary64.exponentBits = 0 := rfl
    have hfraction : m % 2 ^ Format.binary64.mantissaBitsWithoutImplicit = m :=
      Nat.mod_eq_of_lt (by show m < 2 ^ 52; omega)
    rw [if_neg hfull, hfield, if_neg (by omega), if_pos rfl, dif_neg (by simp; omega), finite.injEq]
    exact ⟨rfl, hfraction, rfl⟩

theorem exponentField_lt (x : Float) : exponentField x < 2048 :=
  Nat.mod_lt _ (by decide)

theorem fractionField_lt (x : Float) : fractionField x < 2 ^ 52 :=
  Nat.mod_lt _ (by decide)

theorem canonical (x : Float) : Canonical (mantissa x) (exponent x) := by
  have hfraction := fractionField_lt x
  rw [mantissa, exponent]
  split
  · next hzero =>
    rw [hzero]
    exact ⟨by omega, by decide, .inr (by decide)⟩
  · next hne =>
    refine ⟨?_, by omega, .inl (Nat.le_add_right _ _)⟩
    show 2 ^ 52 + fractionField x < 2 ^ 53
    omega

def ofUnpacked (u : UnpackedFloat) : Float := .ofModel (.pack u)

theorem ofUnpacked_unpack (x : Float) : ofUnpacked x.toModel.unpack = x := by
  rw [← Float.toBits_inj, ← UInt64.toBitVec_inj]
  exact pack_unpack_of_valid x.toModel.valid

theorem unpack_ofUnpacked {s : Sign} {m : Nat} {e : Int} (h : Canonical m e) (he : e ≤ 971)
    (hm : 0 < m) : (ofUnpacked (.finite s m e hm)).toModel.unpack = .finite s m e hm :=
  unpack_pack h he hm

theorem isNaN_eq (x : Float) : x.isNaN = x.toModel.unpack.isNaN := rfl

theorem isInf_eq (x : Float) : x.isInf = x.toModel.unpack.isInf := rfl

theorem signed_ofUnpacked {m : Nat} {e : Int} (h : Canonical m e) (he : e ≤ 971) (hm : 0 < m)
    (x : Float) : signed (negative x) (ofUnpacked (.finite .positive m e hm)) =
      ofUnpacked (.finite (sign x) m e hm) := by
  have hunpack := unpack_ofUnpacked (s := .positive) h he hm
  rw [signed, sign]
  cases negative x with
  | false => rfl
  | true =>
    show ofUnpacked (ofUnpacked (.finite .positive m e hm)).toModel.unpack.neg = _
    rw [hunpack]
    rfl

theorem signed_zero (x : Float) : signed (negative x) 0 = ofUnpacked (.zero (sign x)) := by
  rw [signed, sign]
  cases negative x <;> decide +kernel

theorem signed_infinity (x : Float) :
    signed (negative x) (1 / 0) = ofUnpacked (.infinity (sign x)) := by
  rw [signed, sign]
  cases negative x <;> decide +kernel

theorem zero_div_zero : (0 / 0 : Float) = ofUnpacked .notANumber := by
  decide +kernel

end PerspectiveBox.Double
