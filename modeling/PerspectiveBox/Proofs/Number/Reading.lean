import Mathlib.Algebra.Order.Field.Power
import PerspectiveBox.Proofs.Number.Packing

namespace PerspectiveBox.Double

open Float.Model UnpackedFloat

-- A double without its sign, of a given value and with a full mantissa.
structure Full (x : Float) (value : Rat) : Prop where
  unpacked : ∃ m e hm, x.toModel.unpack = .finite .positive m e hm ∧ 2 ^ 52 ≤ m ∧
    (m : Rat) * 2 ^ e = value

theorem full_toFloat {n : Nat} (hn : 0 < n) (hlt : n < 2 ^ 53) : Full n.toUInt64.toFloat n := by
  have hlog : n.log2 < 53 := (Nat.log2_lt hn.ne').2 hlt
  obtain ⟨k, hk⟩ : ∃ k, n.log2 + k = 52 := ⟨52 - n.log2, by omega⟩
  have hcanonical : Canonical (n * 2 ^ k) (-k) := by
    have hlow : 2 ^ 52 ≤ n * 2 ^ k := by
      rw [← hk, Nat.pow_add]
      exact Nat.mul_le_mul_right _ (Nat.log2_self_le hn.ne')
    have hhigh : n * 2 ^ k < 2 ^ 53 := by
      calc n * 2 ^ k < 2 ^ (n.log2 + 1) * 2 ^ k :=
            Nat.mul_lt_mul_of_pos_right Nat.lt_log2_self (by positivity)
        _ = 2 ^ 53 := by rw [← Nat.pow_add]; congr 1; omega
    exact ⟨hhigh, by omega, .inl hlow⟩
  have hpos : 0 < n * 2 ^ k := by positivity
  have hvalue : ((n * 2 ^ k : Nat) : Rat) * 2 ^ (-k : Int) = n := by
    rw [zpow_neg, zpow_natCast]
    push_cast
    field_simp
  have hround : UnpackedFloat.ofUInt64 .binary64 n.toUInt64 =
      .finite .positive (n * 2 ^ k) (-k) hpos := by
    have htoNat : n.toUInt64.toNat = n := by
      show n % 2 ^ 64 = n
      omega
    have hcompare : compare (n : Int) 0 = .gt := by
      rw [Int.compare_eq_gt]
      omega
    rw [UnpackedFloat.ofUInt64, htoNat, UnpackedFloat.ofNat, UnpackedFloat.ofInt,
      UnpackedFloat.normalize, hcompare]
    exact round_finite hn (.of_canonical hcanonical hpos) (by rw [hvalue]; simp)
  refine ⟨_, _, hpos, ?_, ?_, hvalue⟩
  · show (ofUnpacked (UnpackedFloat.ofUInt64 .binary64 n.toUInt64)).toModel.unpack = _
    rw [hround, unpack_ofUnpacked hcanonical (by omega)]
  · exact hcanonical.full.resolve_right (by omega)

theorem mul_two_zpow_eq {m v : Nat} {e : Int}
    (h : m * 2 ^ e.toNat = v * 2 ^ (-e).toNat) : (m : Rat) * 2 ^ e = v := by
  have hsplit : e = (e.toNat : Int) - ((-e).toNat : Int) := by omega
  have hcast : (m : Rat) * 2 ^ e.toNat = v * 2 ^ (-e).toNat := by exact_mod_cast h
  rw [hsplit, zpow_sub₀ (by norm_num), zpow_natCast, zpow_natCast, mul_div_assoc', hcast]
  field_simp

theorem full_of_fields {x : Float} {v : Nat} (hfinite : exponentField x ≠ 2047)
    (hsign : negative x = false) (hfull : 2 ^ 52 ≤ mantissa x)
    (hvalue : mantissa x * 2 ^ (exponent x).toNat = v * 2 ^ (-exponent x).toNat) : Full x v := by
  have hne : mantissa x ≠ 0 := by omega
  refine ⟨_, _, Nat.pos_of_ne_zero hne, ?_, hfull, mul_two_zpow_eq hvalue⟩
  rw [unpack_eq, if_neg hfinite, dif_neg hne, sign, hsign]
  rfl

theorem powersOfTen_fields : ∀ i : Fin Float.exactlyRepresentablePowersOfTen.size,
    let x := Float.exactlyRepresentablePowersOfTen[i]
    exponentField x ≠ 2047 ∧ negative x = false ∧ 2 ^ 52 ≤ mantissa x ∧
      mantissa x * 2 ^ (exponent x).toNat = 10 ^ i.val * 2 ^ (-exponent x).toNat := by
  decide +kernel

theorem full_power {e : Nat} (he : e < Float.exactlyRepresentablePowersOfTen.size) :
    Full Float.exactlyRepresentablePowersOfTen[e] (10 ^ e : Nat) := by
  obtain ⟨hfinite, hsign, hfull, hvalue⟩ := powersOfTen_fields ⟨e, he⟩
  exact full_of_fields hfinite hsign hfull hvalue

theorem Full.mul {x y : Float} {u v w : Rat} {m : Nat} {e : Int} (hx : Full x u) (hy : Full y v)
    (hw : Nearest w m e) (hvalue : u * v = w * 2 ^ e) :
    x * y = ofUnpacked (.finite .positive m e hw.pos) := by
  obtain ⟨m₁, e₁, h₁, hunpack₁, hfull₁, rfl⟩ := hx.unpacked
  obtain ⟨m₂, e₂, h₂, hunpack₂, hfull₂, rfl⟩ := hy.unpacked
  have hlarge : 2 ^ 52 ≤ m₁ * m₂ := hfull₁.trans (Nat.le_mul_of_pos_right _ h₂)
  show ofUnpacked (UnpackedFloat.mul .binary64 x.toModel.unpack y.toModel.unpack) = _
  rw [hunpack₁, hunpack₂, mul_finite hlarge hw hvalue]
  rfl

theorem Full.div {x y : Float} {u v w : Rat} {m : Nat} {e : Int} (hx : Full x u) (hy : Full y v)
    (hw : Nearest w m e) (hvalue : u / v = w * 2 ^ e) :
    x / y = ofUnpacked (.finite .positive m e hw.pos) := by
  obtain ⟨m₁, e₁, h₁, hunpack₁, -, rfl⟩ := hx.unpacked
  obtain ⟨m₂, e₂, h₂, hunpack₂, -, rfl⟩ := hy.unpacked
  show ofUnpacked (UnpackedFloat.div .binary64 x.toModel.unpack y.toModel.unpack) = _
  rw [hunpack₁, hunpack₂, div_finite hw hvalue]
  rfl

theorem model_ofScientific_eq {units : Nat} {e : Int} (hpos : 0 < units) (hhigh : e ≤ 2048)
    (hlow : -(2048 + units.log2 : Int) ≤ e) {w : Rat} {m' : Nat} {e' : Int}
    (hw : Nearest w m' e') (hvalue : (units : Rat) * 10 ^ e = w * 2 ^ e') :
    UnpackedFloat.ofScientific .binary64 units e = .finite .positive m' e' hw.pos := by
  have hbits : (2 ^ Format.binary64.exponentBits : Int) = 2048 := rfl
  rw [UnpackedFloat.ofScientific, dif_neg hpos.ne', hbits, if_neg (by omega), if_neg (by omega)]
  split
  · next hnonneg =>
    have hshift : units <<< Format.binary64.mantissaBits = units * 2 ^ 53 := Nat.shiftLeft_eq _ _
    have hlarge : 2 ^ 52 ≤ (units <<< Format.binary64.mantissaBits) * 10 ^ e.toNat := by
      rw [hshift]
      have hten : 1 ≤ 10 ^ e.toNat := Nat.one_le_pow _ _ (by decide)
      nlinarith
    refine (mul_finite hlarge hw ?_).trans rfl
    have hcast : ((10 ^ e.toNat : Nat) : Rat) = 10 ^ e := by
      rw [Nat.cast_pow, ← zpow_natCast, Int.toNat_of_nonneg hnonneg]
      rfl
    have hplaces : (2 : Rat) ^ (-(Format.binary64.mantissaBits : Int)) = (2 ^ 53)⁻¹ := rfl
    rw [hshift, hcast, hplaces, ← hvalue]
    push_cast
    field_simp
    norm_num
  · next hnegative =>
    refine (div_finite hw ?_).trans rfl
    have hcast : ((10 ^ (-e).toNat : Nat) : Rat) = (10 ^ e)⁻¹ := by
      rw [Nat.cast_pow, ← zpow_natCast, Int.toNat_of_nonneg (by omega), zpow_neg]
      rfl
    rw [hcast, ← hvalue]
    simp

theorem ofScientific_eq {units : Nat} {e : Int} (hpos : 0 < units) (hhigh : e ≤ 2048)
    (hlow : -(2048 + units.log2 : Int) ≤ e) {w : Rat} {m' : Nat} {e' : Int}
    (hw : Nearest w m' e') (hvalue : (units : Rat) * 10 ^ e = w * 2 ^ e') :
    Float.ofScientific units (e < 0) e.natAbs = ofUnpacked (.finite .positive m' e' hw.pos) := by
  rw [Float.ofScientific]
  split
  · next hsmall =>
    have hunits := full_toFloat hpos hsmall.1
    have hpower := full_power (e := e.natAbs) (Nat.lt_succ_of_le hsmall.2)
    by_cases hnegative : e < 0
    · rw [if_pos (decide_eq_true hnegative)]
      refine hunits.div hpower hw ?_
      have hcast : (10 : Rat) ^ e = (10 ^ e.natAbs)⁻¹ := by
        rw [← zpow_natCast, Int.ofNat_natAbs_of_nonpos hnegative.le, zpow_neg, inv_inv]
      rw [← hvalue, hcast, div_eq_mul_inv]
      push_cast
      rfl
    · rw [if_neg (by simpa using hnegative)]
      refine hunits.mul hpower hw ?_
      have hcast : (10 : Rat) ^ e = 10 ^ e.natAbs := by
        rw [← zpow_natCast, Int.natAbs_of_nonneg (not_lt.1 hnegative)]
      rw [← hvalue, hcast]
      push_cast
      rfl
  · have hexponent : (if e < 0 then Int.negOfNat e.natAbs else Int.ofNat e.natAbs) = e := by
      split
      · next hnegative =>
        rw [Int.negOfNat_eq, Int.ofNat_eq_natCast, Int.ofNat_natAbs_of_nonpos hnegative.le,
          neg_neg]
      · next hnonneg => exact Int.natAbs_of_nonneg (not_lt.1 hnonneg)
    simp only [decide_eq_true_eq, hexponent]
    exact congrArg ofUnpacked (model_ofScientific_eq hpos hhigh hlow hw hvalue)

theorem lt_pow_length_digitsOf (n : Nat) : n < 10 ^ (Numeral.digitsOf n).length :=
  (Nat.length_toDigits_le_iff (by decide) Nat.length_toDigits_pos).1 le_rfl

theorem pow_length_digitsOf_le {n : Nat} (hn : 0 < n) :
    10 ^ ((Numeral.digitsOf n).length - 1) ≤ n := by
  by_contra hlt
  rcases Nat.eq_zero_or_pos ((Numeral.digitsOf n).length - 1) with hzero | hpos
  · rw [hzero] at hlt
    omega
  · have hle := (Nat.length_toDigits_le_iff (by decide) hpos).2 (not_le.1 hlt)
    rw [← Numeral.digitsOf] at hle
    omega

theorem length_digitsOf_le (n : Nat) : (Numeral.digitsOf n).length ≤ n.log2 + 1 := by
  refine (Nat.length_toDigits_le_iff (by decide) (Nat.succ_pos _)).2 ?_
  exact Nat.lt_log2_self.trans_le (Nat.pow_le_pow_left (by decide) _)

theorem Nearest.lt_ten_pow {w : Rat} {m : Nat} {e : Int} (h : Nearest w m e) (he : e ≤ 971) :
    w * 2 ^ e < 10 ^ (330 : Int) := by
  have hw : w ≤ 2 ^ 53 := by
    have hlt : (m : Rat) + 1 ≤ 2 ^ 53 := by exact_mod_cast h.canonical.lt
    linarith [h.high]
  calc w * 2 ^ e ≤ 2 ^ 53 * 2 ^ (971 : Int) :=
        mul_le_mul hw (zpow_le_zpow_right₀ (by norm_num) he) (by positivity) (by norm_num)
    _ = 2 ^ (1024 : Int) := by rw [← zpow_natCast, ← zpow_add₀ (by norm_num)]; rfl
    _ < 10 ^ (330 : Int) := by
      have hlt : 2 ^ 1024 < 10 ^ 330 := by decide +kernel
      exact_mod_cast hlt

theorem Nearest.ten_pow_lt {w : Rat} {m : Nat} {e : Int} (h : Nearest w m e) :
    10 ^ (-331 : Int) < w * 2 ^ e := by
  have hw : 1 / 2 ≤ w := by
    have hone : (1 : Rat) ≤ m := by exact_mod_cast h.pos
    linarith [h.low]
  calc (10 : Rat) ^ (-331 : Int) < 2 ^ (-1075 : Int) := by
        have hlt : 2 ^ 1075 < 10 ^ 331 := by decide +kernel
        rw [zpow_neg, zpow_neg, inv_lt_inv₀ (by positivity) (by positivity)]
        exact_mod_cast hlt
    _ = 1 / 2 * 2 ^ (-1074 : Int) := by
        rw [one_div, ← zpow_neg_one, ← zpow_add₀ (by norm_num)]; rfl
    _ ≤ w * 2 ^ e :=
        mul_le_mul hw (zpow_le_zpow_right₀ (by norm_num) h.canonical.low) (by positivity)
          (by linarith)

-- No numeral that is nearest to some double is cut off for its magnitude.
theorem Nearest.magnitude {w : Rat} {m : Nat} {e : Int} (h : Nearest w m e) (he : e ≤ 971)
    {units : Nat} (hpos : 0 < units) {exponent : Int}
    (hvalue : (units : Rat) * 10 ^ exponent = w * 2 ^ e) :
    -330 ≤ (Numeral.digitsOf units).length + exponent ∧
      (Numeral.digitsOf units).length + exponent ≤ 330 := by
  have hten : (10 : Rat) ≠ 0 := by norm_num
  constructor
  · by_contra hless
    have hunits : (units : Rat) < 10 ^ ((Numeral.digitsOf units).length : Int) := by
      rw [zpow_natCast]
      exact_mod_cast lt_pow_length_digitsOf units
    refine absurd h.ten_pow_lt (not_lt.2 ?_)
    calc w * 2 ^ e = units * 10 ^ exponent := hvalue.symm
      _ ≤ 10 ^ ((Numeral.digitsOf units).length : Int) * 10 ^ exponent :=
          mul_le_mul_of_nonneg_right hunits.le (by positivity)
      _ = 10 ^ ((Numeral.digitsOf units).length + exponent) := (zpow_add₀ hten _ _).symm
      _ ≤ 10 ^ (-331 : Int) := zpow_le_zpow_right₀ (by norm_num) (by omega)
  · by_contra hmore
    have hunits : 10 ^ (((Numeral.digitsOf units).length - 1 : Nat) : Int) ≤ (units : Rat) := by
      rw [zpow_natCast]
      exact_mod_cast pow_length_digitsOf_le hpos
    refine absurd (h.lt_ten_pow he) (not_lt.2 ?_)
    calc (10 : Rat) ^ (330 : Int) ≤
          10 ^ ((((Numeral.digitsOf units).length - 1 : Nat) : Int) + exponent) :=
          zpow_le_zpow_right₀ (by norm_num) (by omega)
      _ = 10 ^ (((Numeral.digitsOf units).length - 1 : Nat) : Int) * 10 ^ exponent :=
          zpow_add₀ hten _ _
      _ ≤ units * 10 ^ exponent := mul_le_mul_of_nonneg_right hunits (by positivity)
      _ = w * 2 ^ e := hvalue

theorem exponent_le {x : Float} (h : exponentField x ≠ 2047) : exponent x ≤ 971 := by
  have hlt := exponentField_lt x
  rw [exponent]
  omega

theorem unpack_of_finite {x : Float} (h : exponentField x ≠ 2047) (hm : 0 < mantissa x) :
    x.toModel.unpack = .finite (sign x) (mantissa x) (exponent x) hm := by
  rw [unpack_eq, if_neg h, dif_neg hm.ne']

-- A numeral that is nearest to a double is read as that double.
theorem ofNumeral_decimal {x : Float} {units : Nat} {e : Int} {w : Rat}
    (hfinite : exponentField x ≠ 2047) (hw : Nearest w (mantissa x) (exponent x))
    (hvalue : (units : Rat) * 10 ^ e = w * 2 ^ exponent x) :
    ofNumeral (.decimal (negative x) units e) = x := by
  have hbound := exponent_le hfinite
  have hpos : 0 < units := by
    rw [Nat.pos_iff_ne_zero]
    rintro rfl
    have hlt := hw.ten_pow_lt
    rw [← hvalue, Nat.cast_zero, zero_mul] at hlt
    exact absurd hlt (not_lt.2 (by positivity))
  obtain ⟨hlow, hhigh⟩ := hw.magnitude hbound hpos hvalue
  have hlength := length_digitsOf_le units
  have hlength' : 0 < (Numeral.digitsOf units).length := Nat.length_toDigits_pos
  rw [ofNumeral]
  rw [if_neg (by omega), if_neg (by omega),
    ofScientific_eq hpos (by omega) (by omega) hw hvalue,
    signed_ofUnpacked hw.canonical hbound, ← unpack_of_finite hfinite hw.pos, ofUnpacked_unpack]

theorem ofNumeral_zero {x : Float} (hfinite : exponentField x ≠ 2047) (hzero : mantissa x = 0)
    (e : Int) : ofNumeral (.decimal (negative x) 0 e) = x := by
  have hunpack : x.toModel.unpack = .zero (sign x) := by
    rw [unpack_eq, if_neg hfinite, dif_pos hzero]
  have hread : ofNumeral (.decimal (negative x) 0 e) = signed (negative x) 0 := by
    rw [ofNumeral]
    simp only [true_or, if_true]
  rw [hread, signed_zero, ← hunpack, ofUnpacked_unpack]

end PerspectiveBox.Double
