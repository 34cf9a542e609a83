import Mathlib

namespace PerspectiveBox.Double

open Float.Model UnpackedFloat

-- Where a number lies, counted in units of the last place of a mantissa.
def Locates (em : ExtendedMantissa) (w : Rat) : Prop :=
  match em.roundBit, em.stickyBit with
  | false, false => w = em.mantissa
  | false, true => em.mantissa < w ∧ w < em.mantissa + 1 / 2
  | true, false => w = em.mantissa + 1 / 2
  | true, true => em.mantissa + 1 / 2 < w ∧ w < em.mantissa + 1

theorem Locates.floor {em : ExtendedMantissa} {w : Rat} (h : Locates em w) :
    em.mantissa ≤ w ∧ w < em.mantissa + 1 := by
  obtain ⟨m, _ | _, _ | _⟩ := em <;> simp only [Locates] at h <;> constructor <;> linarith

theorem Locates.shiftRightOne {em : ExtendedMantissa} {w : Rat} (h : Locates em w) :
    Locates em.shiftRightOne (w / 2) := by
  obtain ⟨m, r, s⟩ := em
  have hsplit : (m : Rat) = 2 * (m / 2 : Nat) + (m % 2 : Nat) := by
    exact_mod_cast (Nat.div_add_mod m 2).symm
  have heven : ((0 : Nat) != 0) = false := rfl
  have hodd : ((1 : Nat) != 0) = true := rfl
  -- The last bit of the mantissa becomes the round bit, and the old bits the sticky one.
  rcases Nat.mod_two_eq_zero_or_one m with hm | hm <;> rw [hm] at hsplit <;>
    cases r <;> cases s <;>
    simp only [Locates, ExtendedMantissa.shiftRightOne, hm, heven, hodd, Nat.cast_zero,
      Nat.cast_one, Bool.or_false, Bool.or_true] at h hsplit ⊢
  case inl.false.false | inr.false.false => linarith
  all_goals constructor <;> linarith

theorem Locates.shiftRight {em : ExtendedMantissa} {w : Rat} (h : Locates em w) (n : Nat) :
    Locates (em >>> n) (w / 2 ^ n) := by
  induction n with
  | zero =>
    rw [pow_zero, div_one]
    exact h
  | succ n ih =>
    rw [pow_succ, ← div_div]
    exact ih.shiftRightOne

structure Rounds (w : Rat) (n : Nat) : Prop where
  low : n - 1 / 2 ≤ w
  high : w ≤ n + 1 / 2
  tie : w = n - 1 / 2 ∨ w = n + 1 / 2 → n % 2 = 0

theorem nat_le_of_lt_succ {a b : Nat} (h : (a : Rat) < b + 1) : a ≤ b :=
  Nat.lt_succ_iff.1 (by exact_mod_cast h)

theorem Locates.roundedMantissa_eq {em : ExtendedMantissa} {w : Rat} {n : Nat}
    (h : Locates em w) (hn : Rounds w n) : em.roundedMantissa = n := by
  obtain ⟨m, r, s⟩ := em
  obtain ⟨hlow, hhigh, htie⟩ := hn
  cases r <;> cases s <;> simp only [Locates] at h
  case false.false =>
    show m = n
    exact le_antisymm (nat_le_of_lt_succ (by linarith)) (nat_le_of_lt_succ (by linarith))
  case false.true =>
    show m = n
    exact le_antisymm (nat_le_of_lt_succ (by linarith)) (nat_le_of_lt_succ (by linarith))
  case true.false =>
    show m + m % 2 = n
    have hle : m ≤ n := nat_le_of_lt_succ (by linarith)
    have hge : n ≤ m + 1 := nat_le_of_lt_succ (by push_cast; linarith)
    rcases Nat.le_succ_iff.1 hge with hge | rfl
    · obtain rfl := le_antisymm hle hge
      rw [htie (.inr h), Nat.add_zero]
    · have heven := htie (.inl (by push_cast; linarith))
      omega
  case true.true =>
    show m + 1 = n
    exact le_antisymm (nat_le_of_lt_succ (by push_cast; linarith))
      (nat_le_of_lt_succ (by push_cast; linarith))

-- The mantissas and exponents of doubles, up to the largest exponent: only at the smallest
-- exponent may the leading bit be missing.
structure Canonical (m : Nat) (e : Int) : Prop where
  lt : m < 2 ^ 53
  low : -1074 ≤ e
  full : 2 ^ 52 ≤ m ∨ e = -1074

theorem targetExponent_eq (m : Nat) (e : Int) :
    Format.binary64.targetExponent (totalExponent m e) = max (m.log2 + e - 52) (-1074) := by
  simp only [Format.targetExponent, totalExponent, Format.mantissaBits, Format.minExponent]
  omega

theorem mantissa_shiftRight (em : ExtendedMantissa) (n : Nat) :
    (em >>> n).mantissa = em.mantissa / 2 ^ n := by
  induction n with
  | zero => exact (Nat.div_one _).symm
  | succ n ih =>
    show (em >>> n).mantissa / 2 = _
    rw [ih, Nat.div_div_eq_div_mul, Nat.pow_succ]

theorem mantissa_ofMantissaAndAccuracy (m : Nat) (accuracy : Accuracy) :
    (ExtendedMantissa.ofMantissaAndAccuracy m accuracy).mantissa = m := by
  rcases accuracy with _ | (_ | _ | _) <;> rfl

-- Enough places are dropped for a double, and no more.
theorem canonical_div {m n : Nat} {e : Int}
    (h : e + n = Format.binary64.targetExponent (totalExponent m e)) :
    Canonical (m / 2 ^ n) (e + n) := by
  rw [targetExponent_eq] at h
  refine ⟨?_, by omega, ?_⟩
  · have hlog : m.log2 + 1 ≤ n + 53 := by omega
    refine Nat.div_lt_of_lt_mul ?_
    rw [← Nat.pow_add]
    exact Nat.lt_of_lt_of_le Nat.lt_log2_self (Nat.pow_le_pow_right (by decide) hlog)
  · by_cases hlow : e + n = -1074
    · exact .inr hlow
    · have hlog : 52 + n = m.log2 := by omega
      have hm : m ≠ 0 := by
        rintro rfl
        rw [Nat.log2_zero] at hlog
        omega
      refine .inl ((Nat.le_div_iff_mul_le (by positivity)).2 ?_)
      rw [← Nat.pow_add, hlog]
      exact Nat.log2_self_le hm

theorem shiftToTargetExponent_spec {m : Nat} {e : Int} {accuracy : Accuracy} {w : Rat}
    (hw : Locates (.ofMantissaAndAccuracy m accuracy) w)
    (he : e ≤ Format.binary64.targetExponent (totalExponent m e)) :
    ∃ n : Nat, ∃ em, shiftToTargetExponent .binary64 m e accuracy = (em, e + n) ∧
      Locates em (w / 2 ^ n) ∧ Canonical em.mantissa (e + n) := by
  have hn : e + ((Format.binary64.targetExponent (totalExponent m e) - e).toNat : Int) =
      Format.binary64.targetExponent (totalExponent m e) := by
    omega
  refine ⟨_, _, rfl, hw.shiftRight _, ?_⟩
  rw [mantissa_shiftRight, mantissa_ofMantissaAndAccuracy]
  exact canonical_div hn

-- A mantissa that is a double's already stays, and the next one after all of them goes on to the
-- next exponent.
theorem shiftToTargetExponent_of_canonical {m : Nat} {e : Int} (h : Canonical m e) :
    shiftToTargetExponent .binary64 m e .exact = (⟨m, false, false⟩, e) := by
  have htarget : Format.binary64.targetExponent (totalExponent m e) = e := by
    have hlow := h.low
    rw [targetExponent_eq]
    by_cases hm : m = 0
    · have hfull := h.full
      rw [hm, Nat.log2_zero] at *
      omega
    · have hlt : m.log2 < 53 := (Nat.log2_lt hm).2 h.lt
      rcases h.full with hfull | hfull
      · have hge : 52 ≤ m.log2 := (Nat.le_log2 hm).2 hfull
        omega
      · omega
  simp only [shiftToTargetExponent, shiftToExponent, htarget, sub_self, Int.toNat_zero]
  exact Prod.ext rfl (add_zero e)

theorem shiftToTargetExponent_carry {e : Int} (h : -1074 ≤ e) :
    shiftToTargetExponent .binary64 (2 ^ 53) e .exact = (⟨2 ^ 52, false, false⟩, e + 1) := by
  have htarget : Format.binary64.targetExponent (totalExponent (2 ^ 53) e) = e + 1 := by
    rw [targetExponent_eq, Nat.log2_two_pow]
    omega
  have hone : (e + 1 - e).toNat = 1 := by omega
  simp only [shiftToTargetExponent, shiftToExponent, htarget, hone]
  rfl

-- A number, counted in units of the last place of a double, is nearest to that double. Below a
-- power of two the doubles lie twice as close.
structure Nearest (w : Rat) (m : Nat) (e : Int) : Prop where
  canonical : Canonical m e
  pos : 0 < m
  low : m - 1 / 2 ≤ w
  narrow : m = 2 ^ 52 → -1074 < e → m - 1 / 4 ≤ w
  high : w ≤ m + 1 / 2
  tie : w = m - 1 / 2 ∨ w = m + 1 / 2 → m % 2 = 0

theorem Nearest.rounds {w : Rat} {m : Nat} {e : Int} (h : Nearest w m e) : Rounds w m :=
  ⟨h.low, h.high, h.tie⟩

theorem eq_mul_pow_of_scaled {w v : Rat} {e f : Int} {k : Nat} (hk : e = f + k)
    (h : w * 2 ^ e = v * 2 ^ f) : v = w * 2 ^ k := by
  have htwo : (2 : Rat) ≠ 0 := by norm_num
  have hpow : (2 : Rat) ^ f ≠ 0 := zpow_ne_zero f htwo
  rw [hk, zpow_add₀ htwo, zpow_natCast, mul_left_comm, mul_comm] at h
  exact (mul_right_cancel₀ hpow h).symm

-- The places kept are those of the nearest double, or one more if that is a power of two and the
-- number lies below it.
theorem Nearest.shift_roundedMantissa {em : ExtendedMantissa} {v w : Rat} {e e' : Int} {m' : Nat}
    (hw : Nearest w m' e') (hem : Locates em v) (hcanonical : Canonical em.mantissa e)
    (hvalue : v * 2 ^ e = w * 2 ^ e') :
    shiftToTargetExponent .binary64 em.roundedMantissa e .exact = (⟨m', false, false⟩, e') := by
  obtain ⟨hfloor, hceil⟩ := hem.floor
  have hlow := hw.low
  have hhigh := hw.high
  have hlt : (em.mantissa : Rat) + 1 ≤ 2 ^ 53 := by exact_mod_cast hcanonical.lt
  have hlt' : (m' : Rat) + 1 ≤ 2 ^ 53 := by exact_mod_cast hw.canonical.lt
  rcases lt_trichotomy e e' with hexp | rfl | hexp
  · obtain ⟨k, hk⟩ : ∃ k : Nat, e' = e + (k + 1) := ⟨(e' - e - 1).toNat, by omega⟩
    have hv : v = w * 2 ^ (k + 1) := eq_mul_pow_of_scaled hk hvalue.symm
    have hfull : 2 ^ 52 ≤ m' := hw.canonical.full.resolve_right (by have := hcanonical.low; omega)
    have hfull' : (2 : Rat) ^ 52 ≤ m' := by exact_mod_cast hfull
    have hone : k = 0 := by
      by_contra hne
      obtain ⟨j, rfl⟩ := Nat.exists_eq_succ_of_ne_zero hne
      have hpow : (1 : Rat) ≤ 2 ^ j := one_le_pow₀ (by norm_num)
      rw [Nat.succ_eq_add_one, pow_succ, pow_succ] at hv
      nlinarith
    subst hone
    rw [zero_add, pow_one] at hv
    obtain rfl : m' = 2 ^ 52 := le_antisymm (nat_le_of_lt_succ (by push_cast; linarith)) hfull
    have hnarrow := hw.narrow rfl (by have := hcanonical.low; omega)
    have hrounds : Rounds v (2 ^ 53) := by
      push_cast at hnarrow
      refine ⟨?_, ?_, fun _ => by norm_num⟩ <;> push_cast <;> linarith
    have hcarry : e' = e + 1 := by omega
    rw [hem.roundedMantissa_eq hrounds, shiftToTargetExponent_carry hcanonical.low, hcarry]
  · have heq : v = w := mul_right_cancel₀ (zpow_ne_zero e (by norm_num)) hvalue
    rw [heq] at hem
    rw [hem.roundedMantissa_eq hw.rounds, shiftToTargetExponent_of_canonical hw.canonical]
  · obtain ⟨k, hk⟩ : ∃ k : Nat, e = e' + (k + 1) := ⟨(e - e' - 1).toNat, by omega⟩
    have hfull : 2 ^ 52 ≤ em.mantissa :=
      hcanonical.full.resolve_right (by have := hw.canonical.low; omega)
    have hfull' : (2 : Rat) ^ 52 ≤ em.mantissa := by exact_mod_cast hfull
    have hpow : (1 : Rat) ≤ 2 ^ k := one_le_pow₀ (by norm_num)
    have hv : w = v * 2 ^ (k + 1) := eq_mul_pow_of_scaled hk hvalue
    rw [pow_succ] at hv
    nlinarith

theorem roundWithAccuracy_eq {m : Nat} {e : Int} {accuracy : Accuracy} {v w : Rat}
    {m' : Nat} {e' : Int} (hv : Locates (.ofMantissaAndAccuracy m accuracy) v)
    (he : e ≤ Format.binary64.targetExponent (totalExponent m e)) (hw : Nearest w m' e')
    (hvalue : v * 2 ^ e = w * 2 ^ e') (s : Sign) :
    roundWithAccuracy .binary64 s m e accuracy = .finite s m' e' hw.pos := by
  obtain ⟨n, em, hshift, hem, hcanonical⟩ := shiftToTargetExponent_spec hv he
  have hscaled : v / 2 ^ n * 2 ^ (e + n) = w * 2 ^ e' := by
    rw [← hvalue, zpow_add₀ (by norm_num), zpow_natCast]
    field_simp
  have hround := hw.shift_roundedMantissa hem hcanonical hscaled
  simp only [roundWithAccuracy, hshift, hround]
  exact dif_neg hw.pos.ne'

theorem Nearest.of_canonical {m : Nat} {e : Int} (h : Canonical m e) (hm : 0 < m) :
    Nearest m m e := by
  refine ⟨h, hm, by linarith, fun _ _ => by linarith, by linarith, fun htie => ?_⟩
  rcases htie with htie | htie <;> linarith

theorem round_finite {s : Sign} {m : Nat} {e : Int} (hm : 0 < m) {w : Rat} {m' : Nat} {e' : Int}
    (hw : Nearest w m' e') (hvalue : (m : Rat) * 2 ^ e = w * 2 ^ e') :
    UnpackedFloat.round .binary64 s m e = .finite s m' e' hw.pos := by
  obtain ⟨t, ht⟩ : ∃ t, t = Format.binary64.targetExponent (totalExponent m e) := ⟨_, rfl⟩
  obtain ⟨n, hn⟩ : ∃ n : Nat, n = (e - t).toNat := ⟨_, rfl⟩
  have hround : UnpackedFloat.round .binary64 s m e =
      roundWithAccuracy .binary64 s (m * 2 ^ n) (e - n) .exact := by
    simp only [UnpackedFloat.round, decreaseExponent, ← ht, ← hn, Nat.shiftLeft_eq]
  have htarget : e - n ≤ Format.binary64.targetExponent (totalExponent (m * 2 ^ n) (e - n)) := by
    have hlog : m.log2 + n ≤ (m * 2 ^ n).log2 := by
      rw [Nat.le_log2 (by positivity), Nat.pow_add]
      exact Nat.mul_le_mul_right _ (Nat.log2_self_le hm.ne')
    rw [targetExponent_eq] at ht ⊢
    omega
  have hscaled : ((m * 2 ^ n : Nat) : Rat) * 2 ^ (e - n) = w * 2 ^ e' := by
    rw [← hvalue, zpow_sub₀ (by norm_num), zpow_natCast]
    push_cast
    field_simp
  have hexact : Locates (.ofMantissaAndAccuracy (m * 2 ^ n) .exact) ((m * 2 ^ n : Nat) : Rat) :=
    rfl
  rw [hround]
  exact roundWithAccuracy_eq hexact htarget hw hscaled s

theorem le_targetExponent {m : Nat} {e : Int} (h : 2 ^ 52 ≤ m ∨ e ≤ -1074) :
    e ≤ Format.binary64.targetExponent (totalExponent m e) := by
  rw [targetExponent_eq]
  rcases h with hm | he
  · have hlog : 52 ≤ m.log2 := (Nat.le_log2 (by omega)).2 hm
    omega
  · omega

theorem mul_finite {s₁ s₂ : Sign} {m₁ m₂ : Nat} {e₁ e₂ : Int} {h₁ : 0 < m₁} {h₂ : 0 < m₂}
    (hlarge : 2 ^ 52 ≤ m₁ * m₂) {w : Rat} {m' : Nat} {e' : Int} (hw : Nearest w m' e')
    (hvalue : (m₁ * 2 ^ e₁) * (m₂ * 2 ^ e₂) = w * 2 ^ e') :
    UnpackedFloat.mul .binary64 (.finite s₁ m₁ e₁ h₁) (.finite s₂ m₂ e₂ h₂) =
      .finite (s₁ * s₂) m' e' hw.pos := by
  have hproduct : ((m₁ * m₂ : Nat) : Rat) * 2 ^ (e₁ + e₂) = w * 2 ^ e' := by
    rw [← hvalue, zpow_add₀ (by norm_num)]
    push_cast
    ring
  have hexact : Locates (.ofMantissaAndAccuracy (m₁ * m₂) .exact) ((m₁ * m₂ : Nat) : Rat) := rfl
  exact roundWithAccuracy_eq hexact (le_targetExponent (.inl hlarge)) hw hproduct (s₁ * s₂)

theorem locates_fraction (q : Nat) {r d : Nat} (hr : r < d) :
    Locates (.ofMantissaAndAccuracy q (accuracyOfFraction r d)) (q + r / d) := by
  have hd : (0 : Rat) < d := by exact_mod_cast Nat.zero_lt_of_lt hr
  have hone : (r : Rat) / d < 1 := (div_lt_one hd).2 (by exact_mod_cast hr)
  rw [accuracyOfFraction]
  split
  · next hzero =>
    rw [hzero]
    simp [Locates, ExtendedMantissa.ofMantissaAndAccuracy]
  · next hne =>
    have hpos : (0 : Rat) < r / d := div_pos (by exact_mod_cast Nat.pos_of_ne_zero hne) hd
    cases h : compare (2 * r) d with
    | lt =>
      have hhalf : (2 * r : Rat) < d := by exact_mod_cast Nat.compare_eq_lt.1 h
      have hless : (r : Rat) / d < 1 / 2 := by
        rw [div_lt_div_iff₀ hd (by norm_num)]
        linarith
      exact ⟨lt_add_of_pos_right _ hpos, add_lt_add_right hless _⟩
    | eq =>
      have hhalf : (2 * r : Rat) = d := by exact_mod_cast Nat.compare_eq_eq.1 h
      have heq : (r : Rat) / d = 1 / 2 := by
        rw [div_eq_div_iff hd.ne' (by norm_num)]
        linarith
      exact congrArg _ heq
    | gt =>
      have hhalf : (d : Rat) < 2 * r := by exact_mod_cast Nat.compare_eq_gt.1 h
      have hmore : 1 / 2 < (r : Rat) / d := by
        rw [div_lt_div_iff₀ (by norm_num) hd]
        linarith
      exact ⟨add_lt_add_right hmore _, add_lt_add_right hone _⟩

theorem locates_quotient (m : Nat) {d : Nat} (hd : 0 < d) :
    Locates (.ofMantissaAndAccuracy (m / d) (accuracyOfFraction (m % d) d)) (m / d : Rat) := by
  have hne : (d : Rat) ≠ 0 := by exact_mod_cast hd.ne'
  have hsplit : (m / d : Rat) = (m / d : Nat) + (m % d : Nat) / d := by
    rw [div_eq_iff hne, add_mul, div_mul_cancel₀ _ hne]
    exact_mod_cast (Nat.div_add_mod' m d).symm
  rw [hsplit]
  exact locates_fraction (m / d) (Nat.mod_lt m hd)

-- The dividend is shifted far enough for the quotient to fill the places of a double.
theorem div_finite {s₁ s₂ : Sign} {m₁ m₂ : Nat} {e₁ e₂ : Int} {h₁ : 0 < m₁} {h₂ : 0 < m₂}
    {w : Rat} {m' : Nat} {e' : Int} (hw : Nearest w m' e')
    (hvalue : (m₁ * 2 ^ e₁) / (m₂ * 2 ^ e₂) = w * 2 ^ e') :
    UnpackedFloat.div .binary64 (.finite s₁ m₁ e₁ h₁) (.finite s₂ m₂ e₂ h₂) =
      .finite (s₁ / s₂) m' e' hw.pos := by
  obtain ⟨t, ht⟩ : ∃ t, t = min (e₁ - e₂)
      (Format.binary64.targetExponent (totalExponent m₁ e₁ - totalExponent m₂ e₂)) := ⟨_, rfl⟩
  obtain ⟨n, hn⟩ : ∃ n : Nat, e₁ - e₂ = t + n := ⟨(e₁ - e₂ - t).toNat, by omega⟩
  have hshift : (e₁ - e₂ - t).toNat = n := by omega
  have hdiv : UnpackedFloat.div .binary64 (.finite s₁ m₁ e₁ h₁) (.finite s₂ m₂ e₂ h₂) =
      roundWithAccuracy .binary64 (s₁ / s₂) (m₁ * 2 ^ n / m₂) t
        (accuracyOfFraction (m₁ * 2 ^ n % m₂) m₂) := by
    simp only [UnpackedFloat.div, divCore, ← ht, hshift, Nat.shiftLeft_eq]
  have hfull : 2 ^ 52 ≤ m₁ * 2 ^ n / m₂ ∨ t ≤ -1074 := by
    simp only [Format.targetExponent, totalExponent, Format.mantissaBits, Format.minExponent] at ht
    by_cases hlow : t ≤ -1074
    · exact .inr hlow
    · have hlog : 52 + (m₂.log2 + 1) ≤ m₁.log2 + n := by omega
      refine .inl ((Nat.le_div_iff_mul_le h₂).2 ?_)
      calc 2 ^ 52 * m₂ ≤ 2 ^ 52 * 2 ^ (m₂.log2 + 1) :=
            Nat.mul_le_mul_left _ Nat.lt_log2_self.le
        _ = 2 ^ (52 + (m₂.log2 + 1)) := (Nat.pow_add _ _ _).symm
        _ ≤ 2 ^ (m₁.log2 + n) := Nat.pow_le_pow_right (by decide) hlog
        _ = 2 ^ m₁.log2 * 2 ^ n := Nat.pow_add _ _ _
        _ ≤ m₁ * 2 ^ n := Nat.mul_le_mul_right _ (Nat.log2_self_le h₁.ne')
  have hquotient : ((m₁ * 2 ^ n : Nat) / m₂ : Rat) * 2 ^ t = w * 2 ^ e' := by
    rw [← hvalue, mul_div_mul_comm, ← zpow_sub₀ (by norm_num), hn, zpow_add₀ (by norm_num),
      zpow_natCast]
    push_cast
    ring
  rw [hdiv]
  exact roundWithAccuracy_eq (locates_quotient _ h₂) (le_targetExponent hfull) hw hquotient _

end PerspectiveBox.Double
