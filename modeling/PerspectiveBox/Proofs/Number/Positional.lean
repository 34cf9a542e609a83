import Mathlib.Algebra.Order.Ring.Rat
import PerspectiveBox.Proofs.Number.Literal

namespace PerspectiveBox.Numeral

-- Numerals that say the same number, whatever unit they count.
inductive SameNumber : Numeral → Numeral → Prop where
  | decimal (negative : Bool) {units units' : Nat} {e e' : Int}
      (h : (units : Rat) * 10 ^ e = units' * 10 ^ e') :
      SameNumber (.decimal negative units e) (.decimal negative units' e')
  | infinite (negative : Bool) : SameNumber (.infinite negative) (.infinite negative)
  | notANumber : SameNumber .notANumber .notANumber

theorem digitsValue_eq (s : List Char) : digitsValue s = Nat.ofDigitChars 10 s 0 := rfl

theorem digitsValue_digitsOf (n : Nat) : digitsValue (digitsOf n) = n :=
  Nat.ofDigitChars_ten_toDigits

theorem digitsValue_append_zeros (s : List Char) (zeros : Nat) :
    digitsValue (s ++ List.replicate zeros '0') = digitsValue s * 10 ^ zeros := by
  rw [digitsValue_eq, digitsValue_eq, Nat.ofDigitChars_append, Nat.ofDigitChars_replicate_zero,
    Nat.mul_comm]

theorem digitsValue_zeros_append (zeros : Nat) (s : List Char) :
    digitsValue (List.replicate zeros '0' ++ s) = digitsValue s := by
  rw [digitsValue_eq, digitsValue_eq, Nat.ofDigitChars_append, Nat.ofDigitChars_replicate_zero,
    Nat.mul_zero]

theorem isDigits_digitsOf (n : Nat) : IsDigits (digitsOf n) :=
  fun _ hc => Nat.isDigit_of_mem_toDigits (by decide) (by decide) hc

theorem isDigits_zeros (zeros : Nat) : IsDigits (List.replicate zeros '0') := by
  intro c hc
  rw [List.eq_of_mem_replicate hc]
  rfl

-- Only the numeral of zero begins with a zero.
theorem toDigits_eq_cons (n : Nat) :
    ∃ d digits, Nat.toDigits 10 n = d :: digits ∧ (d = '0' → digits = []) := by
  induction n using Nat.strongRecOn with
  | ind n ih =>
    by_cases hn : n < 10
    · exact ⟨n.digitChar, [], Nat.toDigits_of_lt_base hn, fun _ => rfl⟩
    · have hdiv : n / 10 < n := Nat.div_lt_self (by omega) (by omega)
      obtain ⟨d, digits, hdigits, hzero⟩ := ih (n / 10) hdiv
      refine ⟨d, digits ++ [(n % 10).digitChar], ?_, fun hd => ?_⟩
      · rw [Nat.toDigits_of_base_le (by omega) (by omega), hdigits, List.cons_append]
      · exfalso
        have hvalue : Nat.ofDigitChars 10 (Nat.toDigits 10 (n / 10)) 0 = n / 10 :=
          Nat.ofDigitChars_toDigits (by omega) (by omega)
        rw [hdigits, hd, hzero hd] at hvalue
        have : n / 10 = 0 := hvalue.symm
        omega

theorem IsDigits.append {s t : List Char} (hs : IsDigits s) (ht : IsDigits t) :
    IsDigits (s ++ t) :=
  List.forall_mem_append.2 ⟨hs, ht⟩

theorem literal_signed {negative : Bool} {s : List Char} {n : Numeral} (h : Number negative s n) :
    Literal (signed negative s) n := by
  cases negative with
  | false => exact .number .absent h
  | true => exact .number .minus h

theorem literal_signed_infinite (negative : Bool) :
    Literal (signed negative ['i', 'n', 'f']) (.infinite negative) := by
  have hword : ['i', 'n', 'f'].map Char.toLower = ['i', 'n', 'f'] := by decide
  cases negative with
  | false => exact .infinite .absent (.inl hword)
  | true => exact .infinite .minus (.inl hword)

-- Digits around a point. Only a lone zero stands in front of it.
structure Pointed (whole fraction : List Char) (units : Nat) : Prop where
  digits : IsDigits (whole ++ fraction)
  value : digitsValue (whole ++ fraction) = units
  whole_ne : whole ≠ []
  noLeadingZero : ∀ rest, whole = '0' :: rest → rest = []

theorem Pointed.number {whole fraction : List Char} {units : Nat}
    (h : Pointed whole fraction units) (negative : Bool) :
    Number negative (whole ++ '.' :: fraction) (.decimal negative units (-fraction.length)) := by
  obtain ⟨hwhole, hfraction⟩ := List.forall_mem_append.1 h.digits
  have hnumber : Number negative (whole ++ '.' :: (fraction ++ []))
      (.decimal negative (digitsValue (whole ++ fraction)) (0 - fraction.length)) :=
    .pointed (.inl h.whole_ne) hwhole hfraction .absent
  rwa [List.append_nil, Int.zero_sub, h.value] at hnumber

-- The point splits the digits, or zeros go between.
theorem exists_pointed_withPoint (units places : Nat) : ∃ whole fraction,
    withPoint (digitsOf units) places = whole ++ '.' :: fraction ∧
      Pointed whole fraction units ∧ fraction.length = places := by
  have hdigits := isDigits_digitsOf units
  have hvalue := digitsValue_digitsOf units
  rw [withPoint]
  split
  · next hplaces =>
    refine ⟨_, _, rfl, ⟨?_, ?_, ?_, fun rest hrest => ?_⟩, ?_⟩
    · rwa [List.take_append_drop]
    · rwa [List.take_append_drop]
    · rw [Ne, List.take_eq_nil_iff]
      rintro (hzero | hnil)
      · omega
      · exact Nat.toDigits_ne_nil hnil
    · obtain ⟨d, digits, hcons, hzero⟩ := toDigits_eq_cons units
      rw [digitsOf, hcons] at hrest
      obtain ⟨k, hk⟩ : ∃ k, (d :: digits).length - places = k + 1 :=
        Nat.exists_eq_succ_of_ne_zero fun hnone => by
          rw [hnone] at hrest
          cases hrest
      rw [hk, List.take_succ_cons, List.cons.injEq] at hrest
      rw [← hrest.2, hzero hrest.1, List.take_nil]
    · rw [List.length_drop]
      omega
  · next hplaces =>
    have hzeros : ['0'] ++ (List.replicate (places - (digitsOf units).length) '0' ++
        digitsOf units) =
        List.replicate (places - (digitsOf units).length + 1) '0' ++ digitsOf units := rfl
    refine ⟨['0'], List.replicate (places - (digitsOf units).length) '0' ++ digitsOf units, rfl,
      ⟨?_, ?_, List.cons_ne_nil _ _, ?_⟩, ?_⟩
    · rw [hzeros]
      exact (isDigits_zeros _).append hdigits
    · rw [hzeros, digitsValue_zeros_append, hvalue]
    · rintro rest ⟨⟩
      rfl
    · rw [List.length_append, List.length_replicate]
      omega

theorem number_whole (negative : Bool) (units zeros : Nat) :
    Number negative (digitsOf units ++ List.replicate zeros '0')
      (.decimal negative (units * 10 ^ zeros) 0) := by
  have hne : digitsOf units ++ List.replicate zeros '0' ≠ [] :=
    List.append_ne_nil_of_left_ne_nil Nat.toDigits_ne_nil _
  have hdigits := (isDigits_digitsOf units).append (isDigits_zeros zeros)
  have hnumber : Number negative (digitsOf units ++ List.replicate zeros '0' ++ []) _ :=
    .whole hne hdigits .absent
  rwa [List.append_nil, digitsValue_append_zeros, digitsValue_digitsOf] at hnumber

theorem exists_literal_chars (n : Numeral) : ∃ n', Literal n.chars n' ∧ SameNumber n n' := by
  cases n with
  | decimal negative units e =>
    cases e with
    | ofNat zeros =>
      refine ⟨_, literal_signed (number_whole negative units _), .decimal negative ?_⟩
      rw [Int.ofNat_eq_natCast, zpow_natCast, zpow_zero, mul_one]
      split
      · next hzero => simp [hzero]
      · push_cast
        rfl
    | negSucc n =>
      obtain ⟨whole, fraction, htext, hpointed, hlength⟩ := exists_pointed_withPoint units (n + 1)
      refine ⟨_, literal_signed (htext ▸ hpointed.number negative), .decimal negative ?_⟩
      rw [hlength]
      rfl
  | infinite negative => exact ⟨_, literal_signed_infinite negative, .infinite negative⟩
  | notANumber => exact ⟨_, .notANumber .absent (by decide), .notANumber⟩

end PerspectiveBox.Numeral
