import PerspectiveBox.Proofs.Number.RoundTrip
import PerspectiveBox.Proofs.Text.Blank
import PerspectiveBox.Settings.Toml

namespace PerspectiveBox

open Numeral

theorem Numeral.not_mem_point {s : List Char} (h : IsDigits s) : '.' ∉ s :=
  fun hc => absurd (h '.' hc) (by decide)

theorem Numeral.pointed_whole {units zeros : Nat} (h : units = 0 → zeros = 0) :
    Pointed (digitsOf units ++ List.replicate zeros '0') ['0'] (units * 10 ^ (zeros + 1)) := by
  have hzeros : digitsOf units ++ List.replicate zeros '0' ++ ['0'] =
      digitsOf units ++ List.replicate (zeros + 1) '0' := by
    rw [List.append_assoc, ← List.replicate_succ']
  refine ⟨?_, ?_, List.append_ne_nil_of_left_ne_nil Nat.toDigits_ne_nil _, fun rest hrest => ?_⟩
  · rw [hzeros]
    exact (isDigits_digitsOf units).append (isDigits_zeros _)
  · rw [hzeros, digitsValue_append_zeros, digitsValue_digitsOf]
  · obtain ⟨d, digits, hcons, hzero⟩ := toDigits_eq_cons units
    rw [digitsOf, hcons, List.cons_append, List.cons.injEq] at hrest
    have hunits : units = 0 := by
      rw [← digitsValue_digitsOf units, digitsOf, hcons, hrest.1, hzero hrest.1]
      rfl
    rw [← hrest.2, hzero hrest.1, h hunits]
    rfl

theorem Settings.tomlNumber_whole (negative : Bool) (units zeros : Nat) :
    tomlNumber (.decimal negative units (.ofNat zeros)) = signed negative
      (digitsOf units ++ List.replicate (if units = 0 then 0 else zeros) '0' ++ ['.', '0']) := by
  have hpoint : '.' ∉ (Numeral.decimal negative units (.ofNat zeros)).chars := by
    have hdigits := not_mem_point ((isDigits_digitsOf units).append
      (isDigits_zeros (if units = 0 then 0 else zeros)))
    cases negative with
    | false => exact hdigits
    | true => exact List.not_mem_cons_of_ne_of_not_mem (by decide) hdigits
  rw [tomlNumber, if_neg (by simpa using hpoint)]
  cases negative <;> rfl

theorem Settings.exists_pointed_tomlNumber (negative : Bool) (units : Nat) (e : Int) :
    ∃ whole fraction units',
      tomlNumber (.decimal negative units e) = signed negative (whole ++ '.' :: fraction) ∧
      Pointed whole fraction units' ∧ fraction ≠ [] ∧
      (units : Rat) * 10 ^ e = units' * 10 ^ (-fraction.length : Int) := by
  cases e with
  | ofNat zeros =>
    refine ⟨_, _, _, tomlNumber_whole negative units zeros, pointed_whole (if_pos ·),
      List.cons_ne_nil _ _, ?_⟩
    have hten : (10 : Rat) ^ (-['0'].length : Int) = 10⁻¹ := rfl
    rw [hten, Int.ofNat_eq_natCast, zpow_natCast]
    split
    · next hzero => simp [hzero]
    · push_cast
      field_simp
      ring
  | negSucc n =>
    obtain ⟨whole, fraction, htext, hpointed, hlength⟩ := exists_pointed_withPoint units (n + 1)
    refine ⟨whole, fraction, units, ?_, hpointed, ?_, ?_⟩
    · have hchars : (Numeral.decimal negative units (.negSucc n)).chars =
          signed negative (whole ++ '.' :: fraction) := congrArg (signed negative) htext
      have hpoint : '.' ∈ signed negative (whole ++ '.' :: fraction) := by
        cases negative <;> simp [signed]
      rw [tomlNumber, hchars, if_pos (List.contains_iff_mem.2 hpoint)]
    · rintro rfl
      cases hlength
    · rw [hlength]
      rfl

namespace Toml.Literal

theorem ne_of_isDigit {c d : Char} (hc : c.isDigit = true) (hd : d.isDigit = false) : c ≠ d := by
  rintro rfl
  rw [hc] at hd
  cases hd

theorem isMark_of_isDigit {c : Char} (h : c.isDigit = true) : isMark c = false := by
  simp [isMark, ne_of_isDigit h]

theorem digits?_of_isDigits {s : List Char} (h : IsDigits s) (hne : s ≠ []) :
    digits? Char.isDigit s = some s := by
  have hplain : '_' ∉ s := fun hc => absurd (h '_' hc) (by decide)
  rw [digits?, Text.splitOn_of_not_mem hplain]
  simp [hne]
  exact h

theorem takeSign_signed {negative : Bool} {s : List Char}
    (h : ∀ c ∈ s.head?, c.isDigit = true) : takeSign (signed negative s) = (negative, s) := by
  have hhead : ∀ c ∈ s.head?, c ≠ '-' ∧ c ≠ '+' := fun c hc =>
    ⟨ne_of_isDigit (h c hc) (by decide), ne_of_isDigit (h c hc) (by decide)⟩
  cases negative with
  | false => exact Sign.absent.takeSign_append hhead
  | true => rfl

variable {whole fraction : List Char} {units : Nat}

theorem head_of_pointed (h : Pointed whole fraction units) :
    ∀ c ∈ (whole ++ '.' :: fraction).head?, c.isDigit = true := by
  obtain ⟨d, digits, rfl⟩ := List.exists_cons_of_ne_nil h.whole_ne
  rintro c ⟨⟩
  exact h.digits d List.mem_cons_self

theorem ne_cons_of_pointed (h : Pointed whole fraction units) {c : Char}
    (hc : c.isDigit = false) (rest : List Char) : whole ++ '.' :: fraction ≠ c :: rest := by
  intro he
  have hhead := head_of_pointed h
  rw [he] at hhead
  exact ne_of_isDigit (hhead c rfl) hc rfl

theorem signed_ne_cons_of_pointed (h : Pointed whole fraction units) {c : Char}
    (hc : c.isDigit = false) (hdash : c ≠ '-') (negative : Bool) (rest : List Char) :
    signed negative (whole ++ '.' :: fraction) ≠ c :: rest := by
  cases negative with
  | false => exact ne_cons_of_pointed h hc rest
  | true => exact fun he => hdash (List.cons.inj he).1.symm

theorem hasLeadingZero_of_pointed (h : Pointed whole fraction units) :
    hasLeadingZero whole = false := by
  have hzero := h.noLeadingZero
  rw [hasLeadingZero.eq_def]
  split
  · exact absurd (hzero _ rfl) (List.cons_ne_nil _ _)
  · rfl

theorem fractional?_pointed (h : Pointed whole fraction units) (hne : fraction ≠ [])
    {negative : Bool}
    (hfinite : (Double.ofNumeral (.decimal negative units (-fraction.length))).isFinite = true) :
    fractional? (signed negative (whole ++ '.' :: fraction)) =
      some (.decimal negative units (-fraction.length)) := by
  obtain ⟨hwhole, hfraction⟩ := List.forall_mem_append.1 h.digits
  have hmark : ∀ c ∈ whole ++ '.' :: fraction, (!isMark c) = true := by
    intro c hc
    rcases List.mem_append.1 hc with hc | hc
    · rw [isMark_of_isDigit (hwhole c hc)]
      rfl
    · rcases List.mem_cons.1 hc with rfl | hc
      · rfl
      · rw [isMark_of_isDigit (hfraction c hc)]
        rfl
  have hpoint : ∀ c ∈ whole, decide (c ≠ '.') = true := fun c hc =>
    decide_eq_true (ne_of_isDigit (hwhole c hc) (by decide))
  have hmantissa := List.takeWhile_eq_self_iff.2 hmark
  have hexponent := List.dropWhile_eq_nil_iff.2 hmark
  have htake : (whole ++ '.' :: fraction).takeWhile (fun c => decide (c ≠ '.')) = whole := by
    rw [List.takeWhile_append_of_pos hpoint]
    simp
  have hdrop : (whole ++ '.' :: fraction).dropWhile (fun c => decide (c ≠ '.')) =
      '.' :: fraction := by
    rw [List.dropWhile_append_of_pos hpoint]
    simp
  rw [fractional?, takeSign_signed (head_of_pointed h)]
  simp only [hmantissa, hexponent, htake, hdrop, whole?, hasLeadingZero_of_pointed h,
    digits?_of_isDigits hwhole h.whole_ne, List.isEmpty_nil, List.isEmpty_cons, List.tail_cons,
    if_true, Bool.false_eq_true, if_false, digits?_of_isDigits hfraction hne,
    Option.bind_eq_bind, Option.bind_some, h.value, Int.zero_sub, hfinite, Bool.or_true]
  rfl

theorem float?_pointed (h : Pointed whole fraction units) (hne : fraction ≠ [])
    {negative : Bool}
    (hfinite : (Double.ofNumeral (.decimal negative units (-fraction.length))).isFinite = true) :
    float? (signed negative (whole ++ '.' :: fraction)) =
      some (.decimal negative units (-fraction.length)) := by
  have hinf := ne_cons_of_pointed h (c := 'i') (by decide) ['n', 'f']
  have hnan := ne_cons_of_pointed h (c := 'n') (by decide) ['a', 'n']
  rw [float?, takeSign_signed (head_of_pointed h)]
  simp only [if_neg hinf, if_neg hnan]
  exact fractional?_pointed h hne hfinite

theorem not_isTime {s : List Char} (h : ':' ∉ s) : isTime s = false := by
  have hclock : ':' ∉ s.takeWhile (· ≠ '.') := fun hc => h (List.takeWhile_subset _ hc)
  have hsplit : isClock (s.takeWhile (· ≠ '.')) = false := by
    rw [isClock, Text.splitOn_of_not_mem hclock, List.mapM_cons]
    cases fixed? 2 (s.takeWhile (· ≠ '.')) <;> rfl
  rw [isTime]
  simp only [hsplit, Bool.and_false, Bool.false_and]

theorem not_isDate {s : List Char} (h : '-' ∉ s) (negative : Bool) :
    isDate (signed negative s) = false := by
  cases negative with
  | false =>
    show isDate s = false
    rw [isDate, Text.splitOn_of_not_mem h]
  | true =>
    have hsplit : Text.splitOn '-' ('-' :: s) = [[], s] := by
      rw [← List.nil_append ('-' :: s), Text.splitOn_append List.not_mem_nil,
        Text.splitOn_of_not_mem h]
    show isDate ('-' :: s) = false
    rw [isDate, hsplit]

theorem not_isMoment {s : List Char} (hcolon : ':' ∉ s) (hdash : '-' ∉ s) (negative : Bool) :
    isMoment (signed negative s) = false := by
  have htime : isTime (signed negative s) = false := by
    cases negative with
    | false => exact not_isTime hcolon
    | true => exact not_isTime (List.not_mem_cons_of_ne_of_not_mem (by decide) hcolon)
  obtain ⟨k, hk⟩ : ∃ k, (signed negative s).take 10 = signed negative (s.take k) := by
    cases negative with
    | false => exact ⟨10, rfl⟩
    | true => exact ⟨9, rfl⟩
  have htake : '-' ∉ s.take k := fun hc => hdash (List.mem_of_mem_take hc)
  rw [isMoment, htime, not_isDate hdash, hk, not_isDate htake]
  rfl

theorem not_isMoment_pointed (h : Pointed whole fraction units) (negative : Bool) :
    isMoment (signed negative (whole ++ '.' :: fraction)) = false := by
  have hplain {c : Char} (hdigit : c.isDigit = false) (hpoint : c ≠ '.') :
      c ∉ whole ++ '.' :: fraction := by
    obtain ⟨hwhole, hfraction⟩ := List.forall_mem_append.1 h.digits
    intro hc
    rcases List.mem_append.1 hc with hc | hc
    · exact ne_of_isDigit (hwhole c hc) hdigit rfl
    · rcases List.mem_cons.1 hc with hc | hc
      · exact hpoint hc
      · exact ne_of_isDigit (hfraction c hc) hdigit rfl
  exact not_isMoment (hplain (by decide) (by decide)) (hplain (by decide) (by decide)) negative

end Toml.Literal

open Toml.Literal

theorem Toml.Node.ofWord?_pointed {whole fraction : List Char} {units : Nat} {negative : Bool}
    (h : Pointed whole fraction units) (hne : fraction ≠ [])
    (hfinite : (Double.ofNumeral (.decimal negative units (-fraction.length))).isFinite = true) :
    ofWord? (signed negative (whole ++ '.' :: fraction)) =
      some (.float (.decimal negative units (-fraction.length))) := by
  have htrue := signed_ne_cons_of_pointed h (c := 't') (by decide) (by decide) negative
    ['r', 'u', 'e']
  have hfalse := signed_ne_cons_of_pointed h (c := 'f') (by decide) (by decide) negative
    ['a', 'l', 's', 'e']
  rw [ofWord?, if_neg htrue, if_neg hfalse, not_isMoment_pointed h, float?_pointed h hne hfinite]
  rfl

theorem Toml.isWordChar_of_mem_pointed {whole fraction : List Char} {units : Nat}
    (h : Pointed whole fraction units) (negative : Bool) :
    ∀ c ∈ signed negative (whole ++ '.' :: fraction), isWordChar c = true := by
  have hdigit {c : Char} (hc : c.isDigit = true) : isWordChar c = true := by
    simp [isWordChar, Char.isAlphanum, hc]
  obtain ⟨hwhole, hfraction⟩ := List.forall_mem_append.1 h.digits
  have hbody : ∀ c ∈ whole ++ '.' :: fraction, isWordChar c = true := by
    refine List.forall_mem_append.2 ⟨fun c hc => hdigit (hwhole c hc), ?_⟩
    exact List.forall_mem_cons.2 ⟨by decide, fun c hc => hdigit (hfraction c hc)⟩
  cases negative with
  | false => exact hbody
  | true => exact List.forall_mem_cons.2 ⟨by decide, hbody⟩

-- A double is read back from the word that it is written as.
theorem Settings.ofWord?_tomlNumber (x : Float) :
    ∃ n, Toml.Node.ofWord? (tomlNumber (Double.toNumeral x)) = some (.float n) ∧
      (∀ c ∈ tomlNumber (Double.toNumeral x), Toml.isWordChar c = true) ∧
      Double.ofNumeral n = x := by
  cases h : Double.toNumeral x with
  | decimal negative units e =>
    obtain ⟨whole, fraction, units', htext, hpointed, hne, hvalue⟩ :=
      exists_pointed_tomlNumber negative units e
    have hread : Double.ofNumeral (.decimal negative units' (-fraction.length)) = x :=
      Double.ofNumeral_of_sameNumber (h ▸ .decimal negative hvalue)
    have hfinite := hread ▸ Double.isFinite_of_toNumeral h
    rw [htext]
    exact ⟨_, Toml.Node.ofWord?_pointed hpointed hne hfinite,
      Toml.isWordChar_of_mem_pointed hpointed negative, hread⟩
  | infinite negative =>
    have hread : Double.ofNumeral (.infinite negative) = x :=
      Double.ofNumeral_of_sameNumber (h ▸ .infinite negative)
    cases negative with
    | false => exact ⟨.infinite false, rfl, List.all_eq_true.1 rfl, hread⟩
    | true => exact ⟨.infinite true, rfl, List.all_eq_true.1 rfl, hread⟩
  | notANumber =>
    have hread : Double.ofNumeral .notANumber = x :=
      Double.ofNumeral_of_sameNumber (h ▸ .notANumber)
    exact ⟨.notANumber, rfl, List.all_eq_true.1 rfl, hread⟩

end PerspectiveBox
