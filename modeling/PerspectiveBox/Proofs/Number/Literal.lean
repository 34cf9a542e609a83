import Mathlib.Data.List.TakeWhile
import PerspectiveBox.Number.Numeral

namespace PerspectiveBox.Numeral

inductive Sign : List Char → Bool → Prop where
  | absent : Sign [] false
  | plus : Sign ['+'] false
  | minus : Sign ['-'] true

def IsDigits (s : List Char) : Prop := ∀ c ∈ s, c.isDigit = true

inductive Exponent : List Char → Int → Prop where
  | absent : Exponent [] 0
  | marked {mark : Char} {sign digits : List Char} {negative : Bool}
      (hmark : mark = 'e' ∨ mark = 'E') (hsign : Sign sign negative) (hne : digits ≠ [])
      (hdigits : IsDigits digits) :
      Exponent (mark :: (sign ++ digits))
        (if negative then -(digitsValue digits : Int) else digitsValue digits)

-- The point may stand before or after all digits.
inductive Number (negative : Bool) : List Char → Numeral → Prop where
  | whole {digits mark : List Char} {e : Int} (hne : digits ≠ []) (hdigits : IsDigits digits)
      (hmark : Exponent mark e) :
      Number negative (digits ++ mark) (.decimal negative (digitsValue digits) e)
  | pointed {digits fraction mark : List Char} {e : Int} (hne : digits ≠ [] ∨ fraction ≠ [])
      (hdigits : IsDigits digits) (hfraction : IsDigits fraction) (hmark : Exponent mark e) :
      Number negative (digits ++ '.' :: (fraction ++ mark))
        (.decimal negative (digitsValue (digits ++ fraction)) (e - fraction.length))

inductive Literal : List Char → Numeral → Prop where
  | infinite {sign word : List Char} {negative : Bool} (hsign : Sign sign negative)
      (hword : word.map Char.toLower = ['i', 'n', 'f'] ∨
        word.map Char.toLower = ['i', 'n', 'f', 'i', 'n', 'i', 't', 'y']) :
      Literal (sign ++ word) (.infinite negative)
  | notANumber {sign word : List Char} {negative : Bool} (hsign : Sign sign negative)
      (hword : word.map Char.toLower = ['n', 'a', 'n']) : Literal (sign ++ word) .notANumber
  | number {sign body : List Char} {negative : Bool} {n : Numeral} (hsign : Sign sign negative)
      (hbody : Number negative body n) : Literal (sign ++ body) n

theorem sign_takeSign (s : List Char) :
    ∃ sign, Sign sign (takeSign s).1 ∧ s = sign ++ (takeSign s).2 := by
  fun_cases takeSign s with
  | case1 rest => exact ⟨['-'], .minus, rfl⟩
  | case2 rest => exact ⟨['+'], .plus, rfl⟩
  | case3 => exact ⟨[], .absent, rfl⟩

theorem Sign.takeSign_append {sign : List Char} {negative : Bool} (h : Sign sign negative)
    {s : List Char} (hs : ∀ c ∈ s.head?, c ≠ '-' ∧ c ≠ '+') :
    takeSign (sign ++ s) = (negative, s) := by
  cases h with
  | absent =>
    cases s with
    | nil => rfl
    | cons c s =>
      obtain ⟨hminus, hplus⟩ := hs c rfl
      rw [List.nil_append, takeSign] <;> simp_all
  | plus => rfl
  | minus => rfl

theorem spanDigits_append {digits rest : List Char} (hdigits : IsDigits digits)
    (hrest : ∀ c ∈ rest.head?, c.isDigit = false) :
    spanDigits (digits ++ rest) = (digits, rest) := by
  rw [spanDigits, List.takeWhile_append_of_pos hdigits, List.dropWhile_append_of_pos hdigits]
  cases rest with
  | nil => simp
  | cons c rest =>
    have hc : c.isDigit = false := hrest c rfl
    simp [hc]

theorem exponent?_eq_some_iff {s : List Char} {e : Int} : exponent? s = some e ↔ Exponent s e := by
  constructor
  · intro h
    cases s with
    | nil =>
      cases h
      exact .absent
    | cons mark rest =>
      rw [exponent?] at h
      split at h
      · next hmark =>
        obtain ⟨sign, hsign, hrest⟩ := sign_takeSign rest
        rcases htake : takeSign rest with ⟨negative, digits⟩
        simp only [htake] at h hsign hrest
        split at h
        · cases h
        · next hdigits =>
          rw [not_or, not_not, List.isEmpty_iff, List.all_eq_true] at hdigits
          have he := Exponent.marked hmark hsign hdigits.1 hdigits.2
          rw [hrest]
          split at h <;> cases h <;> simpa [*] using he
      · cases h
  · rintro (_ | ⟨hmark, hsign, hne, hdigits⟩)
    · rfl
    · rename_i mark sign digits negative
      have htake := hsign.takeSign_append (s := digits) fun c hc => by
        have hdigit := hdigits c (List.mem_of_mem_head? hc)
        constructor <;> rintro rfl <;> exact absurd hdigit (by decide)
      rw [exponent?, if_pos hmark]
      simp only [htake]
      rw [if_neg (by simp [hne, List.isEmpty_iff]; exact hdigits)]
      cases negative <;> rfl

theorem spanDigits_spec (s : List Char) : s = (spanDigits s).1 ++ (spanDigits s).2 ∧
    IsDigits (spanDigits s).1 := by
  refine ⟨?_, fun c hc => List.mem_takeWhile_imp hc⟩
  rw [spanDigits, List.takeWhile_append_dropWhile]

theorem Exponent.head {s : List Char} {e : Int} (h : Exponent s e) :
    ∀ c ∈ s.head?, c.isDigit = false ∧ c ≠ '.' := by
  cases h with
  | absent => exact nofun
  | marked hmark =>
    intro c hc
    obtain rfl := Option.some.inj hc
    rcases hmark with rfl | rfl <;> exact ⟨rfl, by decide⟩

theorem decimal?_eq_some_iff {negative : Bool} {s : List Char} {n : Numeral} :
    decimal? negative s = some n ↔ Number negative s n := by
  constructor
  · intro h
    obtain ⟨hs, hwhole⟩ := spanDigits_spec s
    unfold decimal? at h
    rcases hspan : spanDigits s with ⟨whole, rest⟩
    simp only [hspan] at h hs hwhole
    split at h
    · next rest' =>
      obtain ⟨hrest, hfraction⟩ := spanDigits_spec rest'
      rcases hspan' : spanDigits rest' with ⟨fraction, mark⟩
      simp only [hspan'] at h hrest hfraction
      split at h
      · cases h
      · next hne =>
        obtain ⟨e, he, rfl⟩ := Option.map_eq_some_iff.1 h
        rw [hs, hrest]
        refine .pointed ?_ hwhole hfraction (exponent?_eq_some_iff.1 he)
        simpa [List.isEmpty_iff, imp_iff_not_or] using hne
    · split at h
      · cases h
      · next hne =>
        obtain ⟨e, he, rfl⟩ := Option.map_eq_some_iff.1 h
        rw [hs]
        have hsome : whole ≠ [] := by simpa [List.isEmpty_iff] using hne
        rw [List.append_nil, List.length_nil, Int.natCast_zero, Int.sub_zero]
        exact .whole hsome hwhole (exponent?_eq_some_iff.1 he)
  · rintro (⟨hne, hdigits, hmark⟩ | ⟨hne, hdigits, hfraction, hmark⟩)
    · rename_i digits mark e
      have hspan := spanDigits_append hdigits fun c hc => (hmark.head c hc).1
      have he := exponent?_eq_some_iff.2 hmark
      unfold decimal?
      simp only [hspan]
      split
      · next rest =>
        exact absurd rfl (hmark.head '.' rfl).2
      · simp [he, hne]
    · rename_i digits fraction mark e
      have hpoint : ∀ c ∈ ('.' :: (fraction ++ mark)).head?, c.isDigit = false := by
        rintro c ⟨⟩
        rfl
      have hspan := spanDigits_append hdigits hpoint
      have hspan' := spanDigits_append hfraction fun c hc => (hmark.head c hc).1
      have he := exponent?_eq_some_iff.2 hmark
      have hsome : ¬ (digits.isEmpty ∧ fraction.isEmpty) := by
        simpa [List.isEmpty_iff, imp_iff_not_or] using hne
      unfold decimal?
      simp only [hspan, hspan', he]
      rw [if_neg hsome]
      rfl

-- What a number begins with tells it from the words.
theorem Number.head {negative : Bool} {s : List Char} {n : Numeral} (h : Number negative s n) :
    ∃ c, s.head? = some c ∧ (c.isDigit = true ∨ c = '.') := by
  cases h with
  | whole hne hdigits =>
    obtain ⟨c, rest, rfl⟩ := List.exists_cons_of_ne_nil hne
    exact ⟨c, rfl, .inl (hdigits c List.mem_cons_self)⟩
  | @pointed digits fraction mark e hne hdigits =>
    cases digits with
    | nil => exact ⟨'.', rfl, .inr rfl⟩
    | cons c digits => exact ⟨c, rfl, .inl (hdigits c List.mem_cons_self)⟩

theorem toLower_of_isDigit {c : Char} (h : c.isDigit = true) : c.toLower = c := by
  have hle : c.toNat ≤ 57 := by
    simp only [Char.isDigit, Bool.and_eq_true, decide_eq_true_eq, UInt32.le_iff_toNat_le] at h
    exact h.2
  refine dif_neg ?_
  rintro ⟨hge, -⟩
  have hge' : 65 ≤ c.toNat := UInt32.le_iff_toNat_le.1 hge
  omega

theorem ofList_eq_iff {l : List Char} {s : String} : String.ofList l = s ↔ l = s.toList :=
  ⟨fun h => by rw [← h, String.toList_ofList], fun h => by rw [h, String.ofList_toList]⟩

theorem Number.map_toLower_ne {negative : Bool} {s : List Char} {n : Numeral}
    (h : Number negative s n) {c : Char} (hdigit : c.isDigit = false) (hpoint : c ≠ '.')
    (word : List Char) : s.map Char.toLower ≠ c :: word := by
  obtain ⟨d, hd, hkind⟩ := h.head
  intro hword
  have hfirst := congrArg List.head? hword
  rw [List.head?_map, hd] at hfirst
  obtain rfl : d.toLower = c := Option.some.inj hfirst
  rcases hkind with hkind | rfl
  · rw [toLower_of_isDigit hkind, hkind] at hdigit
    cases hdigit
  · exact hpoint rfl

theorem head_of_map_toLower {word rest : List Char} {c : Char}
    (h : word.map Char.toLower = c :: rest) (hminus : c ≠ '-') (hplus : c ≠ '+') :
    ∀ d ∈ word.head?, d ≠ '-' ∧ d ≠ '+' := by
  intro d hd
  have hfirst := congrArg List.head? h
  rw [List.head?_map, Option.mem_def.1 hd] at hfirst
  obtain rfl : d.toLower = c := Option.some.inj hfirst
  constructor <;> rintro rfl
  · exact hminus rfl
  · exact hplus rfl

theorem Literal.ofChars?_eq {s : List Char} {n : Numeral} (h : Literal s n) :
    ofChars? s = some n := by
  cases h with
  | infinite hsign hword =>
    have htake := hsign.takeSign_append (hword.elim
      (fun h => head_of_map_toLower h (by decide) (by decide))
      (fun h => head_of_map_toLower h (by decide) (by decide)))
    simp only [ofChars?, htake, ofList_eq_iff]
    exact if_pos hword
  | notANumber hsign hword =>
    have htake := hsign.takeSign_append (head_of_map_toLower hword (by decide) (by decide))
    simp only [ofChars?, htake, ofList_eq_iff, hword]
    rfl
  | @number sign body negative n hsign hbody =>
    have htake := hsign.takeSign_append (s := body) fun c hc => by
      obtain ⟨d, hd, hkind⟩ := hbody.head
      obtain rfl : d = c := Option.some.inj (hd.symm.trans hc)
      constructor <;> rintro rfl <;> exact absurd hkind (by decide)
    have hinf : ¬ (body.map Char.toLower = "inf".toList ∨
        body.map Char.toLower = "infinity".toList) :=
      not_or.2 ⟨hbody.map_toLower_ne rfl (by decide) _, hbody.map_toLower_ne rfl (by decide) _⟩
    have hnan : ¬ body.map Char.toLower = "nan".toList :=
      hbody.map_toLower_ne rfl (by decide) _
    simp only [ofChars?, htake, ofList_eq_iff]
    rw [if_neg hinf, if_neg hnan]
    exact decimal?_eq_some_iff.2 hbody

theorem ofChars?_eq_some_iff {s : List Char} {n : Numeral} : ofChars? s = some n ↔ Literal s n := by
  refine ⟨fun h => ?_, Literal.ofChars?_eq⟩
  obtain ⟨sign, hsign, hs⟩ := sign_takeSign s
  unfold ofChars? at h
  rcases htake : takeSign s with ⟨negative, body⟩
  simp only [htake, ofList_eq_iff] at h hsign hs
  rw [hs]
  split at h
  · next hword =>
    cases h
    exact .infinite hsign hword
  · split at h
    · next hword =>
      cases h
      exact .notANumber hsign hword
    · exact .number hsign (decimal?_eq_some_iff.1 h)

end PerspectiveBox.Numeral
