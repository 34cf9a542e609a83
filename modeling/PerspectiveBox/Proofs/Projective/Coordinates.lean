import PerspectiveBox.Projective.Coordinates
import PerspectiveBox.Proofs.Text.Blank

namespace PerspectiveBox

-- What may stand between the colons: neither a colon nor white space.
def CoordText.isPlain (c : Char) : Bool := c != ':' && !Text.isBlank c

namespace Numeral

open CoordText

theorem isPlain_of_isDigit {c : Char} (h : c.isDigit = true) : isPlain c = true := by
  have hrange : 48 ≤ c.toNat ∧ c.toNat ≤ 57 := by
    simpa [Char.isDigit, UInt32.le_iff_toNat_le] using h
  have hcolon : c ≠ ':' := by
    intro he
    rw [he] at hrange
    exact absurd hrange.2 (by decide)
  simp only [isPlain, Text.isBlank, Text.blankRanges, List.any_cons, List.any_nil]
  simp [hcolon]
  omega

theorem isPlain_of_mem_digitsOf {n : Nat} {c : Char} (h : c ∈ digitsOf n) : isPlain c = true :=
  isPlain_of_isDigit (Nat.isDigit_of_mem_toDigits (by decide) (by decide) h)

theorem isPlain_of_mem_signed {negative : Bool} {text : List Char}
    (h : ∀ c ∈ text, isPlain c = true) : ∀ c ∈ signed negative text, isPlain c = true := by
  cases negative with
  | false => exact h
  | true => exact List.forall_mem_cons.2 ⟨by decide, h⟩

theorem isPlain_of_mem_withPoint {digits : List Char} (h : ∀ c ∈ digits, isPlain c = true)
    (places : Nat) : ∀ c ∈ withPoint digits places, isPlain c = true := by
  intro c hc
  rw [withPoint] at hc
  split at hc
  · rcases List.mem_append.1 hc with htake | hpoint
    · exact h c (List.mem_of_mem_take htake)
    · rcases List.mem_cons.1 hpoint with rfl | hdrop
      · decide
      · exact h c (List.mem_of_mem_drop hdrop)
  · rcases List.mem_append.1 hc with hzeros | hdigits
    · rcases List.mem_cons.1 hzeros with rfl | hzeros
      · decide
      · rcases List.mem_cons.1 hzeros with rfl | hzeros
        · decide
        · rw [List.eq_of_mem_replicate hzeros]
          decide
    · exact h c hdigits

theorem isPlain_of_mem_chars (n : Numeral) : ∀ c ∈ n.chars, isPlain c = true := by
  have hdigits (m : Nat) : ∀ c ∈ digitsOf m, isPlain c = true :=
    fun c hc => isPlain_of_mem_digitsOf hc
  cases n with
  | decimal negative units exponent =>
    cases exponent with
    | ofNat zeros =>
      refine isPlain_of_mem_signed fun c hc => ?_
      rcases List.mem_append.1 hc with hc | hc
      · exact hdigits units c hc
      · rw [List.eq_of_mem_replicate hc]
        decide
    | negSucc places =>
      exact isPlain_of_mem_signed (isPlain_of_mem_withPoint (hdigits units) (places + 1))
  | infinite negative =>
    have hword : ['i', 'n', 'f'].all isPlain = true := by decide
    exact isPlain_of_mem_signed (List.all_eq_true.1 hword)
  | notANumber =>
    have hword : ['N', 'a', 'N'].all isPlain = true := by decide
    exact List.all_eq_true.1 hword

end Numeral

namespace CoordText

theorem not_mem_of_isPlain {s : List Char} (h : ∀ c ∈ s, isPlain c = true) : ':' ∉ s :=
  fun hc => absurd (h ':' hc) (by decide)

theorem not_isBlank_of_isPlain {c : Char} (h : isPlain c = true) : Text.isBlank c = false := by
  simp only [isPlain, Bool.and_eq_true, Bool.not_eq_true'] at h
  exact h.2

-- The parts of joined texts, also when there is white space in front of the first.
theorem parts_padded {texts : List (List Char)} (h : ∀ t ∈ texts, ∀ c ∈ t, isPlain c = true)
    (hne : texts ≠ []) {pad : List Char} (hpad : ∀ c ∈ pad, c = ' ') :
    parts (pad ++ List.intercalate [' ', ':', ' '] texts) = texts := by
  have hblank {pad : List Char} (hpad : ∀ c ∈ pad, c = ' ') : ∀ c ∈ pad, Text.isBlank c = true :=
    fun c hc => by rw [hpad c hc]; decide
  have hcolon {pad : List Char} (hpad : ∀ c ∈ pad, c = ' ') : ':' ∉ pad :=
    fun hc => absurd (hpad ':' hc) (by decide)
  induction texts generalizing pad with
  | nil => exact absurd rfl hne
  | cons t texts ih =>
    obtain ⟨ht, htexts⟩ := List.forall_mem_cons.1 h
    have hplain : ∀ c ∈ t, Text.isBlank c = false := fun c hc => not_isBlank_of_isPlain (ht c hc)
    have hout : ':' ∉ pad ++ t := fun hc =>
      (List.mem_append.1 hc).elim (hcolon hpad) (not_mem_of_isPlain ht)
    cases texts with
    | nil =>
      have htrim : Text.trim (pad ++ t ++ []) = t := Text.trim_padded (hblank hpad) hplain nofun
      rw [List.append_nil] at htrim
      rw [List.intercalate_singleton, parts, Text.splitOn_of_not_mem hout, List.map_singleton,
        htrim]
    | cons u texts =>
      have hspace : ∀ c ∈ [' '], c = ' ' := fun c hc => List.mem_singleton.1 hc
      have hout' : ':' ∉ pad ++ t ++ [' '] := fun hc =>
        (List.mem_append.1 hc).elim hout (hcolon hspace)
      have hsplit : pad ++ List.intercalate [' ', ':', ' '] (t :: u :: texts) =
          pad ++ t ++ [' '] ++ ':' :: ([' '] ++ List.intercalate [' ', ':', ' '] (u :: texts)) := by
        simp [List.intercalate_cons_cons]
      have hrest := ih htexts (List.cons_ne_nil _ _) hspace
      rw [parts] at hrest
      rw [hsplit, parts, Text.splitOn_append hout', List.map_cons, hrest,
        Text.trim_padded (hblank hpad) hplain (hblank hspace)]

variable {K : Type} [Numeric K]

-- Whether a number is read from its own numeral.
def ReadsBack (x : K) : Prop :=
  (Numeral.ofChars? (Numeric.toNumeral x).chars).map Numeric.ofNumeral = some x

theorem number_chars {x : K} (h : ReadsBack x) (index : Nat) :
    number index (Numeric.toNumeral x).chars = .ok x := by
  obtain ⟨n, hn, hx⟩ := Option.map_eq_some_iff.1 h
  rw [number, hn]
  exact congrArg Except.ok hx

theorem parts_write {components : List K} (h : components ≠ []) :
    parts (write components) =
      components.map fun k => (Numeric.toNumeral k).chars := by
  have hplain : ∀ t ∈ components.map fun k => (Numeric.toNumeral k).chars,
      ∀ c ∈ t, isPlain c = true := by
    intro t ht
    obtain ⟨k, -, rfl⟩ := List.mem_map.1 ht
    exact Numeral.isPlain_of_mem_chars _
  have hnil : ∀ c ∈ [], c = ' ' := nofun
  exact parts_padded hplain (fun hempty => h (List.map_eq_nil_iff.1 hempty)) hnil

-- The colon keeps a text of two numbers or more from being blank.
theorem isBlank_write (x y : K) (components : List K) :
    isBlank (write (x :: y :: components)) = false := by
  have hcolon : ':' ∈ write (x :: y :: components) := by
    simp [write, List.intercalate_cons_cons]
  have hne := Text.trim_ne_nil hcolon (by decide)
  rw [isBlank, List.isEmpty_eq_false_iff]
  exact hne

theorem numbers_chars {components : List K} (h : ∀ k ∈ components, ReadsBack k) (index : Nat) :
    numbers index (components.map fun k => (Numeric.toNumeral k).chars) = .ok components := by
  induction components generalizing index with
  | nil => rfl
  | cons k components ih =>
    obtain ⟨hk, hrest⟩ := List.forall_mem_cons.1 h
    rw [List.map_cons, numbers, number_chars hk, ih hrest]
    rfl

theorem components?_write [Scalar K] {x y : K} {components : List K}
    (h : ∀ k ∈ x :: y :: components, ReadsBack k) :
    components? (components.length + 1) (write (x :: y :: components)) =
      .ok (x :: y :: components) := by
  have hparts := parts_write (List.cons_ne_nil x (y :: components))
  have hlength : (parts (write (x :: y :: components))).length = components.length + 1 + 1 := by
    rw [hparts, List.length_map, List.length_cons, List.length_cons]
  rw [components?, isBlank_write, if_neg Bool.false_ne_true, hlength,
    if_neg (Nat.succ_ne_self _), if_pos rfl, hparts, numbers_chars h]

end CoordText

open CoordText

variable {K : Type} [Scalar K] [Numeric K]

-- Whether all coordinates are read from their numerals.
def HPoint2.ReadsBack (p : HPoint2 K) : Prop := ∀ k ∈ p.components, CoordText.ReadsBack k

def HPoint3.ReadsBack (p : HPoint3 K) : Prop := ∀ k ∈ p.components, CoordText.ReadsBack k

theorem HPoint2.ofText_text {p : HPoint2 K} (h : p.ReadsBack) : ofText p.text = .ok p := by
  have hread : components? 2 p.chars = .ok p.components := components?_write h
  rw [ofText, text, String.toList_ofList, ofChars, hread]
  rfl

theorem HPoint3.ofText_text {p : HPoint3 K} (h : p.ReadsBack) : ofText p.text = .ok p := by
  have hread : components? 3 p.chars = .ok p.components := components?_write h
  rw [ofText, text, String.toList_ofList, ofChars, hread]
  rfl

end PerspectiveBox
