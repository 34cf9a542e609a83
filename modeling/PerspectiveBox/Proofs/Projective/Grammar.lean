import Mathlib.Data.List.Forall2
import PerspectiveBox.Proofs.Number.RoundTrip
import PerspectiveBox.Proofs.Projective.Coordinates

namespace PerspectiveBox

namespace CoordText

variable {K : Type} [Numeric K]

-- The number that a part stands for.
def Stands (part : List Char) (x : K) : Prop :=
  ∃ text n, Text.Trimmed part text ∧ Numeral.Literal text n ∧ Numeric.ofNumeral n = x

-- A part that stands for no number, whatever the number system.
structure NoLiteral (part text : List Char) : Prop where
  trimmed : Text.Trimmed part text
  none : ∀ n, ¬ Numeral.Literal text n

-- A text of several parts.
structure Parts (s : List Char) (parts : List (List Char)) : Prop where
  split : Text.SplitsInto ':' s parts
  marked : ∃ c ∈ s, Text.isBlank c = false

-- The short form leaves out the weight.
inductive Spells [Scalar K] (dimension : Nat) (s : List Char) :
    Except CoordError (List K) → Prop where
  | empty (hblank : ∀ c ∈ s, Text.isBlank c = true) : Spells dimension s (.error .empty)
  | componentCount {parts : List (List Char)} (hparts : Parts s parts)
      (hcount : parts.length ≠ dimension ∧ parts.length ≠ dimension + 1) :
      Spells dimension s (.error (.componentCount dimension parts.length))
  | notANumber {before after : List (List Char)} {part text : List Char}
      (hparts : Parts s (before ++ part :: after))
      (hcount : (before ++ part :: after).length = dimension ∨
        (before ++ part :: after).length = dimension + 1)
      (hbefore : ∀ p ∈ before, ∃ x : K, Stands p x) (hpart : NoLiteral part text) :
      Spells dimension s (.error (.notANumber before.length (String.ofList text)))
  | full {parts : List (List Char)} {components : List K} (hparts : Parts s parts)
      (hcount : parts.length = dimension + 1) (hread : List.Forall₂ Stands parts components) :
      Spells dimension s (.ok components)
  | short {parts : List (List Char)} {components : List K} (hparts : Parts s parts)
      (hcount : parts.length = dimension) (hread : List.Forall₂ Stands parts components) :
      Spells dimension s (.ok (components ++ [1]))

theorem number_of_stands {part : List Char} {x : K} (h : Stands part x) (index : Nat) :
    number index (Text.trim part) = .ok x := by
  obtain ⟨text, n, htrim, hliteral, rfl⟩ := h
  rw [htrim.trim_eq, number, hliteral.ofChars?_eq]

theorem number_of_noLiteral {part text : List Char} (h : NoLiteral part text) (index : Nat) :
    (number index (Text.trim part) : Except CoordError K) =
      .error (.notANumber index (String.ofList text)) := by
  have hnone : Numeral.ofChars? text = none :=
    Option.eq_none_iff_forall_ne_some.2 fun n hn => h.none n (Numeral.ofChars?_eq_some_iff.1 hn)
  rw [h.trimmed.trim_eq, number, hnone]

variable (K) in
theorem stands_or_noLiteral (part : List Char) :
    (∃ x : K, Stands part x) ∨ ∃ text, NoLiteral part text := by
  have htrim := Text.trimmed_trim part
  cases h : Numeral.ofChars? (Text.trim part) with
  | some n => exact .inl ⟨_, _, n, htrim, Numeral.ofChars?_eq_some_iff.1 h, rfl⟩
  | none =>
    refine .inr ⟨_, htrim, fun n hn => ?_⟩
    rw [hn.ofChars?_eq] at h
    cases h

theorem numbers_of_stands {parts : List (List Char)} {components : List K}
    (h : List.Forall₂ Stands parts components) (index : Nat) :
    numbers index (parts.map Text.trim) = .ok components := by
  induction h generalizing index with
  | nil => rfl
  | cons hpart _ ih =>
    rw [List.map_cons, numbers, number_of_stands hpart, ih]
    rfl

theorem numbers_of_noLiteral {before : List (List Char)} {part text : List Char}
    (hbefore : ∀ p ∈ before, ∃ x : K, Stands p x) (hpart : NoLiteral part text)
    (after : List (List Char)) (index : Nat) :
    (numbers index ((before ++ part :: after).map Text.trim) : Except CoordError (List K)) =
      .error (.notANumber (index + before.length) (String.ofList text)) := by
  induction before generalizing index with
  | nil =>
    rw [List.nil_append, List.map_cons, numbers, number_of_noLiteral hpart]
    rfl
  | cons p before ih =>
    obtain ⟨⟨x, hx⟩, hrest⟩ := List.forall_mem_cons.1 hbefore
    rw [List.cons_append, List.map_cons, numbers, number_of_stands hx, ih hrest, List.length_cons,
      Nat.add_right_comm, Nat.add_assoc]
    rfl

variable (K) in
theorem stand_or_noLiteral (parts : List (List Char)) :
    (∃ components : List K, List.Forall₂ Stands parts components) ∨
    ∃ before part after text, parts = before ++ part :: after ∧
      (∀ p ∈ before, ∃ x : K, Stands p x) ∧ NoLiteral part text := by
  induction parts with
  | nil => exact .inl ⟨[], .nil⟩
  | cons part parts ih =>
    rcases stands_or_noLiteral K part with ⟨x, hx⟩ | ⟨text, htext⟩
    · rcases ih with ⟨components, hread⟩ | ⟨before, wrong, after, text, rfl, hbefore, hwrong⟩
      · exact .inl ⟨x :: components, .cons hx hread⟩
      · exact .inr ⟨part :: before, wrong, after, text, rfl,
          List.forall_mem_cons.2 ⟨⟨x, hx⟩, hbefore⟩, hwrong⟩
    · exact .inr ⟨[], part, parts, text, rfl, nofun, htext⟩

variable [Scalar K]

theorem isBlank_iff {s : List Char} : isBlank s = true ↔ ∀ c ∈ s, Text.isBlank c = true := by
  rw [isBlank, List.isEmpty_iff, Text.trim_eq_nil_iff]

theorem isBlank_eq_false_iff {s : List Char} :
    isBlank s = false ↔ ∃ c ∈ s, Text.isBlank c = false := by
  rw [← Bool.not_eq_true, isBlank_iff]
  simp

theorem Parts.isBlank {s : List Char} {raw : List (List Char)} (h : Parts s raw) :
    CoordText.isBlank s = false :=
  isBlank_eq_false_iff.2 h.marked

theorem Parts.parts_eq {s : List Char} {raw : List (List Char)} (h : Parts s raw) :
    parts s = raw.map Text.trim := by
  rw [parts, h.split.splitOn_eq]

theorem Spells.components?_eq {dimension : Nat} {s : List Char} {r : Except CoordError (List K)}
    (h : Spells dimension s r) : components? dimension s = r := by
  cases h with
  | empty hblank => rw [components?, if_pos (isBlank_iff.2 hblank)]
  | componentCount hparts hcount =>
    rw [components?, hparts.isBlank, hparts.parts_eq, List.length_map]
    simp only [Bool.false_eq_true, if_false, if_neg hcount.1, if_neg hcount.2]
  | @notANumber before after part text hparts hcount hbefore hpart =>
    have hnumbers := numbers_of_noLiteral hbefore hpart after 0
    rw [Nat.zero_add] at hnumbers
    rw [components?, hparts.isBlank, hparts.parts_eq, List.length_map, hnumbers]
    rcases hcount with hcount | hcount
    · simp only [Bool.false_eq_true, if_false, if_pos hcount]
      rfl
    · have hne := hcount.trans_ne (Nat.succ_ne_self dimension)
      simp only [Bool.false_eq_true, if_false, if_neg hne, if_pos hcount]
  | full hparts hcount hread =>
    have hne := hcount.trans_ne (Nat.succ_ne_self dimension)
    rw [components?, hparts.isBlank, hparts.parts_eq, List.length_map, numbers_of_stands hread]
    simp only [Bool.false_eq_true, if_false, if_neg hne, if_pos hcount]
  | short hparts hcount hread =>
    rw [components?, hparts.isBlank, hparts.parts_eq, List.length_map, numbers_of_stands hread]
    simp only [Bool.false_eq_true, if_false, if_pos hcount]
    rfl

-- Every text spells something.
theorem exists_spells (dimension : Nat) (s : List Char) :
    ∃ r : Except CoordError (List K), Spells dimension s r := by
  by_cases hblank : ∀ c ∈ s, Text.isBlank c = true
  · exact ⟨_, .empty hblank⟩
  · have hparts : Parts s (Text.splitOn ':' s) := by
      refine ⟨Text.splitsInto_splitOn ':' s, isBlank_eq_false_iff.1 ?_⟩
      rwa [← Bool.not_eq_true, isBlank_iff]
    by_cases hshort : (Text.splitOn ':' s).length = dimension
    · rcases stand_or_noLiteral K (Text.splitOn ':' s) with
        ⟨components, hread⟩ | ⟨before, part, after, text, hsplit, hbefore, hpart⟩
      · exact ⟨_, .short hparts hshort hread⟩
      · rw [hsplit] at hparts hshort
        exact ⟨_, .notANumber hparts (.inl hshort) hbefore hpart⟩
    · by_cases hfull : (Text.splitOn ':' s).length = dimension + 1
      · rcases stand_or_noLiteral K (Text.splitOn ':' s) with
          ⟨components, hread⟩ | ⟨before, part, after, text, hsplit, hbefore, hpart⟩
        · exact ⟨_, .full hparts hfull hread⟩
        · rw [hsplit] at hparts hfull
          exact ⟨_, .notANumber hparts (.inr hfull) hbefore hpart⟩
      · exact ⟨_, .componentCount hparts ⟨hshort, hfull⟩⟩

theorem components?_eq_iff {dimension : Nat} {s : List Char} {r : Except CoordError (List K)} :
    components? dimension s = r ↔ Spells dimension s r := by
  refine ⟨fun h => ?_, Spells.components?_eq⟩
  obtain ⟨r', hr'⟩ := exists_spells (K := K) dimension s
  rwa [← h, hr'.components?_eq]

theorem Spells.length_eq {dimension : Nat} {s : List Char} {components : List K}
    (h : Spells dimension s (.ok components)) : components.length = dimension + 1 := by
  cases h with
  | full hparts hcount hread => exact hread.length_eq.symm.trans hcount
  | short hparts hcount hread =>
    rw [List.length_append, ← hread.length_eq, hcount, List.length_singleton]

-- Nothing is left out of what was read, as there are as many components as the point has.
theorem map_components? {α : Type} {ofComponents : List K → α} {components : α → List K}
    {dimension : Nat} (h : ∀ c, c.length = dimension + 1 → components (ofComponents c) = c)
    (s : List Char) :
    ((components? dimension s).map ofComponents).map components = components? dimension s := by
  cases hread : (components? dimension s : Except CoordError (List K)) with
  | error e => rfl
  | ok c => exact congrArg Except.ok (h c (components?_eq_iff.1 hread).length_eq)

end CoordText

open CoordText

variable {K : Type} [Scalar K] [Numeric K]

theorem HPoint2.map_ofChars (s : List Char) :
    (ofChars s : Except CoordError (HPoint2 K)).map components = components? 2 s :=
  map_components? (fun | [_, _, _], _ => rfl) s

theorem HPoint3.map_ofChars (s : List Char) :
    (ofChars s : Except CoordError (HPoint3 K)).map components = components? 3 s :=
  map_components? (fun | [_, _, _, _], _ => rfl) s

theorem CoordText.readsBack (x : Float) : ReadsBack x := Double.map_ofChars?_chars x

theorem HPoint2.readsBack (p : HPoint2 Float) : p.ReadsBack := fun k _ => CoordText.readsBack k

theorem HPoint3.readsBack (p : HPoint3 Float) : p.ReadsBack := fun k _ => CoordText.readsBack k

-- A text is read as what it spells, and the text of a point spells that point.
theorem ofText_eq_iff_spells_and_ofText_text (s : String) (r : Except CoordError (List Float))
    (p : HPoint2 Float) (q : HPoint3 Float) :
    ((HPoint2.ofText s).map HPoint2.components = r ↔ Spells 2 s.toList r) ∧
    ((HPoint3.ofText s).map HPoint3.components = r ↔ Spells 3 s.toList r) ∧
    HPoint2.ofText p.text = .ok p ∧ HPoint3.ofText q.text = .ok q := by
  refine ⟨?_, ?_, HPoint2.ofText_text p.readsBack, HPoint3.ofText_text q.readsBack⟩
  · rw [HPoint2.ofText, HPoint2.map_ofChars, components?_eq_iff]
  · rw [HPoint3.ofText, HPoint3.map_ofChars, components?_eq_iff]

end PerspectiveBox
