import Mathlib.Data.List.TakeWhile
import PerspectiveBox.Text.Blank

namespace PerspectiveBox.Text

structure Trimmed (s t : List Char) : Prop where
  padded : ∃ left right, (∀ c ∈ left, isBlank c = true) ∧ (∀ c ∈ right, isBlank c = true) ∧
    s = left ++ t ++ right
  head : ∀ c ∈ t.head?, isBlank c = false
  last : ∀ c ∈ t.getLast?, isBlank c = false

theorem dropWhile_of_head {p : Char → Bool} {s : List Char} (h : ∀ c ∈ s.head?, p c = false) :
    s.dropWhile p = s := by
  cases s with
  | nil => rfl
  | cons c s =>
    have hc : p c = false := h c rfl
    exact List.dropWhile_cons_of_neg (by simp [hc])

theorem head_dropWhile {p : Char → Bool} {s : List Char} :
    ∀ c ∈ (s.dropWhile p).head?, p c = false := by
  intro c hc
  have hfirst := List.head?_dropWhile_not p s
  rw [Option.mem_def.1 hc] at hfirst
  simpa using hfirst

theorem trimmed_trim (s : List Char) : Trimmed s (trim s) := by
  have hmiddle : s.dropWhile isBlank =
      trim s ++ ((s.dropWhile isBlank).reverse.takeWhile isBlank).reverse := by
    rw [trim, ← List.reverse_append, List.takeWhile_append_dropWhile, List.reverse_reverse]
  refine ⟨⟨s.takeWhile isBlank, ((s.dropWhile isBlank).reverse.takeWhile isBlank).reverse,
    fun c hc => List.mem_takeWhile_imp hc,
    fun c hc => List.mem_takeWhile_imp (List.mem_reverse.1 hc), ?_⟩, fun c hc => ?_, fun c hc => ?_⟩
  · rw [List.append_assoc, ← hmiddle, List.takeWhile_append_dropWhile]
  · refine head_dropWhile (s := s) c ?_
    rw [hmiddle, List.head?_append, Option.mem_def.1 hc]
    rfl
  · rw [trim, List.getLast?_reverse] at hc
    exact head_dropWhile c hc

theorem Trimmed.trim_eq {s t : List Char} (h : Trimmed s t) : trim s = t := by
  obtain ⟨⟨left, right, hleft, hright, rfl⟩, hhead, hlast⟩ := h
  have hrev : ∀ c ∈ right.reverse, isBlank c = true := fun c hc => hright c (List.mem_reverse.1 hc)
  rw [trim, List.append_assoc, List.dropWhile_append_of_pos hleft]
  cases t with
  | nil =>
    have hall : right.dropWhile isBlank = [] := List.dropWhile_eq_nil_iff.2 hright
    rw [List.nil_append, hall]
    rfl
  | cons c t =>
    have hlast' : ∀ d ∈ (c :: t).reverse.head?, isBlank d = false := by
      rw [List.head?_reverse]
      exact hlast
    have hcut : (c :: t ++ right).dropWhile isBlank = c :: t ++ right := dropWhile_of_head hhead
    rw [hcut, List.reverse_append, List.dropWhile_append_of_pos hrev, dropWhile_of_head hlast',
      List.reverse_reverse]

theorem trim_eq_iff {s t : List Char} : trim s = t ↔ Trimmed s t :=
  ⟨fun h => h ▸ trimmed_trim s, Trimmed.trim_eq⟩

theorem trim_eq_nil_iff {s : List Char} : trim s = [] ↔ ∀ c ∈ s, isBlank c = true := by
  rw [trim_eq_iff]
  constructor
  · rintro ⟨⟨left, right, hleft, hright, rfl⟩, -, -⟩
    simpa [or_imp, forall_and] using And.intro hleft hright
  · intro h
    exact ⟨⟨s, [], h, nofun, by simp⟩, nofun, nofun⟩

-- A text without white space is what remains of it between any white space.
theorem trim_padded {left s right : List Char} (hleft : ∀ c ∈ left, isBlank c = true)
    (hs : ∀ c ∈ s, isBlank c = false) (hright : ∀ c ∈ right, isBlank c = true) :
    trim (left ++ s ++ right) = s :=
  Trimmed.trim_eq ⟨⟨left, right, hleft, hright, rfl⟩, fun c hc => hs c (List.mem_of_mem_head? hc),
    fun c hc => hs c (List.mem_of_mem_getLast? hc)⟩

theorem trim_eq_self {s : List Char} (h : ∀ c ∈ s, isBlank c = false) : trim s = s := by
  have hpad : trim ([] ++ s ++ []) = s := trim_padded nofun h nofun
  rwa [List.nil_append, List.append_nil] at hpad

theorem trim_ne_nil {s : List Char} {c : Char} (hc : c ∈ s) (h : isBlank c = false) :
    trim s ≠ [] := by
  intro hnil
  rw [trim_eq_nil_iff.1 hnil c hc] at h
  cases h

structure SplitsInto (separator : Char) (s : List Char) (parts : List (List Char)) : Prop where
  ne_nil : parts ≠ []
  plain : ∀ part ∈ parts, separator ∉ part
  joined : List.intercalate [separator] parts = s

theorem splitOn_of_not_mem {separator : Char} {s : List Char} (h : separator ∉ s) :
    splitOn separator s = [s] := by
  induction s with
  | nil => rfl
  | cons c s ih =>
    have hc : ¬ c = separator := fun he => h (he ▸ List.mem_cons_self)
    rw [splitOn, if_neg hc, ih fun hs => h (List.mem_cons_of_mem _ hs)]

theorem splitOn_append {separator : Char} {s : List Char} (h : separator ∉ s)
    (rest : List Char) :
    splitOn separator (s ++ separator :: rest) = s :: splitOn separator rest := by
  induction s with
  | nil => rw [List.nil_append, splitOn, if_pos rfl]
  | cons c s ih =>
    have hc : ¬ c = separator := fun he => h (he ▸ List.mem_cons_self)
    rw [List.cons_append, splitOn, if_neg hc, ih fun hs => h (List.mem_cons_of_mem _ hs)]

theorem splitsInto_splitOn (separator : Char) (s : List Char) :
    SplitsInto separator s (splitOn separator s) := by
  induction s with
  | nil => exact ⟨by simp [splitOn], by simp [splitOn], by simp [splitOn]⟩
  | cons c s ih =>
    obtain ⟨part, parts, hsplit⟩ := List.exists_cons_of_ne_nil ih.ne_nil
    rw [hsplit] at ih
    rw [splitOn, hsplit]
    by_cases hc : c = separator
    · rw [if_pos hc]
      refine ⟨List.cons_ne_nil _ _, List.forall_mem_cons.2 ⟨nofun, ih.plain⟩, ?_⟩
      rw [List.intercalate_cons_cons, ih.joined, hc]
      rfl
    · rw [if_neg hc]
      obtain ⟨hpart, hparts⟩ := List.forall_mem_cons.1 ih.plain
      refine ⟨List.cons_ne_nil _ _, List.forall_mem_cons.2 ⟨?_, hparts⟩, ?_⟩
      · simpa [Ne.symm hc] using hpart
      · rw [← ih.joined]
        cases parts <;> simp [List.intercalate_cons_cons]

theorem SplitsInto.splitOn_eq {separator : Char} {s : List Char} {parts : List (List Char)}
    (h : SplitsInto separator s parts) : splitOn separator s = parts := by
  obtain ⟨hne, hplain, rfl⟩ := h
  induction parts with
  | nil => exact absurd rfl hne
  | cons part parts ih =>
    obtain ⟨hpart, hparts⟩ := List.forall_mem_cons.1 hplain
    cases parts with
    | nil => rw [List.intercalate_singleton, splitOn_of_not_mem hpart]
    | cons next parts =>
      rw [List.intercalate_cons_cons, List.append_assoc, List.singleton_append,
        splitOn_append hpart, ih (List.cons_ne_nil _ _) hparts]

end PerspectiveBox.Text
