import Mathlib.Data.List.Forall2
import PerspectiveBox.Json.Token
import PerspectiveBox.Json.Writer
import PerspectiveBox.Proofs.Number.Positional

namespace PerspectiveBox.Json

namespace Token

-- The tokens that a text is cut into. White space may stand in front of any of them.
inductive Spells : List Char → List Token → Prop where
  | nil : Spells [] []
  | space {c : Char} {s : List Char} {tokens : List Token} (hc : isSpace c = true)
      (hs : Spells s tokens) : Spells (c :: s) tokens
  | token {c : Char} {s rest : List Char} {t : Token} {tokens : List Token}
      (hc : isSpace c = false) (ht : next? (c :: s) = some (t, rest))
      (hlength : rest.length ≤ s.length) (hrest : Spells rest tokens) :
      Spells (c :: s) (t :: tokens)

-- By induction on how the text spells the tokens: white space takes no step of the scanner, every
-- token takes one, and leaves a text that is shorter.
theorem scan?_of_spells {s : List Char} {tokens : List Token} (h : Spells s tokens) {steps : Nat}
    (hsteps : s.length ≤ steps) : scan? steps s = some tokens := by
  induction h generalizing steps with
  | nil => cases steps <;> rfl
  | space hc _ ih =>
    cases steps with
    | zero => exact absurd hsteps (Nat.not_succ_le_zero _)
    | succ steps =>
      have hskip := ih (Nat.le_of_succ_le hsteps)
      rw [scan?] at hskip ⊢
      rwa [List.dropWhile_cons_of_pos hc]
  | token hc ht hlength _ ih =>
    cases steps with
    | zero => exact absurd hsteps (Nat.not_succ_le_zero _)
    | succ steps =>
      have hscan := ih (Nat.le_trans hlength (Nat.le_of_succ_le_succ hsteps))
      rw [scan?, List.dropWhile_cons_of_neg (by simp [hc])]
      simp [ht, hscan]

theorem ofChars?_of_spells {s : List Char} {tokens : List Token} (h : Spells s tokens) :
    ofChars? s = some tokens :=
  scan?_of_spells h (Nat.le_refl _)

theorem Spells.spaces {pad s : List Char} {tokens : List Token}
    (hpad : ∀ c ∈ pad, isSpace c = true) (h : Spells s tokens) : Spells (pad ++ s) tokens := by
  induction pad with
  | nil => exact h
  | cons c pad ih =>
    exact .space (hpad c List.mem_cons_self) (ih fun d hd => hpad d (List.mem_cons_of_mem c hd))

-- No number literal goes on in such a text.
def EndsNumber (s : List Char) : Prop :=
  ∀ c ∈ s.head?, c.isDigit = false ∧ c ≠ '.' ∧ c ≠ 'e' ∧ c ≠ 'E'

section

variable {rest : List Char} (h : EndsNumber rest)
include h

theorem takeWhile_digits {digits : List Char} (hdigits : ∀ c ∈ digits, c.isDigit = true) :
    (digits ++ rest).takeWhile Char.isDigit = digits ∧
      (digits ++ rest).dropWhile Char.isDigit = rest := by
  rw [List.takeWhile_append_of_pos hdigits, List.dropWhile_append_of_pos hdigits]
  cases rest with
  | nil => simp
  | cons c rest => simp [(h c rfl).1]

theorem fraction?_of_endsNumber : fraction? rest = some ([], rest) := by
  cases rest with
  | nil => rfl
  | cons c rest =>
    rw [fraction?]
    rintro _ ⟨⟩
    exact (h '.' rfl).2.1 rfl

theorem exponent?_of_endsNumber : exponent? rest = some ([], rest) := by
  cases rest with
  | nil => rfl
  | cons c rest =>
    obtain ⟨-, -, he, hE⟩ := h c rfl
    simp [exponent?, he, hE]

end

theorem isDigit_of_mem_toDigits {n : Nat} {c : Char} (h : c ∈ Nat.toDigits 10 n) :
    c.isDigit = true :=
  Nat.isDigit_of_mem_toDigits (by omega) (by omega) h

theorem whole?_toDigits (n : Nat) {rest : List Char} (h : EndsNumber rest) :
    whole? (Nat.toDigits 10 n ++ rest) = some (Nat.toDigits 10 n, rest) := by
  obtain ⟨htake, hdrop⟩ := takeWhile_digits h fun c hc => isDigit_of_mem_toDigits (n := n) hc
  obtain ⟨d, digits, hdigits, hzero⟩ := Numeral.toDigits_eq_cons n
  rw [hdigits] at htake hdrop ⊢
  by_cases hd : d = '0'
  · rw [hd, hzero hd]
    rfl
  · rw [List.cons_append] at htake hdrop ⊢
    rw [whole?, htake, hdrop]
    · rfl
    · rintro _ ⟨⟩
      exact hd rfl

-- A zero with a sign is no integer.
theorem unsigned?_toDigits {negative : Bool} {n : Nat} (hsign : negative = true → n ≠ 0)
    {rest : List Char} (h : EndsNumber rest) : unsigned? negative (Nat.toDigits 10 n ++ rest) =
      some (.integer (if negative then -n else n), rest) := by
  have hvalue : Numeral.digitsValue (Nat.toDigits 10 n ++ []) = n := by
    rw [List.append_nil]
    exact Nat.ofDigitChars_toDigits (by omega) (by omega)
  have hinteger : ¬(negative = true ∧ n = 0) := fun hn => hsign hn.1 hn.2
  rw [unsigned?, whole?_toDigits n h]
  show (fraction? rest).bind _ = _
  rw [fraction?_of_endsNumber h]
  show (exponent? rest).bind _ = _
  rw [exponent?_of_endsNumber h]
  simp only [Option.bind_some, hvalue, List.isEmpty_nil, true_and, if_pos hinteger]
  rfl

theorem toList_toString_int (i : Int) :
    (toString i).toList = Numeral.signed (i < 0) (Nat.toDigits 10 i.natAbs) := by
  show i.repr.toList = _
  rw [Int.repr_eq_if]
  by_cases hi : 0 ≤ i
  · have hnot : ¬ i < 0 := Int.not_lt.2 hi
    have htoNat : i.toNat = i.natAbs := by omega
    rw [if_pos hi, Nat.toList_repr, htoNat, Numeral.signed, decide_eq_false hnot]
    rfl
  · have hneg : i < 0 := Int.not_le.1 hi
    have htoNat : (-i).toNat = i.natAbs := by omega
    rw [if_neg hi, String.toList_append, Nat.toList_repr, htoNat, Numeral.signed,
      decide_eq_true hneg]
    rfl

-- It begins with a sign or a digit.
theorem toString_int_eq_cons (i : Int) :
    ∃ c s, (toString i).toList = c :: s ∧ (c.isDigit = true ∨ c = '-') := by
  obtain ⟨d, digits, hdigits, -⟩ := Numeral.toDigits_eq_cons i.natAbs
  have hd : d.isDigit = true := isDigit_of_mem_toDigits (hdigits ▸ List.mem_cons_self)
  rw [toList_toString_int, hdigits, Numeral.signed]
  by_cases hi : i < 0
  · exact ⟨'-', d :: digits, if_pos (decide_eq_true hi), .inr rfl⟩
  · refine ⟨d, digits, if_neg ?_, .inl hd⟩
    rwa [decide_eq_true_iff]

theorem number?_signed {negative : Bool} {n : Nat} (hsign : negative = true → n ≠ 0)
    {rest : List Char} (h : EndsNumber rest) :
    number? (Numeral.signed negative (Nat.toDigits 10 n) ++ rest) =
      some (.integer (if negative then -n else n), rest) := by
  have hread := unsigned?_toDigits hsign h
  cases negative with
  | true => exact hread
  | false =>
    obtain ⟨d, digits, hdigits, -⟩ := Numeral.toDigits_eq_cons n
    have hd : d.isDigit = true := isDigit_of_mem_toDigits (hdigits ▸ List.mem_cons_self)
    rw [hdigits] at hread ⊢
    refine Eq.trans ?_ hread
    show number? (d :: (digits ++ rest)) = unsigned? false (d :: (digits ++ rest))
    rw [number?]
    rintro _ ⟨⟩
    exact absurd hd (by decide)

theorem number?_integer (i : Int) {rest : List Char} (h : EndsNumber rest) :
    number? ((toString i).toList ++ rest) = some (.integer i, rest) := by
  have hsign : decide (i < 0) = true → i.natAbs ≠ 0 := by
    intro hi
    have := of_decide_eq_true hi
    omega
  have hvalue : (if decide (i < 0) = true then -(i.natAbs : Int) else i.natAbs) = i := by
    by_cases hi : i < 0
    · rw [if_pos (decide_eq_true hi)]
      omega
    · rw [if_neg (by rwa [decide_eq_true_iff])]
      omega
  rw [toList_toString_int, number?_signed hsign h, hvalue]

-- The piece of a string literal that is written for a character: a control without an escape of
-- its own is written by its number.
def piece (c : Char) : Piece :=
  if c.toNat < 0x20 ∧ c ∉ ['\x08', '\t', '\n', '\x0c', '\r'] then .unit c.toNat else .char c

theorem hex?_hexDigits : ∀ n < 0x20, (hexDigits (Char.ofNat n)).length = 2 ∧
    hex? ('0' :: '0' :: hexDigits (Char.ofNat n)) = some n := by
  decide

section

variable (rest : List Char)

theorem pieces?_escaped {c e : Char} (he : escaped? e = some c) :
    pieces? ('\\' :: e :: rest) =
      (pieces? rest).map fun (pieces, rest) => (.char c :: pieces, rest) := by
  rw [pieces?]
  · rw [he]
    cases pieces? rest <;> rfl
  · rintro _ _ _ _ _ rfl
    exact absurd he nofun

theorem pieces?_control {c : Char} (h : c.toNat < 0x20) :
    pieces? ("\\u00".toList ++ hexDigits c ++ rest) =
      (pieces? rest).map fun (pieces, rest) => (.unit c.toNat :: pieces, rest) := by
  obtain ⟨hlength, hhex⟩ := hex?_hexDigits c.toNat h
  rw [Char.ofNat_toNat] at hlength hhex
  obtain ⟨a, b, hdigits⟩ := List.length_eq_two.1 hlength
  rw [hdigits] at hhex ⊢
  show pieces? ('\\' :: 'u' :: '0' :: '0' :: a :: b :: rest) = _
  rw [pieces?, hhex]
  cases pieces? rest <;> rfl

theorem pieces?_plain {c : Char} (hquote : c ≠ '"') (hslash : c ≠ '\\') (h : ¬ c.toNat < 0x20) :
    pieces? (c :: rest) = (pieces? rest).map fun (pieces, rest) => (.char c :: pieces, rest) := by
  rw [pieces?]
  · rw [if_neg (not_or.2 ⟨h, hslash⟩)]
  · exact fun hc => hquote hc
  · exact fun _ _ _ _ _ hc => absurd hc hslash
  · exact fun _ _ hc => absurd hc hslash

theorem pieces?_escapeChar (c : Char) :
    pieces? (escapeChar c ++ rest) =
      (pieces? rest).map fun (pieces, rest) => (piece c :: pieces, rest) := by
  unfold escapeChar
  -- Seven characters have an escape of their own.
  split_ifs with hquote hslash hb ht hn hf hr hcontrol
  iterate 7
    subst_vars
    exact pieces?_escaped rest rfl
  · have hpiece : piece c = .unit c.toNat := if_pos ⟨hcontrol, by simp [hb, ht, hn, hf, hr]⟩
    rw [pieces?_control rest hcontrol, hpiece]
  · have hpiece : piece c = .char c := if_neg fun h => hcontrol h.1
    rw [hpiece]
    exact pieces?_plain rest hquote hslash hcontrol

theorem pieces?_flatMap (s : List Char) :
    pieces? (s.flatMap escapeChar ++ '"' :: rest) = some (s.map piece, rest) := by
  induction s with
  | nil => rfl
  | cons c s ih =>
    rw [List.flatMap_cons, List.append_assoc, pieces?_escapeChar, ih]
    rfl

end

theorem spelled?_unit {n : Nat} (h : n < 0xD800) (pieces : List Piece) :
    spelled? (.unit n :: pieces) = (spelled? pieces).map (Char.ofNat n :: ·) := by
  have hhigh : isHighSurrogate n = false := by
    rw [isHighSurrogate, decide_eq_false (Nat.not_le.2 h), Bool.false_and]
  have hlow : isLowSurrogate n = false := by
    rw [isLowSurrogate, decide_eq_false (by omega), Bool.false_and]
  cases pieces with
  | nil => simp [spelled?, hhigh, hlow]
  | cons p pieces => cases p <;> simp [spelled?, hhigh, hlow]

theorem spelled?_pieces (s : List Char) : spelled? (s.map piece) = some s := by
  induction s with
  | nil => rfl
  | cons c s ih =>
    rw [List.map_cons]
    by_cases hcontrol : c.toNat < 0x20 ∧ c ∉ ['\x08', '\t', '\n', '\x0c', '\r']
    · have hbound : c.toNat < 0xD800 := by omega
      rw [piece, if_pos hcontrol, spelled?_unit hbound, ih, Char.ofNat_toNat]
      rfl
    · rw [piece, if_neg hcontrol, spelled?, ih]
      rfl

theorem string?_literal (s : String) (rest : List Char) :
    string? (s.toList.flatMap escapeChar ++ '"' :: rest) = some (.string (some s), rest) := by
  simp only [string?, pieces?_flatMap, Option.map_some, spelled?_pieces, String.ofList_toList]

-- A text that spells these tokens wherever it stands, unless a number goes on behind it.
def Writes (s : List Char) (tokens : List Token) : Prop :=
  ∀ {rest more}, EndsNumber rest → Spells rest more → Spells (s ++ rest) (tokens ++ more)

theorem spells_stringLiteral (s : String) {rest : List Char} {more : List Token}
    (h : Spells rest more) : Spells (stringLiteral s ++ rest) (.string (some s) :: more) := by
  have hliteral : stringLiteral s ++ rest =
      '"' :: (s.toList.flatMap escapeChar ++ '"' :: rest) := by
    simp [stringLiteral]
  rw [hliteral]
  refine .token rfl (string?_literal s rest) ?_ h
  rw [List.length_append, List.length_cons]
  omega

section

variable {c : Char} (h : c.isDigit = true ∨ c = '-')
include h

theorem isSpace_of_number : isSpace c = false := by
  rw [← Bool.not_eq_true]
  intro hspace
  simp only [isSpace, Bool.or_eq_true, decide_eq_true_eq] at hspace
  rcases hspace with ((rfl | rfl) | rfl) | rfl <;> exact absurd h (by decide)

theorem next?_of_number (s : List Char) : next? (c :: s) = number? (c :: s) := by
  rw [next?] <;>
  · rintro _ ⟨⟩
    exact absurd h (by decide)

end

theorem writes_integer (i : Int) : Writes (scalar (.integer i)) [.integer i] := by
  intro rest more hrest h
  obtain ⟨c, s, hs, hc⟩ := toString_int_eq_cons i
  have hread := number?_integer i hrest
  rw [scalar, hs, List.cons_append]
  rw [hs, List.cons_append] at hread
  refine .token (isSpace_of_number hc) ((next?_of_number hc _).trans hread) ?_ h
  rw [List.length_append]
  omega

theorem writes_intercalate {pad : List Char} (hpad : ∀ c ∈ pad, isSpace c = true)
    {parts : List (List Char)} {pieces : List (List Token)} (h : List.Forall₂ Writes parts pieces) :
    Writes (List.intercalate (',' :: pad) parts) (List.intercalate [.comma] pieces) := by
  induction h with
  | nil => exact fun _ h => h
  | cons hpart htail ih =>
    cases htail with
    | nil =>
      rw [List.intercalate_singleton, List.intercalate_singleton]
      exact hpart
    | cons =>
      intro rest more hrest h
      rw [List.intercalate_cons_cons, List.intercalate_cons_cons]
      simp only [List.append_assoc, List.cons_append, List.nil_append]
      refine hpart (by rintro _ ⟨⟩; decide) (.token rfl rfl ?_ (.spaces hpad (ih hrest h)))
      exact Nat.le_refl _

theorem writes_block (indent : Nat) {opening closing : Char} {o c : Token}
    (hopen : isSpace opening = false ∧ ∀ s, next? (opening :: s) = some (o, s))
    (hclose : isSpace closing = false ∧ ∀ s, next? (closing :: s) = some (c, s))
    {parts : List (List Char)} {pieces : List (List Token)} (h : List.Forall₂ Writes parts pieces) :
    Writes (block indent opening closing parts) (o :: List.intercalate [.comma] pieces ++ [c]) := by
  intro rest more hrest hmore
  have hline (level : Nat) : ∀ c ∈ '\n' :: List.replicate (2 * level) ' ', isSpace c = true := by
    intro c hc
    rcases List.mem_cons.1 hc with rfl | hc
    · rfl
    · rw [List.eq_of_mem_replicate hc]
      rfl
  have hend : Spells (closing :: rest) (c :: more) :=
    .token hclose.1 (hclose.2 rest) (Nat.le_refl _) hmore
  rw [block]
  cases h with
  | nil => exact .token hopen.1 (hopen.2 _) (Nat.le_refl _) hend
  | cons hpart htail =>
    simp only [List.isEmpty_cons, Bool.false_eq_true, if_false, List.append_assoc,
      List.cons_append, List.nil_append]
    refine .token hopen.1 (hopen.2 _) (Nat.le_refl _) ?_
    refine .spaces (hline (indent + 1)) ?_
    refine writes_intercalate (hline (indent + 1)) (.cons hpart htail) ?_ ?_
    · rintro _ ⟨⟩
      decide
    · exact .spaces (hline indent) hend

end Token

end PerspectiveBox.Json
