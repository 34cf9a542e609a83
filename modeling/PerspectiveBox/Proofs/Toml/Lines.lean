import PerspectiveBox.Toml.Reader

namespace PerspectiveBox.Toml

theorem takeWhile_until {p : Char → Bool} {s : List Char} {c : Char} (hs : ∀ x ∈ s, p x = true)
    (hc : p c = false) (rest : List Char) :
    (s ++ c :: rest).takeWhile p = s ∧ (s ++ c :: rest).dropWhile p = c :: rest := by
  rw [List.takeWhile_append_of_pos hs, List.dropWhile_append_of_pos hs]
  simp [hc]

theorem not_isBlank {p : Char → Bool} (hspace : p ' ' = false) (htab : p '\t' = false) {c : Char}
    (h : p c = true) : isBlank c = false := by
  rw [isBlank, Bool.or_eq_false_iff, decide_eq_false_iff_not, decide_eq_false_iff_not]
  constructor <;> rintro rfl
  · rw [h] at hspace
    cases hspace
  · rw [h] at htab
    cases htab

theorem skipBlanks_of_head {s : List Char} (h : ∀ c ∈ s.head?, isBlank c = false) :
    skipBlanks s = s := by
  cases s with
  | nil => rfl
  | cons c s => exact List.dropWhile_cons_of_neg (by rw [h c rfl]; decide)

-- The text of a value, up to the end of its line.
structure Means (text : List Char) (node : Node) : Prop where
  head : ∀ c ∈ text.head?, isBlank c = false
  value : ∀ steps levels rest,
    value? (steps + 1) levels (text ++ '\n' :: rest) = some (node, '\n' :: rest)

theorem word_append {text : List Char} (h : ∀ c ∈ text, isWordChar c = true)
    (rest : List Char) : word (text ++ '\n' :: rest) = (text, '\n' :: rest) := by
  obtain ⟨htake, hdrop⟩ := takeWhile_until h (c := '\n') (by decide) rest
  rw [word, htake, hdrop]
  rfl

theorem means_word {text : List Char} (h : ∀ c ∈ text, isWordChar c = true) {node : Node}
    (hnode : Node.ofWord? text = some node) : Means text node := by
  refine ⟨fun c hc => ?_, fun steps levels rest => ?_⟩
  · exact not_isBlank (by decide) (by decide) (h c (List.mem_of_mem_head? hc))
  · have hne {c : Char} (hc : isWordChar c = false) (hnewline : c ≠ '\n') (rest' : List Char) :
        text ++ '\n' :: rest = c :: rest' → False := by
      intro he
      cases text with
      | nil => exact hnewline (List.cons.inj he).1.symm
      | cons d text =>
        rw [← (List.cons.inj he).1, h d List.mem_cons_self] at hc
        cases hc
    rw [value?]
    · simp only [word_append h, hnode]
      rfl
    · exact hne (by decide) (by decide)
    · exact hne (by decide) (by decide)
    · exact hne (by decide) (by decide)
    · exact hne (by decide) (by decide)

-- What stands for itself between quotes.
def isPlain (c : Char) : Bool := isTextChar c && c != '"' && c != '\\'

theorem basic?_plain {text : List Char} (h : ∀ c ∈ text, isPlain c = true) (rest : List Char) :
    basic? (text ++ '"' :: rest) = some (text, rest) := by
  induction text with
  | nil => rfl
  | cons c text ih =>
    obtain ⟨hc, htext⟩ := List.forall_mem_cons.1 h
    simp only [isPlain, Bool.and_eq_true, bne_iff_ne, ne_eq] at hc
    obtain ⟨⟨hplain, hquote⟩, hslash⟩ := hc
    rw [List.cons_append, basic?, if_pos hplain, ih htext]
    · rfl
    all_goals simp [hquote, hslash]

theorem means_string {text : List Char} (h : ∀ c ∈ text, isPlain c = true) (hne : text ≠ []) :
    Means ('"' :: (text ++ ['"'])) (.string (String.ofList text)) := by
  refine ⟨by simp [isBlank], fun steps levels rest => ?_⟩
  have hscan := basic?_plain h ('\n' :: rest)
  obtain ⟨c, text, rfl⟩ := List.exists_cons_of_ne_nil hne
  have hc : c ≠ '"' := by
    rintro rfl
    exact absurd (h '"' List.mem_cons_self) (by decide)
  have hstring : string? ('"' :: (c :: text ++ '"' :: '\n' :: rest)) =
      some (String.ofList (c :: text), '\n' :: rest) := by
    rw [string?]
    · rw [lineString?, hscan]
      rfl
    · simp [hc]
    · simp
  have happend : '"' :: (c :: text ++ ['"']) ++ '\n' :: rest =
      '"' :: (c :: text ++ '"' :: '\n' :: rest) := by
    simp
  rw [happend, value?, hstring]
  rfl

structure IsBare (key : String) : Prop where
  ne_nil : key.toList ≠ []
  chars : ∀ c ∈ key.toList, isBareChar c = true

instance (key : String) : Decidable (IsBare key) :=
  decidable_of_iff (key.toList ≠ [] ∧ key.toList.all isBareChar = true)
    ⟨fun h => ⟨h.1, List.all_eq_true.1 h.2⟩, fun h => ⟨h.ne_nil, List.all_eq_true.2 h.chars⟩⟩

theorem key?_bare {key : String} (h : IsBare key) (rest : List Char) :
    key? (key.toList ++ ' ' :: '=' :: rest) = some ([], key, '=' :: rest) := by
  have hhead : ∀ c ∈ (key.toList ++ ' ' :: '=' :: rest).head?, isBlank c = false := by
    obtain ⟨c, chars, hcons⟩ := List.exists_cons_of_ne_nil h.ne_nil
    have hc : isBareChar c = true := h.chars c (hcons ▸ List.mem_cons_self)
    rw [hcons]
    rintro d ⟨⟩
    exact not_isBlank (by decide) (by decide) hc
  obtain ⟨htake, hdrop⟩ := takeWhile_until h.chars (c := ' ') (by decide) ('=' :: rest)
  have hsimple : simpleKey? (key.toList ++ ' ' :: '=' :: rest) =
      some (key, ' ' :: '=' :: rest) := by
    rw [simpleKey?]
    simp only [htake, hdrop]
    rw [if_neg (by simpa using h.ne_nil), String.ofList_toList]
  have hdotted : dottedKey? depthLimit (key.toList ++ ' ' :: '=' :: rest) =
      some ([key], '=' :: rest) := by
    show dottedKey? (78 + 1) _ = _
    rw [dottedKey?, skipBlanks_of_head hhead, hsimple]
    rfl
  rw [key?, hdotted]
  rfl

def line (key : String) (text : List Char) : List Char :=
  key.toList ++ ' ' :: '=' :: ' ' :: (text ++ ['\n'])

theorem exists_line_eq_cons {key : String} (h : IsBare key) (text rest : List Char) :
    ∃ c tail, line key text ++ rest = c :: tail ∧ isBareChar c = true := by
  obtain ⟨c, chars, hcons⟩ := List.exists_cons_of_ne_nil h.ne_nil
  rw [line, hcons]
  exact ⟨c, _, rfl, h.chars c (hcons ▸ List.mem_cons_self)⟩

theorem assignment?_line {key : String} (hkey : IsBare key) {text : List Char} {node : Node}
    (h : Means text node) {root : Entries} (hnew : root.get? key = none) (rest : List Char) :
    assignment? ⟨root, []⟩ (line key text ++ rest) = some (⟨root ++ [(key, node)], []⟩, rest) := by
  have happend : line key text ++ rest =
      key.toList ++ ' ' :: '=' :: (' ' :: (text ++ '\n' :: rest)) := by
    simp [line]
  have hblanks : skipBlanks (' ' :: (text ++ '\n' :: rest)) = text ++ '\n' :: rest := by
    refine (List.dropWhile_cons_of_pos (by decide)).trans (skipBlanks_of_head ?_)
    cases text with
    | nil =>
      rintro c ⟨⟩
      decide
    | cons c text => exact h.head
  have hassign : root.assignUnder [] [] key node = some (root ++ [(key, node)]) := by
    show root.assign [] key node = _
    rw [Entries.assign, hnew]
  rw [happend, assignment?, key?_bare hkey]
  simp only [Option.bind_eq_bind, Option.bind_some, hblanks, h.value, hassign]
  rfl

theorem lines?_line {key : String} (hkey : IsBare key) {text : List Char} {node : Node}
    (h : Means text node) {root : Entries} (hnew : root.get? key = none) (rest : List Char)
    (steps : Nat) : lines? (steps + 1) ⟨root, []⟩ (line key text ++ rest) =
      lines? steps ⟨root ++ [(key, node)], []⟩ rest := by
  have hassign := assignment?_line hkey h hnew rest
  obtain ⟨c, tail, htail, hc⟩ := exists_line_eq_cons hkey text rest
  rw [htail] at hassign ⊢
  have hblanks : skipBlanks (c :: tail) = c :: tail :=
    List.dropWhile_cons_of_neg (by rw [not_isBlank (by decide) (by decide) hc]; decide)
  have hne {d : Char} (hd : isBareChar d = false) : c ≠ d := by
    rintro rfl
    rw [hc] at hd
    cases hd
  have hskip : ¬ (c = '#' ∨ c = '\n' ∨ c = '\r') := by
    rintro (hd | hd | hd) <;> exact hne (by decide) hd
  rw [lines?, hblanks]
  simp only [if_neg hskip, if_neg (hne (d := '[') (by decide)), hassign, Option.bind_some]

theorem get?_eq_none {root : Entries} {key : String} (h : key ∉ root.map Prod.fst) :
    root.get? key = none := by
  refine List.lookup_eq_none_iff.2 fun entry hentry => ?_
  rw [bne_iff_ne]
  rintro rfl
  exact h (List.mem_map_of_mem hentry)

-- By induction on the keys that are still to come: none of them is in the table yet.
theorem lines?_lines {fields : List (String × List Char × Node)}
    (hbare : ∀ f ∈ fields, IsBare f.1) (hmeans : ∀ f ∈ fields, Means f.2.1 f.2.2)
    {root : Entries} (hnodup : (root.map Prod.fst ++ fields.map Prod.fst).Nodup) {steps : Nat}
    (hsteps : fields.length ≤ steps) :
    lines? steps ⟨root, []⟩ (fields.flatMap fun f => line f.1 f.2.1) =
      some (root ++ fields.map fun f => (f.1, f.2.2)) := by
  induction fields generalizing root steps with
  | nil =>
    rw [List.map_nil, List.append_nil]
    cases steps <;> rfl
  | cons f fields ih =>
    obtain ⟨steps, rfl⟩ := Nat.exists_eq_succ_of_ne_zero (Nat.ne_zero_of_lt hsteps)
    obtain ⟨hf, hbare⟩ := List.forall_mem_cons.1 hbare
    obtain ⟨hvalue, hmeans⟩ := List.forall_mem_cons.1 hmeans
    have hnew : f.1 ∉ root.map Prod.fst := fun hold =>
      (List.nodup_append.1 hnodup).2.2 _ hold _ List.mem_cons_self rfl
    have hnodup' : ((root ++ [(f.1, f.2.2)]).map Prod.fst ++ fields.map Prod.fst).Nodup := by
      simpa using hnodup
    rw [List.flatMap_cons, lines?_line hf hvalue (get?_eq_none hnew),
      ih hbare hmeans hnodup' (Nat.le_of_succ_le_succ hsteps), List.map_cons, List.append_assoc]
    rfl

theorem length_le_length_lines (fields : List (String × List Char × Node)) :
    fields.length ≤ (fields.flatMap fun f => line f.1 f.2.1).length := by
  induction fields with
  | nil => exact Nat.le_refl 0
  | cons f fields ih =>
    rw [List.flatMap_cons, List.length_append, List.length_cons, line, List.length_append,
      List.length_cons]
    omega

theorem ofChars?_lines {fields : List (String × List Char × Node)}
    (hbare : ∀ f ∈ fields, IsBare f.1) (hmeans : ∀ f ∈ fields, Means f.2.1 f.2.2)
    (hnodup : (fields.map Prod.fst).Nodup) :
    ofChars? (fields.flatMap fun f => line f.1 f.2.1) =
      some (fields.map fun f => (f.1, f.2.2)) := by
  rw [ofChars?]
  · have hroot : (([] : Entries).map Prod.fst ++ fields.map Prod.fst).Nodup := hnodup
    exact lines?_lines hbare hmeans hroot (length_le_length_lines fields)
  · intro rest he
    cases fields with
    | nil => cases he
    | cons f fields =>
      obtain ⟨c, tail, htail, hc⟩ := exists_line_eq_cons (hbare f List.mem_cons_self) f.2.1
        (fields.flatMap fun f => line f.1 f.2.1)
      rw [List.flatMap_cons, htail] at he
      rw [(List.cons.inj he).1] at hc
      exact absurd hc (by decide)

end PerspectiveBox.Toml
