import PerspectiveBox.Json.Reader
import PerspectiveBox.Proofs.Json.Token

namespace PerspectiveBox.Json

open Token

-- The tokens of a value, of the items of an array, and of the members of an object.
mutual

def tokens : Json → List Token
  | null => [.null]
  | bool b => [.bool b]
  | integer n => [.integer n]
  | number n => [.number n]
  | string s => [.string s]
  | array items => .openArray :: List.intercalate [.comma] (itemTokens items) ++ [.closeArray]
  | object members =>
    .openObject :: List.intercalate [.comma] (memberTokens members) ++ [.closeObject]

def itemTokens : List Json → List (List Token)
  | [] => []
  | item :: items => tokens item :: itemTokens items

def memberTokens : List (Option String × Json) → List (List Token)
  | [] => []
  | (key, value) :: members => (.string key :: .colon :: tokens value) :: memberTokens members

end

-- Values in which every key and every string is a text and every number is an integer.
inductive Plain : Json → Prop where
  | null : Plain .null
  | bool (b : Bool) : Plain (.bool b)
  | integer (n : Int) : Plain (.integer n)
  | text (s : String) : Plain (.text s)
  | array {items : List Json} (h : ∀ j ∈ items, Plain j) : Plain (.array items)
  | object {members : List (Option String × Json)} (hkey : ∀ m ∈ members, m.1.isSome)
      (hvalue : ∀ m ∈ members, Plain m.2) : Plain (.object members)

theorem prettyItems_eq_map (indent : Nat) (items : List Json) :
    prettyItems indent items = items.map (pretty indent) := by
  induction items with
  | nil => rw [prettyItems, List.map_nil]
  | cons item items ih => rw [prettyItems, List.map_cons, ih]

theorem itemTokens_eq_map (items : List Json) : itemTokens items = items.map tokens := by
  induction items with
  | nil => rw [itemTokens, List.map_nil]
  | cons item items ih => rw [itemTokens, List.map_cons, ih]

theorem prettyMembers_eq_map (indent : Nat) (members : List (Option String × Json)) :
    prettyMembers indent members = members.map fun m =>
      stringLiteral (m.1.getD "") ++ ": ".toList ++ pretty indent m.2 := by
  induction members with
  | nil => rw [prettyMembers, List.map_nil]
  | cons m members ih => rw [prettyMembers, List.map_cons, ih]

theorem memberTokens_eq_map (members : List (Option String × Json)) :
    memberTokens members = members.map fun m => .string m.1 :: .colon :: tokens m.2 := by
  induction members with
  | nil => rw [memberTokens, List.map_nil]
  | cons m members ih => rw [memberTokens, List.map_cons, ih]

theorem writes_member {key : Option String} {text : List Char} {tokens : List Token}
    (hkey : key.isSome = true) (h : Writes text tokens) :
    Writes (stringLiteral (key.getD "") ++ ": ".toList ++ text)
      (.string key :: .colon :: tokens) := by
  obtain ⟨key, rfl⟩ := Option.isSome_iff_exists.1 hkey
  intro rest more hrest hmore
  rw [List.append_assoc, List.append_assoc]
  refine spells_stringLiteral key ?_
  show Spells (':' :: ' ' :: (text ++ rest)) (.colon :: (tokens ++ more))
  exact .token rfl rfl (Nat.le_refl _) (.space rfl (h hrest hmore))

theorem writes_pretty {j : Json} (h : j.Plain) (indent : Nat) :
    Writes (pretty indent j) (tokens j) := by
  induction h generalizing indent with
  | null =>
    intro rest more _ hmore
    show Spells ('n' :: 'u' :: 'l' :: 'l' :: rest) (.null :: more)
    exact .token rfl rfl (Nat.le_add_right _ 3) hmore
  | bool b =>
    intro rest more _ hmore
    cases b with
    | false =>
      show Spells ('f' :: 'a' :: 'l' :: 's' :: 'e' :: rest) (.bool false :: more)
      exact .token rfl rfl (Nat.le_add_right _ 4) hmore
    | true =>
      show Spells ('t' :: 'r' :: 'u' :: 'e' :: rest) (.bool true :: more)
      exact .token rfl rfl (Nat.le_add_right _ 3) hmore
  | integer n => exact writes_integer n
  | text s =>
    intro rest more _ hmore
    exact spells_stringLiteral s hmore
  | array _ ih =>
    rw [pretty, tokens, prettyItems_eq_map, itemTokens_eq_map]
    refine writes_block indent ⟨rfl, fun _ => rfl⟩ ⟨rfl, fun _ => rfl⟩ ?_
    rw [List.forall₂_map_left_iff, List.forall₂_map_right_iff, List.forall₂_same]
    exact fun j hj => ih j hj (indent + 1)
  | object hkey _ ih =>
    rw [pretty, tokens, prettyMembers_eq_map, memberTokens_eq_map]
    refine writes_block indent ⟨rfl, fun _ => rfl⟩ ⟨rfl, fun _ => rfl⟩ ?_
    rw [List.forall₂_map_left_iff, List.forall₂_map_right_iff, List.forall₂_same]
    exact fun m hm => writes_member (hkey m hm) (ih m hm (indent + 1))

theorem ofChars?_pretty {j : Json} (h : j.Plain) (indent : Nat) :
    Token.ofChars? (pretty indent j) = some (tokens j) := by
  have hspells : Spells (pretty indent j ++ []) (tokens j ++ []) :=
    writes_pretty h indent nofun .nil
  rw [List.append_nil, List.append_nil] at hspells
  exact ofChars?_of_spells hspells

-- No value begins with a closing bracket.
theorem tokens_eq_cons (j : Json) : ∃ t ts, tokens j = t :: ts ∧ t ≠ .closeArray := by
  cases j <;> exact ⟨_, _, rfl, nofun⟩

theorem value?_openArray {items : List Json} (h : items ≠ []) (steps : Nat) (rest : List Token) :
    value? (steps + 1) (tokens (array items) ++ rest) =
      (items? steps (List.intercalate [.comma] (itemTokens items) ++ .closeArray :: rest)).map
        fun (items, rest) => (array items, rest) := by
  rw [tokens, List.append_assoc, List.cons_append, List.singleton_append, value?]
  match items with
  | [] => exact absurd rfl h
  | item :: items =>
    obtain ⟨t, ts, ht, hclose⟩ := tokens_eq_cons item
    intro more hmore
    cases items <;>
      rw [itemTokens, itemTokens, ht] at hmore <;>
      exact hclose (List.cons.inj hmore).1

theorem value?_openObject {members : List (Option String × Json)} (h : members ≠ []) (steps : Nat)
    (rest : List Token) :
    value? (steps + 1) (tokens (object members) ++ rest) =
      (members? steps
        (List.intercalate [.comma] (memberTokens members) ++ .closeObject :: rest)).map
          fun (members, rest) => (object members, rest) := by
  rw [tokens, List.append_assoc, List.cons_append, List.singleton_append, value?]
  match members with
  | [] => exact absurd rfl h
  | (key, value) :: members =>
    intro more hmore
    cases members <;> exact Token.noConfusion (List.cons.inj hmore).1

theorem length_itemTokens_pos {items : List Json} (h : items ≠ []) :
    0 < (List.intercalate [.comma] (itemTokens items)).length := by
  match items with
  | [] => exact absurd rfl h
  | item :: items =>
    obtain ⟨t, ts, ht, -⟩ := tokens_eq_cons item
    cases items <;> rw [itemTokens, itemTokens, ht] <;> exact Nat.succ_pos _

theorem length_memberTokens_pos {members : List (Option String × Json)} (h : members ≠ []) :
    0 < (List.intercalate [.comma] (memberTokens members)).length := by
  match members with
  | [] => exact absurd rfl h
  | m :: members => cases members <;> exact Nat.succ_pos _

-- Reading a value takes fewer than two steps for each of its tokens.
mutual

theorem value?_tokens (j : Json) (rest : List Token) {steps : Nat}
    (h : 2 * (tokens j).length ≤ steps + 1) : value? steps (tokens j ++ rest) = some (j, rest) := by
  cases steps with
  | zero =>
    obtain ⟨t, ts, ht, -⟩ := tokens_eq_cons j
    rw [ht, List.length_cons] at h
    omega
  | succ steps =>
    cases j with
    | null | bool | integer | number | string => rfl
    | array items =>
      by_cases hitems : items = []
      · rw [hitems]
        rfl
      · rw [tokens, List.length_append, List.length_cons, List.length_singleton] at h
        rw [value?_openArray hitems, items?_tokens items rest hitems (by omega)]
        rfl
    | object members =>
      by_cases hmembers : members = []
      · rw [hmembers]
        rfl
      · rw [tokens, List.length_append, List.length_cons, List.length_singleton] at h
        rw [value?_openObject hmembers, members?_tokens members rest hmembers (by omega)]
        rfl

theorem items?_tokens (items : List Json) (rest : List Token) (hitems : items ≠ []) {steps : Nat}
    (h : 2 * (List.intercalate [.comma] (itemTokens items)).length ≤ steps) :
    items? steps (List.intercalate [.comma] (itemTokens items) ++ .closeArray :: rest) =
      some (items, rest) := by
  have hlength := length_itemTokens_pos hitems
  obtain ⟨steps, rfl⟩ : ∃ n, steps = n + 1 := Nat.exists_eq_add_one.2 (by omega)
  match items with
  | [] => exact absurd rfl hitems
  | [item] =>
    rw [itemTokens, itemTokens, List.intercalate_singleton] at h ⊢
    rw [items?, value?_tokens item _ (by omega)]
    rfl
  | item :: next :: items =>
    rw [itemTokens, itemTokens, List.intercalate_cons_cons, ← itemTokens] at h ⊢
    rw [List.length_append, List.length_append, List.length_singleton] at h
    rw [List.append_assoc, List.append_assoc, List.singleton_append, items?,
      value?_tokens item _ (by omega)]
    show (items? steps _).bind _ = _
    rw [items?_tokens (next :: items) rest (List.cons_ne_nil _ _) (by omega)]
    rfl

theorem members?_tokens (members : List (Option String × Json)) (rest : List Token)
    (hmembers : members ≠ []) {steps : Nat}
    (h : 2 * (List.intercalate [.comma] (memberTokens members)).length ≤ steps) :
    members? steps (List.intercalate [.comma] (memberTokens members) ++ .closeObject :: rest) =
      some (members, rest) := by
  have hlength := length_memberTokens_pos hmembers
  obtain ⟨steps, rfl⟩ : ∃ n, steps = n + 1 := Nat.exists_eq_add_one.2 (by omega)
  match members with
  | [] => exact absurd rfl hmembers
  | [(key, value)] =>
    rw [memberTokens, memberTokens, List.intercalate_singleton] at h ⊢
    rw [List.length_cons, List.length_cons] at h
    rw [List.cons_append, List.cons_append, members?, value?_tokens value _ (by omega)]
    rfl
  | (key, value) :: (nextKey, nextValue) :: members =>
    rw [memberTokens, memberTokens, List.intercalate_cons_cons, ← memberTokens] at h ⊢
    simp only [List.length_append, List.length_cons, List.length_nil] at h
    rw [List.append_assoc, List.append_assoc, List.singleton_append, List.cons_append,
      List.cons_append, members?, value?_tokens value _ (by omega)]
    show (members? steps _).bind _ = _
    rw [members?_tokens ((nextKey, nextValue) :: members) rest (List.cons_ne_nil _ _) (by omega)]
    rfl

end

theorem ofText?_pretty {j : Json} (h : j.Plain) (indent : Nat) :
    ofText? (String.ofList (pretty indent j)) = some j := by
  have hread : value? (2 * (tokens j).length) (tokens j ++ []) = some (j, []) :=
    value?_tokens j [] (Nat.le_succ _)
  rw [List.append_nil] at hread
  rw [ofText?, String.toList_ofList, ofChars?, ofChars?_pretty h]
  show (value? _ _).bind _ = _
  rw [hread]
  rfl

end PerspectiveBox.Json
