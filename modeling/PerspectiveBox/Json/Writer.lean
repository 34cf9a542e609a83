import PerspectiveBox.Json.Value

namespace PerspectiveBox.Json

def hexDigits (c : Char) : List Char :=
  let digits := Nat.toDigits 16 c.toNat
  List.replicate (2 - digits.length) '0' ++ digits

-- Only the two characters that the literal itself uses and the controls are escaped.
def escapeChar (c : Char) : List Char :=
  if c = '"' then ['\\', '"']
  else if c = '\\' then ['\\', '\\']
  else if c = '\x08' then ['\\', 'b']
  else if c = '\t' then ['\\', 't']
  else if c = '\n' then ['\\', 'n']
  else if c = '\x0c' then ['\\', 'f']
  else if c = '\r' then ['\\', 'r']
  else if c.toNat < 0x20 then "\\u00".toList ++ hexDigits c
  else [c]

def stringLiteral (s : String) : List Char := '"' :: s.toList.flatMap escapeChar ++ ['"']

-- Between the brackets of a list, its parts on lines of their own.
def block (indent : Nat) (opening closing : Char) (parts : List (List Char)) : List Char :=
  let line (level : Nat) := '\n' :: List.replicate (2 * level) ' '
  if parts.isEmpty then [opening, closing]
  else
    opening :: (line (indent + 1) ++ List.intercalate (',' :: line (indent + 1)) parts) ++
      line indent ++ [closing]

def scalar : Json → List Char
  | null => "null".toList
  | bool b => (if b then "true" else "false").toList
  | integer n => (toString n).toList
  | number n => n.chars
  | string (some s) => stringLiteral s
  | _ => []

mutual

def pretty : Nat → Json → List Char
  | indent, array items => block indent '[' ']' (prettyItems (indent + 1) items)
  | indent, object members => block indent '\x7b' '\x7d' (prettyMembers (indent + 1) members)
  | _, value => scalar value

def prettyItems : Nat → List Json → List (List Char)
  | _, [] => []
  | indent, item :: items => pretty indent item :: prettyItems indent items

def prettyMembers : Nat → List (Option String × Json) → List (List Char)
  | _, [] => []
  | indent, (key, value) :: members =>
    (stringLiteral (key.getD "") ++ ": ".toList ++ pretty indent value) ::
      prettyMembers indent members

end

mutual

def compact : Json → List Char
  | array items => '[' :: List.intercalate [','] (compactItems items) ++ [']']
  | object members => '\x7b' :: List.intercalate [','] (compactMembers members) ++ ['\x7d']
  | value => scalar value

def compactItems : List Json → List (List Char)
  | [] => []
  | item :: items => compact item :: compactItems items

def compactMembers : List (Option String × Json) → List (List Char)
  | [] => []
  | (key, value) :: members =>
    (stringLiteral (key.getD "") ++ ':' :: compact value) :: compactMembers members

end

end PerspectiveBox.Json
