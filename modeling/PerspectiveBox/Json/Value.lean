import PerspectiveBox.Number.Numeral

namespace PerspectiveBox

-- A string literal names a text, or none at all when an escape leaves half of a surrogate pair
-- alone. An integer is a number literal without point, exponent, or a sign on a zero. The members
-- of an object keep their order and their repetitions.
inductive Json where
  | null
  | bool (b : Bool)
  | integer (n : Int)
  | number (n : Numeral)
  | string (s : Option String)
  | array (items : List Json)
  | object (members : List (Option String × Json))

namespace Json

def text (s : String) : Json := string (some s)

-- An optional text, with null for its absence.
def optional : Option String → Json
  | some s => text s
  | none => null

def record (members : List (String × Json)) : Json :=
  object (members.map fun (key, value) => (some key, value))

end Json

end PerspectiveBox
