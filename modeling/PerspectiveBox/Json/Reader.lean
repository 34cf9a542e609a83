import PerspectiveBox.Json.Token
import PerspectiveBox.Json.Value
import PerspectiveBox.Number.Double

namespace PerspectiveBox.Json

-- Values, the items of an array after its first bracket or a comma, and the members of an object
-- likewise. Every level of a call chain takes a token or leads to one that does, so twice as
-- many steps as tokens are enough.
mutual

def value? : Nat → List Token → Option (Json × List Token)
  | 0, _ => none
  | steps + 1, tokens =>
    match tokens with
    | .null :: rest => some (null, rest)
    | .bool b :: rest => some (bool b, rest)
    | .integer n :: rest => some (integer n, rest)
    | .number n :: rest => some (number n, rest)
    | .string s :: rest => some (string s, rest)
    | .openArray :: .closeArray :: rest => some (array [], rest)
    | .openArray :: rest => (items? steps rest).map fun (items, rest) => (array items, rest)
    | .openObject :: .closeObject :: rest => some (object [], rest)
    | .openObject :: rest =>
      (members? steps rest).map fun (members, rest) => (object members, rest)
    | _ => none

def items? : Nat → List Token → Option (List Json × List Token)
  | 0, _ => none
  | steps + 1, tokens => do
    let (item, rest) ← value? steps tokens
    match rest with
    | .closeArray :: rest => return ([item], rest)
    | .comma :: rest =>
      let (items, rest) ← items? steps rest
      return (item :: items, rest)
    | _ => none

def members? : Nat → List Token → Option (List (Option String × Json) × List Token)
  | 0, _ => none
  | steps + 1, tokens =>
    match tokens with
    | .string key :: .colon :: rest => do
      let (value, rest) ← value? steps rest
      match rest with
      | .closeObject :: rest => return ([(key, value)], rest)
      | .comma :: rest =>
        let (members, rest) ← members? steps rest
        return ((key, value) :: members, rest)
      | _ => none
    | _ => none

end

def ofChars? (s : List Char) : Option Json := do
  let tokens ← Token.ofChars? s
  let (value, rest) ← value? (2 * tokens.length) tokens
  if rest.isEmpty then return value else none

def ofText? (s : String) : Option Json := ofChars? s.toList

-- Whether the double nearest to a number is finite.
def fits (n : Numeral) : Bool := (Double.ofNumeral n).isFinite

-- Every text is a text, every number that is not an integer of sixty-four bits fits a double, and
-- arrays and objects are nested no deeper than the given number of levels.
mutual

def isProper : Nat → Json → Bool
  | _, null => true
  | _, bool _ => true
  | _, integer n => n.natAbs < Nat.pow 2 64 || fits (.decimal (n < 0) n.natAbs 0)
  | _, number n => fits n
  | _, string s => s.isSome
  | 0, array _ => false
  | levels + 1, array items => areProper levels items
  | 0, object _ => false
  | levels + 1, object members => areProperMembers levels members

def areProper : Nat → List Json → Bool
  | _, [] => true
  | levels, item :: items => isProper levels item && areProper levels items

def areProperMembers : Nat → List (Option String × Json) → Bool
  | _, [] => true
  | levels, (key, value) :: members =>
    key.isSome && isProper levels value && areProperMembers levels members

end

end PerspectiveBox.Json
