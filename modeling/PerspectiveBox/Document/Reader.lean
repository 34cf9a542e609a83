import PerspectiveBox.Document.Element
import PerspectiveBox.Error
import PerspectiveBox.Json.Reader

namespace PerspectiveBox

-- The attributes of an element, by name or by position. Unknown ones are passed over, and known
-- ones may not be repeated.
inductive Attributes where
  | named (members : List (Option String × Json))
  | positional (items : List Json)

namespace Attributes

def ofJson? : Json → Option Attributes
  | .object members => some (named members)
  | .array items => some (positional items)
  | _ => none

-- The values under a name or at a position.
def values (index : Nat) (name : String) : Attributes → List Json
  | named members => (members.filter fun m => m.1 == some name).map Prod.snd
  | positional items => items[index]?.toList

-- The value of an attribute that may be missing, unless it is there twice.
def optional? (a : Attributes) (index : Nat) (name : String) : Option (Option Json) :=
  match a.values index name with
  | [] => some none
  | [value] => some (some value)
  | _ => none

def required? (a : Attributes) (index : Nat) (name : String) : Option Json :=
  (a.optional? index name).join

-- A text that may be missing or null.
def text? (a : Attributes) (index : Nat) (name : String) : Option (Option String) := do
  match ← a.optional? index name with
  | none => return none
  | some .null => return none
  | some (.string (some s)) => return some s
  | _ => none

def id? (a : Attributes) : Option String := do
  match ← a.required? 0 "id" with
  | .string s => s
  | _ => none

-- Positional attributes of a number between these bounds.
def hasSize (least most : Nat) : Attributes → Bool
  | named _ => true
  | positional items => least ≤ items.length && items.length ≤ most

end Attributes

namespace PerspectiveElement

-- Given by position, none of the columns may be left out.
def ofAttributes? (a : Attributes) : Option PerspectiveElement := do
  guard (a.hasSize 5 5)
  return {
    id := ← a.id?
    vpX := ← a.text? 1 "vp_x"
    vpY := ← a.text? 2 "vp_y"
    vpZ := ← a.text? 3 "vp_z"
    origin := ← a.text? 4 "origin" }

end PerspectiveElement

namespace SideElement

-- The code is a whole number of at most sixty-four bits.
def code? : Json → Option Int64
  | .integer n => if (Int64.ofInt n).toInt = n then some (.ofInt n) else none
  | _ => none

def ofAttributes? (a : Attributes) : Option SideElement := do
  guard (a.hasSize 1 3)
  return {
    code := ← code? (← a.required? 0 "box3dsidetype")
    d := ← a.text? 1 "d"
    style := ← a.text? 2 "style" }

end SideElement

namespace BoxElement

def sides? (a : Attributes) : Option (List SideElement) := do
  match ← a.optional? 4 "sides" with
  | none => return []
  | some (.array items) => items.mapM fun j => Attributes.ofJson? j >>= SideElement.ofAttributes?
  | some _ => none

def ofAttributes? (a : Attributes) : Option BoxElement := do
  guard (a.hasSize 1 5)
  return {
    id := ← a.id?
    perspective := ← a.text? 1 "perspectiveID"
    corner0 := ← a.text? 2 "corner0"
    corner7 := ← a.text? 3 "corner7"
    sides := ← sides? a }

end BoxElement

namespace Element

-- The type of an element and its attributes.
def typed? : Json → Option (String × Attributes)
  | .object members =>
    match members.filter fun m => m.1 == some "type" with
    | [(_, .string (some type))] =>
      some (type, .named (members.filter fun m => m.1 != some "type"))
    | _ => none
  | .array (.string (some type) :: items) => some (type, .positional items)
  | _ => none

def ofJson? (j : Json) : Option Element := do
  let (type, a) ← typed? j
  match type with
  | "perspective" => return perspective (← PerspectiveElement.ofAttributes? a)
  | "box" => return box (← BoxElement.ofAttributes? a)
  | "side" => return side (← SideElement.ofAttributes? a)
  | _ =>
    guard (a.hasSize 0 0)
    return other

end Element

namespace Document

-- The levels of nesting that a document may have.
def depth : Nat := 127

-- The value of the one attribute of a document. Within it everything has to denote something;
-- the values of other attributes only have to be written correctly.
def elements? (j : Json) : Option (List Json) := do
  let value ← match j with
    | .object members =>
      guard (members.all fun m => m.1.isSome)
      (Attributes.named members).required? 0 "elements"
    | .array [value] => some value
    | _ => none
  guard (value.isProper (depth - 1))
  match value with
  | .array items => return items
  | _ => none

def ofJson? (j : Json) : Option Document := do
  return ⟨← (← elements? j).mapM Element.ofJson?⟩

def read (s : String) : Except SceneError Document :=
  match Json.ofText? s >>= ofJson? with
  | some d => .ok d
  | none => .error .malformedDocument

end Document

end PerspectiveBox
