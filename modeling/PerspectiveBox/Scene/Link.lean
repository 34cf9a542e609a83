import PerspectiveBox.Error
import PerspectiveBox.Text.Blank

namespace PerspectiveBox

namespace Reference

def write (id : String) : String := "#" ++ id

def id? (href : String) : Option (List Char) :=
  match Text.trim href.toList with
  | '#' :: id => if id.isEmpty || id.any Text.isBlank then none else some id
  | _ => none

-- The id that a reference names. White space around the reference is passed over; within the id
-- there is none.
def read (href : String) : Except SceneError String :=
  match id? href with
  | some id => .ok (String.ofList id)
  | none => .error (.badReference href)

end Reference

-- A textual reference `#id`, and the perspective that it is resolved to.
structure Link where
  href : Option String
  target : Option PerspectiveKey
  deriving DecidableEq, Repr

namespace Link

def none : Link := ⟨.none, .none⟩

def isAttached (l : Link) : Bool := l.target.isSome

end Link

-- The perspectives a box was linked to before and after a change.
structure LinkChange where
  old : Option PerspectiveKey
  new : Option PerspectiveKey
  deriving DecidableEq, Repr

def LinkChange.isChange (c : LinkChange) : Bool := c.old != c.new

end PerspectiveBox
