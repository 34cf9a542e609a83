namespace PerspectiveBox

-- The four columns of a projection, as texts of points.
structure PerspectiveElement where
  id : String
  vpX : Option String
  vpY : Option String
  vpZ : Option String
  origin : Option String
  deriving DecidableEq, Repr

-- A face by its code, with the path last drawn for it.
structure SideElement where
  code : Int64
  d : Option String
  style : Option String
  deriving DecidableEq, Repr

-- Two corners, a reference to a perspective, and the sides with the bottom one first.
structure BoxElement where
  id : String
  perspective : Option String
  corner0 : Option String
  corner7 : Option String
  sides : List SideElement
  deriving DecidableEq, Repr

inductive Element where
  | perspective (e : PerspectiveElement)
  | box (e : BoxElement)
  | side (e : SideElement)
  -- An element of any other kind.
  | other
  deriving DecidableEq, Repr

structure Document where
  elements : List Element
  deriving DecidableEq, Repr

end PerspectiveBox
