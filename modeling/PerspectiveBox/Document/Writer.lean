import PerspectiveBox.Document.Element
import PerspectiveBox.Json.Writer

namespace PerspectiveBox

def present (key : String) (value : Option String) : List (String × Json) :=
  value.toList.map fun s => (key, .text s)

namespace SideElement

def attributes (e : SideElement) : List (String × Json) :=
  ("box3dsidetype", .integer e.code.toInt) :: present "d" e.d ++ present "style" e.style

def toJson (e : SideElement) : Json := .record e.attributes

end SideElement

namespace PerspectiveElement

def attributes (e : PerspectiveElement) : List (String × Json) :=
  [("id", .text e.id), ("vp_x", .optional e.vpX), ("vp_y", .optional e.vpY),
    ("vp_z", .optional e.vpZ), ("origin", .optional e.origin)]

end PerspectiveElement

namespace BoxElement

def attributes (e : BoxElement) : List (String × Json) :=
  [("id", .text e.id)] ++ present "perspectiveID" e.perspective ++ present "corner0" e.corner0 ++
    present "corner7" e.corner7 ++ [("sides", .array (e.sides.map SideElement.toJson))]

end BoxElement

namespace Element

def typed (type : String) (attributes : List (String × Json)) : Json :=
  .record (("type", .text type) :: attributes)

def toJson : Element → Json
  | perspective e => typed "perspective" e.attributes
  | box e => typed "box" e.attributes
  | side e => typed "side" e.attributes
  | other => typed "other" []

end Element

namespace Document

def toJson (d : Document) : Json :=
  .record [("elements", .array (d.elements.map Element.toJson))]

def text (d : Document) : String := String.ofList (d.toJson.pretty 0)

end Document

end PerspectiveBox
