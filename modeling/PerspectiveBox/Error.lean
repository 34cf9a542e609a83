import PerspectiveBox.Axis
import PerspectiveBox.Scene.Key
import PerspectiveBox.Text.Quoted

namespace PerspectiveBox

-- Which of the settings is out of range.
inductive SettingsFault where
  | snapThreshold
  | zoom
  | documentSize
  deriving DecidableEq, Repr

def SettingsFault.message : SettingsFault → String
  | snapThreshold => "snap_threshold must be a non-negative number"
  | zoom => "zoom must be positive"
  | documentSize => "document dimensions must be positive"

inductive SceneError where
  -- A drag has to be free along one axis or two.
  | invalidMovement (axes : AxisSet)
  | invalidCorner (id : Nat)
  | noPerspective
  | unknownBox (key : BoxKey)
  | unknownPerspective (key : PerspectiveKey)
  | perspectiveInUse (id : String)
  | nonFiniteCorner (slot : Nat)
  | invalidSideType (code : Int)
  | badReference (href : String)
  | perspectivesDiffer (keep other : String)
  | settings (fault : SettingsFault)
  | malformedDocument
  | malformedSettings
  deriving DecidableEq, Repr

def SceneError.message : SceneError → String
  | invalidMovement axes =>
    "invalid movement axes " ++ axes.name ++ "; expected one or two axes"
  | invalidCorner id => "invalid corner id " ++ toString id ++ "; expected 0..=7"
  | noPerspective => "box is not attached to a perspective"
  | unknownBox key => "unknown box: " ++ key.text
  | unknownPerspective key => "unknown perspective: " ++ key.text
  | perspectiveInUse id => "perspective " ++ id ++ " still has attached boxes"
  | nonFiniteCorner slot =>
    "face " ++ toString slot ++ " has a corner that projects to infinity"
  | invalidSideType code => "invalid box side type " ++ toString code
  | badReference href => "bad perspective reference " ++ Text.quoted href
  | perspectivesDiffer keep other =>
    "perspectives " ++ keep ++ " and " ++ other ++ " do not coincide"
  | settings fault => "invalid settings: " ++ fault.message
  | malformedDocument => "document error"
  | malformedSettings => "settings file error"

end PerspectiveBox
