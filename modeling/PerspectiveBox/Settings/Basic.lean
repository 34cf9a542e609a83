import PerspectiveBox.Error
import PerspectiveBox.FaceOrder.Classify

namespace PerspectiveBox

open Scalar

structure Settings (K : Type) where
  -- How far on screen a drag may stray before it snaps to another line.
  snapThreshold : K
  -- Screen distances are multiplied by this in snapping.
  zoom : K
  documentWidth : K
  documentHeight : K
  strategy : OrderStrategy
  deriving BEq

namespace Settings

variable {K : Type} [Scalar K]

-- The page is an upright sheet of A4 at ninety dots an inch.
def default : Settings K where
  snapThreshold := 30.0
  zoom := 1.0
  documentWidth := 744.09
  documentHeight := 1052.36
  strategy := .sectorHeuristics

def isPositive (k : K) : Bool := decide (0 < k) && isFinite k

-- The first setting that is out of range. What is no number is out of every range.
def fault? (s : Settings K) : Option SettingsFault :=
  if !(decide (0 ≤ s.snapThreshold) && isFinite s.snapThreshold) then some .snapThreshold
  else if !isPositive s.zoom then some .zoom
  else if !(isPositive s.documentWidth && isPositive s.documentHeight) then some .documentSize
  else none

def validate (s : Settings K) : Except SceneError Unit :=
  match s.fault? with
  | some fault => .error (.settings fault)
  | none => .ok ()

end Settings

end PerspectiveBox
