import PerspectiveBox.Settings.Basic
import PerspectiveBox.Toml.Reader

namespace PerspectiveBox

namespace OrderStrategy

def tomlName : OrderStrategy → String
  | sectorHeuristics => "sector_heuristics"
  | vanishingTriangle => "vanishing_triangle"

def ofName? : String → Option OrderStrategy
  | "sector_heuristics" => some sectorHeuristics
  | "vanishing_triangle" => some vanishingTriangle
  | _ => none

def isEmptyNode : Toml.Node → Bool
  | .array items => items.isEmpty
  | .inline entries => entries.isEmpty
  | .table _ entries => entries.isEmpty
  | _ => false

-- A strategy is given by its name, or by a table with the name as its only key and nothing under
-- it.
def ofEntries? : Toml.Entries → Option OrderStrategy
  | [(name, node)] => if isEmptyNode node then ofName? name else none
  | _ => none

def ofNode? : Toml.Node → Option OrderStrategy
  | .string s => ofName? s
  | .inline entries => ofEntries? entries
  | .table _ entries => ofEntries? entries
  | _ => none

end OrderStrategy

namespace Settings

variable {K : Type} [Scalar K] [Numeric K]

def number? : Toml.Node → Option K
  | .integer n => some (Numeric.ofNumeral (.decimal (n < 0) n.natAbs 0))
  | .float n => some (Numeric.ofNumeral n)
  | _ => none

-- The value of a key, or the default if there is none.
def read? {α : Type} (root : Toml.Entries) (key : String) (decode : Toml.Node → Option α)
    (default : α) : Option α :=
  match root.get? key with
  | some node => decode node
  | none => some default

def ofEntries? (root : Toml.Entries) : Option (Settings K) := do
  let base : Settings K := default
  return {
    snapThreshold := ← read? root "snap_threshold" number? base.snapThreshold
    zoom := ← read? root "zoom" number? base.zoom
    documentWidth := ← read? root "document_width" number? base.documentWidth
    documentHeight := ← read? root "document_height" number? base.documentHeight
    strategy := ← read? root "z_order_strategy" OrderStrategy.ofNode? base.strategy }

-- Reads settings that are in range.
def ofToml (s : String) : Except SceneError (Settings K) := do
  match Toml.ofText? s >>= ofEntries? with
  | some settings =>
    settings.validate
    return settings
  | none => throw .malformedSettings

-- A float as TOML writes it: never without a point, so that it does not read as an integer.
def tomlNumber (n : Numeral) : List Char :=
  match n with
  | .notANumber => ['n', 'a', 'n']
  | .infinite _ => n.chars
  | .decimal _ _ _ => if n.chars.contains '.' then n.chars else n.chars ++ ['.', '0']

def toToml (s : Settings K) : String :=
  let line (key value : String) : String := key ++ " = " ++ value ++ "\n"
  let number (k : K) : String := String.ofList (tomlNumber (Numeric.toNumeral k))
  line "snap_threshold" (number s.snapThreshold) ++ line "zoom" (number s.zoom) ++
    line "document_width" (number s.documentWidth) ++
    line "document_height" (number s.documentHeight) ++
    line "z_order_strategy" ("\"" ++ s.strategy.tomlName ++ "\"")

end Settings

end PerspectiveBox
