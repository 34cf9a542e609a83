import PerspectiveBox.Proofs.Toml.Lines
import PerspectiveBox.Proofs.Toml.Number

namespace PerspectiveBox.Settings

open Toml

theorem exists_means_number (x : Float) :
    ∃ n, Means (tomlNumber (Numeric.toNumeral x)) (.float n) ∧ Double.ofNumeral n = x := by
  obtain ⟨n, hword, hchars, hread⟩ := ofWord?_tomlNumber x
  exact ⟨n, means_word hchars hword, hread⟩

theorem means_strategy (strategy : OrderStrategy) :
    Means ('"' :: (strategy.tomlName.toList ++ ['"'])) (.string strategy.tomlName) := by
  have hplain : strategy.tomlName.toList.all isPlain = true := by cases strategy <;> decide
  have hne : strategy.tomlName.toList ≠ [] := by cases strategy <;> decide
  have hmeans := means_string (List.all_eq_true.1 hplain) hne
  rwa [String.ofList_toList] at hmeans

theorem ofNode?_tomlName (strategy : OrderStrategy) :
    OrderStrategy.ofNode? (.string strategy.tomlName) = some strategy := by
  cases strategy <;> rfl

def lineText (key value : String) : String := key ++ " = " ++ value ++ "\n"

theorem toToml_eq (s : Settings Float) : s.toToml =
    lineText "snap_threshold" (String.ofList (tomlNumber (Numeric.toNumeral s.snapThreshold))) ++
    lineText "zoom" (String.ofList (tomlNumber (Numeric.toNumeral s.zoom))) ++
    lineText "document_width" (String.ofList (tomlNumber (Numeric.toNumeral s.documentWidth))) ++
    lineText "document_height" (String.ofList (tomlNumber (Numeric.toNumeral s.documentHeight))) ++
    lineText "z_order_strategy" ("\"" ++ s.strategy.tomlName ++ "\"") := rfl

theorem toList_lineText (key value : String) :
    (lineText key value).toList = line key value.toList := by
  have hequals : " = ".toList = [' ', '=', ' '] := rfl
  have hnewline : "\n".toList = ['\n'] := rfl
  simp only [lineText, line, String.toList_append, hequals, hnewline, List.append_assoc,
    List.cons_append, List.nil_append]

-- The keys with the texts of their values, and what these mean.
def fields (s : Settings Float) (snap zoom width height : Numeral) :
    List (String × List Char × Node) :=
  [("snap_threshold", tomlNumber (Numeric.toNumeral s.snapThreshold), .float snap),
    ("zoom", tomlNumber (Numeric.toNumeral s.zoom), .float zoom),
    ("document_width", tomlNumber (Numeric.toNumeral s.documentWidth), .float width),
    ("document_height", tomlNumber (Numeric.toNumeral s.documentHeight), .float height),
    ("z_order_strategy", '"' :: (s.strategy.tomlName.toList ++ ['"']), .string s.strategy.tomlName)]

theorem toList_toToml (s : Settings Float) (snap zoom width height : Numeral) :
    s.toToml.toList = (s.fields snap zoom width height).flatMap fun f => line f.1 f.2.1 := by
  have hquote : "\"".toList = ['"'] := rfl
  rw [toToml_eq]
  simp only [String.toList_append, toList_lineText, String.toList_ofList, hquote, fields,
    List.flatMap_cons, List.flatMap_nil, List.append_assoc, List.append_nil, List.cons_append,
    List.nil_append]

theorem ofEntries?_fields {s : Settings Float} {snap zoom width height : Numeral}
    (hsnap : Double.ofNumeral snap = s.snapThreshold) (hzoom : Double.ofNumeral zoom = s.zoom)
    (hwidth : Double.ofNumeral width = s.documentWidth)
    (hheight : Double.ofNumeral height = s.documentHeight) :
    ofEntries? ((s.fields snap zoom width height).map fun f => (f.1, f.2.2)) = some s := by
  have hnumber {n : Numeral} {x : Float} (h : Double.ofNumeral n = x) :
      number? (.float n) = some x := congrArg some h
  simp [ofEntries?, read?, fields, Entries.get?, List.lookup, hnumber hsnap, hnumber hzoom,
    hnumber hwidth, hnumber hheight, ofNode?_tomlName]

-- Every setting is read for what was written, whatever number it is.
theorem read_toToml (s : Settings Float) : (Toml.ofText? s.toToml >>= ofEntries?) = some s := by
  obtain ⟨snap, hsnap, hreadSnap⟩ := exists_means_number s.snapThreshold
  obtain ⟨zoom, hzoom, hreadZoom⟩ := exists_means_number s.zoom
  obtain ⟨width, hwidth, hreadWidth⟩ := exists_means_number s.documentWidth
  obtain ⟨height, hheight, hreadHeight⟩ := exists_means_number s.documentHeight
  have hstrategy := means_strategy s.strategy
  have hbare : ∀ f ∈ s.fields snap zoom width height, IsBare f.1 := by
    simp only [fields, List.forall_mem_cons]
    exact ⟨by decide, by decide, by decide, by decide, by decide, nofun⟩
  have hmeans : ∀ f ∈ s.fields snap zoom width height, Means f.2.1 f.2.2 := by
    simp only [fields, List.forall_mem_cons]
    exact ⟨hsnap, hzoom, hwidth, hheight, hstrategy, nofun⟩
  have hread := ofChars?_lines hbare hmeans (by simp [fields])
  rw [Toml.ofText?, toList_toToml s snap zoom width height, hread, Option.bind_eq_bind,
    Option.bind_some]
  exact ofEntries?_fields hreadSnap hreadZoom hreadWidth hreadHeight

-- What was written is read back if it is in range, and its fault is found if it is not.
theorem ofToml_toToml (s : Settings Float) : ofToml s.toToml =
    match s.fault? with
    | none => .ok s
    | some fault => .error (.settings fault) := by
  rw [ofToml, read_toToml]
  simp only [validate]
  cases s.fault? <;> rfl

end PerspectiveBox.Settings
