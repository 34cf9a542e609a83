import PerspectiveBox.Document.Reader
import PerspectiveBox.Document.Writer
import PerspectiveBox.Proofs.Json.RoundTrip

namespace PerspectiveBox

namespace Json

theorem areProper_iff {levels : Nat} {items : List Json} :
    areProper levels items = true ↔ ∀ j ∈ items, isProper levels j = true := by
  induction items with
  | nil => simp [areProper]
  | cons item items ih => simp [areProper, ih]

theorem areProperMembers_iff {levels : Nat} {members : List (Option String × Json)} :
    areProperMembers levels members = true ↔
      ∀ m ∈ members, m.1.isSome = true ∧ isProper levels m.2 = true := by
  induction members with
  | nil => simp [areProperMembers]
  | cons m members ih => simp [areProperMembers, ih, and_assoc]

-- Values that are written as they are and denote something, with this many levels at the most.
def Faithful (levels : Nat) (j : Json) : Prop := j.Plain ∧ j.isProper levels = true

theorem faithful_text (levels : Nat) (s : String) : Faithful levels (text s) :=
  ⟨.text s, by cases levels <;> rfl⟩

theorem faithful_optional (levels : Nat) (value : Option String) :
    Faithful levels (optional value) := by
  cases value with
  | none => exact ⟨.null, by cases levels <;> rfl⟩
  | some s => exact faithful_text levels s

theorem faithful_integer (levels : Nat) {n : Int} (h : n.natAbs < Nat.pow 2 64) :
    Faithful levels (integer n) := by
  refine ⟨.integer n, ?_⟩
  cases levels <;> exact Bool.or_eq_true_iff.2 (.inl (decide_eq_true h))

theorem faithful_array {levels : Nat} {items : List Json} (h : ∀ j ∈ items, Faithful levels j) :
    Faithful (levels + 1) (array items) :=
  ⟨.array fun j hj => (h j hj).1, areProper_iff.2 fun j hj => (h j hj).2⟩

theorem faithful_record {levels : Nat} {members : List (String × Json)}
    (h : ∀ m ∈ members, Faithful levels m.2) : Faithful (levels + 1) (record members) := by
  have hmember : ∀ m ∈ members.map fun m => (some m.1, m.2),
      m.1.isSome = true ∧ Faithful levels m.2 := by
    intro m hm
    obtain ⟨written, hwritten, rfl⟩ := List.mem_map.1 hm
    exact ⟨rfl, h written hwritten⟩
  exact ⟨.object (fun m hm => (hmember m hm).1) fun m hm => (hmember m hm).2.1,
    areProperMembers_iff.2 fun m hm => ⟨(hmember m hm).1, (hmember m hm).2.2⟩⟩

end Json

@[simp]
theorem filter_present (key name : String) (value : Option String) :
    (present key value).filter (fun m => m.1 == name) =
      if key = name then present key value else [] := by
  cases value with
  | none => simp [present]
  | some s => by_cases h : key = name <;> simp [present, h]

namespace Attributes

-- Attributes by name, as they are written.
def written (members : List (String × Json)) : Attributes :=
  .named (members.map fun (key, value) => (some key, value))

theorem values_written (members : List (String × Json)) (index : Nat) (name : String) :
    (written members).values index name =
      (members.filter fun m => m.1 == name).map Prod.snd := by
  rw [written, values, List.filter_map, List.map_map]
  rfl

-- Named attributes may be of any number.
theorem guard_hasSize (members : List (String × Json)) (least most : Nat) :
    (guard ((written members).hasSize least most = true) : Option Unit) = some () := rfl

section

variable {members : List (String × Json)} {index : Nat} {name : String}

theorem optional?_written {j : Json} (h : members.filter (fun m => m.1 == name) = [(name, j)]) :
    (written members).optional? index name = some (some j) := by
  rw [optional?, values_written, h]
  rfl

theorem required?_written {j : Json} (h : members.filter (fun m => m.1 == name) = [(name, j)]) :
    (written members).required? index name = some j := by
  rw [required?, optional?_written h]
  rfl

theorem id?_written {s : String} (h : members.filter (fun m => m.1 == "id") = [("id", .text s)]) :
    (written members).id? = some s := by
  rw [id?, required?_written h]
  rfl

-- An attribute that is null when it is absent.
theorem text?_written_optional {value : Option String}
    (h : members.filter (fun m => m.1 == name) = [(name, .optional value)]) :
    (written members).text? index name = some value := by
  rw [text?, optional?_written h]
  cases value <;> rfl

-- An attribute that is left out when it is absent.
theorem text?_written_present {value : Option String}
    (h : members.filter (fun m => m.1 == name) = present name value) :
    (written members).text? index name = some value := by
  cases value with
  | none =>
    rw [text?, optional?, values_written, h]
    rfl
  | some s => exact text?_written_optional h

end

end Attributes

-- Reading each of a list of values that were written gives back the list.
theorem mapM_map_eq_some {α : Type} {write : α → Json} {read : Json → Option α}
    (h : ∀ a, read (write a) = some a) (l : List α) : (l.map write).mapM read = some l := by
  induction l with
  | nil => rfl
  | cons a l ih =>
    rw [List.map_cons, List.mapM_cons, h a, ih]
    rfl

open Attributes

namespace PerspectiveElement

theorem ofAttributes?_written (e : PerspectiveElement) :
    ofAttributes? (written e.attributes) = some e := by
  have hid : (written e.attributes).id? = some e.id := id?_written (by simp [attributes])
  have hx : (written e.attributes).text? 1 "vp_x" = some e.vpX :=
    text?_written_optional (by simp [attributes])
  have hy : (written e.attributes).text? 2 "vp_y" = some e.vpY :=
    text?_written_optional (by simp [attributes])
  have hz : (written e.attributes).text? 3 "vp_z" = some e.vpZ :=
    text?_written_optional (by simp [attributes])
  have horigin : (written e.attributes).text? 4 "origin" = some e.origin :=
    text?_written_optional (by simp [attributes])
  rw [ofAttributes?, guard_hasSize]
  simp [hid, hx, hy, hz, horigin]

end PerspectiveElement

namespace SideElement

variable (e : SideElement)

theorem code?_toInt (code : Int64) : code? (.integer code.toInt) = some code := by
  rw [code?, Int64.ofInt_toInt, if_pos rfl]

theorem ofAttributes?_written : ofAttributes? (written e.attributes) = some e := by
  have hcode : (written e.attributes).required? 0 "box3dsidetype" = some (.integer e.code.toInt) :=
    required?_written (by simp [attributes])
  have hd : (written e.attributes).text? 1 "d" = some e.d :=
    text?_written_present (by simp [attributes])
  have hstyle : (written e.attributes).text? 2 "style" = some e.style :=
    text?_written_present (by simp [attributes])
  rw [ofAttributes?, guard_hasSize]
  simp [hcode, code?_toInt, hd, hstyle]

theorem ofJson?_toJson : (Attributes.ofJson? e.toJson >>= ofAttributes?) = some e :=
  e.ofAttributes?_written

end SideElement

namespace BoxElement

variable (e : BoxElement)

theorem sides?_written : sides? (written e.attributes) = some e.sides := by
  have hsides : (written e.attributes).optional? 4 "sides" =
      some (some (.array (e.sides.map SideElement.toJson))) :=
    optional?_written (by simp [attributes])
  rw [sides?, hsides]
  exact mapM_map_eq_some SideElement.ofJson?_toJson e.sides

theorem ofAttributes?_written : ofAttributes? (written e.attributes) = some e := by
  have hid : (written e.attributes).id? = some e.id :=
    id?_written (by simp [attributes])
  have hperspective : (written e.attributes).text? 1 "perspectiveID" = some e.perspective :=
    text?_written_present (by simp [attributes])
  have hnear : (written e.attributes).text? 2 "corner0" = some e.corner0 :=
    text?_written_present (by simp [attributes])
  have hfar : (written e.attributes).text? 3 "corner7" = some e.corner7 :=
    text?_written_present (by simp [attributes])
  rw [ofAttributes?, guard_hasSize]
  simp [hid, hperspective, hnear, hfar, sides?_written]

end BoxElement

namespace Element

-- The type is found again if nothing else is called so.
theorem typed?_typed {type : String} {members : List (String × Json)}
    (h : members.filter (fun m => m.1 == "type") = []) :
    typed? (typed type members) = some (type, written members) := by
  have hothers : (members.map fun (key, value) => (some key, value)).filter
      (fun m => m.1 == some "type") = [] := by
    rw [List.filter_map]
    exact congrArg (List.map _) h
  have hkept : (members.map fun (key, value) => (some key, value)).filter
      (fun m => m.1 != some "type") = members.map fun (key, value) => (some key, value) := by
    rw [List.filter_eq_nil_iff] at hothers
    rw [List.filter_eq_self]
    intro m hm
    simpa using hothers m hm
  rw [typed, Json.record, List.map_cons, typed?, List.filter_cons_of_pos rfl, hothers]
  show some (type, Attributes.named (List.filter _ (_ :: _))) = _
  rw [List.filter_cons_of_neg (by simp), hkept, written]

theorem ofJson?_toJson (e : Element) : ofJson? e.toJson = some e := by
  cases e with
  | perspective e =>
    rw [ofJson?, toJson, typed?_typed (by simp [PerspectiveElement.attributes])]
    show (PerspectiveElement.ofAttributes? _).bind _ = _
    rw [e.ofAttributes?_written]
    rfl
  | box e =>
    rw [ofJson?, toJson, typed?_typed (by simp [BoxElement.attributes])]
    show (BoxElement.ofAttributes? _).bind _ = _
    rw [e.ofAttributes?_written]
    rfl
  | side e =>
    rw [ofJson?, toJson, typed?_typed (by simp [SideElement.attributes])]
    show (SideElement.ofAttributes? _).bind _ = _
    rw [e.ofAttributes?_written]
    rfl
  | other =>
    rw [ofJson?, toJson, typed?_typed rfl]
    rfl

end Element

theorem of_mem_present {key : String} {value : Option String} {m : String × Json}
    (h : m ∈ present key value) (levels : Nat) : m.2.Faithful levels := by
  obtain ⟨s, -, rfl⟩ := List.mem_map.1 h
  exact Json.faithful_text levels s

theorem SideElement.natAbs_code (e : SideElement) : e.code.toInt.natAbs < Nat.pow 2 64 := by
  have hlower := e.code.le_toInt
  have hupper := e.code.toInt_lt
  show e.code.toInt.natAbs < 18446744073709551616
  omega

theorem SideElement.faithful_attributes (e : SideElement) (levels : Nat) :
    ∀ m ∈ e.attributes, m.2.Faithful levels := by
  intro m hm
  rw [attributes, List.mem_append, List.mem_cons] at hm
  rcases hm with (rfl | hm) | hm
  · exact Json.faithful_integer levels e.natAbs_code
  · exact of_mem_present hm levels
  · exact of_mem_present hm levels

theorem PerspectiveElement.faithful_attributes (e : PerspectiveElement) (levels : Nat) :
    ∀ m ∈ e.attributes, m.2.Faithful levels := by
  simp [attributes, Json.faithful_text, Json.faithful_optional]

-- The sides are two levels further down.
theorem BoxElement.faithful_attributes (e : BoxElement) (levels : Nat) :
    ∀ m ∈ e.attributes, m.2.Faithful (levels + 2) := by
  have hsides : (Json.array (e.sides.map SideElement.toJson)).Faithful (levels + 2) := by
    refine Json.faithful_array fun j hj => ?_
    obtain ⟨side, -, rfl⟩ := List.mem_map.1 hj
    exact Json.faithful_record (side.faithful_attributes levels)
  intro m hm
  simp only [attributes, List.mem_append, List.mem_singleton] at hm
  rcases hm with (((rfl | hm) | hm) | hm) | rfl
  · exact Json.faithful_text _ e.id
  · exact of_mem_present hm _
  · exact of_mem_present hm _
  · exact of_mem_present hm _
  · exact hsides

namespace Element

theorem faithful_typed {type : String} {members : List (String × Json)} {levels : Nat}
    (h : ∀ m ∈ members, m.2.Faithful levels) : (typed type members).Faithful (levels + 1) := by
  refine Json.faithful_record fun m hm => ?_
  rcases List.mem_cons.1 hm with rfl | hm
  · exact Json.faithful_text levels type
  · exact h m hm

theorem faithful_toJson (e : Element) (levels : Nat) : e.toJson.Faithful (levels + 3) := by
  cases e with
  | perspective e => exact faithful_typed (e.faithful_attributes _)
  | box e => exact faithful_typed (e.faithful_attributes levels)
  | side e => exact faithful_typed (e.faithful_attributes _)
  | other => exact faithful_typed nofun

end Element

namespace Document

variable (d : Document)

theorem faithful_elements (levels : Nat) :
    (Json.array (d.elements.map Element.toJson)).Faithful (levels + 4) := by
  refine Json.faithful_array fun j hj => ?_
  obtain ⟨e, -, rfl⟩ := List.mem_map.1 hj
  exact e.faithful_toJson levels

theorem plain_toJson : d.toJson.Plain := by
  have hfaithful : d.toJson.Faithful 5 := by
    refine Json.faithful_record fun m hm => ?_
    rw [List.mem_singleton.1 hm]
    exact d.faithful_elements 0
  exact hfaithful.1

theorem elements?_toJson : elements? d.toJson = some (d.elements.map Element.toJson) := by
  have hproper : Json.isProper (depth - 1) (.array (d.elements.map Element.toJson)) = true :=
    (d.faithful_elements (depth - 5)).2
  show ((guard (Json.isProper (depth - 1) (.array (d.elements.map Element.toJson)) = true) :
    Option Unit).bind fun _ => some (d.elements.map Element.toJson)) = _
  rw [hproper]
  rfl

theorem ofJson?_toJson : ofJson? d.toJson = some d := by
  rw [ofJson?, d.elements?_toJson]
  show ((d.elements.map Element.toJson).mapM Element.ofJson? >>= fun es => pure ⟨es⟩) = some d
  rw [mapM_map_eq_some Element.ofJson?_toJson]
  rfl

-- Writing a document and reading it gives back the document.
theorem read_text : read d.text = .ok d := by
  have hread : (some d.toJson >>= ofJson?) = some d := d.ofJson?_toJson
  rw [read, text, Json.ofText?_pretty d.plain_toJson, hread]

end Document

end PerspectiveBox
