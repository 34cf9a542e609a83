import PerspectiveBox.Proofs.Number.Double
import PerspectiveBox.Proofs.Projective.Grammar
import PerspectiveBox.Proofs.Scene.Loading

namespace PerspectiveBox

section Points

variable {K : Type} [Scalar K]

-- Divided through by its weight, a point with a proper weight has the weight one.
theorem HPoint3.normalized_normalized {p : HPoint3 K} (hw : (p.w / p.w == 1) = true) :
    p.normalized.normalized = p.normalized := by
  have hnone {q : HPoint3 K} (h : q.normalize? = none) : q.normalized = q := by
    rw [normalized, h, Option.getD_none]
  by_cases hsmall : Scalar.abs p.w < Scalar.epsilon
  · have hp := hnone (if_pos hsmall)
    rw [hp, hp]
  · by_cases hone : (p.w == 1) = true
    · have hp : p.normalized = p := by
        rw [normalized, normalize?, if_neg hsmall, if_pos hone, Option.getD_some]
      rw [hp, hp]
    · have hp : p.normalized = ⟨p.x / p.w, p.y / p.w, p.z / p.w, p.w / p.w⟩ := by
        rw [normalized, normalize?, if_neg hsmall, if_neg hone, Option.getD_some]
      rw [hp, normalized, normalize?, if_pos hw]
      split <;> rfl

-- A corner as it is loaded: its coordinates for the weight one, or unset.
structure HPoint3.RestoredFrom (q p : HPoint3 K) : Prop where
  set : p.isFinite = true → p.normalized.isFinite = true → q = p.normalized
  unset : p.isFinite = false → q = .nowhere

variable [Numeric K]

theorem BoxElement.corner_ofCorner_of_not_finite {p : HPoint3 K} (h : p.isFinite = false) :
    (corner (ofCorner p) : HPoint3 K) = .nowhere := by
  rw [ofCorner, h]
  rfl

theorem PerspectiveElement.projection?_ofPerspective (p : Perspective Float) :
    (ofPerspective p).projection? = some p.map := by
  have hcolumn (q : HPoint2 Float) : column? (some q.text) = some q :=
    congrArg Except.toOption (HPoint2.ofText_text q.readsBack)
  have hx : column? (ofPerspective p).vpX = some p.map.vpX := hcolumn p.map.vpX
  have hy : column? (ofPerspective p).vpY = some p.map.vpY := hcolumn p.map.vpY
  have hz : column? (ofPerspective p).vpZ = some p.map.vpZ := hcolumn p.map.vpZ
  have hw : column? (ofPerspective p).origin = some p.map.origin := hcolumn p.map.origin
  rw [projection?, hx, hy, hz, hw]
  rfl

theorem BoxElement.corner_ofCorner {p : HPoint3 Float} (hfinite : p.isFinite = true)
    (hnormalized : p.normalized.isFinite = true) : corner (ofCorner p) = p.normalized := by
  have hweight : (p.normalized.w != 0) = true := ((Bool.and_eq_true _ _).mp hnormalized).1
  have hbeq (q : HPoint3 Float) : (q == ⟨0, 0, 0, 0⟩) =
      (q.x == 0 && (q.y == 0 && (q.z == 0 && q.w == 0))) := rfl
  have hset : (p.normalized == ⟨0, 0, 0, 0⟩) = false := by
    rw [bne, Bool.not_eq_true'] at hweight
    rw [hbeq, hweight, Bool.and_false, Bool.and_false, Bool.and_false]
  rw [ofCorner, if_pos hfinite, corner, Option.map_some, HPoint3.ofText_text p.normalized.readsBack]
  simp only [hset, Bool.false_eq_true, if_false]

end Points

section Sides

variable {K : Type} [Scalar K] [Numeric K]

omit [Scalar K] in
theorem BoxElement.styled_ofSide (b : Box K) (s : Side K) :
    styled b (ofSide s) = b.setStyle s.slot s.style := by
  have hcode (f : Face) : (Int64.ofNat f.code).toInt = f.code := by
    rcases f with ⟨_ | _, _ | _, _ | _⟩ <;> rfl
  rw [styled, ofSide, hcode, Face.ofCode?_code]
  rfl

theorem BoxElement.toBox_ofBox (b : Box K) (href : Option String) :
    ((ofBox b href).toBox : Box K) = (Box.ofCorners b.id
      ⟨corner (ofCorner b.corners.near), corner (ofCorner b.corners.far)⟩).restyled b.sides := by
  rw [toBox, ofBox, List.foldl_map]
  simp only [styled_ofSide]
  rfl

-- Every slot of a loaded box has the style that it had when the box was saved.
theorem BoxElement.style_toBox_ofBox {b x : Box K} (hb : b.Made) (hx : x.Made)
    {href : Option String} (h : x.styles.Perm ((ofBox b href).toBox : Box K).styles) {slot : Nat}
    (hslot : slot < Face.count) :
    ∃ s t, b.side? slot = some s ∧ x.side? slot = some t ∧ t.style = s.style := by
  obtain ⟨style, hstyle⟩ := hb.exists_mem_styles hslot
  obtain ⟨s, hs, he⟩ := List.mem_map.1 hstyle
  obtain ⟨rfl, rfl⟩ := Prod.mk.inj he
  have hnodup : (b.sides.map Side.slot).Nodup := by
    have hslots := hb.nodup_slots
    rwa [Box.styles, List.map_map] at hslots
  have hloaded : (s.slot, s.style) ∈ x.styles := by
    rw [h.mem_iff, toBox_ofBox]
    exact Box.mem_styles_restyled (.ofCorners _ _) hnodup hs
  obtain ⟨t, ht, htstyle⟩ := Option.map_eq_some_iff.1 (hb.side?_of_mem_styles hstyle)
  obtain ⟨u, hu, hustyle⟩ := Option.map_eq_some_iff.1 (hx.side?_of_mem_styles hloaded)
  exact ⟨t, u, ht, hu, hustyle.trans htstyle.symm⟩

end Sides

section Boxes

variable {K : Type} [Scalar K]

-- A box as it is saved: its corners are normalized if it has both.
def Box.settled (b : Box K) : Box K := if b.corners.areFinite then b.saveCorners else b

theorem Box.settled_eq (b : Box K) :
    b.settled.id = b.id ∧ b.settled.sides = b.sides ∧ b.settled.link = b.link := by
  rw [settled]
  split <;> exact ⟨rfl, rfl, rfl⟩

theorem Box.Made.settled {b : Box K} (h : b.Made) : b.settled.Made := by
  rw [Box.settled]
  split
  · exact .edited h .saveCorners
  · exact h

-- A corner as it is saved: itself or, if it is finite, normalized.
def HPoint3.SettledFrom (q p : HPoint3 K) : Prop :=
  q = p ∨ p.isFinite = true ∧ q = p.normalized

theorem Box.settled_corners (b : Box K) : b.settled.corners.near.SettledFrom b.corners.near ∧
    b.settled.corners.far.SettledFrom b.corners.far := by
  rw [settled]
  split
  · next h =>
    obtain ⟨hnear, hfar⟩ := (Bool.and_eq_true _ _).mp h
    exact ⟨.inr ⟨hnear, rfl⟩, .inr ⟨hfar, rfl⟩⟩
  · exact ⟨.inl rfl, .inl rfl⟩

end Boxes

theorem BoxElement.corner_restoredFrom {p q : HPoint3 Float} (hq : q.SettledFrom p) :
    (corner (ofCorner q)).RestoredFrom p := by
  refine ⟨fun hfinite hnormalized => ?_, fun hnot => ?_⟩
  · rcases hq with rfl | ⟨-, rfl⟩
    · exact corner_ofCorner hfinite hnormalized
    · -- What was normalized for saving is normalized once more for writing.
      obtain ⟨hw, hcoords⟩ := (Bool.and_eq_true _ _).mp hfinite
      have hweight := Double.div_self_beq_one ((Bool.and_eq_true _ _).mp hcoords).2 hw
      have htwice := HPoint3.normalized_normalized hweight
      have hload := corner_ofCorner hnormalized (by rwa [htwice])
      rwa [htwice] at hload
  · rcases hq with rfl | ⟨hfinite, -⟩
    · exact corner_ofCorner_of_not_finite hnot
    · rw [hnot] at hfinite
      cases hfinite

namespace Scene

section Document

variable {K : Type} [Scalar K] [Numeric K]

theorem perspectives_write (s : Scene K) :
    s.write.1.perspectives = s.perspectives.values.map PerspectiveElement.ofPerspective := by
  rw [write, toDocument, Document.perspectives, List.filterMap_append, List.filterMap_map,
    List.filterMap_map]
  have hboxes : (s.saveBoxes.boxes.values.filterMap fun _ => (none : Option PerspectiveElement)) =
      [] := List.filterMap_eq_nil_iff.2 fun _ _ => rfl
  have hperspectives := List.filterMap_eq_map (f := PerspectiveElement.ofPerspective (K := K))
  exact (congrArg₂ _ (congrFun hperspectives _) hboxes).trans (List.append_nil _)

theorem boxes_write (s : Scene K) :
    s.write.1.boxes = s.boxes.values.map fun b => .ofBox b.settled (s.hrefForWrite b) := by
  rw [write, toDocument, Document.boxes, List.filterMap_append, List.filterMap_map,
    List.filterMap_map]
  have hperspectives : (s.saveBoxes.perspectives.values.filterMap fun _ =>
      (none : Option BoxElement)) = [] := List.filterMap_eq_nil_iff.2 fun _ _ => rfl
  have hvalues : s.saveBoxes.boxes.values = s.boxes.values.map Box.settled :=
    SlotTable.values_modifyAll_keys s.boxes Box.settled
  have hboxes := List.filterMap_eq_map (f := fun b : Box K => BoxElement.ofBox b (s.hrefForWrite b))
  have hlink (b : Box K) : s.hrefForWrite b.settled = s.hrefForWrite b := by
    rw [hrefForWrite, hrefForWrite, b.settled_eq.2.2]
  refine (congrArg₂ _ hperspectives (congrFun hboxes _)).trans ?_
  rw [List.nil_append, hvalues, List.map_map]
  exact List.map_congr_left fun b _ => by simp only [Function.comp, hlink]

-- What a box `x` of the scene `t` has of a box `b` of the scene `s`.
structure BoxRestored (s t : Scene K) (b x : Box K) : Prop where
  id : x.id = b.id
  styles : ∀ slot < Face.count, ∃ u v, b.side? slot = some u ∧ x.side? slot = some v ∧
    v.style = u.style
  attached : ∀ p, b.link.target = some p → ∃ q p' q', s.perspectives.get? p = some q ∧
    x.link.target = some p' ∧ t.perspectives.get? p' = some q' ∧ q'.id = q.id
  near : x.corners.near.RestoredFrom b.corners.near
  far : x.corners.far.RestoredFrom b.corners.far

-- The same perspectives and the same boxes, each in their order.
structure Restored (s t : Scene K) : Prop where
  perspectives : (t.perspectives.values.map fun p => (p.id, p.map)) =
    s.perspectives.values.map fun p => (p.id, p.map)
  boxes : List.Forall₂ (BoxRestored s t) s.boxes.values t.boxes.values

omit [Scalar K] [Numeric K] in
-- In the scene that is loaded, a perspective of this id is found.
theorem target_linkFor {s : Scene K} {href id : String} (hread : Reference.read href = .ok id)
    (hid : id ∈ s.perspectives.values.map Perspective.id) :
    ∃ p, (s.linkFor (some href)).target = some p ∧ s.findPerspective id = some p := by
  have hfor : s.linkFor (some href) = ⟨href, s.findPerspective id⟩ := by
    simp only [linkFor, hread]
  rw [hfor]
  cases hfind : s.findPerspective id with
  | some p => exact ⟨p, rfl, rfl⟩
  | none =>
    obtain ⟨q, hq, hqid⟩ := List.mem_map.1 hid
    exact absurd hqid ((findPerspective_eq_none_iff s id).1 hfind q hq)

end Document

section Reloading

-- A scene `s`, the perspectives `s'` loaded from its document, and the scene `t` loaded from it.
variable {s s' t : Scene Float} (hs : s.Reachable)
  (hnames : ∀ p ∈ s.perspectives.values, Reference.IsName p.id)
  (hids : s'.perspectives.values.map Perspective.id = s.perspectives.values.map Perspective.id)
  (hviews : t.views = s'.views)

include hs hnames hids hviews

theorem LoadedFrom.attached {b x : Box Float} (hb : b ∈ s.boxes.values)
    (h : LoadedFrom s' (.ofBox b.settled (s.hrefForWrite b)) x) {p : PerspectiveKey}
    (hp : b.link.target = some p) : ∃ q p' q', s.perspectives.get? p = some q ∧
      x.link.target = some p' ∧ t.perspectives.get? p' = some q' ∧ q'.id = q.id := by
  obtain ⟨key, hkey⟩ := (SlotTable.mem_values_iff _ b).1 hb
  obtain ⟨q, hq, -⟩ := hs.linked.attached hkey hp
  have hqmem : q ∈ s.perspectives.values := (SlotTable.mem_values_iff _ q).2 ⟨p, hq⟩
  obtain ⟨href, hhref, hread⟩ := hs.href_of_attached hkey hp hq (hnames q hqmem)
  have hid : q.id ∈ s'.perspectives.values.map Perspective.id := by
    rw [hids]
    exact List.mem_map_of_mem hqmem
  obtain ⟨p', htarget, hfind⟩ := target_linkFor hread hid
  rw [← findPerspective_congr hviews] at hfind
  obtain ⟨q', hq', hqid⟩ := get?_of_findPerspective hfind
  have hwrite : s.hrefForWrite b = some href := by
    rw [hrefForWrite, hhref]
    rfl
  refine ⟨q, p', q', hq, ?_, hq', hqid⟩
  rw [h.link, ← htarget, ← hwrite]
  rfl

theorem LoadedFrom.boxRestored (ht : t.Reachable) {b x : Box Float}
    (hb : b ∈ s.boxes.values) (hx : x ∈ t.boxes.values)
    (h : LoadedFrom s' (.ofBox b.settled (s.hrefForWrite b)) x) : BoxRestored s t b x := by
  obtain ⟨hid, hsides, -⟩ := b.settled_eq
  obtain ⟨hnear, hfar⟩ := b.settled_corners
  obtain ⟨key, hkey⟩ := (SlotTable.mem_values_iff _ b).1 hb
  obtain ⟨key', hkey'⟩ := (SlotTable.mem_values_iff _ x).1 hx
  refine ⟨h.id.trans hid, fun slot hslot => ?_, fun p hp => h.attached hs hnames hids hviews hb hp,
    ?_, ?_⟩
  · have hside : b.settled.side? slot = b.side? slot := by
      rw [Box.side?, hsides]
      rfl
    have hstyle := BoxElement.style_toBox_ofBox (hs.boxesMade _ _ hkey).settled
      (ht.boxesMade _ _ hkey') h.styles hslot
    rwa [hside] at hstyle
  · rw [h.corners]
    exact BoxElement.corner_restoredFrom hnear
  · rw [h.corners]
    exact BoxElement.corner_restoredFrom hfar

end Reloading

-- Whatever was done to a scene before, nothing of it is lost when it is saved and loaded again.
theorem Reachable.ofDocument_write {s : Scene Float} (h : s.Reachable)
    (hnodup : (s.perspectives.values.map Perspective.id).Nodup)
    (hnames : ∀ p ∈ s.perspectives.values, Reference.IsName p.id)
    {settings : Settings Float} (hsettings : settings.validate = .ok ()) :
    ∃ t, Scene.ofDocument s.write.1 settings = .ok t ∧ Restored s t := by
  obtain ⟨t, ht, hloaded⟩ := ofDocument_eq hsettings s.write.1
  rw [perspectives_write, boxes_write] at hloaded
  have hvalues := values_loadPerspectives (s := ofSettings settings) .empty
    (fun p _ => PerspectiveElement.projection?_ofPerspective p) hnodup
    fun p _ => rfl
  generalize hs' : (s.perspectives.values.map PerspectiveElement.ofPerspective).foldl
    loadPerspective (ofSettings settings) = s' at hloaded hvalues
  have hsame {β : Type} (part : String → Projection Float → β) :
      (s'.perspectives.values.map fun p => part p.id p.map) =
        s.perspectives.values.map fun p => part p.id p.map := by
    rw [hvalues, List.map_append, List.map_map]
    rfl
  obtain ⟨bs, hbs, hboxes⟩ := hloaded.boxes
  have htvalues : t.boxes.values = bs := by
    rw [hbs, ← hs', boxes_loadPerspectives]
    rfl
  refine ⟨t, ht, ?_, ?_⟩
  · rw [← map_snd_views, hloaded.views, map_snd_views]
    exact hsame Prod.mk
  · rw [← htvalues, List.forall₂_map_left_iff, List.forall₂_iff_zip] at hboxes
    refine List.forall₂_iff_zip.2 ⟨hboxes.1, fun {b x} hmem => ?_⟩
    obtain ⟨hb, hx⟩ := List.of_mem_zip hmem
    exact (hboxes.2 hmem).boxRestored h hnames (hsame fun id _ => id) hloaded.views
      (.ofDocument ht) hb hx

-- The sketch with one corner of another weight, and one unset.
def unfinished : Scene Float :=
  let s := sketch.after (Command.editBox ⟨1, 1⟩ (.setNear ⟨4, 2, 0, 2⟩)).run
  s.after (Command.editBox ⟨2, 1⟩ (.setFar .nowhere)).run

theorem ofDocument_write_unfinished : unfinished.Reachable ∧
    ∃ t, Scene.ofDocument unfinished.write.1 .default = .ok t ∧ Restored unfinished t := by
  have hweight := reachable_sketch.run (.editBox ⟨1, 1⟩ (.setNear ⟨4, 2, 0, 2⟩))
  have hreachable : unfinished.Reachable := hweight.run (.editBox ⟨2, 1⟩ (.setFar .nowhere))
  have hids : unfinished.perspectives.values.map Perspective.id = ["perspective1"] := rfl
  have hnames : ∀ p ∈ unfinished.perspectives.values, Reference.IsName p.id := by
    intro p hp
    have hmem := List.mem_map_of_mem (f := Perspective.id) hp
    rw [hids, List.mem_singleton] at hmem
    have hplain : "perspective1".toList.all (fun c => !Text.isBlank c) = true := by decide
    rw [hmem]
    exact ⟨by decide, fun c hc => by simpa using List.all_eq_true.1 hplain c hc⟩
  exact ⟨hreachable, hreachable.ofDocument_write (by rw [hids]; decide) hnames rfl⟩

end Scene

end PerspectiveBox
