import Mathlib.Data.List.Nodup
import Mathlib.Data.List.Perm.Basic
import PerspectiveBox.Box.Edit

namespace PerspectiveBox

variable {K : Type} [Scalar K]

-- The six faces, walked around forward.
def Face.standard : List Face := (List.range Face.count).filterMap Face.ofSlot?

namespace Box

-- A box as it was made and edited, whatever it was linked to.
inductive Made : Box K → Prop where
  | ofCorners (id : String) (corners : Corners K) : Made (.ofCorners id corners)
  | edited {b : Box K} (h : Made b) (e : Edit K) : Made (b.edited e)
  | linked {b : Box K} (h : Made b) (link : Link) : Made { b with link := link }

def faces (b : Box K) : List Face := b.sides.map Side.face

-- The style in every slot, in the order of the sides.
def styles (b : Box K) : List (Nat × Option String) := b.sides.map fun s => (s.slot, s.style)

omit [Scalar K] in
theorem lowered_perm (sides : List (Side K)) (slot : Nat) : (lowered sides slot).Perm sides := by
  rw [lowered]
  cases h : sides.find? fun s => s.slot == slot with
  | none => exact .refl _
  | some s =>
    obtain ⟨hs, above, below, rfl, habove⟩ := List.find?_eq_some_iff_append.1 h
    have herase : (above ++ s :: below).eraseP (fun s => s.slot == slot) = above ++ below := by
      rw [List.eraseP_append_right _ fun t ht => by simpa using habove t ht,
        List.eraseP_cons_of_pos (p := fun t : Side K => t.slot == slot) hs]
    simp only
    rw [herase]
    exact List.perm_middle.symm

omit [Scalar K] in
theorem restacked_perm (sides : List (Side K)) (order : FaceOrder) :
    (restacked sides order).Perm sides := by
  rw [restacked]
  induction order generalizing sides with
  | nil => exact .refl _
  | cons slot order ih => exact (ih (lowered sides slot)).trans (lowered_perm sides slot)

theorem sides_updateOrder_perm (b : Box K) (m : Projection K) (strategy : OrderStrategy) :
    (b.updateOrder m strategy).2.sides.Perm b.sides := by
  simp only [updateOrder]
  split
  · exact .refl _
  · exact restacked_perm b.sides _

theorem styles_redraw (b : Box K) (m : Projection K) : (b.redraw m).styles = b.styles := by
  simp only [styles, redraw, List.map_map]
  rfl

theorem styles_update_perm (b : Box K) (m : Projection K) (strategy : OrderStrategy) :
    (b.update m strategy).styles.Perm b.styles := by
  have h := (sides_updateOrder_perm (b.redraw m) m strategy).map fun s => (s.slot, s.style)
  exact h.trans (.of_eq (styles_redraw b m))

omit [Scalar K] in
theorem styles_setStyle (b : Box K) (slot : Nat) (style : Option String) :
    (b.setStyle slot style).styles =
      b.styles.map fun e => if e.1 = slot then (e.1, style) else e := by
  simp only [styles, setStyle, List.map_map]
  refine List.map_congr_left fun s _ => ?_
  by_cases hs : s.slot = slot
  · simp [hs]
    exact hs
  · simp [hs]

theorem faces_edited_perm (b : Box K) (e : Edit K) : (b.edited e).faces.Perm b.faces := by
  have hupdate (c : Box K) (m : Projection K) (strategy : OrderStrategy) :
      (c.updateOrder m strategy).2.faces.Perm c.faces :=
    (sides_updateOrder_perm c m strategy).map Side.face
  have hredraw (m : Projection K) : (b.redraw m).faces = b.faces := by
    simp only [faces, redraw, List.map_map]
    rfl
  have hchange {f : Side K → Side K} {slot : Nat} (hf : ∀ s, (f s).face = s.face) :
      (b.sides.map fun s => if s.slot = slot then f s else s).map Side.face = b.faces := by
    rw [List.map_map]
    refine List.map_congr_left fun s _ => ?_
    simp only [Function.comp]
    split
    · exact hf s
    · rfl
  cases e with
  | dragCorner =>
    rw [edited, afterDrag_of_corners fun _ _ h => eq_of_dragCorner h]
    exact .refl _
  | dragCenter =>
    rw [edited, afterDrag_of_corners fun _ _ h => eq_of_dragCenter h]
    exact .refl _
  | setStyle slot style => exact .of_eq (hchange fun _ => rfl)
  | redrawSide slot corners map => exact .of_eq (hchange fun _ => rfl)
  | redraw map => exact .of_eq (hredraw map)
  | recomputeOrder map strategy =>
    simp only [edited, recomputeOrder]
    split <;> exact .refl _
  | updateOrder map strategy => exact hupdate b map strategy
  | update map strategy => exact (hupdate (b.redraw map) map strategy).trans (.of_eq (hredraw map))
  | _ => exact .refl _

theorem Made.faces_perm {b : Box K} (h : b.Made) : b.faces.Perm Face.standard := by
  induction h with
  | ofCorners id corners =>
    refine .of_eq ?_
    simp only [faces, Box.ofCorners, List.map_map]
    exact List.map_id _
  | edited _ e ih => exact (faces_edited_perm _ e).trans ih
  | linked _ _ ih => exact ih

-- There is one side in each slot.
theorem Made.slots_perm {b : Box K} (h : b.Made) :
    (b.styles.map Prod.fst).Perm (List.range Face.count) := by
  have hslots : b.styles.map Prod.fst = b.faces.map Face.slot := by
    simp only [styles, faces, List.map_map]
    rfl
  have hstandard : Face.standard.map Face.slot = List.range Face.count := by decide
  rw [hslots, ← hstandard]
  exact h.faces_perm.map Face.slot

theorem Made.nodup_slots {b : Box K} (h : b.Made) : (b.styles.map Prod.fst).Nodup :=
  h.slots_perm.nodup_iff.2 List.nodup_range

theorem Made.exists_mem_styles {b : Box K} (h : b.Made) {slot : Nat} (hslot : slot < Face.count) :
    ∃ style, (slot, style) ∈ b.styles := by
  have hmem : slot ∈ b.styles.map Prod.fst := h.slots_perm.mem_iff.2 (List.mem_range.2 hslot)
  obtain ⟨e, he, rfl⟩ := List.mem_map.1 hmem
  exact ⟨e.2, he⟩

-- The style of a slot is that of its side.
theorem Made.side?_of_mem_styles {b : Box K} (h : b.Made) {slot : Nat} {style : Option String}
    (hmem : (slot, style) ∈ b.styles) : (b.side? slot).map Side.style = some style := by
  obtain ⟨s, hs, he⟩ := List.mem_map.1 hmem
  cases hfind : b.side? slot with
  | none =>
    have hnone := List.find?_eq_none.1 hfind s hs
    rw [Prod.mk.injEq] at he
    exact absurd (beq_iff_eq.2 he.1) hnone
  | some t =>
    have ht := List.mem_of_find?_eq_some hfind
    have htslot : t.slot = slot := by simpa using List.find?_some hfind
    have hmem' : (slot, t.style) ∈ b.styles := List.mem_map.2 ⟨t, ht, by rw [htslot]⟩
    have hpair := List.inj_on_of_nodup_map h.nodup_slots hmem' hmem rfl
    rw [Option.map_some, (Prod.mk.inj hpair).2]

theorem mem_styles_setStyle_same {b : Box K} (h : b.Made) {slot : Nat} (hslot : slot < Face.count)
    (style : Option String) : (slot, style) ∈ (b.setStyle slot style).styles := by
  obtain ⟨old, hold⟩ := h.exists_mem_styles hslot
  rw [styles_setStyle]
  exact List.mem_map.2 ⟨(slot, old), hold, if_pos rfl⟩

omit [Scalar K] in
theorem mem_styles_setStyle_other {b : Box K} {e : Nat × Option String} (he : e ∈ b.styles)
    {slot : Nat} (hslot : e.1 ≠ slot) (style : Option String) :
    e ∈ (b.setStyle slot style).styles := by
  rw [styles_setStyle]
  exact List.mem_map.2 ⟨e, he, if_neg hslot⟩

-- Gives the styles of some sides to the sides of a box.
def restyled (b : Box K) (sides : List (Side K)) : Box K :=
  sides.foldl (fun b s => b.setStyle s.slot s.style) b

omit [Scalar K] in
theorem mem_styles_restyled_other {b : Box K} {e : Nat × Option String} (he : e ∈ b.styles)
    {sides : List (Side K)} (hslot : e.1 ∉ sides.map Side.slot) :
    e ∈ (b.restyled sides).styles := by
  induction sides generalizing b with
  | nil => exact he
  | cons s sides ih =>
    rw [List.map_cons, List.mem_cons, not_or] at hslot
    exact ih (mem_styles_setStyle_other he hslot.1 s.style) hslot.2

-- No side takes the style from another that has a slot of its own.
theorem mem_styles_restyled {b : Box K} (h : b.Made) {sides : List (Side K)}
    (hnodup : (sides.map Side.slot).Nodup) {s : Side K} (hs : s ∈ sides) :
    (s.slot, s.style) ∈ (b.restyled sides).styles := by
  induction sides generalizing b with
  | nil => cases hs
  | cons t sides ih =>
    obtain ⟨hout, hrest⟩ := List.nodup_cons.1 hnodup
    rcases List.mem_cons.1 hs with rfl | hs
    · exact mem_styles_restyled_other (mem_styles_setStyle_same h s.face.slot_lt s.style) hout
    · exact ih (.edited h (.setStyle t.slot t.style)) hrest hs

-- What displaying a box anew leaves alone.
structure Redisplays (f : Box K → Box K) : Prop where
  id : ∀ b, (f b).id = b.id
  corners : ∀ b, (f b).corners = b.corners
  link : ∀ b, (f b).link = b.link
  styles : ∀ b, (f b).styles.Perm b.styles

omit [Scalar K] in
theorem Redisplays.refl : Redisplays fun b : Box K => b :=
  ⟨fun _ => rfl, fun _ => rfl, fun _ => rfl, fun _ => .refl _⟩

omit [Scalar K] in
theorem Redisplays.trans {f g : Box K → Box K} (hf : Redisplays f) (hg : Redisplays g) :
    Redisplays fun b => g (f b) where
  id b := (hg.id _).trans (hf.id b)
  corners b := (hg.corners _).trans (hf.corners b)
  link b := (hg.link _).trans (hf.link b)
  styles b := (hg.styles _).trans (hf.styles b)

theorem redisplays_redraw (m : Projection K) : Redisplays fun b : Box K => b.redraw m :=
  ⟨fun _ => rfl, fun _ => rfl, fun _ => rfl, fun b => .of_eq (styles_redraw b m)⟩

theorem redisplays_update (m : Projection K) (strategy : OrderStrategy) :
    Redisplays fun b : Box K => b.update m strategy where
  id b := (edited_link b (.update m strategy)).1
  corners b := by
    simp only [update, updateOrder]
    split <;> rfl
  link b := (edited_link b (.update m strategy)).2
  styles b := styles_update_perm b m strategy

end Box

end PerspectiveBox
