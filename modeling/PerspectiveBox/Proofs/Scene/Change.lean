import Mathlib.Logic.Relation
import PerspectiveBox.Proofs.Box.Made
import PerspectiveBox.Proofs.Scene.FreshId

namespace PerspectiveBox

variable {K : Type} [Scalar K]

namespace Perspective

omit [Scalar K] in
theorem addBox_id (p : Perspective K) (key : BoxKey) : (p.addBox key).id = p.id := by
  rw [addBox]
  split <;> rfl

omit [Scalar K] in
theorem addBox_map (p : Perspective K) (key : BoxKey) : (p.addBox key).map = p.map := by
  rw [addBox]
  split <;> rfl

end Perspective

namespace Scene

-- The links that a box can be given. A resolved one is to the first perspective of its id.
inductive LinkIn (s : Scene K) : Link → Prop where
  | none : LinkIn s .none
  | attached {key : PerspectiveKey} {p : Perspective K} (h : s.perspectives.get? key = some p) :
      LinkIn s ⟨Reference.write p.id, key⟩
  | resolved {href id : String} (h : Reference.read href = .ok id) :
      LinkIn s ⟨href, s.findPerspective id⟩

-- The box of a key gets another link, and is listed accordingly.
def linked (s : Scene K) (key : BoxKey) (old : Option PerspectiveKey) (link : Link) : Scene K :=
  (s.modifyBox key fun b => { b with link := link }).relist key ⟨old, link.target⟩

omit [Scalar K] in
theorem modifyTarget_eq (s : Scene K) (target : Option PerspectiveKey)
    (f : Perspective K → Perspective K) :
    s.modifyTarget target f =
      { s with perspectives := (s.modifyTarget target f).perspectives } := by
  cases target <;> rfl

omit [Scalar K] in
-- Listing a box elsewhere changes perspectives only.
theorem relist_eq (s : Scene K) (key : BoxKey) (change : LinkChange) :
    s.relist key change = { s with perspectives := (s.relist key change).perspectives } := by
  rw [relist]
  split
  · rw [modifyTarget_eq, modifyTarget_eq s]
  · rfl

omit [Scalar K] in
theorem linked_boxes (s : Scene K) (key : BoxKey) (old : Option PerspectiveKey) (link : Link) :
    (s.linked key old link).boxes = s.boxes.modify key fun b => { b with link := link } := by
  rw [linked, relist_eq]
  rfl

omit [Scalar K] in
theorem settings_linked (s : Scene K) (key : BoxKey) (old : Option PerspectiveKey) (link : Link) :
    (s.linked key old link).settings = s.settings := by
  rw [linked, relist_eq]
  rfl

omit [Scalar K] in
theorem get?_linked {s : Scene K} {key : BoxKey} {b : Box K} (hb : s.boxes.get? key = some b)
    (old : Option PerspectiveKey) (link : Link) :
    (s.linked key old link).boxes.get? key = some { b with link := link } := by
  rw [linked_boxes, SlotTable.get?_modify, if_pos rfl, hb]
  rfl

omit [Scalar K] in
theorem setLink_run_of_some {s : Scene K} {key : BoxKey} {b : Box K} {link : Link}
    (h : s.boxes.get? key = some b) : (setLink key link).run s =
      .ok ⟨b.link.target, link.target⟩ (s.linked key b.link.target link) := by
  rw [setLink_run, h]
  rfl

omit [Scalar K] in
theorem setLink_run_of_none {s : Scene K} {key : BoxKey} {link : Link}
    (h : s.boxes.get? key = none) : (setLink key link).run s = .error (.unknownBox key) s := by
  rw [setLink_run, h]

omit [Scalar K] in
-- A box is in no perspective any more when it is taken out.
theorem removeBox_run {s : Scene K} {key : BoxKey} {b : Box K} (hb : s.boxes.get? key = some b) :
    (removeBox key).run s = .ok { b with link := .none }
      { s.linked key b.link.target .none with
        boxes := (s.linked key b.link.target .none).boxes.erase key } := by
  rw [removeBox, detach, EStateM.run_bind, setLink_run_of_some hb]
  simp only
  rw [EStateM.run_bind, box_run, get?_linked hb]
  rfl

-- Whatever a command does, also one that fails halfway, is a chain of these, unless it puts in a
-- given perspective under an id that another one has.
inductive Change (s : Scene K) : Scene K → Prop where
  | settings {settings : Settings K} (h : settings.validate = .ok ()) :
      Change s { s with settings := settings }
  | freshId (stem : String) : Change s (s.freshId stem).2
  | current {key : PerspectiveKey} {p : Perspective K} (h : s.perspectives.get? key = some p) :
      Change s { s with current := some key }
  | insertPerspective {p : Perspective K} (h : s.findPerspective p.id = none) :
      Change s (s.insertPerspective p).2
  | removePerspective {key : PerspectiveKey} {p : Perspective K}
      (h : s.perspectives.get? key = some p) (hempty : p.boxes = []) :
      Change s { s with
        perspectives := s.perspectives.erase key
        current := if s.current = some key then none else s.current }
  | removeUnused : Change s s.removeUnusedPerspectives.2
  | map (key : PerspectiveKey) (f : Projection K → Projection K) :
      Change s (s.modifyPerspective key fun p => { p with map := f p.map })
  | insertBox {b : Box K} (h : b.Made) : Change s (s.insertBox b).2
  | removeBox {key : BoxKey} {b : Box K} (h : s.boxes.get? key = some b)
      (hlink : b.link.target = none) : Change s { s with boxes := s.boxes.erase key }
  | edit (key : BoxKey) (e : Box.Edit K) : Change s (s.modifyBox key fun b => b.edited e)
  | link {key : BoxKey} {b : Box K} {link : Link} (h : s.boxes.get? key = some b)
      (hlink : LinkIn s link) : Change s (s.linked key b.link.target link)

abbrev Changes : Scene K → Scene K → Prop := Relation.ReflTransGen Change

-- What a box of the changed scene was before.
inductive BoxBefore (s : Scene K) (key : BoxKey) : Box K → Prop where
  | new {b : Box K} (h : b.Made) : BoxBefore s key { b with link := .none }
  | same {b : Box K} (h : s.boxes.get? key = some b) : BoxBefore s key b
  | edited {b : Box K} (h : s.boxes.get? key = some b) (e : Box.Edit K) :
      BoxBefore s key (b.edited e)
  | linked {b : Box K} {link : Link} (h : s.boxes.get? key = some b) (hlink : LinkIn s link) :
      BoxBefore s key { b with link := link }

theorem Change.boxBefore {s t : Scene K} (h : Change s t) {key : BoxKey} {b : Box K}
    (hb : t.boxes.get? key = some b) : BoxBefore s key b := by
  cases h with
  | insertBox hmade =>
    rw [Scene.insertBox, SlotTable.get?_insert] at hb
    split at hb
    · cases hb
      exact .new hmade
    · exact .same hb
  | removeBox _ _ =>
    rw [SlotTable.get?_erase] at hb
    split at hb
    · cases hb
    · exact .same hb
  | edit _ e =>
    rw [modifyBox, SlotTable.get?_modify] at hb
    split at hb
    · next hkey =>
      obtain ⟨x, hx, rfl⟩ := Option.map_eq_some_iff.1 hb
      exact .edited (hkey ▸ hx) e
    · exact .same hb
  | link _ hlink =>
    rw [linked_boxes, SlotTable.get?_modify] at hb
    split at hb
    · next hkey =>
      obtain ⟨x, hx, rfl⟩ := Option.map_eq_some_iff.1 hb
      exact .linked (hkey ▸ hx) hlink
    · exact .same hb
  | _ => exact .same hb

omit [Scalar K] in
theorem get?_modifyTarget (s : Scene K) (target : Option PerspectiveKey)
    (f : Perspective K → Perspective K) (p : PerspectiveKey) :
    (s.modifyTarget target f).perspectives.get? p =
      (s.perspectives.get? p).map fun q => if target = some p then f q else q := by
  cases target with
  | none => simp [modifyTarget]
  | some t =>
    rw [modifyTarget, modifyPerspective, SlotTable.get?_modify]
    by_cases ht : p = t
    · simp [ht]
    · have ht' : ¬ t = p := fun h => ht h.symm
      simp [ht, ht']

omit [Scalar K] in
theorem id_linked (s : Scene K) (key : BoxKey) (old : Option PerspectiveKey) (link : Link)
    (p : PerspectiveKey) : ((s.linked key old link).perspectives.get? p).map Perspective.id =
      (s.perspectives.get? p).map Perspective.id := by
  rw [linked, relist]
  split
  · rw [get?_modifyTarget, get?_modifyTarget, Option.map_map, Option.map_map]
    refine congrArg (fun f => (s.perspectives.get? p).map f) (funext fun q => ?_)
    have hremove : (if old = some p then q.removeBox key else q).id = q.id := by
      split <;> rfl
    simp only [Function.comp]
    split
    · rw [Perspective.addBox_id, hremove]
    · exact hremove
  · rfl

omit [Scalar K] in
-- A perspective that was there before one was put in is still there.
theorem get?_insertPerspective_of_some {s : Scene K} {key : PerspectiveKey} {q : Perspective K}
    (h : s.perspectives.get? key = some q) (p : Perspective K) :
    (s.insertPerspective p).2.perspectives.get? key = some q := by
  rw [insertPerspective, SlotTable.get?_insert, if_neg, h]
  rintro rfl
  rw [SlotTable.get?_insert_key] at h
  cases h

-- Unless one is put in, every perspective was there before, under its id.
theorem Change.perspectiveBefore {s t : Scene K} (h : Change s t) :
    (∃ p, s.findPerspective p.id = none ∧ t = (s.insertPerspective p).2) ∨
      ∀ key q, t.perspectives.get? key = some q →
        ∃ p, s.perspectives.get? key = some p ∧ q.id = p.id := by
  cases h with
  | insertPerspective hnew => exact .inl ⟨_, hnew, rfl⟩
  | removePerspective _ _ =>
    refine .inr fun key q hq => ?_
    rw [SlotTable.get?_erase] at hq
    split at hq
    · cases hq
    · exact ⟨q, hq, rfl⟩
  | removeUnused =>
    refine .inr fun key q hq => ?_
    rw [removeUnusedPerspectives, SlotTable.get?_retain] at hq
    exact ⟨q, (Option.filter_eq_some_iff.1 hq).1, rfl⟩
  | map other f =>
    refine .inr fun key q hq => ?_
    rw [modifyPerspective, SlotTable.get?_modify] at hq
    split at hq
    · next hkey =>
      obtain ⟨p, hp, rfl⟩ := Option.map_eq_some_iff.1 hq
      exact ⟨p, hkey ▸ hp, rfl⟩
    · exact ⟨q, hq, rfl⟩
  | @link other b link _ _ =>
    refine .inr fun key q hq => ?_
    have hids := id_linked s other b.link.target link key
    rw [hq] at hids
    obtain ⟨p, hp, hid⟩ := Option.map_eq_some_iff.1 hids.symm
    exact ⟨p, hp, hid.symm⟩
  | _ => exact .inr fun key q hq => ⟨q, hq, rfl⟩

-- A perspective keeps its id.
theorem Change.id_eq {s t : Scene K} (h : Change s t) {key : PerspectiveKey} {p q : Perspective K}
    (hp : s.perspectives.get? key = some p) (hq : t.perspectives.get? key = some q) :
    q.id = p.id := by
  rcases h.perspectiveBefore with ⟨r, -, rfl⟩ | hbefore
  · rw [get?_insertPerspective_of_some hp, Option.some.injEq] at hq
    rw [hq]
  · obtain ⟨p', hp', hid⟩ := hbefore key q hq
    rw [hp, Option.some.injEq] at hp'
    rw [hid, hp']

variable {α β : Type}

theorem Changes.bind {s : Scene K} {m : SceneM K α} {f : α → SceneM K β}
    (hm : Changes s (s.after m)) (hf : ∀ a t, Changes t (t.after (f a))) :
    Changes s (s.after (m >>= f)) := by
  rw [after_bind]
  cases h : m.run s with
  | ok a t =>
    rw [after_of_run_ok h] at hm
    exact hm.trans (hf a t)
  | error e t =>
    rw [after_of_run_error h] at hm
    exact hm

theorem Changes.forM {f : α → SceneM K PUnit} (hf : ∀ a s, Changes s (s.after (f a)))
    (l : List α) (s : Scene K) : Changes s (s.after (l.forM f)) := by
  induction l generalizing s with
  | nil => exact .refl
  | cons a l ih => exact Changes.bind (hf a s) fun _ => ih

theorem Changes.mapM {f : α → SceneM K β} (hf : ∀ a s, Changes s (s.after (f a)))
    (l : List α) (s : Scene K) : Changes s (s.after (l.mapM f)) := by
  induction l generalizing s with
  | nil => exact .refl
  | cons a l ih =>
    rw [List.mapM_cons]
    exact Changes.bind (hf a s) fun _ t => Changes.bind (ih t) fun _ _ => .refl

theorem Changes.modifyBoxes {f : Box K → Box K}
    (hf : ∀ (s : Scene K) key, Changes s (s.modifyBox key f)) (keys : List BoxKey)
    (s : Scene K) : Changes s (s.modifyBoxes keys f) := by
  induction keys generalizing s with
  | nil => exact .refl
  | cons key keys ih => exact (hf s key).trans (ih (s.modifyBox key f))

theorem changes_setSettings (s : Scene K) (settings : Settings K) :
    Changes s (s.after (setSettings settings)) := by
  have hrun := setSettings_run settings s
  cases h : settings.validate with
  | error e =>
    rw [h] at hrun
    rw [after_of_run_error hrun]
  | ok u =>
    rw [h] at hrun
    rw [after_of_run_ok hrun]
    exact .single (.settings h)

theorem changes_addPerspective (s : Scene K) (map : Projection K) :
    Changes s (s.addPerspective map).2 :=
  (Relation.ReflTransGen.single (.freshId "perspective")).tail
    (.insertPerspective (s.findPerspective_freshId "perspective"))

theorem changes_addDefaultPerspective (s : Scene K) : Changes s s.addDefaultPerspective.2 :=
  (Relation.ReflTransGen.single (.freshId "perspective")).tail
    (.insertPerspective (s.findPerspective_freshId "perspective"))

theorem changes_duplicatePerspective (s : Scene K) (key : PerspectiveKey) :
    Changes s (s.after (duplicatePerspective key)) := by
  rw [duplicatePerspective]
  exact of_perspective_bind (I := Changes s) .refl fun p _ => changes_addPerspective s p.map

theorem changes_removePerspective (s : Scene K) (key : PerspectiveKey) :
    Changes s (s.after (removePerspective key)) := by
  rw [removePerspective]
  refine of_perspective_bind (I := Changes s) .refl fun p h => ?_
  cases hempty : p.boxes with
  | nil =>
    simp only [List.isEmpty_nil]
    exact .single (.removePerspective h hempty)
  | cons b boxes =>
    simp only [List.isEmpty_cons]
    exact .refl

theorem changes_setCurrent (s : Scene K) (key : PerspectiveKey) :
    Changes s (s.after (setCurrent key)) := by
  rw [setCurrent]
  exact of_perspective_bind (I := Changes s) .refl fun p h => .single (.current h)

omit [Scalar K] in
-- The perspective that was put in is there.
theorem get?_insertPerspective (s : Scene K) (p : Perspective K) :
    (s.insertPerspective p).2.perspectives.get? (s.insertPerspective p).1 =
      some { p with boxes := [] } := by
  rw [insertPerspective, SlotTable.get?_insert, if_pos rfl]

theorem changes_currentOrDefault (s : Scene K) : Changes s s.currentOrDefault.2 := by
  rw [currentOrDefault]
  cases s.current.filter s.perspectives.contains with
  | some key => exact .refl
  | none =>
    have h := get?_insertPerspective (s.freshId "perspective").2 (.forDocument
      (s.freshId "perspective").1 s.settings.documentWidth s.settings.documentHeight)
    exact (changes_addDefaultPerspective s).tail (.current h)

theorem changes_setLink {s : Scene K} {link : Link} (hlink : LinkIn s link) (key : BoxKey) :
    Changes s (s.after (setLink key link)) := by
  cases h : s.boxes.get? key with
  | none => rw [after_of_run_error (setLink_run_of_none h)]
  | some b =>
    rw [after_of_run_ok (setLink_run_of_some h)]
    exact .single (.link h hlink)

theorem changes_redrawBox (s : Scene K) (key : BoxKey) : Changes s (s.redrawBox key) := by
  rw [redrawBox]
  cases s.mapOf? key with
  | none => exact .refl
  | some m => exact .single (.edit key (.redraw m))

theorem changes_attach (s : Scene K) (key : BoxKey) (p : PerspectiveKey) :
    Changes s (s.after (attach key p)) := by
  rw [attach]
  exact of_perspective_bind (I := Changes s) .refl fun q h =>
    Changes.bind (changes_setLink (.attached h) key) fun _ t => changes_redrawBox t key

theorem changes_detach (s : Scene K) (key : BoxKey) : Changes s (s.after (detach key)) :=
  changes_setLink .none key

theorem changes_move (s : Scene K) (key : BoxKey) (p : PerspectiveKey) :
    Changes s (s.after (move key p)) := by
  rw [move]
  exact of_box_bind (I := Changes s) .refl fun b _ =>
    Changes.bind (changes_attach s key p) fun _ _ => .refl

theorem changes_setHref (s : Scene K) (key : BoxKey) (href : Option String) :
    Changes s (s.after (setHref key href)) :=
  of_setHref (I := Changes s) .refl (changes_detach s key) fun hread =>
    Changes.bind (changes_setLink (.resolved hread) key) fun _ t => changes_redrawBox t key

theorem after_coincide (s : Scene K) (p q : PerspectiveKey) : s.after (coincide p q) = s := by
  rw [coincide, after_perspective_bind]
  cases s.perspectives.get? p with
  | none => rfl
  | some x =>
    simp only [after_perspective_bind]
    cases s.perspectives.get? q <;> rfl

theorem changes_absorb (s : Scene K) (keep other : PerspectiveKey) :
    Changes s (s.after (absorb keep other)) := by
  have hmove (key : BoxKey) (t : Scene K) : Changes t (t.after do
      move key keep
      modify fun s => s.modifyBox key Box.saveCorners) :=
    Changes.bind (changes_move t key keep) fun _ _ => .single (.edit key .saveCorners)
  rw [absorb]
  split
  · exact .refl
  · refine Changes.bind (by rw [after_coincide]) fun same t => ?_
    simp only [after_ite]
    split
    · exact of_perspective_bind (I := Changes t) .refl fun p _ => Changes.forM hmove p.boxes t
    · refine of_perspective_bind (I := Changes t) .refl fun _ _ => ?_
      exact of_perspective_bind (I := Changes t) .refl fun _ _ => .refl

theorem changes_addTo (s : Scene K) (p : PerspectiveKey) {make : String → Box K}
    (h : ∀ id, (make id).Made) : Changes s (s.after (addTo p make)) := by
  rw [addTo, after_modifyGet_bind, after_modifyGet_bind]
  have hput : Changes s ((s.freshId "box3d").2.insertBox (make (s.freshId "box3d").1)).2 :=
    (Relation.ReflTransGen.single (.freshId "box3d")).tail (.insertBox (h _))
  exact hput.trans (Changes.bind (changes_attach _ _ p) fun _ _ => .refl)

theorem changes_addBox (s : Scene K) (corners : Corners K) (p : PerspectiveKey) :
    Changes s (s.after (addBox corners p)) := by
  rw [addBox]
  exact of_perspective_bind (I := Changes s) .refl fun q _ =>
    changes_addTo s p fun id => .ofCorners id corners

theorem made_toBox (c : BoxCreation K) (id : String) : (c.toBox id).Made :=
  .edited (.edited (.ofCorners id _) .relabel) .saveCorners

theorem changes_addCreatedBox (s : Scene K) (creation : BoxCreation K) :
    Changes s (s.after (addCreatedBox creation)) := by
  rw [addCreatedBox, after_modifyGet_bind]
  exact (changes_currentOrDefault s).trans (changes_addTo _ _ (made_toBox creation))

theorem changes_removeBox (s : Scene K) (key : BoxKey) :
    Changes s (s.after (removeBox key)) := by
  cases h : s.boxes.get? key with
  | none =>
    rw [removeBox, detach, after_bind, setLink_run_of_none h]
  | some b =>
    rw [after_of_run_ok (removeBox_run h)]
    have hput := get?_linked h b.link.target .none
    exact (Relation.ReflTransGen.single (.link h .none)).tail (.removeBox hput rfl)

theorem changes_flattenBox [Numeric K] (s : Scene K) (key : BoxKey) :
    Changes s (s.after (flattenBox key)) :=
  Changes.bind (changes_removeBox s key) fun _ _ => .refl

theorem changes_editBox (s : Scene K) (key : BoxKey) (e : Box.Edit K) :
    Changes s (s.after (editBox key e)) := by
  rw [editBox]
  exact of_box_bind (I := Changes s) .refl fun b _ => .single (.edit key e)

theorem changes_updateBox (s : Scene K) (key : BoxKey) : Changes s (s.after (updateBox key)) := by
  rw [updateBox]
  exact of_mapOf_bind (I := Changes s) .refl fun m _ =>
    .single (.edit key (.update m s.settings.strategy))

theorem changes_changeBoxes {f : Projection K → OrderStrategy → Box K → Box K}
    (hf : ∀ m strategy (s : Scene K) key, Changes s (s.modifyBox key (f m strategy)))
    (s : Scene K) (p : PerspectiveKey) : Changes s (s.after (changeBoxes p f)) := by
  rw [changeBoxes]
  exact of_perspective_bind (I := Changes s) .refl fun q _ =>
    Changes.modifyBoxes (hf q.map s.settings.strategy) q.boxes s

theorem changes_redrawBoxes (s : Scene K) (p : PerspectiveKey) :
    Changes s (s.after (redrawBoxes p)) :=
  changes_changeBoxes (fun m _ _ key => .single (.edit key (.redraw m))) s p

theorem changes_refreshBoxes (s : Scene K) (p : PerspectiveKey) :
    Changes s (s.after (refreshBoxes p)) := by
  refine changes_changeBoxes (fun m strategy t key => ?_) s p
  have h := modifyBox_modifyBox t key Box.saveCorners fun b => b.update m strategy
  rw [show (t.modifyBox key fun b => b.refresh m strategy) = _ from h.symm]
  exact (Relation.ReflTransGen.single (.edit key .saveCorners)).tail
    (.edit key (.update m strategy))

theorem changes_reorderBoxes (s : Scene K) (p : PerspectiveKey) :
    Changes s (s.after (reorderBoxes p)) :=
  changes_changeBoxes (fun m strategy _ key => .single (.edit key (.updateOrder m strategy))) s p

end Scene

end PerspectiveBox
