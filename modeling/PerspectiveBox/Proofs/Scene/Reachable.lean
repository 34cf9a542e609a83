import PerspectiveBox.Number.Double
import PerspectiveBox.Proofs.Scene.Change
import PerspectiveBox.Scene.Command

namespace PerspectiveBox

variable {K : Type} [Scalar K]

-- A drag that is accepted is an edit of the box.
theorem Box.edited_dragCorner {b moved : Box K} {m : Projection K} {id : Nat} {pointer : Point K}
    {movement : AxisSet} {constrained : Bool} {session next : DragSession K}
    (h : b.dragCorner m id pointer movement constrained session = .ok (moved, next)) :
    b.edited (.dragCorner m id pointer movement constrained session) = moved := by
  simp only [edited, h, afterDrag]

theorem Box.edited_dragCenter {b moved : Box K} {m : Projection K} {pointer grip : Point K}
    {movement : AxisSet} {constrained : Bool} {session next : DragSession K}
    (h : b.dragCenter m pointer grip movement constrained session = .ok (moved, next)) :
    b.edited (.dragCenter m pointer grip movement constrained session) = moved := by
  simp only [edited, h, afterDrag]

namespace Scene

variable {α β : Type}

theorem changes_beginDrag (s : Scene K) (key : BoxKey) : Changes s (s.after (beginDrag key)) := by
  rw [beginDrag]
  exact of_box_bind (I := Changes s) .refl fun b _ => .single (.edit key .saveCorners)

theorem changes_drag {motion : Box K → Projection K → Except SceneError (Box K × DragSession K)}
    (hmotion : ∀ {b m moved session}, motion b m = .ok (moved, session) →
      ∃ e, b.edited e = moved) (s : Scene K) (key : BoxKey) :
    Changes s (s.after (drag key motion)) := by
  refine of_drag (I := Changes s) .refl fun {b m moved session} hb hm hr => ?_
  obtain ⟨e, he⟩ := hmotion hr
  have hedit : (s.modifyBox key fun b => (b.edited e).update m s.settings.strategy) =
      s.modifyBox key fun _ => moved.update m s.settings.strategy :=
    modifyBox_congr hb (by rw [he])
  have hchanges : Changes s ((s.modifyBox key fun b => b.edited e).modifyBox key
      fun b => b.update m s.settings.strategy) :=
    (Relation.ReflTransGen.single (.edit key e)).tail (.edit key (.update m s.settings.strategy))
  rw [modifyBox_modifyBox, hedit] at hchanges
  exact hchanges

theorem changes_finishDrag (s : Scene K) (key : BoxKey) :
    Changes s (s.after (finishDrag key)) := by
  rw [finishDrag]
  exact of_box_bind (I := Changes s) .refl fun b _ =>
    .head (.edit key .saveCorners) (changes_updateBox _ key)

theorem changes_cancelDrag (s : Scene K) (key : BoxKey) :
    Changes s (s.after (cancelDrag key)) := by
  rw [cancelDrag]
  refine of_box_bind (I := Changes s) .refl fun b _ => .head (.edit key .cancelDrag) ?_
  simp only [after_modify_bind, after_get_bind, after_ite]
  split
  · exact changes_updateBox _ key
  · exact .refl

-- A change of a vanishing point.
def VpChange (change : Perspective K → Bool × Perspective K) : Prop :=
  ∀ p, (change p).2 = { p with map := (change p).2.map }

omit [Scalar K] in
theorem vpChange_changed (f : Perspective K → Option (Projection K)) :
    VpChange fun p => p.changed (f p) := by
  intro p
  simp only [Perspective.changed]
  cases f p <;> rfl

theorem vpChange_setState (c : Coord) (state : VpState) :
    VpChange fun p : Perspective K => p.setState c state := by
  intro p
  simp only [Perspective.setState]
  split
  · rfl
  · exact vpChange_changed (fun p => p.map.toggled? c) p

theorem changes_changeVp {change : Perspective K → Bool × Perspective K} (h : VpChange change)
    (s : Scene K) (p : PerspectiveKey) : Changes s (s.after (changeVp p change)) := by
  rw [changeVp]
  refine of_perspective_bind (I := Changes s) .refl fun q hq => ?_
  have hmap : (s.modifyPerspective p fun r => { r with map := (change q).2.map }) =
      s.modifyPerspective p fun _ => (change q).2 := modifyPerspective_congr hq (h q).symm
  have hchange : Change s (s.modifyPerspective p fun r => { r with map := (change q).2.map }) :=
    .map p fun _ => (change q).2.map
  rw [hmap] at hchange
  refine .head hchange ?_
  simp only [after_ite, after_modify_bind]
  split
  · exact Changes.bind (changes_refreshBoxes _ p) fun _ _ => .refl
  · exact .refl

theorem changes_toggleVp (s : Scene K) (p : PerspectiveKey) (c : Coord) :
    Changes s (s.after (toggleVp p c)) :=
  changes_changeVp (vpChange_changed _) s p

theorem changes_setVp (s : Scene K) (p : PerspectiveKey) (c : Coord) (vp : HPoint2 K) :
    Changes s (s.after (setVp p c vp)) := by
  rw [setVp]
  exact of_perspective_bind (I := Changes s) .refl fun q _ =>
    .head (.map p fun m => m.setColumn c vp) (changes_redrawBoxes _ p)

omit [Scalar K] in
theorem after_hasAllBoxes (s : Scene K) (p : PerspectiveKey) (selection : List BoxKey) :
    s.after (hasAllBoxes p selection) = s := by
  rw [hasAllBoxes, after_perspective_bind]
  cases s.perspectives.get? p <;> rfl

omit [Scalar K] in
theorem after_selectedBoxes (s : Scene K) (p : PerspectiveKey) (selection : List BoxKey) :
    s.after (selectedBoxes p selection) = s := by
  rw [selectedBoxes, after_perspective_bind]
  cases s.perspectives.get? p <;> rfl

theorem changes_isolate (s : Scene K) (p : PerspectiveKey) (selection : List BoxKey) :
    Changes s (s.after (isolate p selection)) := by
  refine Changes.bind (by rw [after_hasAllBoxes]) fun all t => ?_
  rw [after_ite]
  split
  · exact .refl
  · refine Changes.bind (changes_duplicatePerspective t p) fun fork u => ?_
    refine Changes.bind (by rw [after_selectedBoxes]) fun keys v => ?_
    exact Changes.bind (Changes.forM (fun key w => changes_move w key fork) keys v)
      fun _ _ => .refl

theorem changes_transformSelection (s : Scene K) (selection : List BoxKey) (f : Affine K) :
    Changes s (s.after (transformSelection selection f)) := by
  refine Changes.mapM (fun p t => ?_) (s.selectedPerspectives selection) s
  refine Changes.bind (changes_isolate t p selection) fun target u => ?_
  refine .head (.map target fun m => m.applyAffine f) ?_
  exact Changes.bind (changes_refreshBoxes _ target) fun _ _ => .refl

section Document

variable [Numeric K]

omit [Numeric K] in
theorem made_setStyles {b : Box K} (h : b.Made) (sides : List SideElement) :
    (sides.foldl BoxElement.styled b).Made := by
  induction sides generalizing b with
  | nil => exact h
  | cons e sides ih =>
    refine ih ?_
    rw [BoxElement.styled]
    cases Face.ofCode? e.code.toInt with
    | none => exact h
    | some f => exact .edited h (.setStyle f.slot e.style)

theorem changes_loadBox (s : Scene K) (e : BoxElement) : Changes s (s.after (loadBox e)) := by
  have hmade : (e.toBox : Box K).Made := made_setStyles (.ofCorners _ _) e.sides
  refine .head (.insertBox hmade) ?_
  rw [loadBox, after_modifyGet_bind]
  generalize (s.insertBox (e.toBox : Box K)).1 = key
  refine Changes.bind (changes_setHref _ key e.perspective) fun _ t => ?_
  refine of_box_bind (I := Changes t) .refl fun b _ => ?_
  simp only [after_ite]
  split
  · exact changes_updateBox t _
  · exact .refl

theorem changes_loadPerspectives (s : Scene K) (es : List PerspectiveElement) :
    Changes s (es.foldl loadPerspective s) := by
  induction es generalizing s with
  | nil => exact .refl
  | cons e es ih =>
    refine .trans ?_ (ih _)
    rw [loadPerspective]
    split
    · next hnew _ => exact .single (.insertPerspective hnew)
    · exact .refl

omit [Numeric K] in
theorem eq_of_withSettings {settings : Settings K} {s : Scene K}
    (h : withSettings settings = .ok s) : s = ofSettings settings := by
  cases hv : settings.validate with
  | error e =>
    simp only [withSettings, hv, bind, Except.bind] at h
    cases h
  | ok u =>
    simp only [withSettings, hv, bind, Except.bind, pure, Except.pure] at h
    cases h
    rfl

-- Loading starts from the settings, first the perspectives and then the boxes.
theorem eq_of_ofDocument {d : Document} {settings : Settings K} {s : Scene K}
    (h : ofDocument d settings = .ok s) :
    s = (d.perspectives.foldl loadPerspective (ofSettings settings)).after
      (d.boxes.forM loadBox) := by
  cases hs : withSettings settings with
  | error e =>
    simp only [ofDocument, hs, bind, Except.bind] at h
    cases h
  | ok u =>
    rw [← eq_of_withSettings hs]
    simp only [ofDocument, hs, bind, Except.bind, pure, Except.pure] at h
    split at h
    · next t hrun =>
      cases h
      rw [after_of_run_ok hrun]
    · cases h

theorem changes_ofDocument {d : Document} {settings : Settings K} {s : Scene K}
    (h : ofDocument d settings = .ok s) : Changes (ofSettings settings) s := by
  rw [eq_of_ofDocument h]
  exact (changes_loadPerspectives (ofSettings settings) d.perspectives).trans
    (Changes.forM (fun e t => changes_loadBox t e) d.boxes _)

omit [Numeric K] in
theorem changes_saveBoxes (s : Scene K) : Changes s s.saveBoxes := by
  refine Changes.modifyBoxes (fun t key => ?_) s.boxes.keys s
  cases h : t.boxes.get? key with
  | none => rw [modifyBox_eq_self (by simp [h])]
  | some b =>
    by_cases hb : b.corners.areFinite = true
    · have hsave : (t.modifyBox key fun b => b.edited .saveCorners) =
          t.modifyBox key fun b => if b.corners.areFinite then b.saveCorners else b :=
        modifyBox_congr h (if_pos hb).symm
      exact hsave ▸ .single (.edit key .saveCorners)
    · have hsame :
          (t.modifyBox key fun b => if b.corners.areFinite then b.saveCorners else b) = t := by
        refine modifyBox_eq_self fun c hc => ?_
        rw [h, Option.some.injEq] at hc
        rw [← hc, if_neg hb]
      rw [hsame]

-- A perspective that a command puts in as it is has an id that no other one has.
def TakesNewId (s : Scene K) : Command K α → Prop
  | .insertPerspective p => s.findPerspective p.id = none
  | _ => True

theorem changes_command {s : Scene K} {c : Command K α} (hc : s.TakesNewId c) :
    Changes s (s.after c.run) := by
  cases c with
  | setSettings settings => exact changes_setSettings s settings
  | insertPerspective p => exact .single (.insertPerspective hc)
  | addPerspective map => exact changes_addPerspective s map
  | addDefaultPerspective => exact changes_addDefaultPerspective s
  | duplicatePerspective p => exact changes_duplicatePerspective s p
  | removePerspective p => exact changes_removePerspective s p
  | removeUnusedPerspectives => exact .single .removeUnused
  | setCurrent p => exact changes_setCurrent s p
  | currentOrDefault => exact changes_currentOrDefault s
  | absorb keep other => exact changes_absorb s keep other
  | addBox corners p => exact changes_addBox s corners p
  | addCreatedBox creation => exact changes_addCreatedBox s creation
  | removeBox b => exact changes_removeBox s b
  | flattenBox b => exact changes_flattenBox s b
  | editBox b edit => exact changes_editBox s b edit
  | attach b p => exact changes_attach s b p
  | detach b => exact changes_detach s b
  | move b p => exact changes_move s b p
  | setHref b href => exact changes_setHref s b href
  | transformSelection selection f => exact changes_transformSelection s selection f
  | toggleVp p c => exact changes_toggleVp s p c
  | toggleVps ps c =>
    exact Changes.forM (fun p t => Changes.bind (changes_toggleVp t p c) fun _ _ => .refl) ps s
  | setVpState p c state => exact changes_changeVp (vpChange_setState c state) s p
  | rotateVp p c angle fine => exact changes_changeVp (vpChange_changed _) s p
  | setVp p c vp => exact changes_setVp s p c vp
  | redrawBoxes p => exact changes_redrawBoxes s p
  | refreshBoxes p => exact changes_refreshBoxes s p
  | reorderBoxes p => exact changes_reorderBoxes s p
  | updateBox b => exact changes_updateBox s b
  | beginDrag b => exact changes_beginDrag s b
  | dragCorner b id pointer movement constrained session =>
    exact changes_drag (fun h => ⟨_, Box.edited_dragCorner h⟩) s b
  | dragCenter b pointer grip movement constrained session =>
    exact changes_drag (fun h => ⟨_, Box.edited_dragCenter h⟩) s b
  | finishDrag b => exact changes_finishDrag s b
  | cancelDrag b => exact changes_cancelDrag s b
  | write => exact changes_saveBoxes s

-- The scenes that there are.
inductive Reachable : Scene K → Prop where
  | empty : Reachable .empty
  | withSettings {settings : Settings K} {s : Scene K} (h : Scene.withSettings settings = .ok s) :
      Reachable s
  | ofDocument {d : Document} {settings : Settings K} {s : Scene K}
      (h : Scene.ofDocument d settings = .ok s) : Reachable s
  | run {s : Scene K} {α : Type} (h : Reachable s) (c : Command K α) : Reachable (s.after c.run)

-- What an empty scene has, and every change and every perspective put in preserves, all scenes
-- have.
theorem Reachable.induct {P : Scene K → Prop} (hempty : ∀ settings, P (ofSettings settings))
    (hchange : ∀ s t, Change s t → P s → P t)
    (hinsert : ∀ s p, P s → P (s.insertPerspective p).2) {s : Scene K} (h : Reachable s) : P s := by
  have hchanges {s t : Scene K} (hst : Changes s t) (hs : P s) : P t := by
    induction hst with
    | refl => exact hs
    | tail _ hstep ih => exact hchange _ _ hstep ih
  induction h with
  | empty => exact hempty .default
  | withSettings h => exact eq_of_withSettings h ▸ hempty _
  | ofDocument h => exact hchanges (changes_ofDocument h) (hempty _)
  | @run s _ _ c ih =>
    by_cases hc : s.TakesNewId c
    · exact hchanges (changes_command hc) ih
    · cases c with
      | insertPerspective p => exact hinsert s p ih
      | _ => exact absurd trivial hc

end Document

def sketch : Scene Float :=
  let s := (Scene.empty : Scene Float).after Command.addDefaultPerspective.run
  let s := s.after (Command.addBox ⟨⟨1, 1, 0, 1⟩, ⟨0, 0, 1, 1⟩⟩ ⟨1, 1⟩).run
  s.after (Command.addBox ⟨⟨3, 1, 0, 1⟩, ⟨2, 0, 1, 1⟩⟩ ⟨1, 1⟩).run

theorem reachable_sketch : sketch.Reachable := by
  have hperspective := Reachable.empty.run (Command.addDefaultPerspective (K := Float))
  have hbox := hperspective.run (.addBox ⟨⟨1, 1, 0, 1⟩, ⟨0, 0, 1, 1⟩⟩ ⟨1, 1⟩)
  exact hbox.run (.addBox ⟨⟨3, 1, 0, 1⟩, ⟨2, 0, 1, 1⟩⟩ ⟨1, 1⟩)

end Scene

end PerspectiveBox
