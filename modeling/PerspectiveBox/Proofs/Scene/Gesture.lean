import PerspectiveBox.Proofs.Scene.Drawing
import PerspectiveBox.Proofs.Scene.Saving

namespace PerspectiveBox

variable {K α : Type} [Scalar K]

-- What may happen while a box is dragged: motions, and drags of other boxes from begin to end.
def Command.IsDragEvent (key : BoxKey) : Command K α → Prop
  | .dragCorner _ _ _ _ _ _ => True
  | .dragCenter _ _ _ _ _ _ => True
  | .beginDrag b => b ≠ key
  | .finishDrag b => b ≠ key
  | .cancelDrag b => b ≠ key
  | _ => False

theorem Box.saved_update (b : Box K) (m : Projection K) (strategy : OrderStrategy) :
    (b.update m strategy).saved = b.saved := by
  simp only [update, updateOrder]
  split <;> rfl

namespace Scene

-- The box under the key would get these corners back.
def KeptCorners (key : BoxKey) (corners : Corners K) (s : Scene K) : Prop :=
  (s.boxes.get? key).map Box.saved = some corners

variable {key : BoxKey} {corners : Corners K}

omit [Scalar K] in
theorem keeps_corners_modifyBox {s : Scene K} {other : BoxKey} {f : Box K → Box K}
    (hf : ∀ b, s.boxes.get? other = some b → other = key → (f b).saved = b.saved)
    (h : s.KeptCorners key corners) : (s.modifyBox other f).KeptCorners key corners := by
  rw [KeptCorners, modifyBox, SlotTable.get?_modify]
  split
  · next hkey =>
    cases hb : s.boxes.get? other with
    | none =>
      rw [KeptCorners, hkey, hb] at h
      cases h
    | some b =>
      rw [KeptCorners, hkey, hb] at h
      rw [Option.map_some, Option.map_some, hf b hb hkey.symm]
      exact h
  · exact h

theorem keeps_corners_updateBox (other : BoxKey) :
    Keeps (KeptCorners key corners) (updateBox other : SceneM K Unit) := by
  intro s h
  rw [updateBox]
  exact of_mapOf_bind h fun m _ =>
    keeps_corners_modifyBox (fun b _ _ => b.saved_update m s.settings.strategy) h

-- A motion moves the corners and not the ones that were kept.
theorem keeps_corners_drag
    {motion : Box K → Projection K → Except SceneError (Box K × DragSession K)}
    (hmotion : ∀ {b m moved session}, motion b m = .ok (moved, session) → moved.saved = b.saved)
    (other : BoxKey) : Keeps (KeptCorners key corners) (drag other motion) := by
  intro s h
  refine of_drag h fun {b m moved session} hb hm hr => keeps_corners_modifyBox (fun x hx _ => ?_) h
  rw [hb, Option.some.injEq] at hx
  rw [Box.saved_update, hmotion hr, hx]

theorem keeps_corners_event (c : Command K α) [Numeric K] (hc : c.IsDragEvent key) :
    Keeps (KeptCorners key corners) c.run := by
  cases c with
  | dragCorner b id pointer movement constrained session =>
    refine keeps_corners_drag (fun hdrag => ?_) b
    rw [Box.eq_of_dragCorner hdrag]
  | dragCenter b pointer grip movement constrained session =>
    refine keeps_corners_drag (fun hdrag => ?_) b
    rw [Box.eq_of_dragCenter hdrag]
  | beginDrag b =>
    intro s h
    change (s.after (beginDrag b)).KeptCorners key corners
    rw [beginDrag]
    exact of_box_bind h fun x _ => keeps_corners_modifyBox (fun _ _ he => absurd he hc) h
  | finishDrag b =>
    intro s h
    change (s.after (finishDrag b)).KeptCorners key corners
    rw [finishDrag]
    exact of_box_bind h fun x _ =>
      keeps_corners_updateBox b _ (keeps_corners_modifyBox (fun _ _ he => absurd he hc) h)
  | cancelDrag b =>
    intro s h
    change (s.after (cancelDrag b)).KeptCorners key corners
    rw [cancelDrag]
    refine of_box_bind h fun x _ => ?_
    have hcancelled := keeps_corners_modifyBox (f := Box.cancelDrag)
      (fun _ _ he => absurd he hc) h
    simp only [after_modify_bind, after_get_bind, after_ite]
    split
    · exact keeps_corners_updateBox b _ hcancelled
    · exact hcancelled
  | _ => exact hc.elim

theorem get?_saveBoxes (s : Scene K) (key : BoxKey) :
    s.saveBoxes.boxes.get? key = (s.boxes.get? key).map Box.settled := by
  have hget := SlotTable.get?_modifyAll s.boxes s.boxes.nodup_keys Box.settled key
  refine hget.trans ?_
  split
  · rfl
  · next hkey =>
    cases hb : s.boxes.get? key with
    | none => rfl
    | some b => exact absurd ((SlotTable.mem_keys_iff _ _).2 ⟨b, hb⟩) hkey

variable [Numeric K]

-- The scenes to which a drag of the box can go back: where it was begun, and where the scene was
-- saved while the box had both corners.
inductive DragStart (key : BoxKey) : Scene K → Prop where
  | begun {s : Scene K} {b : Box K} (hb : s.boxes.get? key = some b) :
      DragStart key (s.after (Command.beginDrag key).run)
  | saved {s : Scene K} {b : Box K} (hb : s.boxes.get? key = some b)
      (hfinite : b.corners.areFinite = true) : DragStart key (s.after Command.write.run)

-- The scenes that a drag goes through until there is another one to which it can go back.
inductive Dragging (key : BoxKey) (start : Scene K) : Scene K → Prop where
  | start : Dragging key start start
  | event {s : Scene K} (h : Dragging key start s) {α : Type} (c : Command K α)
      (hc : c.IsDragEvent key) : Dragging key start (s.after c.run)
  | savedUnset {s : Scene K} (h : Dragging key start s) {b : Box K}
      (hb : s.boxes.get? key = some b) (hunset : b.corners.areFinite = false) :
      Dragging key start (s.after Command.write.run)

theorem DragStart.saved_eq {start : Scene K} (h : DragStart key start) :
    ∃ b, start.boxes.get? key = some b ∧ b.saved = b.corners := by
  cases h with
  | @begun s b hb =>
    refine ⟨b.saveCorners, ?_, rfl⟩
    change (s.after (beginDrag key)).boxes.get? key = some b.saveCorners
    rw [beginDrag, after_box_bind, hb]
    refine (SlotTable.get?_modify s.boxes key key Box.beginDrag).trans ?_
    rw [if_pos rfl, hb]
    rfl
  | @saved s b hb hfinite =>
    refine ⟨b.saveCorners, (get?_saveBoxes s key).trans ?_, rfl⟩
    rw [hb, Option.map_some, Box.settled, if_pos hfinite]

theorem Dragging.kept {start s : Scene K} (h : Dragging key start s)
    (hstart : start.KeptCorners key corners) : s.KeptCorners key corners := by
  induction h with
  | start => exact hstart
  | event _ c hc ih => exact keeps_corners_event c hc _ ih
  | @savedUnset s _ b hb hunset ih =>
    have hsame : (s.after Command.write.run).boxes.get? key = some b := by
      refine (get?_saveBoxes s key).trans ?_
      rw [hb, Option.map_some, Box.settled, hunset]
      rfl
    rw [KeptCorners, hb] at ih
    rw [KeptCorners, hsame]
    exact ih

-- A drag that is cancelled leaves the box with the corners that it had when the drag was begun, or
-- when the scene was saved with both of them since.
theorem Dragging.cancelDrag_restores {start s : Scene K} (hstart : DragStart key start)
    (h : Dragging key start s) : ∃ t b c, (Command.cancelDrag key).run.run s = .ok ⟨⟩ t ∧
      start.boxes.get? key = some b ∧ t.boxes.get? key = some c ∧ c.corners = b.corners := by
  obtain ⟨b, hb, hsaved⟩ := hstart.saved_eq
  have hbegin : start.KeptCorners key b.corners := by
    rw [KeptCorners, hb, Option.map_some, hsaved]
  obtain ⟨x, hx, hxsaved⟩ := Option.map_eq_some_iff.1 (h.kept hbegin)
  obtain ⟨f, hf, hrun⟩ := cancelDrag_run hx
  refine ⟨_, b, f x.cancelDrag, hrun, hb, ?_, ?_⟩
  · rw [modifyBox, SlotTable.get?_modify, if_pos rfl, hx]
    rfl
  · rw [hf.corners]
    exact hxsaved

def crate : Scene Float :=
  let s := (Scene.empty : Scene Float).after
    (Command.addPerspective ⟨⟨1, 0, 0⟩, ⟨0, 1, 0⟩, ⟨0.5, -0.5, 0⟩, ⟨0, 0, 1⟩⟩).run
  s.after (Command.addBox ⟨⟨4, 4, 0, 1⟩, ⟨0, 0, 1, 1⟩⟩ ⟨1, 1⟩).run

theorem reachable_crate : crate.Reachable := by
  have hperspective := Reachable.empty.run (K := Float)
    (.addPerspective ⟨⟨1, 0, 0⟩, ⟨0, 1, 0⟩, ⟨0.5, -0.5, 0⟩, ⟨0, 0, 1⟩⟩)
  exact hperspective.run (.addBox ⟨⟨4, 4, 0, 1⟩, ⟨0, 0, 1, 1⟩⟩ ⟨1, 1⟩)

def crateHeld : Scene Float := crate.after (Command.beginDrag ⟨1, 1⟩).run

def crateMoved : Scene Float := crateHeld.after
  (Command.dragCorner ⟨1, 1⟩ 7 ⟨2, 2⟩ .xy false (.start crate.settings)).run

-- The crate goes back to where it was held.
theorem cancelDrag_restores_crate : ∃ t b c,
    (Command.cancelDrag ⟨1, 1⟩).run.run crateMoved = .ok ⟨⟩ t ∧
    crateHeld.boxes.get? ⟨1, 1⟩ = some b ∧ t.boxes.get? ⟨1, 1⟩ = some c ∧
    c.corners = b.corners := by
  have hbox : (crate.boxes.get? ⟨1, 1⟩).isSome = true := by decide +kernel
  obtain ⟨b, hb⟩ := Option.isSome_iff_exists.1 hbox
  have hmoved : Dragging ⟨1, 1⟩ crateHeld crateMoved :=
    .event .start (.dragCorner ⟨1, 1⟩ 7 ⟨2, 2⟩ .xy false (.start crate.settings)) trivial
  exact hmoved.cancelDrag_restores (.begun hb)

-- If the scene is saved in the midst of the drag, it does not.
theorem cancelDrag_after_write : crate.Reachable ∧ ∃ b c,
    crateHeld.boxes.get? ⟨1, 1⟩ = some b ∧
    ((crateMoved.after Command.write.run).after
      (Command.cancelDrag ⟨1, 1⟩).run).boxes.get? ⟨1, 1⟩ = some c ∧
    c.corners ≠ b.corners := by
  have hmoved : (crateHeld.boxes.get? ⟨1, 1⟩).any (fun b =>
      (((crateMoved.after Command.write.run).after
        (Command.cancelDrag ⟨1, 1⟩).run).boxes.get? ⟨1, 1⟩).any fun c =>
          b.corners.far.x == b.corners.far.x && !(c.corners.far.x == b.corners.far.x)) = true := by
    decide +kernel
  obtain ⟨b, hb, hrest⟩ := (Option.any_eq_true _ _).1 hmoved
  obtain ⟨c, hc, hrest⟩ := (Option.any_eq_true _ _).1 hrest
  obtain ⟨hself, hother⟩ := (Bool.and_eq_true _ _).mp hrest
  refine ⟨reachable_crate, b, c, hb, hc, fun hsame => ?_⟩
  rw [hsame, hself] at hother
  cases hother

end Scene

end PerspectiveBox
