import PerspectiveBox.Proofs.Scene.Gesture

namespace PerspectiveBox

variable {K α : Type} [Scalar K]

-- What changes the perspective that a box is in.
def Command.IsRelinking : Command K α → Prop
  | .attach _ _ => True
  | .detach _ => True
  | .move _ _ => True
  | .setHref _ _ => True
  | _ => False

theorem Box.saveCorners_eq_self_iff (b : Box K) :
    b.saveCorners = b ↔ b.saved = b.corners ∧ b.corners.normalized = b.corners := by
  constructor
  · intro h
    have hcorners : b.corners.normalized = b.corners := congrArg Box.corners h
    have hsaved : b.corners.normalized = b.saved := congrArg Box.saved h
    exact ⟨hsaved.symm.trans hcorners, hcorners⟩
  · obtain ⟨id, corners, saved, order, sides, link⟩ := b
    simp only [Box.saveCorners]
    rintro ⟨hsaved, hcorners⟩
    rw [hcorners, hsaved]

namespace Scene

variable {key : BoxKey} {corners : Corners K}

omit [Scalar K] in
theorem keeps_corners_setLink (other : BoxKey) (link : Link) :
    Keeps (KeptCorners key corners) (setLink other link : SceneM K LinkChange) := by
  intro s h
  cases hb : s.boxes.get? other with
  | none =>
    rw [after_of_run_error (setLink_run_of_none hb)]
    exact h
  | some b =>
    have hmodify : (s.modifyBox other fun b => { b with link := link }).KeptCorners key corners :=
      keeps_corners_modifyBox (fun _ _ _ => rfl) h
    rw [after_of_run_ok (setLink_run_of_some hb), KeptCorners, linked_boxes]
    exact hmodify

theorem keeps_corners_redraw (other : BoxKey) :
    Keeps (KeptCorners key corners)
      (modify fun s => s.redrawBox other : SceneM K PUnit) := by
  intro s h
  change (s.redrawBox other).KeptCorners key corners
  rw [redrawBox]
  split
  · exact keeps_corners_modifyBox (fun _ _ _ => rfl) h
  · exact h

theorem keeps_corners_attach (other : BoxKey) (p : PerspectiveKey) :
    Keeps (KeptCorners key corners) (attach other p : SceneM K LinkChange) := by
  intro s h
  rw [attach]
  refine of_perspective_bind h fun q _ => ?_
  exact (keeps_corners_setLink other _).bind
    (fun _ => (keeps_corners_redraw other).bind fun _ => .pure _) s h

omit [Scalar K] in
theorem keeps_corners_detach (other : BoxKey) :
    Keeps (KeptCorners key corners) (detach other : SceneM K LinkChange) :=
  keeps_corners_setLink other .none

theorem keeps_corners_setHref (other : BoxKey) (href : Option String) :
    Keeps (KeptCorners key corners) (setHref other href : SceneM K Unit) := fun s h =>
  of_setHref h (keeps_corners_detach other s h) fun _ =>
    (keeps_corners_setLink other _).bind (fun _ => keeps_corners_redraw other) s h

theorem keeps_corners_relinking (c : Command K α) [Numeric K] (hc : c.IsRelinking) :
    Keeps (KeptCorners key corners) c.run := by
  cases c with
  | attach b p => exact keeps_corners_attach b p
  | detach b => exact keeps_corners_detach b
  | move b p =>
    intro s h
    change (s.after (move b p)).KeptCorners key corners
    rw [move]
    exact of_box_bind h fun x _ => (keeps_corners_attach b p).bind (fun _ => .pure _) s h
  | setHref b href => exact keeps_corners_setHref b href
  | _ => exact hc.elim

-- The corners are kept in any case.
theorem finishDrag_run {s : Scene K} {b : Box K} (hb : s.boxes.get? key = some b) :
    (finishDrag key).run s = match s.mapFor b.link with
      | some m => .ok ⟨⟩ (s.modifyBox key fun b => b.saveCorners.update m s.settings.strategy)
      | none => .error .noPerspective (s.modifyBox key Box.saveCorners) := by
  have hkept := get?_modifyBox hb Box.saveCorners
  have hmap : (s.modifyBox key Box.saveCorners).mapOf? key = s.mapFor b.link := by
    rw [mapOf?_eq hkept]
    rfl
  have hstep : (finishDrag key).run s =
      (updateBox key).run (s.modifyBox key Box.saveCorners) := by
    rw [finishDrag, EStateM.run_bind, box_run, hb]
    rfl
  rw [hstep]
  cases hm : s.mapFor b.link with
  | some m =>
    rw [updateBox_run (hmap.trans hm), modifyBox_modifyBox]
    rfl
  | none => rw [updateBox, EStateM.run_bind, mapOf_run_of_box hkept (hmap.trans hm)]

variable [Numeric K]

-- The scenes that a drag of the box goes through, also when boxes change perspectives meanwhile.
inductive Handled (key : BoxKey) (start : Scene K) : Scene K → Prop where
  | start : Handled key start start
  | event {s : Scene K} (h : Handled key start s) {α : Type} (c : Command K α)
      (hc : c.IsDragEvent key) : Handled key start (s.after c.run)
  | relinked {s : Scene K} (h : Handled key start s) {α : Type} (c : Command K α)
      (hc : c.IsRelinking) : Handled key start (s.after c.run)

theorem Handled.kept {start s : Scene K} (h : Handled key start s)
    (hstart : start.KeptCorners key corners) : s.KeptCorners key corners := by
  induction h with
  | start => exact hstart
  | event _ c hc ih => exact keeps_corners_event c hc _ ih
  | relinked _ c hc ih => exact keeps_corners_relinking c hc _ ih

theorem Handled.reachable {start s : Scene K} (h : Handled key start s)
    (hstart : start.Reachable) : s.Reachable := by
  induction h with
  | start => exact hstart
  | event _ c _ ih => exact ih.run c
  | relinked _ c _ ih => exact ih.run c

omit [Numeric K] in
-- When a drag is begun, the corners are kept.
theorem kept_beginDrag {s : Scene K} {b : Box K} (hb : s.boxes.get? key = some b) :
    (s.after (beginDrag key)).KeptCorners key b.corners.normalized := by
  have hbegun := get?_modifyBox hb Box.beginDrag
  rw [beginDrag, after_box_bind, hb]
  exact congrArg (Option.map Box.saved) hbegun

-- A drag cannot be finished when the box was detached. The scene is the same after that if the
-- corners are where they were when the drag was begun, and only then can it still be cancelled.
theorem Handled.finishDrag_iff {start s : Scene K} {b : Box K} (hstart : start.Reachable)
    (hb : start.boxes.get? key = some b)
    (h : Handled key (start.after (Command.beginDrag key).run) s) :
    ∃ x, s.boxes.get? key = some x ∧
      (x.link.target ≠ none → ∃ t, (Command.finishDrag key).run.run s = .ok ⟨⟩ t) ∧
      (x.link.target = none → ∃ t u y,
        (Command.finishDrag key).run.run s = .error .noPerspective t ∧
        (t = s ↔ x.corners = b.corners.normalized ∧
          b.corners.normalized.normalized = b.corners.normalized) ∧
        (Command.cancelDrag key).run.run t = .ok ⟨⟩ u ∧ u.boxes.get? key = some y ∧
        (y.corners = b.corners.normalized ↔ x.corners.normalized = b.corners.normalized)) := by
  have hlinked := (h.reachable (hstart.run _)).linked
  obtain ⟨x, hx, hsaved⟩ := Option.map_eq_some_iff.1 (h.kept (kept_beginDrag hb))
  have hrun := finishDrag_run hx
  refine ⟨x, hx, fun hattached => ?_, fun hdetached => ?_⟩
  · obtain ⟨p, hp⟩ := Option.ne_none_iff_exists'.1 hattached
    obtain ⟨q, hq, hkey⟩ := hlinked.attached hx hp
    rw [hlinked.mapFor_eq hq hkey hx] at hrun
    exact ⟨_, hrun⟩
  · have hm : s.mapFor x.link = none := by
      rw [mapFor, hdetached]
      rfl
    rw [hm] at hrun
    have hkept := get?_modifyBox hx Box.saveCorners
    obtain ⟨f, hf, hcancel⟩ := cancelDrag_run hkept
    refine ⟨_, _, f x.saveCorners.cancelDrag, hrun, ?_, hcancel, ?_, ?_⟩
    · rw [← hsaved]
      constructor
      · intro hsame
        rw [hsame, hx, Option.some.injEq] at hkept
        obtain ⟨hcorners, hnormalized⟩ := (Box.saveCorners_eq_self_iff x).1 hkept.symm
        exact ⟨hcorners.symm, hcorners ▸ hnormalized⟩
      · rintro ⟨hcorners, hnormalized⟩
        refine modifyBox_eq_self fun y hy => ?_
        rw [hx, Option.some.injEq] at hy
        rw [← hy, Box.saveCorners_eq_self_iff, hcorners]
        exact ⟨rfl, hnormalized⟩
    · exact get?_modifyBox hkept _
    · rw [hf.corners]
      rfl

def crateLeft : Scene Float := crateMoved.after (Command.detach ⟨1, 1⟩).run

theorem detached_crateLeft :
    ∃ x, crateLeft.boxes.get? ⟨1, 1⟩ = some x ∧ x.link.target = none := by
  have hleft : (crateLeft.boxes.get? ⟨1, 1⟩).any (fun x => x.link.target.isNone) = true := by
    decide +kernel
  obtain ⟨x, hx, hnone⟩ := (Option.any_eq_true _ _).1 hleft
  exact ⟨x, hx, Option.isNone_iff_eq_none.1 hnone⟩

theorem finishDrag_iff_crate : crate.Reachable ∧ Handled ⟨1, 1⟩ crateHeld crateLeft ∧
    ∃ b x t u y, crate.boxes.get? ⟨1, 1⟩ = some b ∧ crateLeft.boxes.get? ⟨1, 1⟩ = some x ∧
      (Command.finishDrag ⟨1, 1⟩).run.run crateLeft = .error .noPerspective t ∧
      (t = crateLeft ↔ x.corners = b.corners.normalized ∧
        b.corners.normalized.normalized = b.corners.normalized) ∧
      (Command.cancelDrag ⟨1, 1⟩).run.run t = .ok ⟨⟩ u ∧ u.boxes.get? ⟨1, 1⟩ = some y ∧
      (y.corners = b.corners.normalized ↔ x.corners.normalized = b.corners.normalized) := by
  have hbox : (crate.boxes.get? ⟨1, 1⟩).isSome = true := by decide +kernel
  obtain ⟨b, hb⟩ := Option.isSome_iff_exists.1 hbox
  have hmoved : Handled ⟨1, 1⟩ crateHeld crateMoved :=
    .event .start (.dragCorner ⟨1, 1⟩ 7 ⟨2, 2⟩ .xy false (.start crate.settings)) trivial
  have hleft : Handled ⟨1, 1⟩ crateHeld crateLeft := .relinked hmoved (.detach ⟨1, 1⟩) trivial
  obtain ⟨x, hx, -, hfinish⟩ := hleft.finishDrag_iff reachable_crate hb
  obtain ⟨z, hz, hdetached⟩ := detached_crateLeft
  have hxz : x = z := Option.some.inj (hx.symm.trans hz)
  obtain ⟨t, u, y, hrest⟩ := hfinish (hxz ▸ hdetached)
  exact ⟨reachable_crate, hleft, b, x, t, u, y, hb, hx, hrest⟩

-- Where the corner of the crate is that was dragged.
def crateX (s : Scene Float) : Option Float :=
  (s.boxes.get? ⟨1, 1⟩).map fun b => b.corners.far.x

-- After a drag that could not be finished, the crate does not go back to where it was held. It
-- would have before.
theorem cancelDrag_after_finishDrag : crate.Reachable ∧
    (∃ t, (Command.finishDrag ⟨1, 1⟩).run.run crateLeft = .error .noPerspective t ∧
      t ≠ crateLeft) ∧
    ∃ b c, crateHeld.boxes.get? ⟨1, 1⟩ = some b ∧
      ((crateLeft.after (Command.finishDrag ⟨1, 1⟩).run).after
        (Command.cancelDrag ⟨1, 1⟩).run).boxes.get? ⟨1, 1⟩ = some c ∧
      c.corners ≠ b.corners := by
  obtain ⟨x, hx, hdetached⟩ := detached_crateLeft
  have hm : crateLeft.mapFor x.link = none := by
    rw [mapFor, hdetached]
    rfl
  have hrun := finishDrag_run hx
  rw [hm] at hrun
  have hsame : (crateLeft.after (Command.cancelDrag ⟨1, 1⟩).run).crateX = crateHeld.crateX := by
    decide +kernel
  have hother : ((crateLeft.after (Command.finishDrag ⟨1, 1⟩).run).after
      (Command.cancelDrag ⟨1, 1⟩).run).crateX ≠ crateHeld.crateX := by
    decide +kernel
  have hheld : (crateHeld.boxes.get? ⟨1, 1⟩).isSome = true := by decide +kernel
  have hthere : (((crateLeft.after (Command.finishDrag ⟨1, 1⟩).run).after
      (Command.cancelDrag ⟨1, 1⟩).run).boxes.get? ⟨1, 1⟩).isSome = true := by
    decide +kernel
  obtain ⟨b, hb⟩ := Option.isSome_iff_exists.1 hheld
  obtain ⟨c, hc⟩ := Option.isSome_iff_exists.1 hthere
  refine ⟨reachable_crate, ⟨_, hrun, fun h => hother ?_⟩, b, c, hb, hc, fun h => hother ?_⟩
  · have hafter : crateLeft.after (Command.finishDrag ⟨1, 1⟩).run = crateLeft :=
      (after_of_run_error hrun).trans h
    rw [hafter, hsame]
  · rw [crateX, crateX, hb, hc, Option.map_some, Option.map_some, h]

end Scene

end PerspectiveBox
