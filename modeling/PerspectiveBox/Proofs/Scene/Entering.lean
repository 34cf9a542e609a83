import PerspectiveBox.Proofs.Scene.Drawing

namespace PerspectiveBox

variable {K : Type} [Scalar K]

-- The corners with which a box of a document comes in.
def BoxElement.corners [Numeric K] (e : BoxElement) : Corners K :=
  ⟨corner e.corner0, corner e.corner7⟩

namespace Command

variable {α : Type}

-- A command that lets boxes in only with corners of a kind, and edits none by hand.
def Enters (P : Corners K → Prop) : Command K α → Prop
  | .addBox corners _ => P corners
  | .addCreatedBox creation => P creation.corners
  | .editBox _ _ => False
  | _ => True

end Command

namespace Scene

variable [Numeric K] {P : Corners K → Prop} {α : Type}

theorem drawn_toBox {e : BoxElement} (he : P e.corners) : (e.toBox : Box K).Drawn P none := by
  rw [BoxElement.toBox]
  have hnew : (Box.ofCorners e.id e.corners : Box K).Drawn P none := .ofCorners e.id he
  change (e.sides.foldl BoxElement.styled (Box.ofCorners e.id e.corners)).Drawn P none
  generalize Box.ofCorners e.id (e.corners : Corners K) = b at hnew
  induction e.sides generalizing b with
  | nil => exact hnew
  | cons side sides ih =>
    refine ih _ ?_
    rw [BoxElement.styled]
    cases Face.ofCode? side.code.toInt with
    | none => exact hnew
    | some f => exact hnew.styled f.slot side.style

theorem keeps_loadBox {e : BoxElement} (he : P e.corners) :
    Keeps (Drawn P) (loadBox e : SceneM K Unit) := by
  intro s h
  rw [loadBox, after_modifyGet_bind]
  have hput := h.insertBox (drawn_toBox he)
  generalize (s.insertBox (e.toBox : Box K)).1 = key
  refine (keeps_setHref key e.perspective).bind (fun _ t ht => ?_) _ hput
  refine of_box_bind ht fun b _ => ?_
  simp only [after_ite]
  split
  · exact (ht.but [key]).updateBox
  · exact ht

theorem Drawn.loadPerspectives {s : Scene K} (h : s.Drawn P) (es : List PerspectiveElement) :
    (es.foldl loadPerspective s).Drawn P := by
  induction es generalizing s with
  | nil => exact h
  | cons e es ih =>
    refine ih ?_
    rw [loadPerspective]
    split
    · exact h.insertPerspective _
    · exact h

theorem drawn_ofDocument {d : Document} (hd : ∀ e ∈ d.boxes, P e.corners) {settings : Settings K}
    {s : Scene K} (h : ofDocument d settings = .ok s) : s.Drawn P := by
  rw [eq_of_ofDocument h]
  have hperspectives := (drawn_ofSettings (P := P) settings).loadPerspectives d.perspectives
  exact Keeps.forM (fun e he => keeps_loadBox (hd e he)) _ hperspectives

omit [Numeric K] in
theorem Drawn.saveBoxes {s : Scene K} (h : s.Drawn P) : s.saveBoxes.Drawn P := by
  refine h.modifyBoxes s.boxes.nodup_keys nofun fun {key b} _ hb => ?_
  have hshown := h.shown hb List.not_mem_nil
  split
  · exact ⟨rfl, hshown.saved⟩
  · exact ⟨rfl, hshown⟩

theorem keeps_command (c : Command K α) (hc : c.Enters P) : Keeps (Drawn P) c.run := by
  cases c with
  | setSettings settings => exact keeps_setSettings settings
  | insertPerspective p => exact fun s h => h.insertPerspective p
  | addPerspective map => exact fun s h => h.addPerspective map
  | addDefaultPerspective => exact fun s h => h.addDefaultPerspective
  | duplicatePerspective p => exact keeps_duplicatePerspective p
  | removePerspective p => exact keeps_removePerspective p
  | removeUnusedPerspectives => exact fun s h => h.removeUnused
  | setCurrent p => exact keeps_setCurrent p
  | currentOrDefault => exact fun s h => h.currentOrDefault
  | absorb keep other => exact keeps_absorb keep other
  | addBox corners p => exact keeps_addBox hc p
  | addCreatedBox creation => exact keeps_addCreatedBox hc
  | removeBox b => exact keeps_removeBox b
  | flattenBox b => exact (keeps_removeBox b).bind fun _ => .pure _
  | editBox b edit => exact hc.elim
  | attach b p => exact keeps_attach b p
  | detach b => exact keeps_detach b
  | move b p => exact keeps_move b p
  | setHref b href => exact keeps_setHref b href
  | transformSelection selection f => exact keeps_transformSelection selection f
  | toggleVp p c => exact keeps_toggleVp p c
  | toggleVps ps c => exact Keeps.forM fun p _ => (keeps_toggleVp p c).bind fun _ => .pure _
  | setVpState p c state =>
    exact keeps_changeVp (vpChange_setState c state) (fun _ => setState_of_false) p
  | rotateVp p c angle fine =>
    exact keeps_changeVp (vpChange_changed _) (fun _ => changed_of_false) p
  | setVp p c vp => exact keeps_setVp p c vp
  | redrawBoxes p => exact keeps_redrawBoxes p
  | refreshBoxes p => exact keeps_refreshBoxes p
  | reorderBoxes p => exact keeps_reorderBoxes p
  | updateBox b => exact fun s h => (h.but [b]).updateBox
  | beginDrag b => exact keeps_beginDrag b
  | dragCorner b id pointer movement constrained session =>
    refine keeps_drag (fun hdrag hb => ⟨?_, hb.cornerDragged hdrag⟩) b
    rw [Box.eq_of_dragCorner hdrag]
  | dragCenter b pointer grip movement constrained session =>
    refine keeps_drag (fun hdrag hb => ⟨?_, hb.centerDragged hdrag⟩) b
    rw [Box.eq_of_dragCenter hdrag]
  | finishDrag b => exact keeps_finishDrag b
  | cancelDrag b => exact keeps_cancelDrag b
  | write => exact fun s h => h.saveBoxes

-- The scenes that there are when boxes come in only with corners of a kind, and are not edited by
-- hand.
inductive ReachableWith (P : Corners K → Prop) : Scene K → Prop where
  | empty : ReachableWith P .empty
  | withSettings {settings : Settings K} {s : Scene K} (h : Scene.withSettings settings = .ok s) :
      ReachableWith P s
  | ofDocument {d : Document} (hd : ∀ e ∈ d.boxes, P e.corners) {settings : Settings K}
      {s : Scene K} (h : Scene.ofDocument d settings = .ok s) : ReachableWith P s
  | run {s : Scene K} (h : ReachableWith P s) {α : Type} (c : Command K α) (hc : c.Enters P) :
      ReachableWith P (s.after c.run)

variable {s : Scene K}

theorem ReachableWith.reachable (h : s.ReachableWith P) : s.Reachable := by
  induction h with
  | empty => exact .empty
  | withSettings h => exact .withSettings h
  | ofDocument _ h => exact .ofDocument h
  | run _ c _ ih => exact ih.run c

theorem ReachableWith.drawn (h : s.ReachableWith P) : s.Drawn P := by
  induction h with
  | empty => exact drawn_ofSettings .default
  | withSettings h => exact eq_of_withSettings h ▸ drawn_ofSettings _
  | ofDocument hd h => exact drawn_ofDocument hd h
  | run _ c hc ih => exact keeps_command c hc _ ih

-- A box that came in with weights of one shows every side as it is in the projection of its
-- perspective, as far as the side can be shown in it.
theorem ReachableWith.path_eq_shape {s : Scene Float}
    (h : s.ReachableWith Corners.HasUnitWeights) {key : BoxKey} {b : Box Float}
    {p : PerspectiveKey} {q : Perspective Float} (hb : s.boxes.get? key = some b)
    (hp : b.link.target = some p) (hq : s.perspectives.get? p = some q) :
    ∀ side ∈ b.sides, ∀ path, side.shape b.corners q.map = .ok path → side.path = some path := by
  have hone : ((1 : Float) == 1) = true := by decide
  have hmap : s.mapFor b.link = some q.map := by
    rw [mapFor, hp, Option.bind_some, hq]
    rfl
  have hdrawn := h.drawn.shown hb List.not_mem_nil
  exact hdrawn.shows hone hmap

theorem reachableWith_sketch : sketch.ReachableWith Corners.HasUnitWeights := by
  have hempty : (Scene.empty : Scene Float).ReachableWith Corners.HasUnitWeights := .empty
  have hperspective := hempty.run .addDefaultPerspective trivial
  have hbox := hperspective.run (.addBox ⟨⟨1, 1, 0, 1⟩, ⟨0, 0, 1, 1⟩⟩ ⟨1, 1⟩) ⟨rfl, rfl⟩
  exact hbox.run (.addBox ⟨⟨3, 1, 0, 1⟩, ⟨2, 0, 1, 1⟩⟩ ⟨1, 1⟩) ⟨rfl, rfl⟩

-- The boxes follow when their perspective gets another vanishing point.
theorem path_eq_shape_toggled : ∃ b q side path,
    (sketch.after (Command.toggleVp ⟨1, 1⟩ .x).run).boxes.get? ⟨2, 1⟩ = some b ∧
    (sketch.after (Command.toggleVp ⟨1, 1⟩ .x).run).perspectives.get? ⟨1, 1⟩ = some q ∧
    b.link.target = some ⟨1, 1⟩ ∧ side ∈ b.sides ∧
    side.shape b.corners q.map = .ok path ∧ side.path = some path := by
  have h := reachableWith_sketch.run (.toggleVp ⟨1, 1⟩ .x) trivial
  have hdrawable :
      (((sketch.after (Command.toggleVp ⟨1, 1⟩ .x).run).boxes.get? ⟨2, 1⟩).any fun b =>
        ((sketch.after (Command.toggleVp ⟨1, 1⟩ .x).run).perspectives.get? ⟨1, 1⟩).any fun q =>
          b.link.target == some ⟨1, 1⟩ &&
            b.sides.any fun side => (side.shape? b.corners q.map).isSome) = true := by
    decide +kernel
  obtain ⟨b, hb, hrest⟩ := (Option.any_eq_true _ _).1 hdrawable
  obtain ⟨q, hq, hrest⟩ := (Option.any_eq_true _ _).1 hrest
  obtain ⟨htarget, hsides⟩ := (Bool.and_eq_true _ _).mp hrest
  obtain ⟨side, hside, hsome⟩ := List.any_eq_true.1 hsides
  obtain ⟨path, hpath⟩ := Option.isSome_iff_exists.1 hsome
  have hp : b.link.target = some ⟨1, 1⟩ := beq_iff_eq.1 htarget
  have hshape : side.shape b.corners q.map = .ok path := by rw [Side.shape, hpath]
  exact ⟨b, q, side, path, hb, hq, hp, hside, hshape,
    h.path_eq_shape hb hp hq side hside path hshape⟩

end Scene

end PerspectiveBox
