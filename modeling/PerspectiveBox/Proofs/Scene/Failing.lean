import PerspectiveBox.Proofs.Scene.Selection
import PerspectiveBox.Proofs.Scene.Session

namespace PerspectiveBox

variable {K α β : Type}

namespace Scene

-- The operation changes nothing here if it fails.
def FailsClean (m : SceneM K α) (s : Scene K) : Prop := ∀ e t, m.run s = .error e t → t = s

def Succeeds (m : SceneM K α) (s : Scene K) : Prop := ∃ a t, m.run s = .ok a t

section Compose

variable {s : Scene K} {m : SceneM K α} {f : α → SceneM K β}

theorem Succeeds.failsClean (h : Succeeds m s) : FailsClean m s := by
  obtain ⟨a, t, hrun⟩ := h
  intro e u he
  rw [hrun] at he
  cases he

theorem FailsClean.of_error {e : SceneError} (h : m.run s = .error e s) : FailsClean m s := by
  intro _ t ht
  rw [h] at ht
  cases ht
  rfl

-- A look-up changes nothing, whether it finds something or not.
theorem FailsClean.of_ok_bind {a : α} (h : m.run s = .ok a s) (hf : FailsClean (f a) s) :
    FailsClean (m >>= f) s := by
  intro e t he
  rw [EStateM.run_bind, h] at he
  exact hf e t he

theorem FailsClean.of_error_bind {e : SceneError} (h : m.run s = .error e s) :
    FailsClean (m >>= f) s :=
  .of_error (by rw [EStateM.run_bind, h])

-- A change may be followed by what cannot fail after it.
theorem FailsClean.bind (hm : FailsClean m s)
    (hf : ∀ a t, m.run s = .ok a t → Succeeds (f a) t) : FailsClean (m >>= f) s := by
  intro e t he
  rw [EStateM.run_bind] at he
  cases hrun : m.run s with
  | error _ u =>
    rw [hrun] at he
    cases he
    exact hm _ _ hrun
  | ok a u =>
    obtain ⟨b, v, hb⟩ := hf a u hrun
    rw [hrun] at he
    simp only [hb] at he
    cases he

theorem Succeeds.bind (hm : Succeeds m s)
    (hf : ∀ a t, m.run s = .ok a t → Succeeds (f a) t) : Succeeds (m >>= f) s := by
  obtain ⟨a, t, hrun⟩ := hm
  obtain ⟨b, u, hb⟩ := hf a t hrun
  refine ⟨b, u, ?_⟩
  rw [EStateM.run_bind, hrun]
  exact hb

end Compose

variable {s : Scene K}

theorem FailsClean.perspective_bind {key : PerspectiveKey} {f : Perspective K → SceneM K β}
    (hf : ∀ p, s.perspectives.get? key = some p → FailsClean (f p) s) :
    FailsClean (perspective key >>= f) s := by
  have hrun := perspective_run key s
  cases hp : s.perspectives.get? key with
  | none =>
    rw [hp] at hrun
    exact .of_error_bind hrun
  | some p =>
    rw [hp] at hrun
    exact .of_ok_bind hrun (hf p hp)

theorem FailsClean.box_bind {key : BoxKey} {f : Box K → SceneM K β}
    (hf : ∀ b, s.boxes.get? key = some b → FailsClean (f b) s) :
    FailsClean (box key >>= f) s := by
  have hrun := box_run key s
  cases hb : s.boxes.get? key with
  | none =>
    rw [hb] at hrun
    exact .of_error_bind hrun
  | some b =>
    rw [hb] at hrun
    exact .of_ok_bind hrun (hf b hb)

theorem FailsClean.mapOf_bind {key : BoxKey} {f : Projection K → SceneM K β}
    (hf : ∀ m, s.mapOf? key = some m → FailsClean (f m) s) :
    FailsClean (mapOf key >>= f) s := by
  cases hm : s.mapOf? key with
  | none =>
    obtain ⟨e, he⟩ := mapOf_run_of_none hm
    exact .of_error_bind he
  | some m => exact .of_ok_bind (mapOf_run_of_some hm) (hf m hm)

-- A modification cannot fail.
theorem Succeeds.modifyGet (f : Scene K → α × Scene K) :
    Succeeds (MonadStateOf.modifyGet f : SceneM K α) s := ⟨(f s).1, (f s).2, rfl⟩

theorem Succeeds.pure (a : α) : Succeeds (Pure.pure a : SceneM K α) s := ⟨a, s, rfl⟩

theorem failsClean_coincide_bind [Scalar K] {p q : PerspectiveKey} {f : Bool → SceneM K β}
    (hf : ∀ x y, s.perspectives.get? p = some x → s.perspectives.get? q = some y →
      FailsClean (f (x.coincides y)) s) : FailsClean (coincide p q >>= f) s := by
  rw [coincide, bind_assoc]
  refine .perspective_bind fun x hx => ?_
  rw [bind_assoc]
  refine .perspective_bind fun y hy => ?_
  rw [pure_bind]
  exact hf x y hx hy

theorem failsClean_duplicatePerspective (key : PerspectiveKey) :
    FailsClean (duplicatePerspective key) s := by
  rw [duplicatePerspective]
  exact .perspective_bind fun p _ => (Succeeds.modifyGet _).failsClean

theorem failsClean_removePerspective (key : PerspectiveKey) :
    FailsClean (removePerspective key) s := by
  rw [removePerspective]
  refine .perspective_bind fun p _ => ?_
  cases hempty : p.boxes.isEmpty with
  | true =>
    simp only [if_true]
    exact Succeeds.failsClean ⟨_, _, rfl⟩
  | false =>
    simp only [Bool.false_eq_true, if_false]
    exact .of_error rfl

theorem failsClean_setCurrent (key : PerspectiveKey) : FailsClean (setCurrent key) s := by
  rw [setCurrent]
  exact .perspective_bind fun p _ => (Succeeds.modifyGet _).failsClean

theorem failsClean_setLink (key : BoxKey) (link : Link) : FailsClean (setLink key link) s := by
  cases hb : s.boxes.get? key with
  | none => exact .of_error (setLink_run_of_none hb)
  | some b => exact Succeeds.failsClean ⟨_, _, setLink_run_of_some hb⟩

-- After a box is found to be there, it can be detached and taken out.
theorem failsClean_removeBox (key : BoxKey) : FailsClean (removeBox key) s := by
  cases hb : s.boxes.get? key with
  | none =>
    rw [removeBox, detach]
    exact .of_error_bind (setLink_run_of_none hb)
  | some b => exact Succeeds.failsClean ⟨_, _, removeBox_run hb⟩

theorem failsClean_flattenBox [Numeric K] (key : BoxKey) : FailsClean (flattenBox key) s :=
  (failsClean_removeBox key).bind fun _ _ _ => .pure _

section Scalar

variable [Scalar K]

theorem failsClean_setSettings (settings : Settings K) : FailsClean (setSettings settings) s := by
  have hrun := setSettings_run settings s
  cases hv : settings.validate with
  | error e =>
    rw [hv] at hrun
    exact .of_error hrun
  | ok u =>
    rw [hv] at hrun
    exact Succeeds.failsClean ⟨_, _, hrun⟩

theorem failsClean_attach (key : BoxKey) (p : PerspectiveKey) : FailsClean (attach key p) s := by
  rw [attach]
  refine .perspective_bind fun q _ => (failsClean_setLink key _).bind fun change t _ => ?_
  exact ⟨_, _, rfl⟩

theorem failsClean_move (key : BoxKey) (p : PerspectiveKey) : FailsClean (move key p) s := by
  rw [move]
  refine .box_bind fun b _ => ?_
  exact (failsClean_attach key p).bind fun _ _ _ => .pure _

theorem failsClean_setHref (key : BoxKey) (href : Option String) :
    FailsClean (setHref key href) s := by
  have hdetach : FailsClean (do let _ ← detach key : SceneM K Unit) s :=
    (failsClean_setLink key .none).bind fun _ _ _ => .pure _
  unfold setHref
  refine .box_bind fun b _ => ?_
  cases href with
  | none => exact hdetach
  | some text =>
    dsimp only
    split
    · exact (Succeeds.pure _).failsClean
    · cases hread : Reference.read text with
      | error e =>
        simp only [Option.map_some, hread]
        exact hdetach
      | ok id =>
        simp only [Option.map_some, hread]
        refine .of_ok_bind (a := s) rfl ((failsClean_setLink key _).bind fun _ t _ => ?_)
        exact ⟨_, _, rfl⟩

theorem failsClean_editBox (key : BoxKey) (e : Box.Edit K) : FailsClean (editBox key e) s := by
  rw [editBox]
  exact .box_bind fun b _ => (Succeeds.modifyGet _).failsClean

theorem failsClean_updateBox (key : BoxKey) : FailsClean (updateBox key) s := by
  rw [updateBox]
  exact .mapOf_bind fun m _ => (Succeeds.modifyGet _).failsClean

omit [Scalar K] in
theorem failsClean_changeBoxes (p : PerspectiveKey)
    (f : Projection K → OrderStrategy → Box K → Box K) : FailsClean (changeBoxes p f) s := by
  rw [changeBoxes]
  exact .perspective_bind fun q _ => (Succeeds.modifyGet _).failsClean

omit [Scalar K] in
-- The boxes of a perspective that is there can be changed.
theorem succeeds_changeBoxes {p : PerspectiveKey} {q : Perspective K}
    (hq : s.perspectives.get? p = some q) (f : Projection K → OrderStrategy → Box K → Box K) :
    Succeeds (changeBoxes p f) s := by
  refine ⟨⟨⟩, s.modifyBoxes q.boxes (f q.map s.settings.strategy), ?_⟩
  rw [changeBoxes, EStateM.run_bind, perspective_run, hq]
  rfl

theorem failsClean_changeVp (p : PerspectiveKey)
    (change : Perspective K → Bool × Perspective K) : FailsClean (changeVp p change) s := by
  rw [changeVp]
  refine .perspective_bind fun q hq => Succeeds.failsClean ?_
  have hnew := get?_modifyPerspective hq fun _ => (change q).2
  refine Succeeds.bind (.modifyGet _) fun _ t ht => ?_
  cases ht
  split
  · exact (succeeds_changeBoxes hnew _).bind fun _ _ _ => .pure _
  · exact .pure _

theorem failsClean_setVp (p : PerspectiveKey) (c : Coord) (vp : HPoint2 K) :
    FailsClean (setVp p c vp) s := by
  rw [setVp]
  refine .perspective_bind fun q hq => Succeeds.failsClean ?_
  have hnew := get?_modifyPerspective hq fun p => p.setVp c vp
  refine Succeeds.bind (.modifyGet _) fun _ t ht => ?_
  cases ht
  exact succeeds_changeBoxes hnew _

theorem failsClean_beginDrag (key : BoxKey) : FailsClean (beginDrag key) s := by
  rw [beginDrag]
  exact .box_bind fun b _ => Succeeds.failsClean ⟨_, _, rfl⟩

theorem failsClean_drag (key : BoxKey)
    (motion : Box K → Projection K → Except SceneError (Box K × DragSession K)) :
    FailsClean (drag key motion) s := by
  cases hm : s.mapOf? key with
  | none =>
    obtain ⟨e, he⟩ := drag_run_of_none motion hm
    exact .of_error he
  | some m =>
    obtain ⟨b, hb⟩ := box_of_mapOf? hm
    have hrun := drag_run motion hb hm
    cases hmove : motion b m with
    | error e =>
      rw [hmove] at hrun
      exact .of_error hrun
    | ok r =>
      rw [hmove] at hrun
      exact Succeeds.failsClean ⟨_, _, hrun⟩

theorem failsClean_cancelDrag (key : BoxKey) : FailsClean (cancelDrag key) s := by
  cases hb : s.boxes.get? key with
  | none =>
    have hrun := box_run key s
    rw [hb] at hrun
    rw [cancelDrag]
    exact .of_error_bind hrun
  | some b =>
    obtain ⟨f, -, hrun⟩ := cancelDrag_run hb
    exact Succeeds.failsClean ⟨_, _, hrun⟩

-- A new box can be attached to a perspective that is there.
theorem succeeds_addTo {p : PerspectiveKey} {q : Perspective K}
    (hq : s.perspectives.get? p = some q) (make : String → Box K) : Succeeds (addTo p make) s := by
  rw [addTo]
  refine Succeeds.bind (.modifyGet _) fun id t ht => ?_
  cases ht
  refine Succeeds.bind (.modifyGet _) fun key t ht => ?_
  cases ht
  have hput : ((s.freshId "box3d").2.insertBox (make (s.freshId "box3d").1)).2.boxes.get?
      ((s.freshId "box3d").2.insertBox (make (s.freshId "box3d").1)).1 =
        some { make (s.freshId "box3d").1 with link := .none } := by
    rw [insertBox, SlotTable.get?_insert, if_pos rfl]
  exact Succeeds.bind ⟨_, _, attach_run hput hq⟩ fun _ _ _ => .pure _

theorem failsClean_addBox (corners : Corners K) (p : PerspectiveKey) :
    FailsClean (addBox corners p) s := by
  rw [addBox]
  exact .perspective_bind fun q hq => (succeeds_addTo hq _).failsClean

theorem get?_currentOrDefault (s : Scene K) :
    ∃ q, s.currentOrDefault.2.perspectives.get? s.currentOrDefault.1 = some q := by
  rw [currentOrDefault]
  cases hc : s.current.filter s.perspectives.contains with
  | some key => exact (SlotTable.contains_iff _ _).1 (Option.filter_eq_some_iff.1 hc).2
  | none => exact ⟨_, get?_insertPerspective _ _⟩

theorem succeeds_addCreatedBox (creation : BoxCreation K) :
    Succeeds (addCreatedBox creation) s := by
  rw [addCreatedBox]
  refine Succeeds.bind (.modifyGet _) fun p t ht => ?_
  cases ht
  obtain ⟨q, hq⟩ := get?_currentOrDefault s
  exact succeeds_addTo hq _

omit [Scalar K] in
theorem box_there_modifyBox {k key : BoxKey} (f : Box K → Box K)
    (hk : ∃ b, s.boxes.get? k = some b) : ∃ b, (s.modifyBox key f).boxes.get? k = some b := by
  obtain ⟨b, hb⟩ := hk
  simp only [modifyBox, SlotTable.get?_modify]
  split
  · next he => exact ⟨f b, by rw [← he, hb]; rfl⟩
  · exact ⟨b, hb⟩

-- Boxes that are there can be taken over one by one.
theorem Linked.succeeds_takeOver (h : s.Linked) {p : PerspectiveKey}
    (hp : ∃ q, s.perspectives.get? p = some q) {keys : List BoxKey}
    (hkeys : ∀ key ∈ keys, ∃ b, s.boxes.get? key = some b) :
    Succeeds (keys.forM fun key => do
      move key p
      modify fun s => s.modifyBox key Box.saveCorners) s := by
  induction keys generalizing s with
  | nil => exact .pure _
  | cons key keys ih =>
    obtain ⟨q, hq⟩ := hp
    obtain ⟨b, hb⟩ := hkeys key List.mem_cons_self
    have hmoved := h.moved hb hq
    refine Succeeds.bind (Succeeds.bind ⟨_, _, move_run hb hq⟩ fun _ _ _ => .modifyGet _)
      fun _ t ht => ?_
    rw [EStateM.run_bind, move_run hb hq] at ht
    cases ht
    exact ih (hmoved.linked.edit key .saveCorners) (hmoved.perspective_there ⟨q, hq⟩) fun k hk =>
      box_there_modifyBox _ (hmoved.box_there (hkeys k (List.mem_cons_of_mem _ hk)))

theorem Linked.failsClean_absorb (h : s.Linked) (keep other : PerspectiveKey) :
    FailsClean (absorb keep other) s := by
  rw [absorb]
  split
  · exact (Succeeds.pure _).failsClean
  · refine failsClean_coincide_bind fun x y hx hy => ?_
    cases hsame : x.coincides y with
    | false =>
      simp only [Bool.false_eq_true, if_false]
      refine .perspective_bind fun _ _ => .perspective_bind fun _ _ => ?_
      exact .of_error_bind rfl
    | true =>
      simp only [if_true]
      refine .perspective_bind fun z hz => Succeeds.failsClean ?_
      refine h.succeeds_takeOver ⟨x, hx⟩ fun key hkey => ?_
      obtain ⟨b, hb, -⟩ := h.listed hz hkey
      exact ⟨b, hb⟩

theorem Linked.succeeds_transformSelection (h : s.Linked) (selection : List BoxKey)
    (f : Affine K) : Succeeds (transformSelection selection f) s := by
  obtain ⟨d, t, hrun, -⟩ := h.transformPerspectives_run (nodup_selectedPerspectives s selection)
    (live_selectedPerspectives s selection) selection f
  exact ⟨_, t, hrun⟩

end Scalar

end Scene

variable [Scalar K]

-- A command that does one thing or nothing. To toggle the vanishing points of several
-- perspectives is one thing after the other, and a finished drag is kept also for a box that
-- cannot be updated.
def Command.IsAtomic : Command K α → Prop
  | .toggleVps _ _ => False
  | .finishDrag _ => False
  | _ => True

def Box.DragStep.command (key : BoxKey) (session : DragSession K) :
    DragStep K → Command K (DragSession K)
  | .corner id pointer movement constrained =>
    .dragCorner key id pointer movement constrained session
  | .center pointer grip movement constrained =>
    .dragCenter key pointer grip movement constrained session

theorem Box.DragStep.run_command [Numeric K] (step : DragStep K) (key : BoxKey)
    (session : DragSession K) :
    (step.command key session).run = Scene.drag key (step.outcome session) := by
  cases step <;> rfl

namespace Scene

variable {s t : Scene K} [Numeric K]

theorem Linked.failsClean_command (h : s.Linked) (c : Command K α) (hc : c.IsAtomic) :
    FailsClean c.run s := by
  cases c with
  | setSettings settings => exact failsClean_setSettings settings
  | insertPerspective p => exact (Succeeds.modifyGet _).failsClean
  | addPerspective map => exact (Succeeds.modifyGet _).failsClean
  | addDefaultPerspective => exact (Succeeds.modifyGet _).failsClean
  | duplicatePerspective p => exact failsClean_duplicatePerspective p
  | removePerspective p => exact failsClean_removePerspective p
  | removeUnusedPerspectives => exact (Succeeds.modifyGet _).failsClean
  | setCurrent p => exact failsClean_setCurrent p
  | currentOrDefault => exact (Succeeds.modifyGet _).failsClean
  | absorb keep other => exact h.failsClean_absorb keep other
  | addBox corners p => exact failsClean_addBox corners p
  | addCreatedBox creation => exact (succeeds_addCreatedBox creation).failsClean
  | removeBox b => exact failsClean_removeBox b
  | flattenBox b => exact failsClean_flattenBox b
  | editBox b edit => exact failsClean_editBox b edit
  | attach b p => exact failsClean_attach b p
  | detach b => exact failsClean_setLink b .none
  | move b p => exact failsClean_move b p
  | setHref b href => exact failsClean_setHref b href
  | transformSelection selection f => exact (h.succeeds_transformSelection selection f).failsClean
  | toggleVp p c => exact failsClean_changeVp p _
  | toggleVps ps c => exact hc.elim
  | setVpState p c state => exact failsClean_changeVp p _
  | rotateVp p c angle fine => exact failsClean_changeVp p _
  | setVp p c vp => exact failsClean_setVp p c vp
  | redrawBoxes p => exact failsClean_changeBoxes p fun m _ b => b.redraw m
  | refreshBoxes p => exact failsClean_changeBoxes p fun m strategy b => b.refresh m strategy
  | reorderBoxes p =>
    exact failsClean_changeBoxes p fun m strategy b => (b.updateOrder m strategy).2
  | updateBox b => exact failsClean_updateBox b
  | beginDrag b => exact failsClean_beginDrag b
  | dragCorner b id pointer movement constrained session => exact failsClean_drag b _
  | dragCenter b pointer grip movement constrained session => exact failsClean_drag b _
  | finishDrag b => exact hc.elim
  | cancelDrag b => exact failsClean_cancelDrag b
  | write => exact (Succeeds.modifyGet _).failsClean

omit [Numeric K] in
-- A drag that fails has not come to changing the scene or the session.
theorem eq_of_performDrag_error {key : BoxKey} {step : Box.DragStep K}
    {session next : DragSession K} {e : SceneError}
    (h : (performDrag key step).run (s, session) = .error e (t, next)) :
    t = s ∧ next = session := by
  rw [performDrag_run] at h
  cases hrun : (drag key (step.outcome session)).run s with
  | ok a u =>
    rw [hrun] at h
    cases h
  | error d u =>
    rw [hrun] at h
    cases h
    exact ⟨failsClean_drag key _ _ _ hrun, rfl⟩

-- A command that fails changes nothing about the scene. Nor is the session of a drag changed, which
-- otherwise comes to be what the command answers.
theorem Reachable.eq_of_error (h : s.Reachable) :
    (∀ {α : Type} (c : Command K α), c.IsAtomic → ∀ e t, c.run.run s = .error e t → t = s) ∧
    ∀ (key : BoxKey) (step : Box.DragStep K) (session : DragSession K),
      ((performDrag key step).run (s, session) =
        match (step.command key session).run.run s with
        | .ok next t => .ok ⟨⟩ (t, next)
        | .error e t => .error e (t, session)) ∧
      ∀ e t next, (performDrag key step).run (s, session) = .error e (t, next) →
        t = s ∧ next = session := by
  refine ⟨fun c hc => h.linked.failsClean_command c hc, fun key step session => ⟨?_, ?_⟩⟩
  · rw [step.run_command]
    exact performDrag_run key step s session
  · exact fun _ _ _ => eq_of_performDrag_error

-- There is no corner 9 to be dragged.
theorem eq_of_error_sketch : sketch.Reachable ∧ ∃ e,
    (Command.dragCorner ⟨1, 1⟩ 9 ⟨0, 0⟩ .xy true (.start sketch.settings)).run.run sketch =
      .error e sketch ∧
    (performDrag ⟨1, 1⟩ (.corner 9 ⟨0, 0⟩ .xy true)).run (sketch, .start sketch.settings) =
      .error e (sketch, .start sketch.settings) := by
  have hrefused : (match (Command.dragCorner ⟨1, 1⟩ 9 ⟨0, 0⟩ .xy true
      (.start sketch.settings)).run.run sketch with
      | .ok _ _ => false
      | .error _ _ => true) = true := by decide +kernel
  obtain ⟨hcommands, hdrags⟩ := reachable_sketch.eq_of_error
  refine ⟨reachable_sketch, ?_⟩
  have hperform := (hdrags ⟨1, 1⟩ (.corner 9 ⟨0, 0⟩ .xy true) (.start sketch.settings)).1
  simp only [Box.DragStep.command] at hperform
  cases hrun : (Command.dragCorner ⟨1, 1⟩ 9 ⟨0, 0⟩ .xy true
      (.start sketch.settings)).run.run sketch with
  | ok session t =>
    rw [hrun] at hrefused
    cases hrefused
  | error e t =>
    have hsame : t = sketch := hcommands
      (.dragCorner ⟨1, 1⟩ 9 ⟨0, 0⟩ .xy true (.start sketch.settings)) trivial e t hrun
    rw [hrun, hsame] at hperform
    exact ⟨e, by rw [hsame], hperform⟩

end Scene

end PerspectiveBox
