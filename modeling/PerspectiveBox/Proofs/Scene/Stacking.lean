import PerspectiveBox.Proofs.Scene.Entering

namespace PerspectiveBox

variable {K α β : Type}

namespace Box

variable [Scalar K]

-- The side of a slot is the only one there.
theorem Made.side?_slot {b : Box K} (h : b.Made) {s : Side K} (hs : s ∈ b.sides) :
    b.side? s.slot = some s := by
  have hnodup : (b.sides.map Side.slot).Nodup :=
    h.complete_paintOrder.nodup_iff.2 List.nodup_range
  cases hfind : b.side? s.slot with
  | none => exact absurd (beq_iff_eq.2 rfl) (List.find?_eq_none.1 hfind s hs)
  | some t =>
    have ht : t ∈ b.sides := List.mem_of_find?_eq_some hfind
    have hslot : t.slot = s.slot := by simpa using List.find?_some hfind
    rw [List.inj_on_of_nodup_map hnodup ht hs hslot]

theorem Made.map_paintOrder {b : Box K} (h : b.Made) :
    b.paintOrder.map b.side? = b.sides.map some := by
  rw [paintOrder, List.map_map]
  exact List.map_congr_left fun s hs => h.side?_slot hs

theorem Made.length_sides {b : Box K} (h : b.Made) : b.sides.length = Face.count := by
  have hlength := h.complete_paintOrder.length_eq
  rw [paintOrder, List.length_map, List.length_range] at hlength
  exact hlength

end Box

namespace Scene

-- The boxes that a perspective lists.
def listed (s : Scene K) (p : PerspectiveKey) : List BoxKey :=
  ((s.perspectives.get? p).map Perspective.boxes).getD []

theorem listed_of_get? {s : Scene K} {p : PerspectiveKey} {q : Perspective K}
    (hq : s.perspectives.get? p = some q) : s.listed p = q.boxes := by
  rw [listed, hq]
  rfl

variable [Scalar K]

-- The face order of a box is the one of its corners in its projection.
def InOrder (s : Scene K) (key : BoxKey) : Prop :=
  ∃ b m, s.boxes.get? key = some b ∧ s.mapOf? key = some m ∧
    b.order = some (b.corners.faceOrder m s.settings.strategy)

theorem inOrder_of_updateOrder {s : Scene K} {key : BoxKey} {b : Box K} {m : Projection K}
    (hb : s.boxes.get? key = some (b.updateOrder m s.settings.strategy).2)
    (hm : s.mapFor b.link = some m) : s.InOrder key := by
  have hlink := (Box.edited_link b (.updateOrder m s.settings.strategy)).2
  refine ⟨_, m, hb, ?_, ?_⟩
  · rw [mapOf?_eq hb]
    exact hlink ▸ hm
  · rw [Box.corners_updateOrder]
    exact b.order_updateOrder m s.settings.strategy

-- All boxes of a perspective are in order when it has updated their order, whatever it did to
-- them before.
theorem Linked.inOrder_changeBoxes {s t : Scene K} (h : s.Linked) {p : PerspectiveKey}
    (prepare : Projection K → Box K → Box K) (hlink : ∀ m b, (prepare m b).link = b.link)
    (hrun : (changeBoxes p fun m strategy b =>
      ((prepare m b).updateOrder m strategy).2).run s = .ok ⟨⟩ t) :
    ∀ key ∈ t.listed p, t.InOrder key := by
  rw [changeBoxes, EStateM.run_bind, perspective_run] at hrun
  cases hq : s.perspectives.get? p with
  | none =>
    rw [hq] at hrun
    cases hrun
  | some q =>
    rw [hq] at hrun
    cases hrun
    intro key hkey
    have hmem : key ∈ q.boxes := (listed_of_get? hq) ▸ hkey
    obtain ⟨x, hx, -⟩ := h.listed hq hmem
    have hmap : s.mapFor (prepare q.map x).link = some q.map := by
      rw [hlink, h.mapFor_eq hq hmem hx]
    refine inOrder_of_updateOrder (b := prepare q.map x) ?_ hmap
    refine (SlotTable.get?_modifyAll s.boxes (h.nodup hq) _ key).trans ?_
    rw [if_pos hmem, hx]
    rfl

theorem Linked.inOrder_refreshBoxes {s t : Scene K} (h : s.Linked) {p : PerspectiveKey}
    (hrun : (refreshBoxes p).run s = .ok ⟨⟩ t) : ∀ key ∈ t.listed p, t.InOrder key :=
  h.inOrder_changeBoxes (fun m b => b.saveCorners.redraw m) (fun _ _ => rfl) hrun

theorem Linked.inOrder_reorderBoxes {s t : Scene K} (h : s.Linked) {p : PerspectiveKey}
    (hrun : (reorderBoxes p).run s = .ok ⟨⟩ t) : ∀ key ∈ t.listed p, t.InOrder key :=
  h.inOrder_changeBoxes (fun _ b => b) (fun _ _ => rfl) hrun

-- A change of a vanishing point that took place was followed by a refresh.
theorem Linked.inOrder_changeVp {s t : Scene K} (h : s.Linked) {p : PerspectiveKey}
    {change : Perspective K → Bool × Perspective K} (hchange : VpChange change)
    (hrun : (changeVp p change).run s = .ok true t) : ∀ key ∈ t.listed p, t.InOrder key := by
  rw [changeVp, EStateM.run_bind, perspective_run] at hrun
  cases hq : s.perspectives.get? p with
  | none =>
    rw [hq] at hrun
    cases hrun
  | some q =>
    have hmap : (s.modifyPerspective p fun r => { r with map := (change q).2.map }) =
        s.modifyPerspective p fun _ => (change q).2 := modifyPerspective_congr hq (hchange q).symm
    have hlinked : (s.modifyPerspective p fun _ => (change q).2).Linked :=
      hmap ▸ h.map p fun _ => (change q).2.map
    rw [hq] at hrun
    obtain ⟨_, u, hmodify, hrest⟩ := bind_eq_ok_iff.1 hrun
    cases hmodify
    cases hdone : (change q).1 with
    | false =>
      simp only [hdone] at hrest
      cases hrest
    | true =>
      simp only [hdone, if_true] at hrest
      obtain ⟨_, _, hrefresh, hanswer⟩ := bind_eq_ok_iff.1 hrest
      cases hanswer
      exact hlinked.inOrder_refreshBoxes hrefresh

theorem inOrder_updateBox {s t : Scene K} {key : BoxKey}
    (hrun : (updateBox key).run s = .ok ⟨⟩ t) : t.InOrder key := by
  cases hm : s.mapOf? key with
  | none =>
    obtain ⟨e, he⟩ := mapOf_run_of_none hm
    rw [updateBox, EStateM.run_bind, he] at hrun
    cases hrun
  | some m =>
    rw [updateBox_run hm] at hrun
    cases hrun
    obtain ⟨b, hb⟩ := box_of_mapOf? hm
    have hmap : s.mapFor b.link = some m := (mapOf?_eq hb).symm.trans hm
    exact inOrder_of_updateOrder (b := b.redraw m) (get?_modifyBox hb _) hmap

-- A drag leaves the link alone, so the box is in the projection in which it was dragged.
theorem inOrder_drag {s t : Scene K} {key : BoxKey}
    {motion : Box K → Projection K → Except SceneError (Box K × DragSession K)}
    (hmotion : ∀ {b m moved session}, motion b m = .ok (moved, session) → moved.link = b.link)
    {next : DragSession K} (hrun : (drag key motion).run s = .ok next t) : t.InOrder key := by
  cases hm : s.mapOf? key with
  | none =>
    obtain ⟨e, he⟩ := drag_run_of_none motion hm
    rw [he] at hrun
    cases hrun
  | some m =>
    obtain ⟨b, hb⟩ := box_of_mapOf? hm
    have hmap : s.mapFor b.link = some m := (mapOf?_eq hb).symm.trans hm
    rw [drag_run motion hb hm] at hrun
    cases hmove : motion b m with
    | error e =>
      rw [hmove] at hrun
      cases hrun
    | ok r =>
      rw [hmove] at hrun
      cases hrun
      have hlink : r.1.link = b.link := hmotion hmove
      exact inOrder_of_updateOrder (b := r.1.redraw m) (get?_modifyBox hb _) (hlink ▸ hmap)

variable {settings : Settings K}

theorem settings_redrawBox (s : Scene K) (key : BoxKey) :
    (s.redrawBox key).settings = s.settings := by
  rw [redrawBox]
  cases s.mapOf? key <;> rfl

-- Isolating boxes and mapping their perspective does not touch the settings.
theorem keeps_settings_move (key : BoxKey) (p : PerspectiveKey) :
    Keeps (fun s => s.settings = settings) (move key p : SceneM K Unit) := by
  intro s hs
  cases hb : s.boxes.get? key with
  | none =>
    rw [move, after_box_bind, hb]
    exact hs
  | some b =>
    cases hq : s.perspectives.get? p with
    | none =>
      rw [move, after_box_bind, hb]
      simp only [after_bind_pure]
      rw [attach, after_perspective_bind, hq]
      exact hs
    | some q =>
      rw [after_of_run_ok (move_run hb hq), settings_redrawBox, settings_linked]
      exact hs

theorem keeps_settings_transformPerspective (selection : List BoxKey) (f : Affine K)
    (p : PerspectiveKey) :
    Keeps (fun s => s.settings = settings) (transformPerspective selection f p) := by
  have hduplicate : Keeps (fun s => s.settings = settings)
      (duplicatePerspective p : SceneM K PerspectiveKey) := by
    intro s hs
    rw [duplicatePerspective, after_perspective_bind]
    cases s.perspectives.get? p <;> exact hs
  have hrefresh (target : PerspectiveKey) : Keeps (fun s => s.settings = settings)
      (refreshBoxes target : SceneM K Unit) := by
    intro s hs
    rw [refreshBoxes, changeBoxes, after_perspective_bind]
    cases s.perspectives.get? target <;> exact hs
  have hisolate : Keeps (fun s => s.settings = settings) (isolate p selection : SceneM K _) := by
    refine (Keeps.of_after_eq fun s => after_hasAllBoxes s p selection).bind fun all s hs => ?_
    rw [after_ite]
    split
    · exact hs
    · refine hduplicate.bind (fun fork => ?_) s hs
      refine (Keeps.of_after_eq fun t => after_selectedBoxes t p selection).bind fun keys => ?_
      exact (Keeps.forM fun key _ => keeps_settings_move key fork).bind fun _ => .pure _
  refine hisolate.bind fun target s hs => ?_
  exact (hrefresh target).bind (fun _ => .pure _) _ hs

variable {s t : Scene K} {selection : List BoxKey} {f : Affine K}

theorem Linked.inOrder_transformPerspective (h : s.Linked) {p target : PerspectiveKey}
    (hrun : (transformPerspective selection f p).run s = .ok target t) :
    ∀ key ∈ t.listed target, t.InOrder key := by
  obtain ⟨other, u, hisolate, hrest⟩ := bind_eq_ok_iff.1 hrun
  have hlinked : u.Linked := after_of_run_ok hisolate ▸ h.changes (changes_isolate s p selection)
  obtain ⟨_, _, hmodify, hrest⟩ := bind_eq_ok_iff.1 hrest
  cases hmodify
  obtain ⟨_, _, hrefresh, hanswer⟩ := bind_eq_ok_iff.1 hrest
  cases hanswer
  exact (hlinked.map target fun m => m.applyAffine f).inOrder_refreshBoxes hrefresh

-- Mapping other perspectives leaves the boxes of this one as they are.
theorem Transformed.inOrder_kept {ps : List PerspectiveKey}
    {d : PerspectiveKey → PerspectiveKey} (h : s.Linked) (ht : Transformed s ps selection f d t)
    (hsettings : t.settings = s.settings) {p : PerspectiveKey} (hout : p ∉ ps)
    {q : Perspective K} (hq : s.perspectives.get? p = some q)
    (horder : ∀ key ∈ s.listed p, s.InOrder key) : ∀ key ∈ t.listed p, t.InOrder key := by
  have hsame : t.perspectives.get? p = some q := ht.others hout hq
  intro key hkey
  rw [listed_of_get? hsame, ← listed_of_get? hq] at hkey
  obtain ⟨b, m, hb, hm, hbm⟩ := horder key hkey
  rw [listed_of_get? hq] at hkey
  have htarget : b.link.target = some p := h.target_eq hq hkey hb
  have hkept : t.boxes.get? key = some b := by
    rw [ht.kept, hb]
    intro x k hx hk hkps
    rw [hb, Option.some.injEq] at hx
    rw [← hx, htarget, Option.some.injEq] at hk
    exact absurd (hk ▸ hkps) hout
  have hmap : t.mapOf? key = some m := by
    rw [← hm, mapOf?_eq hkept, mapOf?_eq hb, mapFor, mapFor, htarget, Option.bind_some,
      Option.bind_some, hsame, hq]
  exact ⟨b, m, hkept, hmap, hsettings ▸ hbm⟩

-- What was put in order for one perspective stays so for the rest of them.
theorem Linked.inOrder_transformPerspectives {ps keys : List PerspectiveKey} (h : s.Linked)
    (hnodup : ps.Nodup) (hlive : ∀ p ∈ ps, ∃ q, s.perspectives.get? p = some q)
    (hrun : (ps.mapM (transformPerspective selection f)).run s = .ok keys t) :
    ∀ p ∈ keys, ∀ key ∈ t.listed p, t.InOrder key := by
  induction ps generalizing s keys with
  | nil =>
    cases hrun
    nofun
  | cons p ps ih =>
    obtain ⟨hp, hps⟩ := List.nodup_cons.1 hnodup
    obtain ⟨q, hq⟩ := hlive p List.mem_cons_self
    obtain ⟨target, u, hrunfirst, hfirst⟩ := h.transformPerspective_run hq selection f
    have hlive' : ∀ k ∈ ps, ∃ r, u.perspectives.get? k = some r := by
      intro k hk
      obtain ⟨r, hr⟩ := hlive k (List.mem_cons_of_mem _ hk)
      exact ⟨r, hfirst.rest_eq hp hk hr⟩
    obtain ⟨d, v, hrunrest, hrest⟩ :=
      hfirst.linked.transformPerspectives_run hps hlive' selection f
    have hsettings : v.settings = u.settings := by
      rw [← after_of_run_ok hrunrest]
      exact Keeps.mapM (keeps_settings_transformPerspective selection f) ps u rfl
    obtain ⟨image, himage, -⟩ := hfirst.mapped List.mem_cons_self hq
    have hfirstorder := h.inOrder_transformPerspective hrunfirst
    have hkept := hrest.inOrder_kept hfirst.linked hsettings
      (hfirst.target_not_mem hp hlive) himage hfirstorder
    rw [List.mapM_cons, EStateM.run_bind, hrunfirst] at hrun
    simp only [EStateM.run_bind, hrunrest] at hrun
    cases hrun
    intro k hk
    rcases List.mem_cons.1 hk with rfl | hk
    · exact hkept
    · exact ih hfirst.linked hps hlive' hrunrest k hk

theorem Linked.inOrder_transformSelection {keys : List PerspectiveKey} (h : s.Linked)
    (hrun : (transformSelection selection f).run s = .ok keys t) :
    ∀ p ∈ keys, ∀ key ∈ t.listed p, t.InOrder key := by
  exact h.inOrder_transformPerspectives (nodup_selectedPerspectives s selection)
    (live_selectedPerspectives s selection) hrun

end Scene

variable [Scalar K]

-- The boxes that a command with this answer has brought up to date in the scene that it left.
def Command.refreshed (t : Scene K) : Command K α → α → List BoxKey
  | .toggleVp p _, changed => if changed then t.listed p else []
  | .setVpState p _ _, changed => if changed then t.listed p else []
  | .rotateVp p _ _ _, changed => if changed then t.listed p else []
  | .transformSelection _ _, keys => keys.flatMap t.listed
  | .refreshBoxes p, _ => t.listed p
  | .reorderBoxes p, _ => t.listed p
  | .updateBox b, _ => [b]
  | .dragCorner b _ _ _ _ _, _ => [b]
  | .dragCenter b _ _ _ _ _, _ => [b]
  | _, _ => []

namespace Scene

variable {s t : Scene K}

theorem Linked.inOrder_command [Numeric K] (h : s.Linked) {c : Command K α} {a : α}
    (hrun : c.run.run s = .ok a t) : ∀ key ∈ c.refreshed t a, t.InOrder key := by
  have hchanged {p : PerspectiveKey} {change : Perspective K → Bool × Perspective K}
      (hchange : VpChange change) {changed : Bool}
      (hrun : (changeVp p change).run s = .ok changed t) :
      ∀ key ∈ if changed then t.listed p else [], t.InOrder key := by
    cases changed with
    | false => nofun
    | true => exact h.inOrder_changeVp hchange hrun
  have hone {b : BoxKey} (hb : t.InOrder b) : ∀ key ∈ [b], t.InOrder key := by
    intro key hkey
    rw [List.mem_singleton.1 hkey]
    exact hb
  cases c with
  | toggleVp p c => exact hchanged (vpChange_changed _) hrun
  | setVpState p c state => exact hchanged (vpChange_setState c state) hrun
  | rotateVp p c angle fine => exact hchanged (vpChange_changed _) hrun
  | transformSelection selection f =>
    intro key hkey
    obtain ⟨p, hp, hkey⟩ := List.mem_flatMap.1 hkey
    exact h.inOrder_transformSelection hrun p hp key hkey
  | refreshBoxes p => exact h.inOrder_refreshBoxes hrun
  | reorderBoxes p => exact h.inOrder_reorderBoxes hrun
  | updateBox b => exact hone (inOrder_updateBox hrun)
  | dragCorner b id pointer movement constrained session =>
    refine hone (inOrder_drag (fun hdrag => ?_) hrun)
    rw [Box.eq_of_dragCorner hdrag]
  | dragCenter b pointer grip movement constrained session =>
    refine hone (inOrder_drag (fun hdrag => ?_) hrun)
    rw [Box.eq_of_dragCenter hdrag]
  | _ => nofun

-- A box is flattened to one path for each face, in the order of the paint stack.
theorem flattenBox_run [Numeric K] {key : BoxKey} {b : Box K} (hb : s.boxes.get? key = some b)
    (hmade : b.Made) : ∃ paths t, (flattenBox key).run s = .ok paths t ∧
      paths.length = Face.count ∧
      paths.map some = b.paintOrder.map fun slot => (b.side? slot).map Side.toPlainPath := by
  have hrun : (flattenBox key).run s = .ok (b.sides.map Side.toPlainPath)
      (s.after (removeBox key)) := by
    rw [after_of_run_ok (removeBox_run hb), flattenBox, EStateM.run_bind, removeBox_run hb]
    rfl
  refine ⟨_, _, hrun, ?_, ?_⟩
  · rw [List.length_map, hmade.length_sides]
  · have hstack := congrArg (List.map (Option.map Side.toPlainPath)) hmade.map_paintOrder
    rw [List.map_map, List.map_map] at hstack
    rw [List.map_map]
    exact hstack.symm

-- The stack of a box has every face once. It agrees with the stored order, which is the one of the
-- corners whenever a command has brought the box up to date.
theorem ReachableWith.stacks_agree [Numeric K] {P : Corners K → Prop} (h : s.ReachableWith P) :
    (∀ key b, s.boxes.get? key = some b → FaceOrder.Complete b.paintOrder ∧
      (∀ order, b.order = some order → order.Complete ∧ b.paintOrder = order.reverse) ∧
      ∃ paths t, (Command.flattenBox key).run.run s = .ok paths t ∧
        paths.length = Face.count ∧
        paths.map some = b.paintOrder.map fun slot => (b.side? slot).map Side.toPlainPath) ∧
    ∀ {α : Type} (c : Command K α) (a : α) (t : Scene K), c.run.run s = .ok a t →
      ∀ key ∈ c.refreshed t a, ∃ b m, t.boxes.get? key = some b ∧ t.mapOf? key = some m ∧
        b.order = some (b.corners.faceOrder m t.settings.strategy) := by
  refine ⟨fun key b hb => ?_, fun c a t hrun => h.reachable.linked.inOrder_command hrun⟩
  have hdrawn := h.drawn.boxes hb
  exact ⟨hdrawn.made.complete_paintOrder, hdrawn.stacked, flattenBox_run hb hdrawn.made⟩

-- Both boxes of the sketch are put in order when their perspective gets another vanishing point.
theorem stacks_agree_sketch : sketch.ReachableWith Corners.HasUnitWeights ∧
    ∃ t b m, (Command.toggleVp ⟨1, 1⟩ .x).run.run sketch = .ok true t ∧
      t.boxes.get? ⟨2, 1⟩ = some b ∧ t.mapOf? ⟨2, 1⟩ = some m ∧
      b.order = some (b.corners.faceOrder m t.settings.strategy) := by
  have hlisted : (match (Command.toggleVp ⟨1, 1⟩ .x).run.run sketch with
      | .ok changed t => changed && (t.listed ⟨1, 1⟩).contains ⟨2, 1⟩
      | .error _ _ => false) = true := by decide +kernel
  refine ⟨reachableWith_sketch, ?_⟩
  cases hrun : (Command.toggleVp ⟨1, 1⟩ .x).run.run sketch with
  | error e t =>
    rw [hrun] at hlisted
    cases hlisted
  | ok changed t =>
    rw [hrun] at hlisted
    obtain ⟨rfl, hmem⟩ := (Bool.and_eq_true _ _).mp hlisted
    obtain ⟨-, horder⟩ := reachableWith_sketch.stacks_agree
    obtain ⟨b, m, hb, hm, hbm⟩ := horder (.toggleVp ⟨1, 1⟩ .x) true t hrun ⟨2, 1⟩
      (List.contains_iff_mem.1 hmem)
    exact ⟨t, b, m, rfl, hb, hm, hbm⟩

end Scene

end PerspectiveBox
