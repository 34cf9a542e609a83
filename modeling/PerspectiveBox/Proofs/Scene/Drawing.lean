import PerspectiveBox.Proofs.Box.Drawn
import PerspectiveBox.Proofs.Scene.Selection

namespace PerspectiveBox.Scene

variable {K α β : Type}

variable [Scalar K]

-- All boxes but the stale ones are drawn in the projection that they are subject to.
structure DrawnBut (P : Corners K → Prop) (stale : List BoxKey) (s : Scene K) : Prop where
  linked : s.Linked
  boxes : ∀ {key b}, s.boxes.get? key = some b → b.Drawn P none
  shown : ∀ {key b}, s.boxes.get? key = some b → key ∉ stale → b.Drawn P (s.mapFor b.link)

abbrev Drawn (P : Corners K → Prop) (s : Scene K) : Prop := s.DrawnBut P []

variable {P : Corners K → Prop}

theorem drawn_ofSettings (settings : Settings K) : (ofSettings settings).Drawn P := by
  have hb (key : BoxKey) : (ofSettings settings).boxes.get? key = none := SlotTable.get?_empty key
  refine ⟨linked_ofSettings settings, fun h => ?_, fun h => ?_⟩
  · rw [hb] at h
    cases h
  · rw [hb] at h
    cases h

theorem Drawn.but {s : Scene K} (h : s.Drawn P) (stale : List BoxKey) : s.DrawnBut P stale :=
  ⟨h.linked, h.boxes, fun hb _ => h.shown hb List.not_mem_nil⟩

-- The one stale box is not stale either if it is not shown at all.
theorem DrawnBut.unshown {s : Scene K} {key : BoxKey} (h : s.DrawnBut P [key])
    (hmap : s.mapOf? key = none) : s.Drawn P := by
  refine ⟨h.linked, h.boxes, fun {other b} hb _ => ?_⟩
  by_cases hkey : other = key
  · rw [← mapOf?_eq hb, hkey, hmap]
    exact h.boxes hb
  · exact h.shown hb fun hmem => hkey (List.mem_singleton.1 hmem)

-- A change of the perspectives makes those boxes stale whose projection it changes.
theorem Drawn.perspectives {s t : Scene K} (h : s.Drawn P) (ht : t.Linked)
    (hboxes : t.boxes = s.boxes) {stale : List BoxKey}
    (hmaps : ∀ {key p q}, s.perspectives.get? p = some q → key ∈ q.boxes → key ∉ stale →
      (t.perspectives.get? p).map Perspective.map = some q.map) : t.DrawnBut P stale := by
  refine ⟨ht, fun hb => h.boxes (hboxes ▸ hb), fun {key b} hb hkey => ?_⟩
  rw [hboxes] at hb
  have hsame : t.mapFor b.link = s.mapFor b.link := by
    cases hlink : b.link.target with
    | none => rw [mapFor, mapFor, hlink]; rfl
    | some p =>
      obtain ⟨q, hq, hmem⟩ := h.linked.attached hb hlink
      rw [h.linked.mapFor_eq hq hmem hb, ← hmaps hq hmem hkey, mapFor, hlink, Option.bind_some]
  rw [hsame]
  exact h.shown hb List.not_mem_nil

-- A change of boxes keeps them drawn if it catches up with the stale ones.
theorem DrawnBut.modifyBoxes {s : Scene K} {stale keys : List BoxKey} (h : s.DrawnBut P stale)
    (hkeys : keys.Nodup) (hstale : ∀ key ∈ stale, key ∈ keys) {f : Box K → Box K}
    (hf : ∀ {key b}, key ∈ keys → s.boxes.get? key = some b →
      (f b).link = b.link ∧ (f b).Drawn P (s.mapFor b.link)) : (s.modifyBoxes keys f).Drawn P := by
  have hshown {key b} (hb : (s.modifyBoxes keys f).boxes.get? key = some b) :
      b.Drawn P (s.mapFor b.link) := by
    rw [Scene.modifyBoxes, SlotTable.get?_modifyAll _ hkeys] at hb
    split at hb
    · next hkey =>
      obtain ⟨x, hx, rfl⟩ := Option.map_eq_some_iff.1 hb
      obtain ⟨hlink, hdrawn⟩ := hf hkey hx
      rw [hlink]
      exact hdrawn
    · next hkey => exact h.shown hb fun hmem => hkey (hstale key hmem)
  exact ⟨h.linked.modifyBoxes hkeys fun hkey hb => (hf hkey hb).1,
    fun hb => (hshown hb).forget, fun hb _ => hshown hb⟩

theorem DrawnBut.modifyBox {s : Scene K} {key : BoxKey} (h : s.DrawnBut P [key])
    {f : Box K → Box K} (hf : ∀ b, s.boxes.get? key = some b →
      (f b).link = b.link ∧ (f b).Drawn P (s.mapFor b.link)) : (s.modifyBox key f).Drawn P :=
  h.modifyBoxes (List.nodup_singleton key) (fun _ hmem => hmem) fun hmem hb =>
    hf _ (List.mem_singleton.1 hmem ▸ hb)

-- A change of one box that does not catch up with it makes it stale.
theorem Drawn.changeBox {s t : Scene K} (h : s.Drawn P) (ht : t.Linked) {key : BoxKey}
    {f : Box K → Box K} (hboxes : t.boxes = s.boxes.modify key f)
    (hmaps : ∀ link, t.mapFor link = s.mapFor link)
    (hf : ∀ b, b.Drawn P none → (f b).Drawn P none) : t.DrawnBut P [key] := by
  have hget (other : BoxKey) : t.boxes.get? other =
      if other = key then (s.boxes.get? key).map f else s.boxes.get? other := by
    rw [hboxes, SlotTable.get?_modify]
  refine ⟨ht, fun {other x} hx => ?_, fun {other x} hx hother => ?_⟩
  · rw [hget] at hx
    split at hx
    · obtain ⟨y, hy, rfl⟩ := Option.map_eq_some_iff.1 hx
      exact hf y (h.boxes hy)
    · exact h.boxes hx
  · have hne : other ≠ key := fun he => hother (List.mem_singleton.2 he)
    rw [hget, if_neg hne] at hx
    rw [hmaps]
    exact h.shown hx List.not_mem_nil

theorem Drawn.saveCorners {s : Scene K} (h : s.Drawn P) (key : BoxKey) :
    (s.modifyBox key Box.saveCorners).Drawn P :=
  (h.but [key]).modifyBox fun _ hb => ⟨rfl, (h.shown hb List.not_mem_nil).saved⟩

-- A box that is linked anew is stale until it is redrawn.
theorem Drawn.link {s : Scene K} (h : s.Drawn P) {key : BoxKey} {b : Box K} {link : Link}
    (hb : s.boxes.get? key = some b) (hlink : LinkIn s link) :
    (s.linked key b.link.target link).DrawnBut P [key] := by
  refine h.changeBox (h.linked.link hb hlink) (linked_boxes s key b.link.target link)
    (fun l => ?_) fun x hx => hx.linked link
  cases ht : l.target with
  | none => rw [mapFor, mapFor, ht]; rfl
  | some p => rw [mapFor, mapFor, ht, Option.bind_some, Option.bind_some, h.linked.maps_linked hb]

theorem DrawnBut.redrawBox {s : Scene K} {key : BoxKey} (h : s.DrawnBut P [key]) :
    (s.redrawBox key).Drawn P := by
  rw [Scene.redrawBox]
  cases hm : s.mapOf? key with
  | none => exact h.unshown hm
  | some m =>
    refine h.modifyBox fun b hb => ⟨rfl, ?_⟩
    rw [← mapOf?_eq hb, hm]
    exact (h.boxes hb).redrawn m

-- What follows a link finds just the linked box stale.
theorem Drawn.setLink_bind {s : Scene K} (h : s.Drawn P) (key : BoxKey) {link : Link}
    (hlink : LinkIn s link) {f : LinkChange → SceneM K β}
    (hf : ∀ (change : LinkChange) (t : Scene K), t.DrawnBut P [key] →
      (t.after (f change)).Drawn P) : (s.after (setLink key link >>= f)).Drawn P := by
  rw [after_bind]
  cases hb : s.boxes.get? key with
  | none =>
    rw [setLink_run_of_none hb]
    exact h
  | some b =>
    rw [setLink_run_of_some hb]
    exact hf _ _ (h.link hb hlink)

theorem keeps_attach (key : BoxKey) (p : PerspectiveKey) :
    Keeps (Drawn P) (attach key p : SceneM K LinkChange) := by
  intro s h
  rw [attach]
  exact of_perspective_bind h fun q hq =>
    h.setLink_bind key (.attached hq) fun _ t ht => ht.redrawBox

theorem keeps_detach (key : BoxKey) : Keeps (Drawn P) (detach key : SceneM K LinkChange) := by
  intro s h
  rw [detach]
  cases hb : s.boxes.get? key with
  | none =>
    rw [after_of_run_error (setLink_run_of_none hb)]
    exact h
  | some b =>
    rw [after_of_run_ok (setLink_run_of_some hb)]
    exact (h.link hb .none).unshown (mapOf?_eq (get?_linked hb b.link.target .none))

theorem keeps_move (key : BoxKey) (p : PerspectiveKey) :
    Keeps (Drawn P) (move key p : SceneM K Unit) := by
  intro s h
  rw [move]
  exact of_box_bind h fun b _ => (keeps_attach key p).bind (fun _ => .pure _) s h

theorem keeps_setHref (key : BoxKey) (href : Option String) :
    Keeps (Drawn P) (setHref key href : SceneM K Unit) := fun s h =>
  of_setHref h (keeps_detach key s h) fun hread =>
    h.setLink_bind key (.resolved hread) fun _ _ ht => ht.redrawBox

theorem keeps_absorb (keep other : PerspectiveKey) :
    Keeps (Drawn P) (absorb keep other : SceneM K Unit) := by
  have hmove (key : BoxKey) : Keeps (Drawn P) (do
      move key keep
      modify fun s => s.modifyBox key Box.saveCorners : SceneM K PUnit) :=
    (keeps_move key keep).bind fun _ s h => h.saveCorners key
  intro s h
  rw [absorb]
  split
  · exact h
  · refine (Keeps.of_after_eq fun t => after_coincide t keep other).bind (fun same t ht => ?_) s h
    simp only [after_ite]
    split
    · exact of_perspective_bind ht fun p _ => Keeps.forM (fun key _ => hmove key) t ht
    · exact of_perspective_bind ht fun _ _ => of_perspective_bind ht fun _ _ => ht

theorem Drawn.insertBox {s : Scene K} (h : s.Drawn P) {b : Box K} (hb : b.Drawn P none) :
    (s.insertBox b).2.Drawn P := by
  have hmade (key : BoxKey) : (s.insertBox b).2.boxes.get? key =
      if key = (s.insertBox b).1 then some { b with link := .none } else s.boxes.get? key :=
    SlotTable.get?_insert s.boxes _ key
  have hshown {key x} (hx : (s.insertBox b).2.boxes.get? key = some x) :
      x.Drawn P (s.mapFor x.link) := by
    rw [hmade] at hx
    split at hx
    · cases hx
      exact hb.linked .none
    · exact h.shown hx List.not_mem_nil
  exact ⟨h.linked.insertBox b, fun hx => (hshown hx).forget, fun hx _ => hshown hx⟩

theorem Drawn.erase {s : Scene K} (h : s.Drawn P) {key : BoxKey} {b : Box K}
    (hb : s.boxes.get? key = some b) (hlink : b.link.target = none) :
    Drawn P { s with boxes := s.boxes.erase key } := by
  have hold {other x} (hx : (s.boxes.erase key).get? other = some x) :
      s.boxes.get? other = some x := by
    rw [SlotTable.get?_erase] at hx
    split at hx
    · cases hx
    · exact hx
  exact ⟨h.linked.removeBox hb hlink, fun hx => h.boxes (hold hx),
    fun hx => h.shown (hold hx)⟩

theorem Drawn.freshId {s : Scene K} (h : s.Drawn P) (stem : String) : (s.freshId stem).2.Drawn P :=
  h.perspectives (h.linked.change (.freshId stem)) rfl fun hq _ _ => congrArg _ hq

theorem keeps_addTo (p : PerspectiveKey) {make : String → Box K}
    (hmake : ∀ id, (make id).Drawn P none) : Keeps (Drawn P) (addTo p make) := by
  intro s h
  rw [addTo, after_modifyGet_bind, after_modifyGet_bind]
  have hput := (h.freshId "box3d").insertBox (hmake (s.freshId "box3d").1)
  exact (keeps_attach _ p).bind (fun _ => .pure _) _ hput

theorem keeps_addBox {corners : Corners K} (hcorners : P corners) (p : PerspectiveKey) :
    Keeps (Drawn P) (addBox corners p) := by
  intro s h
  rw [addBox]
  exact of_perspective_bind h fun q _ => keeps_addTo p (fun id => .ofCorners id hcorners) s h

theorem keeps_removeBox (key : BoxKey) : Keeps (Drawn P) (removeBox key : SceneM K (Box K)) := by
  intro s h
  cases hb : s.boxes.get? key with
  | none =>
    rw [removeBox, detach, after_bind, setLink_run_of_none hb]
    exact h
  | some b =>
    have hdetached := keeps_detach key s h
    rw [detach, after_of_run_ok (setLink_run_of_some hb)] at hdetached
    rw [after_of_run_ok (removeBox_run hb)]
    exact hdetached.erase (get?_linked hb b.link.target .none) rfl

theorem Drawn.insertPerspective {s : Scene K} (h : s.Drawn P) (p : Perspective K) :
    (s.insertPerspective p).2.Drawn P := by
  refine h.perspectives (h.linked.insertPerspective p) rfl fun {_ k q} hq _ _ => ?_
  rw [get?_insertPerspective_of_some hq p]
  rfl

theorem Drawn.addPerspective {s : Scene K} (h : s.Drawn P) (map : Projection K) :
    (s.addPerspective map).2.Drawn P :=
  (h.freshId "perspective").insertPerspective _

theorem Drawn.addDefaultPerspective {s : Scene K} (h : s.Drawn P) :
    s.addDefaultPerspective.2.Drawn P :=
  (h.freshId "perspective").insertPerspective _

theorem Drawn.setCurrent {s : Scene K} (h : s.Drawn P) {key : PerspectiveKey} {p : Perspective K}
    (hp : s.perspectives.get? key = some p) : Drawn P { s with current := some key } :=
  h.perspectives (h.linked.change (.current hp)) rfl fun hq _ _ => congrArg _ hq

theorem Drawn.currentOrDefault {s : Scene K} (h : s.Drawn P) : s.currentOrDefault.2.Drawn P := by
  rw [Scene.currentOrDefault]
  cases s.current.filter s.perspectives.contains with
  | some key => exact h
  | none => exact h.addDefaultPerspective.setCurrent (get?_insertPerspective _ _)

-- A perspective that goes has no boxes.
theorem Drawn.removePerspective {s : Scene K} (h : s.Drawn P) {key : PerspectiveKey}
    {p : Perspective K} (hp : s.perspectives.get? key = some p) (hempty : p.boxes = []) :
    Drawn P { s with
      perspectives := s.perspectives.erase key
      current := if s.current = some key then none else s.current } := by
  refine h.perspectives (h.linked.removePerspective hp hempty) rfl fun {b k q} hq hb _ => ?_
  have hne : k ≠ key := by
    intro he
    rw [he, hp, Option.some.injEq] at hq
    rw [← hq, hempty] at hb
    exact absurd hb List.not_mem_nil
  rw [SlotTable.get?_erase, if_neg hne, hq]
  rfl

theorem Drawn.removeUnused {s : Scene K} (h : s.Drawn P) :
    s.removeUnusedPerspectives.2.Drawn P := by
  refine h.perspectives h.linked.removeUnused rfl fun {b k q} hq hb _ => ?_
  have hused : (!q.boxes.isEmpty || decide (s.current = some k)) = true := by
    simp [List.ne_nil_of_mem hb]
  rw [removeUnusedPerspectives, SlotTable.get?_retain, hq, Option.filter_some, if_pos hused]
  rfl

theorem keeps_setSettings (settings : Settings K) :
    Keeps (Drawn P) (setSettings settings : SceneM K Unit) := by
  intro s h
  have hrun := setSettings_run settings s
  cases hv : settings.validate with
  | error e =>
    rw [hv] at hrun
    rw [after_of_run_error hrun]
    exact h
  | ok u =>
    rw [hv] at hrun
    rw [after_of_run_ok hrun]
    exact h.perspectives (h.linked.change (.settings hv)) rfl fun hq _ _ => congrArg _ hq

theorem keeps_duplicatePerspective (key : PerspectiveKey) :
    Keeps (Drawn P) (duplicatePerspective key : SceneM K PerspectiveKey) := by
  intro s h
  rw [duplicatePerspective]
  exact of_perspective_bind h fun p _ => h.addPerspective p.map

theorem keeps_removePerspective (key : PerspectiveKey) :
    Keeps (Drawn P) (removePerspective key : SceneM K (Perspective K)) := by
  intro s h
  rw [removePerspective]
  refine of_perspective_bind h fun p hp => ?_
  cases hempty : p.boxes with
  | nil =>
    simp only [List.isEmpty_nil]
    exact h.removePerspective hp hempty
  | cons b boxes =>
    simp only [List.isEmpty_cons]
    exact h

theorem keeps_setCurrent (key : PerspectiveKey) :
    Keeps (Drawn P) (setCurrent key : SceneM K Unit) := by
  intro s h
  rw [Scene.setCurrent]
  exact of_perspective_bind h fun p hp => h.setCurrent hp

theorem keeps_addCreatedBox {creation : BoxCreation K} (hcreation : P creation.corners) :
    Keeps (Drawn P) (addCreatedBox creation) := by
  intro s h
  rw [addCreatedBox, after_modifyGet_bind]
  exact keeps_addTo _ (fun id => .created id hcreation) _ h.currentOrDefault

theorem DrawnBut.updateBox {s : Scene K} {key : BoxKey} (h : s.DrawnBut P [key]) :
    (s.after (updateBox key)).Drawn P := by
  rw [Scene.updateBox, after_mapOf_bind]
  cases hm : s.mapOf? key with
  | none => exact h.unshown hm
  | some m =>
    refine h.modifyBox fun b hb =>
      ⟨(Box.edited_link b (.update m s.settings.strategy)).2, ?_⟩
    rw [← mapOf?_eq hb, hm]
    exact (h.boxes hb).updated m s.settings.strategy

-- A perspective catches up with its boxes.
theorem DrawnBut.changeBoxes {s : Scene K} {p : PerspectiveKey} {q : Perspective K}
    {stale : List BoxKey} (h : s.DrawnBut P stale) (hq : s.perspectives.get? p = some q)
    (hstale : ∀ key ∈ stale, key ∈ q.boxes) {f : Projection K → OrderStrategy → Box K → Box K}
    (hf : ∀ {key b}, key ∈ q.boxes → s.boxes.get? key = some b →
      (f q.map s.settings.strategy b).link = b.link ∧
        (f q.map s.settings.strategy b).Drawn P q.map) :
    (s.after (changeBoxes p f)).Drawn P := by
  rw [Scene.changeBoxes, after_perspective_bind, hq]
  refine h.modifyBoxes (h.linked.nodup hq) hstale fun hkey hb => ?_
  rw [h.linked.mapFor_eq hq hkey hb]
  exact hf hkey hb

theorem DrawnBut.redrawBoxes {s : Scene K} {p : PerspectiveKey} {q : Perspective K}
    (hq : s.perspectives.get? p = some q) (h : s.DrawnBut P q.boxes) :
    (s.after (redrawBoxes p)).Drawn P :=
  h.changeBoxes hq (fun _ hkey => hkey) fun _ hb => ⟨rfl, (h.boxes hb).redrawn q.map⟩

theorem DrawnBut.refreshBoxes {s : Scene K} {p : PerspectiveKey} {q : Perspective K}
    (hq : s.perspectives.get? p = some q) (h : s.DrawnBut P q.boxes) :
    (s.after (refreshBoxes p)).Drawn P :=
  h.changeBoxes hq (fun _ hkey => hkey) fun {_ b} _ hb =>
    ⟨Box.refresh_link b q.map s.settings.strategy,
      (h.boxes hb).refreshed q.map s.settings.strategy⟩

omit [Scalar K] in
theorem after_changeBoxes_of_none {s : Scene K} {p : PerspectiveKey}
    (hp : s.perspectives.get? p = none) (f : Projection K → OrderStrategy → Box K → Box K) :
    s.after (changeBoxes p f) = s := by
  rw [changeBoxes, after_perspective_bind, hp]

-- Boxes that are shown as they are can be brought up to date in part.
theorem keeps_changeBoxes {f : Projection K → OrderStrategy → Box K → Box K}
    (hf : ∀ {m : Projection K} {b : Box K} (strategy : OrderStrategy), b.Drawn P m →
      (f m strategy b).link = b.link ∧ (f m strategy b).Drawn P m) (p : PerspectiveKey) :
    Keeps (Drawn P) (changeBoxes p f) := by
  intro s h
  cases hq : s.perspectives.get? p with
  | none =>
    rw [after_changeBoxes_of_none hq]
    exact h
  | some q =>
    refine h.changeBoxes hq nofun fun hkey hb => ?_
    have hshown := h.shown hb List.not_mem_nil
    rw [h.linked.mapFor_eq hq hkey hb] at hshown
    exact hf s.settings.strategy hshown

theorem keeps_redrawBoxes (p : PerspectiveKey) :
    Keeps (Drawn P) (redrawBoxes p : SceneM K Unit) := by
  refine keeps_changeBoxes (fun {m b} _ hb => ?_) p
  exact ⟨rfl, hb.redrawn m⟩

theorem keeps_refreshBoxes (p : PerspectiveKey) :
    Keeps (Drawn P) (refreshBoxes p : SceneM K Unit) := by
  refine keeps_changeBoxes (fun {m b} strategy hb => ?_) p
  exact ⟨Box.refresh_link b m strategy, hb.refreshed m strategy⟩

theorem keeps_reorderBoxes (p : PerspectiveKey) :
    Keeps (Drawn P) (reorderBoxes p : SceneM K Unit) := by
  refine keeps_changeBoxes (fun {m b} strategy hb => ?_) p
  exact ⟨(Box.edited_link b (.updateOrder m strategy)).2, hb.reordered m strategy⟩

-- Another projection makes the boxes of the perspective stale.
theorem Drawn.map {s : Scene K} (h : s.Drawn P) {key : PerspectiveKey} {q : Perspective K}
    (hq : s.perspectives.get? key = some q) (f : Projection K → Projection K) :
    (s.modifyPerspective key fun p => { p with map := f p.map }).DrawnBut P q.boxes := by
  refine h.perspectives (h.linked.map key f) rfl fun {b k r} hr hb hout => ?_
  have hne : k ≠ key := by
    intro he
    rw [he, hq, Option.some.injEq] at hr
    exact hout (hr ▸ hb)
  rw [modifyPerspective, SlotTable.get?_modify, if_neg hne, hr]
  rfl

omit [Scalar K] in
-- A change that did not take place changed nothing.
theorem changed_of_false {p : Perspective K} {map? : Option (Projection K)}
    (h : (p.changed map?).1 = false) : (p.changed map?).2 = p := by
  cases map? with
  | none => rfl
  | some map => cases h

theorem setState_of_false {c : Coord} {state : VpState} {p : Perspective K}
    (h : (p.setState c state).1 = false) : (p.setState c state).2 = p := by
  rw [Perspective.setState] at h ⊢
  split
  · rfl
  · next hstate =>
    rw [if_neg hstate] at h
    exact changed_of_false h

-- A perspective that got another projection catches up with its boxes.
theorem Drawn.mapped {s : Scene K} (h : s.Drawn P) {p : PerspectiveKey} {q new : Perspective K}
    (hq : s.perspectives.get? p = some q) (hnew : new = { q with map := new.map }) :
    ((s.modifyPerspective p fun _ => new).after (Scene.refreshBoxes p)).Drawn P := by
  have hmap : (s.modifyPerspective p fun r => { r with map := new.map }) =
      s.modifyPerspective p fun _ => new := modifyPerspective_congr hq hnew.symm
  have hboxes : new.boxes = q.boxes := by rw [hnew]
  have hstale := h.map hq fun _ => new.map
  rw [hmap, ← hboxes] at hstale
  exact hstale.refreshBoxes (get?_modifyPerspective hq fun _ => new)

theorem keeps_changeVp {change : Perspective K → Bool × Perspective K} (hchange : VpChange change)
    (hidle : ∀ p, (change p).1 = false → (change p).2 = p) (p : PerspectiveKey) :
    Keeps (Drawn P) (changeVp p change) := by
  intro s h
  rw [changeVp]
  refine of_perspective_bind h fun q hq => ?_
  simp only [after_modify_bind]
  cases hdone : (change q).1 with
  | true =>
    simp only [if_true, after_bind_pure]
    exact h.mapped hq (hchange q)
  | false =>
    have hsame : (s.modifyPerspective p fun _ => (change q).2) = s := by
      refine modifyPerspective_eq_self fun r hr => ?_
      rw [hq, Option.some.injEq] at hr
      exact hr ▸ hidle q hdone
    rw [hsame]
    exact h

theorem keeps_toggleVp (p : PerspectiveKey) (c : Coord) :
    Keeps (Drawn P) (toggleVp p c : SceneM K Bool) :=
  keeps_changeVp (vpChange_changed _) (fun _ => changed_of_false) p

theorem keeps_setVp (p : PerspectiveKey) (c : Coord) (vp : HPoint2 K) :
    Keeps (Drawn P) (setVp p c vp) := by
  intro s h
  rw [setVp]
  refine of_perspective_bind h fun q hq => ?_
  have hnew := get?_modifyPerspective hq fun p => p.setVp c vp
  exact (h.map hq fun m => m.setColumn c vp).redrawBoxes hnew

theorem keeps_isolate (p : PerspectiveKey) (selection : List BoxKey) :
    Keeps (Drawn P) (isolate p selection : SceneM K PerspectiveKey) := by
  refine (Keeps.of_after_eq fun s => after_hasAllBoxes s p selection).bind fun all s h => ?_
  rw [after_ite]
  split
  · exact h
  · refine (keeps_duplicatePerspective p).bind (fun fork => ?_) s h
    refine (Keeps.of_after_eq fun t => after_selectedBoxes t p selection).bind fun keys => ?_
    exact (Keeps.forM fun key _ => keeps_move key fork).bind fun _ => .pure _

theorem keeps_transformSelection (selection : List BoxKey) (f : Affine K) :
    Keeps (Drawn P) (transformSelection selection f) := by
  intro s
  refine Keeps.mapM (fun p => (keeps_isolate p selection).bind fun target t h => ?_)
    (s.selectedPerspectives selection) s
  simp only [after_modify_bind, after_bind_pure]
  cases hq : t.perspectives.get? target with
  | none =>
    have hsame : (t.modifyPerspective target fun p => p.applyAffine f) = t :=
      modifyPerspective_eq_self (by simp [hq])
    rw [hsame, refreshBoxes, after_changeBoxes_of_none hq]
    exact h
  | some q =>
    have hmap : (t.modifyPerspective target fun p => p.applyAffine f) =
        t.modifyPerspective target fun _ => q.applyAffine f := modifyPerspective_congr hq rfl
    rw [hmap]
    exact h.mapped hq rfl

theorem keeps_beginDrag (key : BoxKey) :
    Keeps (Drawn P) (beginDrag key : SceneM K (DragSession K)) := by
  intro s h
  rw [beginDrag]
  exact of_box_bind h fun b _ => h.saveCorners key

theorem keeps_drag {motion : Box K → Projection K → Except SceneError (Box K × DragSession K)}
    (hmotion : ∀ {b m moved session}, motion b m = .ok (moved, session) → b.Drawn P none →
      moved.link = b.link ∧ moved.Drawn P none) (key : BoxKey) :
    Keeps (Drawn P) (drag key motion) := by
  intro s h
  refine of_drag h fun {b m moved session} hb hm hr => ?_
  obtain ⟨hlink, hmoved⟩ := hmotion hr (h.boxes hb)
  have hupdate := (Box.edited_link moved (.update m s.settings.strategy)).2
  refine (h.but [key]).modifyBox fun x hx => ?_
  rw [hb, Option.some.injEq] at hx
  rw [← hx, ← mapOf?_eq hb, hm]
  exact ⟨hupdate.trans hlink, hmoved.updated m s.settings.strategy⟩

theorem keeps_finishDrag (key : BoxKey) : Keeps (Drawn P) (finishDrag key : SceneM K Unit) := by
  intro s h
  rw [finishDrag]
  exact of_box_bind h fun b _ => ((h.saveCorners key).but [key]).updateBox

theorem keeps_cancelDrag (key : BoxKey) : Keeps (Drawn P) (cancelDrag key : SceneM K Unit) := by
  intro s h
  rw [cancelDrag]
  refine of_box_bind h fun b _ => ?_
  -- With its old corners back, the box is stale until it is updated.
  have hstale : (s.modifyBox key Box.cancelDrag).DrawnBut P [key] :=
    h.changeBox (h.linked.edit key .cancelDrag) rfl (fun _ => rfl) fun _ hb => hb.cancelled
  simp only [after_modify_bind, after_get_bind, after_ite]
  split
  · exact hstale.updateBox
  · next hnone =>
    refine hstale.unshown ?_
    rw [mapOf?, Option.not_isSome_iff_eq_none.1 hnone]
    rfl

end PerspectiveBox.Scene
