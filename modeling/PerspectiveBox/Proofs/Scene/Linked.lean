import PerspectiveBox.Proofs.Scene.Reachable

namespace PerspectiveBox

variable {K : Type}

namespace Perspective

theorem mem_boxes_addBox (p : Perspective K) (key other : BoxKey) :
    other ∈ (p.addBox key).boxes ↔ other = key ∨ other ∈ p.boxes := by
  rw [addBox]
  split
  · next h =>
    have hkey : key ∈ p.boxes := by simpa [hasBox] using h
    constructor
    · exact .inr
    · rintro (rfl | hother)
      · exact hkey
      · exact hother
  · simp [or_comm]

theorem mem_boxes_removeBox (p : Perspective K) (key other : BoxKey) :
    other ∈ (p.removeBox key).boxes ↔ other ≠ key ∧ other ∈ p.boxes := by
  simp [removeBox, and_comm]

theorem nodup_boxes_addBox {p : Perspective K} (h : p.boxes.Nodup) (key : BoxKey) :
    (p.addBox key).boxes.Nodup := by
  rw [addBox]
  split
  · exact h
  · next hkey =>
    have hout : key ∉ p.boxes := by simpa [hasBox] using hkey
    refine List.nodup_append.2 ⟨h, by simp, fun a ha b hb hab => ?_⟩
    rw [List.mem_singleton.1 hb] at hab
    exact hout (hab ▸ ha)

theorem nodup_boxes_removeBox {p : Perspective K} (h : p.boxes.Nodup) (key : BoxKey) :
    (p.removeBox key).boxes.Nodup :=
  h.filter _

theorem addBox_of_mem {p : Perspective K} {key : BoxKey} (h : key ∈ p.boxes) :
    p.addBox key = p :=
  if_pos (by simpa [hasBox] using h)

theorem removeBox_of_not_mem {p : Perspective K} {key : BoxKey} (h : key ∉ p.boxes) :
    p.removeBox key = p := by
  have hfilter : p.boxes.filter (· ≠ key) = p.boxes := by
    refine List.filter_eq_self.2 fun b hb => ?_
    have hne : b ≠ key := fun he => h (he ▸ hb)
    simpa using hne
  rw [removeBox, hfilter]

end Perspective

namespace Scene

structure Linked (s : Scene K) : Prop where
  -- A listed box is linked to the perspective that lists it.
  listed : ∀ {p q b}, s.perspectives.get? p = some q → b ∈ q.boxes →
    ∃ x, s.boxes.get? b = some x ∧ x.link.target = some p
  -- A linked box is listed by the perspective that it is linked to.
  attached : ∀ {b x p}, s.boxes.get? b = some x → x.link.target = some p →
    ∃ q, s.perspectives.get? p = some q ∧ b ∈ q.boxes
  nodup : ∀ {p q}, s.perspectives.get? p = some q → q.boxes.Nodup
  current : ∀ {p}, s.current = some p → ∃ q, s.perspectives.get? p = some q

theorem Linked.target_eq {s : Scene K} (h : s.Linked) {p : PerspectiveKey} {q : Perspective K}
    {b : BoxKey} {x : Box K} (hq : s.perspectives.get? p = some q) (hb : b ∈ q.boxes)
    (hx : s.boxes.get? b = some x) : x.link.target = some p := by
  obtain ⟨y, hy, hyp⟩ := h.listed hq hb
  rw [hx, Option.some.injEq] at hy
  rw [hy]
  exact hyp

theorem Linked.mem_boxes {s : Scene K} (h : s.Linked) {p : PerspectiveKey} {q : Perspective K}
    {b : BoxKey} {x : Box K} (hx : s.boxes.get? b = some x) (hxp : x.link.target = some p)
    (hq : s.perspectives.get? p = some q) : b ∈ q.boxes := by
  obtain ⟨r, hr, hb⟩ := h.attached hx hxp
  rw [hq, Option.some.injEq] at hr
  rw [hr]
  exact hb

-- After a box is linked anew, the perspective it is linked to lists it and the others do not.
theorem Linked.perspectives_linked {s : Scene K} (h : s.Linked) {key : BoxKey} {b : Box K}
    (hb : s.boxes.get? key = some b) (link : Link) (p : PerspectiveKey) :
    (s.linked key b.link.target link).perspectives.get? p = (s.perspectives.get? p).map fun q =>
      if link.target = some p then q.addBox key else q.removeBox key := by
  cases hp : s.perspectives.get? p with
  | none =>
    rw [linked, relist]
    split
    · simp [get?_modifyTarget, modifyBox, hp]
    · exact hp
  | some q =>
    -- A perspective that the box was not linked to does not list it.
    have hout (hne : b.link.target ≠ some p) : q.removeBox key = q :=
      Perspective.removeBox_of_not_mem fun hkey => hne (h.target_eq hp hkey hb)
    rw [linked, relist]
    split
    · next hchange =>
      have hne : b.link.target ≠ link.target := by simpa [LinkChange.isChange] using hchange
      simp only [get?_modifyTarget, modifyBox, hp, Option.map_some, Option.some.injEq]
      by_cases hnew : link.target = some p
      · have hold : b.link.target ≠ some p := fun ho => hne (ho.trans hnew.symm)
        rw [if_pos hnew, if_pos hnew, if_neg hold]
      · rw [if_neg hnew, if_neg hnew]
        split
        · rfl
        · next hold => exact (hout hold).symm
    · next hchange =>
      have heq : b.link.target = link.target := by simpa [LinkChange.isChange] using hchange
      have hsame : s.perspectives.get? p = some q := hp
      simp only [modifyBox, hsame, Option.map_some, Option.some.injEq]
      split
      · next hnew =>
        exact (Perspective.addBox_of_mem (h.mem_boxes hb (heq.trans hnew) hp)).symm
      · next hnew => exact (hout fun ho => hnew (heq ▸ ho)).symm

-- Linking a box anew changes no projection.
theorem Linked.maps_linked {s : Scene K} (h : s.Linked) {key : BoxKey} {b : Box K}
    (hb : s.boxes.get? key = some b) (link : Link) (p : PerspectiveKey) :
    ((s.linked key b.link.target link).perspectives.get? p).map Perspective.map =
      (s.perspectives.get? p).map Perspective.map := by
  rw [h.perspectives_linked hb, Option.map_map]
  refine congrArg (fun g => (s.perspectives.get? p).map g) (funext fun q => ?_)
  simp only [Function.comp]
  split
  · exact Perspective.addBox_map q key
  · rfl

-- A link that can be given leads to a perspective of the scene.
theorem LinkIn.target_mem {s : Scene K} {link : Link} (h : LinkIn s link) {p : PerspectiveKey}
    (hp : link.target = some p) : ∃ q, s.perspectives.get? p = some q := by
  cases h with
  | none => cases hp
  | attached hq => cases hp; exact ⟨_, hq⟩
  | resolved _ =>
    obtain ⟨q, hq, -⟩ := get?_of_findPerspective hp
    exact ⟨q, hq⟩

theorem Linked.link {s : Scene K} (h : s.Linked) {key : BoxKey} {b : Box K} {link : Link}
    (hb : s.boxes.get? key = some b) (hlink : LinkIn s link) :
    (s.linked key b.link.target link).Linked := by
  have hps := h.perspectives_linked hb link
  refine ⟨fun {p q c} hq hc => ?_, fun {c x p} hx ht => ?_, fun {p q} hq => ?_,
    fun {p} hp => ?_⟩
  · rw [hps] at hq
    obtain ⟨r, hr, rfl⟩ := Option.map_eq_some_iff.1 hq
    rw [linked_boxes, SlotTable.get?_modify]
    split at hc
    · next hnew =>
      rcases (Perspective.mem_boxes_addBox r key c).1 hc with rfl | hc
      · rw [if_pos rfl, hb]
        exact ⟨_, rfl, hnew⟩
      · obtain ⟨x, hx, ht⟩ := h.listed hr hc
        split
        · rw [hb]
          exact ⟨_, rfl, hnew⟩
        · exact ⟨x, hx, ht⟩
    · obtain ⟨hne, hc⟩ := (Perspective.mem_boxes_removeBox r key c).1 hc
      rw [if_neg hne]
      exact h.listed hr hc
  · rw [linked_boxes, SlotTable.get?_modify] at hx
    split at hx
    · next hkey =>
      rw [hb, Option.map_some, Option.some.injEq] at hx
      subst hx
      obtain ⟨q, hq⟩ := hlink.target_mem ht
      refine ⟨q.addBox key, ?_, ?_⟩
      · rw [hps, hq, Option.map_some, if_pos ht]
      · rw [hkey]
        exact (Perspective.mem_boxes_addBox q key key).2 (.inl rfl)
    · next hkey =>
      obtain ⟨q, hq, hc⟩ := h.attached hx ht
      rw [hps, hq]
      refine ⟨_, rfl, ?_⟩
      split
      · exact (Perspective.mem_boxes_addBox q key c).2 (.inr hc)
      · exact (Perspective.mem_boxes_removeBox q key c).2 ⟨hkey, hc⟩
  · rw [hps] at hq
    obtain ⟨r, hr, rfl⟩ := Option.map_eq_some_iff.1 hq
    split
    · exact Perspective.nodup_boxes_addBox (h.nodup hr) key
    · exact Perspective.nodup_boxes_removeBox (h.nodup hr) key
  · rw [linked, relist_eq] at hp
    obtain ⟨q, hq⟩ := h.current hp
    rw [hps, hq]
    exact ⟨_, rfl⟩

-- The perspective of a box is the one that it is linked to.
theorem Linked.perspectiveOf?_eq {s : Scene K} (h : s.Linked) (b : BoxKey) :
    s.perspectiveOf? b = (s.boxes.get? b).bind fun x => x.link.target := by
  cases hp : s.perspectiveOf? b with
  | some p =>
    obtain ⟨x, -, hx, ht, -⟩ := perspectiveOf?_eq_some_iff.1 hp
    rw [hx]
    exact ht.symm
  | none =>
    symm
    refine Option.bind_eq_none_iff.2 fun x hx => ?_
    cases ht : x.link.target with
    | none => rfl
    | some p =>
      obtain ⟨q, hq, -⟩ := h.attached hx ht
      rw [perspectiveOf?_eq_some_iff.2 ⟨x, q, hx, ht, hq⟩] at hp
      cases hp

-- All boxes of a perspective are subject to its projection.
theorem Linked.mapFor_eq {s : Scene K} (h : s.Linked) {p : PerspectiveKey} {q : Perspective K}
    (hq : s.perspectives.get? p = some q) {key : BoxKey} (hkey : key ∈ q.boxes) {b : Box K}
    (hb : s.boxes.get? key = some b) : s.mapFor b.link = some q.map := by
  rw [mapFor, h.target_eq hq hkey hb, Option.bind_some, hq]
  rfl

theorem Linked.insertPerspective {s : Scene K} (h : s.Linked) (p : Perspective K) :
    (s.insertPerspective p).2.Linked := by
  have hget := SlotTable.get?_insert s.perspectives { p with boxes := [] }
  refine ⟨fun {k q b} hq hb => ?_, fun {b x k} hx ht => ?_, fun {k q} hq => ?_,
    fun {k} hk => ?_⟩
  · simp only [Scene.insertPerspective, hget] at hq
    split at hq
    · cases hq
      cases hb
    · exact h.listed hq hb
  · obtain ⟨q, hq, hb⟩ := h.attached hx ht
    exact ⟨q, get?_insertPerspective_of_some hq p, hb⟩
  · simp only [Scene.insertPerspective, hget] at hq
    split at hq
    · cases hq
      exact List.nodup_nil
    · exact h.nodup hq
  · simp only [Scene.insertPerspective] at hk ⊢
    cases hc : s.current with
    | none =>
      rw [hc] at hk
      cases hk
      exact ⟨_, by rw [hget, if_pos rfl]⟩
    | some c =>
      rw [hc] at hk
      cases hk
      obtain ⟨q, hq⟩ := h.current hc
      exact ⟨q, get?_insertPerspective_of_some hq p⟩

-- Taking out perspectives without boxes, and with them the current one if it goes.
theorem Linked.restrict {s : Scene K} (h : s.Linked)
    {perspectives : SlotTable .perspective (Perspective K)} {current : Option PerspectiveKey}
    (hsub : ∀ {p q}, perspectives.get? p = some q → s.perspectives.get? p = some q)
    (hkeep : ∀ {p q}, s.perspectives.get? p = some q → q.boxes ≠ [] →
      perspectives.get? p = some q)
    (hcurrent : ∀ {p}, current = some p → ∃ q, perspectives.get? p = some q) :
    Linked { s with perspectives := perspectives, current := current } := by
  refine ⟨fun hq hb => h.listed (hsub hq) hb, fun hx ht => ?_, fun hq => h.nodup (hsub hq),
    hcurrent⟩
  obtain ⟨q, hq, hb⟩ := h.attached hx ht
  exact ⟨q, hkeep hq (List.ne_nil_of_mem hb), hb⟩

theorem Linked.removePerspective {s : Scene K} (h : s.Linked) {key : PerspectiveKey}
    {p : Perspective K} (hp : s.perspectives.get? key = some p) (hempty : p.boxes = []) :
    Linked { s with
      perspectives := s.perspectives.erase key
      current := if s.current = some key then none else s.current } := by
  refine h.restrict (fun {k q} hq => ?_) (fun {k q} hq hne => ?_) (fun {k} hk => ?_)
  · rw [SlotTable.get?_erase] at hq
    split at hq
    · cases hq
    · exact hq
  · rw [SlotTable.get?_erase, if_neg, hq]
    intro hkey
    rw [hkey, hp, Option.some.injEq] at hq
    exact hne (hq ▸ hempty)
  · split at hk
    · cases hk
    · next hne =>
      obtain ⟨q, hq⟩ := h.current hk
      refine ⟨q, ?_⟩
      rw [SlotTable.get?_erase, if_neg, hq]
      exact fun hkey => hne (hkey ▸ hk)

theorem Linked.removeUnused {s : Scene K} (h : s.Linked) :
    s.removeUnusedPerspectives.2.Linked := by
  refine h.restrict (fun {k q} hq => ?_) (fun {k q} hq hne => ?_) (fun {k} hk => ?_)
  · rw [SlotTable.get?_retain] at hq
    exact (Option.filter_eq_some_iff.1 hq).1
  · rw [SlotTable.get?_retain, hq]
    exact Option.filter_eq_some_iff.2 ⟨rfl, by simp [hne]⟩
  · obtain ⟨q, hq⟩ := h.current hk
    refine ⟨q, ?_⟩
    rw [SlotTable.get?_retain, hq]
    exact Option.filter_eq_some_iff.2 ⟨rfl, by simp [hk]⟩

theorem Linked.map {s : Scene K} (h : s.Linked) (key : PerspectiveKey)
    (f : Projection K → Projection K) :
    (s.modifyPerspective key fun p => { p with map := f p.map }).Linked := by
  have hget (k : PerspectiveKey) : (s.modifyPerspective key fun p =>
      { p with map := f p.map }).perspectives.get? k =
        (s.perspectives.get? k).map fun p => if k = key then { p with map := f p.map } else p := by
    rw [modifyPerspective, SlotTable.get?_modify]
    by_cases hk : k = key
    · simp [hk]
    · simp [hk]
  have hboxes {k q} (hq : (s.modifyPerspective key fun p =>
      { p with map := f p.map }).perspectives.get? k = some q) :
        ∃ r, s.perspectives.get? k = some r ∧ q.boxes = r.boxes := by
    rw [hget] at hq
    obtain ⟨r, hr, rfl⟩ := Option.map_eq_some_iff.1 hq
    refine ⟨r, hr, ?_⟩
    split <;> rfl
  refine ⟨fun hq hb => ?_, fun hx ht => ?_, fun hq => ?_, fun {k} hk => ?_⟩
  · obtain ⟨r, hr, hrb⟩ := hboxes hq
    exact h.listed hr (hrb ▸ hb)
  · obtain ⟨q, hq, hb⟩ := h.attached hx ht
    rw [hget, hq]
    refine ⟨_, rfl, ?_⟩
    split <;> exact hb
  · obtain ⟨r, hr, hrb⟩ := hboxes hq
    rw [hrb]
    exact h.nodup hr
  · obtain ⟨q, hq⟩ := h.current hk
    rw [hget, hq]
    exact ⟨_, rfl⟩

-- Putting in, taking out or changing boxes in a way that concerns no perspective.
theorem Linked.boxes {s : Scene K} (h : s.Linked) {boxes : SlotTable .box (Box K)}
    (hget : ∀ b p, (∃ x, boxes.get? b = some x ∧ x.link.target = some p) ↔
      ∃ x, s.boxes.get? b = some x ∧ x.link.target = some p) :
    Linked { s with boxes := boxes } := by
  refine ⟨fun hq hb => (hget _ _).2 (h.listed hq hb), fun {b x p} hx ht => ?_, h.nodup,
    h.current⟩
  obtain ⟨y, hy, hyt⟩ := (hget b p).1 ⟨x, hx, ht⟩
  exact h.attached hy hyt

theorem Linked.modifyBoxes {s : Scene K} (h : s.Linked) {keys : List BoxKey}
    (hkeys : keys.Nodup) {f : Box K → Box K}
    (hf : ∀ {key b}, key ∈ keys → s.boxes.get? key = some b → (f b).link = b.link) :
    (s.modifyBoxes keys f).Linked := by
  refine h.boxes fun key p => ?_
  rw [SlotTable.get?_modifyAll _ hkeys]
  split
  · next hkey =>
    cases hb : s.boxes.get? key with
    | none => rfl
    | some b => simp [hf hkey hb]
  · rfl

theorem Linked.insertBox {s : Scene K} (h : s.Linked) (b : Box K) :
    (s.insertBox b).2.Linked := by
  have hnew := SlotTable.get?_insert_key s.boxes { b with link := .none }
  have hinsert : (s.insertBox b).2 =
      { s with boxes := (s.boxes.insert { b with link := .none }).2 } := rfl
  rw [hinsert]
  refine h.boxes fun c p => ?_
  rw [SlotTable.get?_insert]
  split
  · next hc =>
    rw [hc, hnew]
    constructor
    · rintro ⟨x, hx, ht⟩
      cases hx
      cases ht
    · rintro ⟨x, hx, -⟩
      cases hx
  · rfl

theorem Linked.removeBox {s : Scene K} (h : s.Linked) {key : BoxKey} {b : Box K}
    (hb : s.boxes.get? key = some b) (hlink : b.link.target = none) :
    Linked { s with boxes := s.boxes.erase key } := by
  refine h.boxes fun c p => ?_
  rw [SlotTable.get?_erase]
  split
  · next hc =>
    rw [hc, hb]
    constructor
    · rintro ⟨x, hx, -⟩
      cases hx
    · rintro ⟨x, hx, ht⟩
      rw [Option.some.injEq] at hx
      rw [← hx, hlink] at ht
      cases ht
  · rfl

variable [Scalar K]

theorem Linked.edit {s : Scene K} (h : s.Linked) (key : BoxKey) (e : Box.Edit K) :
    (s.modifyBox key fun b => b.edited e).Linked := by
  refine h.boxes fun c p => ?_
  rw [SlotTable.get?_modify]
  split
  · next hc =>
    rw [hc]
    constructor
    · rintro ⟨x, hx, ht⟩
      obtain ⟨y, hy, rfl⟩ := Option.map_eq_some_iff.1 hx
      rw [(Box.edited_link y e).2] at ht
      exact ⟨y, hy, ht⟩
    · rintro ⟨x, hx, ht⟩
      rw [hx]
      refine ⟨_, rfl, ?_⟩
      rw [(Box.edited_link x e).2]
      exact ht
  · rfl

theorem Linked.change {s t : Scene K} (h : s.Linked) (hchange : Change s t) : t.Linked := by
  cases hchange with
  | settings _ => exact ⟨h.listed, h.attached, h.nodup, h.current⟩
  | freshId _ => exact ⟨h.listed, h.attached, h.nodup, h.current⟩
  | current hp => exact ⟨h.listed, h.attached, h.nodup, fun hk => by cases hk; exact ⟨_, hp⟩⟩
  | insertPerspective _ => exact h.insertPerspective _
  | removePerspective hp hempty => exact h.removePerspective hp hempty
  | removeUnused => exact h.removeUnused
  | map key f => exact h.map key f
  | insertBox _ => exact h.insertBox _
  | removeBox hb hlink => exact h.removeBox hb hlink
  | edit key e => exact h.edit key e
  | link hb hlink => exact h.link hb hlink

theorem Linked.changes {s t : Scene K} (h : s.Linked) (hchanges : Changes s t) : t.Linked := by
  induction hchanges with
  | refl => exact h
  | tail _ hchange ih => exact ih.change hchange

omit [Scalar K] in
theorem linked_ofSettings (settings : Settings K) : (ofSettings settings).Linked := by
  have hp (p : PerspectiveKey) : (ofSettings settings).perspectives.get? p = none :=
    SlotTable.get?_empty p
  have hb (b : BoxKey) : (ofSettings settings).boxes.get? b = none := SlotTable.get?_empty b
  refine ⟨fun h => ?_, fun h => ?_, fun h => ?_, fun h => ?_⟩
  · rw [hp] at h
    cases h
  · rw [hb] at h
    cases h
  · rw [hp] at h
    cases h
  · cases h

theorem Reachable.linked [Numeric K] {s : Scene K} (h : Reachable s) : s.Linked :=
  h.induct linked_ofSettings (fun _ _ hchange hs => hs.change hchange)
    fun _ p hs => hs.insertPerspective p

-- A box is listed where it is linked to and nowhere else, and the current perspective is there.
theorem Reachable.consistent [Numeric K] {s : Scene K} (h : Reachable s) :
    (∀ p q b, s.perspectives.get? p = some q → b ∈ q.boxes →
      ∃ x, s.boxes.get? b = some x ∧ x.link.target = some p) ∧
    (∀ b x p, s.boxes.get? b = some x → x.link.target = some p →
      ∃ q, s.perspectives.get? p = some q ∧ b ∈ q.boxes) ∧
    (∀ p q, s.perspectives.get? p = some q → q.boxes.Nodup) ∧
    (∀ b p q p' q', s.perspectives.get? p = some q → s.perspectives.get? p' = some q' →
      b ∈ q.boxes → b ∈ q'.boxes → p = p') ∧
    (∀ p, s.current = some p → ∃ q, s.perspectives.get? p = some q) := by
  have hs := h.linked
  refine ⟨fun _ _ _ => hs.listed, fun _ _ _ => hs.attached, fun _ _ => hs.nodup,
    fun b p q p' q' hq hq' hb hb' => ?_, fun _ => hs.current⟩
  obtain ⟨x, hx, ht⟩ := hs.listed hq hb
  have ht' := hs.target_eq hq' hb' hx
  rw [ht, Option.some.injEq] at ht'
  exact ht'

theorem consistent_sketch : sketch.Reachable ∧
    (∃ q, sketch.perspectives.get? ⟨1, 1⟩ = some q ∧ q.boxes = [⟨1, 1⟩, ⟨2, 1⟩] ∧
      q.boxes.Nodup) ∧
    ∃ x, sketch.boxes.get? ⟨2, 1⟩ = some x ∧ x.link.target = some ⟨1, 1⟩ := by
  obtain ⟨hlisted, -, hnodup, -, -⟩ := reachable_sketch.consistent
  have hlist : (sketch.perspectives.get? ⟨1, 1⟩).map (·.boxes) = some [⟨1, 1⟩, ⟨2, 1⟩] := rfl
  obtain ⟨q, hq, hboxes⟩ := Option.map_eq_some_iff.1 hlist
  exact ⟨reachable_sketch, ⟨q, hq, hboxes, hnodup _ q hq⟩, hlisted _ q _ hq (by simp [hboxes])⟩

end Scene

end PerspectiveBox
