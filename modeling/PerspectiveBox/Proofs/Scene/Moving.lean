import PerspectiveBox.Proofs.Scene.Linked

namespace PerspectiveBox

variable {K : Type}

namespace Scene

variable [Scalar K]

-- Redrawing a box changes how it is displayed, and nothing else.
theorem redrawBox_eq (s : Scene K) (key : BoxKey) :
    ∃ f : Box K → Box K, Box.Redisplays f ∧ s.redrawBox key = s.modifyBox key f := by
  rw [redrawBox]
  cases s.mapOf? key with
  | none => exact ⟨fun b => b, .refl, (modifyBox_eq_self fun _ _ => rfl).symm⟩
  | some m => exact ⟨fun b => b.redraw m, Box.redisplays_redraw m, rfl⟩

theorem redrawBox_perspectives (s : Scene K) (key : BoxKey) :
    (s.redrawBox key).perspectives = s.perspectives := by
  obtain ⟨f, -, hf⟩ := redrawBox_eq s key
  rw [hf]
  rfl

-- A box that gets its corners back is also displayed anew if it is in a perspective.
theorem cancelDrag_run {s : Scene K} {key : BoxKey} {b : Box K} (hb : s.boxes.get? key = some b) :
    ∃ f, Box.Redisplays f ∧
      (cancelDrag key).run s = .ok ⟨⟩ (s.modifyBox key fun b => f b.cancelDrag) := by
  have hstep : (cancelDrag key).run s = (do
      if ((← get).perspectiveOf? key).isSome then updateBox key : SceneM K Unit).run
        (s.modifyBox key Box.cancelDrag) := by
    rw [cancelDrag, EStateM.run_bind, box_run, hb]
    rfl
  rw [hstep, EStateM.run_bind, EStateM.run_get]
  cases hp : (s.modifyBox key Box.cancelDrag).perspectiveOf? key with
  | none =>
    simp only [hp, Option.isSome_none, Bool.false_eq_true, if_false]
    exact ⟨fun b => b, .refl, rfl⟩
  | some p =>
    obtain ⟨-, q, -, -, hq⟩ := perspectiveOf?_eq_some_iff.1 hp
    have hm : (s.modifyBox key Box.cancelDrag).mapOf? key = some q.map := by
      rw [mapOf?, hp, Option.bind_some, hq]
      rfl
    simp only [hp, Option.isSome_some, if_true]
    rw [updateBox_run hm, modifyBox_modifyBox]
    exact ⟨_, Box.redisplays_update q.map s.settings.strategy, rfl⟩

theorem attach_run {s : Scene K} {key : BoxKey} {b : Box K} {p : PerspectiveKey}
    {q : Perspective K} (hb : s.boxes.get? key = some b) (hq : s.perspectives.get? p = some q) :
    (attach key p).run s = .ok ⟨b.link.target, p⟩
      ((s.linked key b.link.target ⟨Reference.write q.id, p⟩).redrawBox key) := by
  rw [attach, EStateM.run_bind, perspective_run, hq]
  simp only
  rw [EStateM.run_bind, setLink_run_of_some hb]
  rfl

theorem move_run {s : Scene K} {key : BoxKey} {b : Box K} {p : PerspectiveKey}
    {q : Perspective K} (hb : s.boxes.get? key = some b) (hq : s.perspectives.get? p = some q) :
    (move key p).run s = .ok ⟨⟩
      ((s.linked key b.link.target ⟨Reference.write q.id, p⟩).redrawBox key) := by
  rw [move, EStateM.run_bind, box_run, hb]
  simp only
  rw [EStateM.run_bind, attach_run hb hq]
  rfl

-- From `s` to `t`, exactly the boxes under these keys went to another perspective.
structure Moved (s : Scene K) (p : PerspectiveKey) (keys : List BoxKey) (t : Scene K) : Prop where
  linked : t.Linked
  there : ∀ {k}, k ∈ keys → ∃ b, t.boxes.get? k = some b ∧ b.link.target = some p
  others : ∀ {k}, k ∉ keys → t.boxes.get? k = s.boxes.get? k
  maps : ∀ q, (t.perspectives.get? q).map Perspective.map =
    (s.perspectives.get? q).map Perspective.map
  -- A perspective that had none of the boxes lists the same ones.
  lists : ∀ {q r}, q ≠ p → s.perspectives.get? q = some r → (∀ k ∈ keys, k ∉ r.boxes) →
    t.perspectives.get? q = some r

omit [Scalar K] in
theorem Moved.refl {s : Scene K} (h : s.Linked) (p : PerspectiveKey) : Moved s p [] s :=
  ⟨h, nofun, fun _ => rfl, fun _ => rfl, fun _ hr _ => hr⟩

omit [Scalar K] in
theorem Moved.cons {s t u : Scene K} {p : PerspectiveKey} {key : BoxKey} {keys : List BoxKey}
    (h : Moved s p [key] t) (hrest : Moved t p keys u) (hkey : key ∉ keys) :
    Moved s p (key :: keys) u := by
  refine ⟨hrest.linked, fun {k} hk => ?_, fun {k} hk => ?_, fun q => ?_,
    fun {q r} hq hr hout => ?_⟩
  · rcases List.mem_cons.1 hk with rfl | hk
    · rw [hrest.others hkey]
      exact h.there List.mem_cons_self
    · exact hrest.there hk
  · rw [List.mem_cons, not_or] at hk
    rw [hrest.others hk.2, h.others (by simpa using hk.1)]
  · rw [hrest.maps, h.maps]
  · have hfirst : t.perspectives.get? q = some r :=
      h.lists hq hr fun k hk => hout k (List.mem_cons.2 (.inl (List.mem_singleton.1 hk)))
    exact hrest.lists hq hfirst fun k hk => hout k (List.mem_cons_of_mem _ hk)

omit [Scalar K] in
-- Boxes and perspectives that were there are there still.
theorem Moved.box_there {s t : Scene K} {p : PerspectiveKey} {keys : List BoxKey}
    (h : Moved s p keys t) {k : BoxKey} (hk : ∃ b, s.boxes.get? k = some b) :
    ∃ b, t.boxes.get? k = some b := by
  by_cases hmem : k ∈ keys
  · obtain ⟨b, hb, -⟩ := h.there hmem
    exact ⟨b, hb⟩
  · rw [h.others hmem]
    exact hk

omit [Scalar K] in
theorem Moved.perspective_there {s t : Scene K} {p : PerspectiveKey} {keys : List BoxKey}
    (h : Moved s p keys t) {q : PerspectiveKey} (hq : ∃ r, s.perspectives.get? q = some r) :
    ∃ r, t.perspectives.get? q = some r := by
  obtain ⟨r, hr⟩ := hq
  have hmap := h.maps q
  rw [hr, Option.map_some] at hmap
  obtain ⟨x, hx, -⟩ := Option.map_eq_some_iff.1 hmap
  exact ⟨x, hx⟩

theorem Linked.moved {s : Scene K} (h : s.Linked) {key : BoxKey} {b : Box K} {p : PerspectiveKey}
    {q : Perspective K} (hb : s.boxes.get? key = some b) (hq : s.perspectives.get? p = some q) :
    Moved s p [key] ((s.linked key b.link.target ⟨Reference.write q.id, p⟩).redrawBox key) := by
  have hps := h.perspectives_linked hb ⟨Reference.write q.id, p⟩
  have hlinked := (h.link hb (.attached hq)).changes (changes_redrawBox _ key)
  obtain ⟨f, hdisplay, hf⟩ :=
    redrawBox_eq (s.linked key b.link.target ⟨Reference.write q.id, p⟩) key
  have hboxes (k : BoxKey) :
      ((s.linked key b.link.target ⟨Reference.write q.id, p⟩).redrawBox key).boxes.get? k =
        if k = key then (s.boxes.get? key).map fun b =>
          f { b with link := ⟨Reference.write q.id, p⟩ } else s.boxes.get? k := by
    rw [hf, modifyBox, SlotTable.get?_modify, linked_boxes, SlotTable.get?_modify, if_pos rfl,
      SlotTable.get?_modify, Option.map_map]
    split <;> rfl
  refine ⟨hlinked, fun {k} hk => ?_, fun {k} hk => ?_, fun r => ?_, fun {r x} hr hx hout => ?_⟩
  · rw [List.mem_singleton.1 hk, hboxes, if_pos rfl, hb]
    exact ⟨_, rfl, by rw [hdisplay.link]⟩
  · rw [hboxes, if_neg fun he => hk (List.mem_singleton.2 he)]
  · rw [redrawBox_perspectives, h.maps_linked hb]
  · have hnew : ¬ (some p = some r) := fun he => hr (Option.some.inj he).symm
    rw [redrawBox_perspectives, hps, hx, Option.map_some, if_neg hnew,
      Perspective.removeBox_of_not_mem (hout key List.mem_cons_self)]

-- Boxes are moved one by one; nothing stops before the last.
theorem Linked.moves_run {s : Scene K} (h : s.Linked) {p : PerspectiveKey} {keys : List BoxKey}
    (hp : ∃ q, s.perspectives.get? p = some q) (hnodup : keys.Nodup)
    (hkeys : ∀ k ∈ keys, ∃ b, s.boxes.get? k = some b) :
    ∃ t, (keys.forM fun key => move key p).run s = .ok ⟨⟩ t ∧ Moved s p keys t := by
  induction keys generalizing s with
  | nil => exact ⟨s, rfl, .refl h p⟩
  | cons key keys ih =>
    obtain ⟨q, hq⟩ := hp
    obtain ⟨b, hb⟩ := hkeys key List.mem_cons_self
    obtain ⟨hkey, hrest⟩ := List.nodup_cons.1 hnodup
    have hfirst := h.moved hb hq
    obtain ⟨t, hrun, ht⟩ := ih hfirst.linked (hfirst.perspective_there ⟨q, hq⟩) hrest
      fun k hk => hfirst.box_there (hkeys k (List.mem_cons_of_mem _ hk))
    refine ⟨t, ?_, hfirst.cons ht hkey⟩
    rw [List.forM_eq_forM, List.forM_cons, EStateM.run_bind, move_run hb hq]
    exact hrun

end Scene

end PerspectiveBox
