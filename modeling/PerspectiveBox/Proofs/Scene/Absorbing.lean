import PerspectiveBox.Proofs.Scene.Moving

namespace PerspectiveBox

variable {K : Type}

namespace Perspective

theorem addBox_of_not_mem {p : Perspective K} {key : BoxKey} (h : key ∉ p.boxes) :
    p.addBox key = { p with boxes := p.boxes ++ [key] } :=
  if_neg (by simpa [hasBox] using h)

theorem removeBox_first {p : Perspective K} {key : BoxKey} {rest : List BoxKey}
    (h : p.boxes = key :: rest) (hkey : key ∉ rest) :
    p.removeBox key = { p with boxes := rest } := by
  have hrest : rest.filter (· ≠ key) = rest := by
    refine List.filter_eq_self.2 fun b hb => ?_
    have hne : b ≠ key := fun he => hkey (he ▸ hb)
    simpa using hne
  rw [removeBox, h, List.filter_cons_of_neg (by simp), hrest]

end Perspective

variable [Scalar K]

-- A box and what it is once the perspective `q` has taken it over. It is redrawn there as it was,
-- and then its corners are normalized and saved.
structure Box.TakenOver (p : PerspectiveKey) (q : Perspective K) (b x : Box K) : Prop where
  target : x.link.target = some p
  href : x.link.href = some (Reference.write q.id)
  corners : x.corners = b.corners.normalized
  saved : x.saved = x.corners
  id : x.id = b.id
  order : x.order = b.order
  sides : x.sides = b.sides.map fun s => s.redrawn b.corners q.map

namespace Scene

-- From `s` to `t`, the perspective `q` under `keep` took over the boxes under these keys from the
-- perspective `r` under `other`, to which `left` are left.
structure Absorbed (s : Scene K) (keep other : PerspectiveKey) (q r : Perspective K)
    (keys left : List BoxKey) (t : Scene K) : Prop where
  taker : t.perspectives.get? keep = some { q with boxes := q.boxes ++ keys }
  giver : t.perspectives.get? other = some { r with boxes := left }
  perspectives : ∀ {p}, p ≠ keep → p ≠ other → t.perspectives.get? p = s.perspectives.get? p
  taken : ∀ {k}, k ∈ keys → ∃ b x, s.boxes.get? k = some b ∧ t.boxes.get? k = some x ∧
    b.TakenOver keep q x
  boxes : ∀ {k}, k ∉ keys → t.boxes.get? k = s.boxes.get? k
  rest : t = { s with perspectives := t.perspectives, boxes := t.boxes }

-- What is done for one box.
def takeOver (p : PerspectiveKey) (key : BoxKey) : SceneM K PUnit := do
  move key p
  modify fun s => s.modifyBox key Box.saveCorners

theorem Linked.takeOver_run {s : Scene K} (h : s.Linked) {keep other : PerspectiveKey}
    {q r : Perspective K} (hne : keep ≠ other) (hq : s.perspectives.get? keep = some q)
    (hr : s.perspectives.get? other = some r) {key : BoxKey} {left : List BoxKey}
    (hboxes : r.boxes = key :: left) :
    ∃ t, (takeOver keep key).run s = .ok ⟨⟩ t ∧ t.Linked ∧
      Absorbed s keep other q r [key] left t := by
  have hmem : key ∈ r.boxes := hboxes ▸ List.mem_cons_self
  obtain ⟨b, hb, htarget⟩ := h.listed hr hmem
  -- No perspective but `other` lists the box.
  have hout {p : PerspectiveKey} {x : Perspective K} (hp : p ≠ other)
      (hx : s.perspectives.get? p = some x) : key ∉ x.boxes := by
    intro hkey
    have hboth := h.target_eq hx hkey hb
    rw [htarget, Option.some.injEq] at hboth
    exact hp hboth.symm
  have hnodup := h.nodup hr
  rw [hboxes, List.nodup_cons] at hnodup
  let link : Link := ⟨Reference.write q.id, keep⟩
  have hps := h.perspectives_linked hb link
  -- The box is redrawn by the projection of its new perspective.
  have hmap : (s.linked key b.link.target link).mapOf? key = some q.map := by
    have hkeep : (s.linked key b.link.target link).perspectives.get? keep = some (q.addBox key) := by
      rw [hps, hq, Option.map_some, if_pos rfl]
    rw [mapOf?_eq (get?_linked hb b.link.target link), mapFor]
    simp only [link, Option.bind_some] at hkeep ⊢
    rw [hkeep, Option.map_some, Perspective.addBox_map]
  have hredraw : (s.linked key b.link.target link).redrawBox key =
      (s.linked key b.link.target link).modifyBox key fun b => b.redraw q.map := by
    rw [redrawBox, hmap]
  have hrun := move_run hb hq
  rw [hredraw] at hrun
  refine ⟨((s.linked key b.link.target link).modifyBox key fun b => b.redraw q.map).modifyBox key
    Box.saveCorners, ?_, ?_, ?_, ?_, fun {p} hk ho => ?_, fun {k} hk => ?_, fun {k} hk => ?_, ?_⟩
  · rw [takeOver, EStateM.run_bind, hrun]
    rfl
  · exact ((h.link hb (.attached hq)).edit key (.redraw q.map)).edit key .saveCorners
  · show (s.linked key b.link.target link).perspectives.get? keep = _
    rw [hps, hq, Option.map_some, if_pos rfl, Perspective.addBox_of_not_mem (hout hne hq)]
  · show (s.linked key b.link.target link).perspectives.get? other = _
    rw [hps, hr, Option.map_some, if_neg fun he => hne (Option.some.inj he),
      Perspective.removeBox_first hboxes hnodup.1]
  · show (s.linked key b.link.target link).perspectives.get? p = _
    rw [hps]
    cases hp : s.perspectives.get? p with
    | none => rfl
    | some x =>
      rw [Option.map_some, if_neg fun he => hk (Option.some.inj he).symm,
        Perspective.removeBox_of_not_mem (hout ho hp)]
  · rw [List.mem_singleton.1 hk]
    exact ⟨b, _, hb, get?_modifyBox (get?_modifyBox (get?_linked hb b.link.target link) _) _,
      rfl, rfl, rfl, rfl, rfl, rfl, rfl⟩
  · have hk : k ≠ key := fun he => hk (List.mem_singleton.2 he)
    simp only [modifyBox, linked_boxes, SlotTable.get?_modify, if_neg hk]
  · rw [linked, relist_eq]
    rfl

theorem Absorbed.cons {s t u : Scene K} {keep other : PerspectiveKey} {q r : Perspective K}
    {key : BoxKey} {keys left : List BoxKey} (h : Absorbed s keep other q r [key] keys t)
    (hrest : Absorbed t keep other { q with boxes := q.boxes ++ [key] } { r with boxes := keys }
      keys left u) (hkey : key ∉ keys) : Absorbed s keep other q r (key :: keys) left u := by
  refine ⟨?_, hrest.giver, fun {p} hk ho => ?_, fun {k} hk => ?_, fun {k} hk => ?_, ?_⟩
  · rw [hrest.taker]
    simp
  · rw [hrest.perspectives hk ho, h.perspectives hk ho]
  · rcases List.mem_cons.1 hk with rfl | hk
    · rw [hrest.boxes hkey]
      exact h.taken List.mem_cons_self
    · obtain ⟨b, x, hb, hx, htaken⟩ := hrest.taken hk
      have hne : k ∉ [key] := by
        rintro hkk
        exact hkey (List.mem_singleton.1 hkk ▸ hk)
      rw [h.boxes hne] at hb
      exact ⟨b, x, hb, hx, htaken.target, htaken.href, htaken.corners, htaken.saved, htaken.id,
        htaken.order, htaken.sides⟩
  · rw [List.mem_cons, not_or] at hk
    rw [hrest.boxes hk.2, h.boxes (by simpa using hk.1)]
  · rw [hrest.rest, h.rest]

-- The boxes are taken over in the order of their list, each once, and none is left.
theorem Linked.takeOvers_run {s : Scene K} (h : s.Linked) {keep other : PerspectiveKey}
    {q r : Perspective K} (hne : keep ≠ other) (hq : s.perspectives.get? keep = some q)
    (hr : s.perspectives.get? other = some r) {keys : List BoxKey} (hboxes : r.boxes = keys) :
    ∃ t, (keys.forM (takeOver keep)).run s = .ok ⟨⟩ t ∧
      Absorbed s keep other q r keys [] t := by
  induction keys generalizing s q r with
  | nil =>
    refine ⟨s, rfl, ?_, ?_, fun _ _ => rfl, nofun, fun _ => rfl, rfl⟩
    · rw [hq, List.append_nil]
    · rw [hr, ← hboxes]
  | cons key keys ih =>
    have hnodup := h.nodup hr
    rw [hboxes, List.nodup_cons] at hnodup
    obtain ⟨t, hfirst, hlinked, ht⟩ := h.takeOver_run hne hq hr hboxes
    obtain ⟨u, hrest, hu⟩ := ih hlinked ht.taker ht.giver rfl
    refine ⟨u, ?_, ht.cons hu hnodup.1⟩
    rw [List.forM_eq_forM, List.forM_cons, EStateM.run_bind, hfirst]
    exact hrest

theorem coincide_run {s : Scene K} {p p' : PerspectiveKey} {q q' : Perspective K}
    (hq : s.perspectives.get? p = some q) (hq' : s.perspectives.get? p' = some q') :
    (coincide p p').run s = .ok (q.map == q'.map) s := by
  rw [coincide, EStateM.run_bind, perspective_run, hq]
  simp only
  rw [EStateM.run_bind, perspective_run, hq']
  rfl

-- One perspective takes over the boxes of another that projects in the same way, in their order
-- and after its own. If the two project differently, nothing is changed.
theorem Reachable.absorb_run [Numeric K] {s : Scene K} (h : s.Reachable)
    {keep other : PerspectiveKey} (hne : keep ≠ other) {q r : Perspective K}
    (hq : s.perspectives.get? keep = some q) (hr : s.perspectives.get? other = some r) :
    ((q.map == r.map) = true → ∃ t, (absorb keep other).run s = .ok ⟨⟩ t ∧
      Absorbed s keep other q r r.boxes [] t) ∧
    ((q.map == r.map) = false →
      (absorb keep other).run s = .error (.perspectivesDiffer q.id r.id) s) := by
  have hsame := coincide_run hq hr
  refine ⟨fun heq => ?_, fun heq => ?_⟩
  · obtain ⟨t, hrun, ht⟩ := h.linked.takeOvers_run hne hq hr rfl
    refine ⟨t, ?_, ht⟩
    rw [absorb, if_neg hne, EStateM.run_bind, hsame, heq]
    simp only [if_true]
    rw [EStateM.run_bind, perspective_run, hr]
    exact hrun
  · rw [absorb, if_neg hne, EStateM.run_bind, hsame, heq]
    simp only [Bool.false_eq_true, if_false]
    rw [EStateM.run_bind, perspective_run, hq]
    simp only
    rw [EStateM.run_bind, perspective_run, hr]
    rfl

-- The copy has two boxes of its own, and a third perspective projects differently.
def copied : Scene Float :=
  let s := sketch.after (Command.duplicatePerspective ⟨1, 1⟩).run
  let s := s.after (Command.addBox ⟨⟨10, 2, 0, 2⟩, ⟨4, 0, 1, 1⟩⟩ ⟨2, 1⟩).run
  let s := s.after (Command.addBox ⟨⟨7, 1, 0, 1⟩, ⟨6, 0, 1, 1⟩⟩ ⟨2, 1⟩).run
  s.after (Command.addPerspective ⟨⟨1, 0, 0⟩, ⟨0, 1, 0⟩, ⟨0.5, -0.5, 0⟩, ⟨0, 0, 1⟩⟩).run

theorem reachable_copied : copied.Reachable := by
  have hcopy := reachable_sketch.run (.duplicatePerspective ⟨1, 1⟩)
  have hbox := hcopy.run (.addBox ⟨⟨10, 2, 0, 2⟩, ⟨4, 0, 1, 1⟩⟩ ⟨2, 1⟩)
  have hbox' := hbox.run (.addBox ⟨⟨7, 1, 0, 1⟩, ⟨6, 0, 1, 1⟩⟩ ⟨2, 1⟩)
  have hother := hbox'.run (.addPerspective ⟨⟨1, 0, 0⟩, ⟨0, 1, 0⟩, ⟨0.5, -0.5, 0⟩, ⟨0, 0, 1⟩⟩)
  exact hother

theorem absorb_run_copied : copied.Reachable ∧
    (∃ t q, (absorb ⟨1, 1⟩ ⟨2, 1⟩).run copied = .ok ⟨⟩ t ∧
      t.perspectives.get? ⟨1, 1⟩ = some q ∧ q.boxes = [⟨1, 1⟩, ⟨2, 1⟩, ⟨3, 1⟩, ⟨4, 1⟩]) ∧
    (absorb ⟨1, 1⟩ ⟨3, 1⟩).run copied =
      .error (.perspectivesDiffer "perspective1" "perspective7") copied := by
  have hlive (p : PerspectiveKey) (hp : (copied.perspectives.get? p).isSome = true) :
      ∃ q, copied.perspectives.get? p = some q := Option.isSome_iff_exists.1 hp
  obtain ⟨q, hq⟩ := hlive ⟨1, 1⟩ (by decide +kernel)
  obtain ⟨r, hr⟩ := hlive ⟨2, 1⟩ (by decide +kernel)
  obtain ⟨d, hd⟩ := hlive ⟨3, 1⟩ (by decide +kernel)
  have hlists : ((copied.perspectives.get? ⟨1, 1⟩).map (·.boxes),
      (copied.perspectives.get? ⟨2, 1⟩).map (·.boxes)) =
        (some [⟨1, 1⟩, ⟨2, 1⟩], some [⟨3, 1⟩, ⟨4, 1⟩]) := by decide +kernel
  have hids : ((copied.perspectives.get? ⟨1, 1⟩).map (·.id),
      (copied.perspectives.get? ⟨3, 1⟩).map (·.id)) =
        (some "perspective1", some "perspective7") := by decide +kernel
  have hmaps : (copied.perspectives.get? ⟨1, 1⟩).bind (fun q =>
      (copied.perspectives.get? ⟨2, 1⟩).map fun r => q.map == r.map) = some true := by
    decide +kernel
  have hdiffer : (copied.perspectives.get? ⟨1, 1⟩).bind (fun q =>
      (copied.perspectives.get? ⟨3, 1⟩).map fun r => q.map == r.map) = some false := by
    decide +kernel
  simp only [hq, hr, hd, Option.map_some, Option.bind_some, Prod.mk.injEq, Option.some.injEq]
    at hlists hids hmaps hdiffer
  obtain ⟨t, hrun, ht⟩ := (reachable_copied.absorb_run (by decide) hq hr).1 hmaps
  refine ⟨reachable_copied, ⟨t, _, hrun, ht.taker, ?_⟩, ?_⟩
  · rw [hlists.1, hlists.2]
    rfl
  · rw [← hids.1, ← hids.2]
    exact (reachable_copied.absorb_run (by decide) hq hd).2 hdiffer

end Scene

end PerspectiveBox
