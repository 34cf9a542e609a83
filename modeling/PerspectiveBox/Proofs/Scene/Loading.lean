import Mathlib.Data.List.Forall2
import PerspectiveBox.Proofs.Scene.Moving
import PerspectiveBox.Proofs.Scene.Reference

namespace PerspectiveBox

variable {K : Type}

-- The id and the projection of a perspective that can be read.
def PerspectiveElement.named? [Scalar K] [Numeric K] (e : PerspectiveElement) :
    Option (String × Projection K) :=
  e.projection?.map fun map => (e.id, map)

namespace Scene

def views (s : Scene K) : List (PerspectiveKey × String × Projection K) :=
  s.perspectives.entries.map fun e => (e.1, e.2.id, e.2.map)

theorem map_snd_views (s : Scene K) :
    s.views.map Prod.snd = s.perspectives.values.map fun p => (p.id, p.map) := by
  rw [views, SlotTable.values, List.map_map, List.map_map]
  rfl

theorem views_modifyPerspective (s : Scene K) (key : PerspectiveKey)
    {f : Perspective K → Perspective K} (hid : ∀ p, (f p).id = p.id)
    (hmap : ∀ p, (f p).map = p.map) : (s.modifyPerspective key f).views = s.views := by
  rw [views, modifyPerspective, SlotTable.entries_modify, List.map_map, views]
  refine List.map_congr_left fun e _ => ?_
  simp only [Function.comp]
  split
  · rw [hid, hmap]
  · rfl

theorem views_modifyTarget (s : Scene K) (target : Option PerspectiveKey)
    {f : Perspective K → Perspective K} (hid : ∀ p, (f p).id = p.id)
    (hmap : ∀ p, (f p).map = p.map) : (s.modifyTarget target f).views = s.views := by
  cases target with
  | none => rfl
  | some p => exact views_modifyPerspective s p hid hmap

theorem views_linked (s : Scene K) (key : BoxKey) (old : Option PerspectiveKey) (link : Link) :
    (s.linked key old link).views = s.views := by
  rw [linked, relist]
  split
  · rw [views_modifyTarget _ _ (fun p => p.addBox_id key) fun p => p.addBox_map key]
    exact views_modifyTarget _ old (fun _ => rfl) fun _ => rfl
  · rfl

theorem findPerspective_eq (s : Scene K) (id : String) :
    s.findPerspective id = (s.views.find? fun v => v.2.1 == id).map Prod.fst := by
  rw [findPerspective, SlotTable.find?, views, List.find?_map, Option.map_map]
  rfl

theorem findPerspective_congr {s t : Scene K} (h : t.views = s.views) (id : String) :
    t.findPerspective id = s.findPerspective id := by
  rw [findPerspective_eq, findPerspective_eq, h]

-- The link that a reference makes.
def linkFor (s : Scene K) : Option String → Link
  | some text =>
    match Reference.read text with
    | .ok id => ⟨text, s.findPerspective id⟩
    | .error _ => .none
  | none => .none

theorem linkFor_congr {s t : Scene K} (h : t.views = s.views) (href : Option String) :
    t.linkFor href = s.linkFor href := by
  cases href with
  | none => rfl
  | some text =>
    simp only [linkFor]
    cases Reference.read text with
    | error e => rfl
    | ok id =>
      simp only
      rw [findPerspective_congr h]

variable [Scalar K]

theorem setHref_run {s : Scene K} {key : BoxKey} {b : Box K} (hb : s.boxes.get? key = some b)
    (hlink : b.link = .none) (href : Option String) :
    ∃ f, Box.Redisplays f ∧ (setHref key href).run s =
      .ok ⟨⟩ ((s.linked key none (s.linkFor href)).modifyBox key f) := by
  have hset (link : Link) : (setLink key link).run s =
      .ok ⟨none, link.target⟩ (s.linked key none link) := by
    rw [setLink_run_of_some hb, hlink]
    rfl
  have hsame : (s.linked key none .none).modifyBox key (fun b => b) = s.linked key none .none :=
    modifyBox_eq_self fun _ _ => rfl
  have hopen : (href.isSome && b.link.href == href && b.link.isAttached) = false := by
    rw [hlink, Bool.and_eq_false_iff]
    exact .inr rfl
  unfold setHref
  rw [EStateM.run_bind, box_run, hb]
  simp only [hopen, Bool.false_eq_true, if_false]
  cases href with
  | none =>
    refine ⟨fun b => b, .refl, ?_⟩
    rw [linkFor, hsame, detach, EStateM.run_bind, hset]
    rfl
  | some text =>
    cases hread : Reference.read text with
    | error e =>
      have hfor : s.linkFor (some text) = .none := by simp only [linkFor, hread]
      refine ⟨fun b => b, .refl, ?_⟩
      simp only [Option.map_some, hread]
      rw [hfor, hsame, detach, EStateM.run_bind, hset]
      rfl
    | ok id =>
      have hfor : s.linkFor (some text) = ⟨text, s.findPerspective id⟩ := by
        simp only [linkFor, hread]
      obtain ⟨f, hf, hredraw⟩ := redrawBox_eq (s.linked key none ⟨text, s.findPerspective id⟩) key
      refine ⟨f, hf, ?_⟩
      simp only [Option.map_some, hread]
      rw [hfor, ← hredraw, EStateM.run_bind, EStateM.run_get]
      simp only
      rw [EStateM.run_bind, hset]
      rfl

omit [Scalar K] in
theorem Linked.mapOf?_of_attached {s : Scene K} (h : s.Linked) {key : BoxKey} {b : Box K}
    (hb : s.boxes.get? key = some b) (hlink : b.link.isAttached = true) :
    ∃ m, s.mapOf? key = some m := by
  obtain ⟨p, hp⟩ := Option.isSome_iff_exists.1 hlink
  obtain ⟨q, hq, -⟩ := h.attached hb hp
  have hof : s.perspectiveOf? key = some p := by
    rw [h.perspectiveOf?_eq, hb]
    exact hp
  refine ⟨q.map, ?_⟩
  rw [mapOf?, hof]
  exact congrArg (Option.map Perspective.map) hq

-- A box that is in a perspective and has both corners can be brought up to date.
theorem Linked.updateLoaded_run {s : Scene K} (h : s.Linked) {key : BoxKey} {b : Box K}
    (hb : s.boxes.get? key = some b) : ∃ f, Box.Redisplays f ∧
      (if b.link.isAttached && b.corners.areFinite then updateBox key else pure ()).run s =
        .ok ⟨⟩ (s.modifyBox key f) := by
  split
  · next hc =>
    obtain ⟨m, hm⟩ := h.mapOf?_of_attached hb ((Bool.and_eq_true _ _).mp hc).1
    exact ⟨_, Box.redisplays_update m s.settings.strategy, updateBox_run hm⟩
  · exact ⟨fun b => b, .refl, by rw [modifyBox_eq_self fun _ _ => rfl]; rfl⟩

variable [Numeric K]

-- What a loaded box has of its element.
structure LoadedFrom (s : Scene K) (e : BoxElement) (b : Box K) : Prop where
  id : b.id = e.id
  corners : b.corners = ⟨BoxElement.corner e.corner0, BoxElement.corner e.corner7⟩
  link : b.link = s.linkFor e.perspective
  styles : b.styles.Perm (e.toBox : Box K).styles

theorem LoadedFrom.congr {s t : Scene K} (hviews : t.views = s.views) {e : BoxElement} {b : Box K}
    (h : LoadedFrom t e b) : LoadedFrom s e b :=
  ⟨h.id, h.corners, h.link.trans (linkFor_congr hviews e.perspective), h.styles⟩

omit [Numeric K] in
theorem toBox_eq (e : BoxElement) [Numeric K] : (e.toBox : Box K).id = e.id ∧
    (e.toBox : Box K).corners = ⟨BoxElement.corner e.corner0, BoxElement.corner e.corner7⟩ := by
  suffices ∀ (sides : List SideElement) (b : Box K),
      (sides.foldl BoxElement.styled b).id = b.id ∧
        (sides.foldl BoxElement.styled b).corners = b.corners from this e.sides _
  intro sides
  induction sides with
  | nil => exact fun b => ⟨rfl, rfl⟩
  | cons side sides ih =>
    intro b
    have hside : (BoxElement.styled b side).id = b.id ∧
        (BoxElement.styled b side).corners = b.corners := by
      rw [BoxElement.styled]
      cases Face.ofCode? side.code.toInt <;> exact ⟨rfl, rfl⟩
    obtain ⟨hid, hcorners⟩ := ih (BoxElement.styled b side)
    exact ⟨hid.trans hside.1, hcorners.trans hside.2⟩

-- From `s` to `t`, boxes were loaded from these elements, in their order and behind the others.
structure Loaded (s : Scene K) (es : List BoxElement) (t : Scene K) : Prop where
  linked : t.Linked
  views : t.views = s.views
  rest : t = { s with perspectives := t.perspectives, boxes := t.boxes }
  gapless : t.boxes.Gapless
  boxes : ∃ bs, t.boxes.values = s.boxes.values ++ bs ∧ List.Forall₂ (LoadedFrom s) es bs

theorem Loaded.refl {s : Scene K} (h : s.Linked) (hgapless : s.boxes.Gapless) : Loaded s [] s :=
  ⟨h, rfl, rfl, hgapless, [], (List.append_nil _).symm, .nil⟩

theorem Loaded.cons {s t u : Scene K} {e : BoxElement} {es : List BoxElement}
    (h : Loaded s [e] t) (hrest : Loaded t es u) : Loaded s (e :: es) u := by
  refine ⟨hrest.linked, hrest.views.trans h.views, hrest.rest.trans (by rw [h.rest]),
    hrest.gapless, ?_⟩
  obtain ⟨bs, hbs, hfirst⟩ := h.boxes
  obtain ⟨cs, hcs, hothers⟩ := hrest.boxes
  refine ⟨bs ++ cs, ?_, List.rel_append hfirst (hothers.imp fun _ _ hb => hb.congr h.views)⟩
  rw [hcs, hbs, List.append_assoc]

omit [Scalar K] [Numeric K] in
theorem insertBox_eq {s u : Scene K} {b : Box K} {key : BoxKey}
    (h : s.insertBox b = (key, u)) : u = { s with boxes := u.boxes } ∧
      s.boxes.insert { b with link := .none } = (key, u.boxes) := by
  simp only [Scene.insertBox, Prod.mk.injEq] at h
  obtain ⟨rfl, rfl⟩ := h
  exact ⟨rfl, rfl⟩

-- A box that is put in, linked and displayed is loaded.
theorem Loaded.single {s u t : Scene K} {e : BoxElement} {key : BoxKey}
    (hinsert : s.insertBox e.toBox = (key, u)) (hgapless : s.boxes.Gapless)
    (hlinked : t.Linked) (hviews : t.views = s.views)
    (hrest : t = { s with perspectives := t.perspectives, boxes := t.boxes })
    {f : Box K → Box K} (hf : Box.Redisplays f)
    (hboxes : t.boxes = u.boxes.modify key
      fun b => f { b with link := s.linkFor e.perspective }) : Loaded s [e] t := by
  obtain ⟨hid, hcorners⟩ := toBox_eq (K := K) e
  obtain ⟨-, hput⟩ := insertBox_eq hinsert
  have hkept := hgapless.insert { (e.toBox : Box K) with link := .none }
  have hvalues := hgapless.values_insert_modify { (e.toBox : Box K) with link := .none }
    fun b => f { b with link := s.linkFor e.perspective }
  rw [hput] at hkept hvalues
  refine ⟨hlinked, hviews, hrest, ?_, [f { e.toBox with link := s.linkFor e.perspective }], ?_, ?_⟩
  · rw [hboxes]
    exact hkept.modify key _
  · rw [hboxes]
    exact hvalues
  · refine .cons ⟨?_, ?_, ?_, hf.styles _⟩ .nil
    · rw [hf.id, hid]
    · rw [hf.corners, hcorners]
    · rw [hf.link]

theorem Linked.loadBox_run {s : Scene K} (h : s.Linked) (hgapless : s.boxes.Gapless)
    (e : BoxElement) : ∃ t, (loadBox e).run s = .ok ⟨⟩ t ∧ Loaded s [e] t := by
  obtain ⟨⟨key, u⟩, hinsert⟩ : ∃ r, s.insertBox (e.toBox : Box K) = r := ⟨_, rfl⟩
  obtain ⟨hurest, hput⟩ := insertBox_eq hinsert
  have huviews : u.views = s.views := by
    rw [hurest]
    rfl
  have hnew : u.boxes.get? key = some { (e.toBox : Box K) with link := .none } := by
    have hget := SlotTable.get?_insert s.boxes { (e.toBox : Box K) with link := .none } key
    rwa [hput, if_pos rfl] at hget
  obtain ⟨f, hf, hset⟩ := setHref_run hnew rfl e.perspective
  rw [linkFor_congr huviews] at hset
  generalize hv : (u.linked key none (s.linkFor e.perspective)).modifyBox key f = v at hset
  have hvlinked : v.Linked := by
    have hu := h.insertBox (e.toBox : Box K)
    rw [hinsert] at hu
    rw [← after_of_run_ok hset]
    exact hu.changes (changes_setHref u key e.perspective)
  have hvviews : v.views = s.views := by
    rw [← hv, ← huviews]
    exact views_linked u key none (s.linkFor e.perspective)
  have hvrest : v = { s with perspectives := v.perspectives, boxes := v.boxes } := by
    rw [← hv, linked, relist_eq, hurest]
    rfl
  have hvboxes : v.boxes = u.boxes.modify key
      fun b => f { b with link := s.linkFor e.perspective } := by
    rw [← hv, modifyBox, linked_boxes, SlotTable.modify_modify]
  have hget : v.boxes.get? key =
      some (f { (e.toBox : Box K) with link := s.linkFor e.perspective }) := by
    rw [hvboxes, SlotTable.get?_modify, if_pos rfl, hnew]
    rfl
  obtain ⟨g, hg, hupdate⟩ := hvlinked.updateLoaded_run hget
  have hrun : (loadBox e).run s = .ok ⟨⟩ (v.modifyBox key g) := by
    rw [loadBox, EStateM.run_bind, EStateM.run_modifyGet]
    simp only [hinsert]
    rw [EStateM.run_bind, hset]
    simp only
    rw [EStateM.run_bind, box_run, hget]
    exact hupdate
  have hlinked := h.changes (changes_loadBox s e)
  rw [after_of_run_ok hrun] at hlinked
  have hrest : v.modifyBox key g =
      { s with perspectives := v.perspectives, boxes := v.boxes.modify key g } := by
    rw [modifyBox, hvrest]
  refine ⟨_, hrun, .single hinsert hgapless hlinked hvviews hrest (hf.trans hg) ?_⟩
  rw [modifyBox, hvboxes, SlotTable.modify_modify]

theorem Linked.loadBoxes_run {s : Scene K} (h : s.Linked) (hgapless : s.boxes.Gapless)
    (es : List BoxElement) : ∃ t, (es.forM loadBox).run s = .ok ⟨⟩ t ∧ Loaded s es t := by
  induction es generalizing s with
  | nil => exact ⟨s, rfl, .refl h hgapless⟩
  | cons e es ih =>
    obtain ⟨t, hrun, ht⟩ := h.loadBox_run hgapless e
    obtain ⟨u, hrest, hu⟩ := ih ht.linked ht.gapless
    refine ⟨u, ?_, ht.cons hu⟩
    rw [List.forM_eq_forM, List.forM_cons, EStateM.run_bind, hrun]
    exact hrest

theorem boxes_loadPerspectives (s : Scene K) (es : List PerspectiveElement) :
    (es.foldl loadPerspective s).boxes = s.boxes := by
  induction es generalizing s with
  | nil => rfl
  | cons e es ih =>
    rw [List.foldl_cons, ih, loadPerspective]
    split <;> rfl

omit [Scalar K] [Numeric K] in
theorem isNone_findPerspective_insert {s : Scene K} (h : s.perspectives.Gapless)
    (p : Perspective K) (id : String) :
    ((s.insertPerspective p).2.findPerspective id).isNone =
      ((s.findPerspective id).isNone && decide ((id == p.id) = false)) := by
  have hvalues : (s.insertPerspective p).2.perspectives.values =
      s.perspectives.values ++ [{ p with boxes := [] }] := h.values_insert _
  rw [Bool.eq_iff_iff, Bool.and_eq_true, Option.isNone_iff_eq_none, Option.isNone_iff_eq_none,
    findPerspective_eq_none_iff, findPerspective_eq_none_iff, hvalues, List.forall_mem_append,
    List.forall_mem_singleton, decide_eq_true_iff, beq_eq_false_iff_ne]
  exact and_congr_right fun _ => ne_comm

-- Behind what there was, the readable perspectives of new ids, each id once.
theorem values_foldl_loadPerspective {s : Scene K} (h : s.perspectives.Gapless)
    (es : List PerspectiveElement) :
    (es.foldl loadPerspective s).perspectives.values = s.perspectives.values ++
      (((es.filterMap PerspectiveElement.named?).filter
        fun v => (s.findPerspective v.1).isNone).eraseDupsBy fun v w => v.1 == w.1).map
          fun v => ⟨v.1, v.2, []⟩ := by
  induction es generalizing s with
  | nil => exact (List.append_nil _).symm
  | cons e es ih =>
    rw [List.foldl_cons, List.filterMap_cons, PerspectiveElement.named?, loadPerspective]
    cases (e.projection? : Option (Projection K)) with
    | none =>
      cases s.findPerspective e.id <;> exact ih h
    | some map =>
      cases hfind : s.findPerspective e.id with
      | some key =>
        simp only [Option.map_some]
        rw [ih h, List.filter_cons_of_neg (by simp [hfind])]
      | none =>
        have hvalues : (s.insertPerspective ⟨e.id, map, []⟩).2.perspectives.values =
            s.perspectives.values ++ [⟨e.id, map, []⟩] := h.values_insert _
        simp only [Option.map_some]
        rw [ih (h.insert _), hvalues, List.filter_cons_of_pos (by simp [hfind]),
          List.eraseDupsBy_cons, List.filter_filter, List.append_assoc]
        simp only [isNone_findPerspective_insert h, Bool.and_comm]
        rfl

theorem eraseDupsBy_eq_self {α : Type} {l : List (String × α)} (h : (l.map Prod.fst).Nodup) :
    (l.eraseDupsBy fun v w => v.1 == w.1) = l := by
  induction l with
  | nil => rfl
  | cons v l ih =>
    obtain ⟨hout, hrest⟩ := List.nodup_cons.1 h
    rw [List.eraseDupsBy_cons, List.filter_eq_self.2, ih hrest]
    intro w hw
    rw [decide_eq_true_iff, beq_eq_false_iff_ne]
    exact fun heq => hout (heq ▸ List.mem_map_of_mem hw)

-- Perspectives of new and different ids are all loaded, in their order.
theorem values_loadPerspectives {s : Scene K} (hgapless : s.perspectives.Gapless)
    {ps : List (Perspective K)}
    (hread : ∀ p ∈ ps, (PerspectiveElement.ofPerspective p).projection? = some p.map)
    (hnodup : (ps.map Perspective.id).Nodup)
    (hnew : ∀ p ∈ ps, s.findPerspective p.id = none) :
    ((ps.map PerspectiveElement.ofPerspective).foldl loadPerspective s).perspectives.values =
      s.perspectives.values ++ ps.map fun p => { p with boxes := [] } := by
  have hnamed : (ps.map PerspectiveElement.ofPerspective).filterMap PerspectiveElement.named? =
      ps.map fun p => (p.id, p.map) := by
    rw [List.filterMap_map, ← List.filterMap_eq_map]
    refine List.filterMap_congr fun p hp => ?_
    simp only [Function.comp, PerspectiveElement.named?, hread p hp, Option.map_some]
    rfl
  have hall : ∀ v ∈ ps.map fun p => (p.id, p.map), (s.findPerspective v.1).isNone = true := by
    intro v hv
    obtain ⟨p, hp, rfl⟩ := List.mem_map.1 hv
    rw [hnew p hp, Option.isNone_none]
  rw [values_foldl_loadPerspective hgapless, hnamed, List.filter_eq_self.2 hall,
    eraseDupsBy_eq_self (by rwa [List.map_map]), List.map_map]
  rfl

-- A document is loaded, whatever it says: first its perspectives, then its boxes.
theorem ofDocument_eq {settings : Settings K} (h : settings.validate = .ok ()) (d : Document) :
    ∃ t, ofDocument d settings = .ok t ∧
      Loaded (d.perspectives.foldl loadPerspective (ofSettings settings)) d.boxes t := by
  have hlinked := (linked_ofSettings settings).changes
    (changes_loadPerspectives (ofSettings settings) d.perspectives)
  have hgapless : (d.perspectives.foldl loadPerspective (ofSettings settings)).boxes.Gapless := by
    rw [boxes_loadPerspectives]
    exact .empty
  obtain ⟨t, hrun, ht⟩ := hlinked.loadBoxes_run hgapless d.boxes
  refine ⟨t, ?_, ht⟩
  simp only [ofDocument, withSettings, h, bind, Except.bind, pure, Except.pure, hrun]

end Scene

end PerspectiveBox
