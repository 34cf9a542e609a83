import Mathlib.Data.List.Nodup
import PerspectiveBox.Proofs.Scene.Moving

namespace PerspectiveBox

variable {K : Type} [Scalar K]

theorem Box.refresh_link (b : Box K) (m : Projection K) (strategy : OrderStrategy) :
    (b.refresh m strategy).link = b.link :=
  (Box.edited_link b.saveCorners (.update m strategy)).2

namespace Scene

structure Isolated (s : Scene K) (p : PerspectiveKey) (q : Perspective K)
    (selection : List BoxKey) (target : PerspectiveKey) (t : Scene K) : Prop where
  linked : t.Linked
  -- A copy is made if and only if there are boxes to be left behind.
  own : target = p ∨ s.perspectives.get? target = none
  whole : target = p → ∀ b ∈ q.boxes, b ∈ selection
  there : ∀ {b}, b ∈ q.boxes → b ∈ selection →
    ∃ x, t.boxes.get? b = some x ∧ x.link.target = some target
  kept : ∀ {b}, ¬ (b ∈ q.boxes ∧ b ∈ selection) → t.boxes.get? b = s.boxes.get? b
  copied : ∃ r, t.perspectives.get? target = some r ∧ r.map = q.map ∧
    ∀ b ∈ r.boxes, b ∈ q.boxes ∧ b ∈ selection
  left : (t.perspectives.get? p).map Perspective.map = some q.map
  others : ∀ {k r}, k ≠ p → s.perspectives.get? k = some r → t.perspectives.get? k = some r

omit [Scalar K] in
theorem hasAllBoxes_run {s : Scene K} {p : PerspectiveKey} {q : Perspective K}
    (hq : s.perspectives.get? p = some q) (selection : List BoxKey) :
    (hasAllBoxes p selection).run s = .ok (q.boxes.all selection.contains) s := by
  rw [hasAllBoxes, EStateM.run_bind, perspective_run, hq]
  rfl

omit [Scalar K] in
theorem selectedBoxes_run {s : Scene K} {p : PerspectiveKey} {q : Perspective K}
    (hq : s.perspectives.get? p = some q) (selection : List BoxKey) :
    (selectedBoxes p selection).run s = .ok (q.boxes.filter selection.contains) s := by
  rw [selectedBoxes, EStateM.run_bind, perspective_run, hq]
  rfl

omit [Scalar K] in
theorem duplicatePerspective_run {s : Scene K} {p : PerspectiveKey} {q : Perspective K}
    (hq : s.perspectives.get? p = some q) :
    (duplicatePerspective p).run s = .ok (s.addPerspective q.map).1 (s.addPerspective q.map).2 := by
  rw [duplicatePerspective, EStateM.run_bind, perspective_run, hq]
  rfl

omit [Scalar K] in
-- The added perspective is a new one without boxes, and all others are as before.
theorem get?_addPerspective (s : Scene K) (map : Projection K) :
    s.perspectives.get? (s.addPerspective map).1 = none ∧
      ∃ id, ∀ k, (s.addPerspective map).2.perspectives.get? k =
        if k = (s.addPerspective map).1 then some ⟨id, map, []⟩ else s.perspectives.get? k :=
  ⟨SlotTable.get?_insert_key s.perspectives _, (s.freshId "perspective").1,
    fun k => SlotTable.get?_insert s.perspectives _ k⟩

omit [Scalar K] in
-- A copy to which the selected boxes were moved has them and no others.
theorem Moved.isolated {s u t : Scene K} (h : s.Linked) {p fork : PerspectiveKey}
    {q : Perspective K} {selection : List BoxKey} {id : String}
    (hq : s.perspectives.get? p = some q) (hnew : s.perspectives.get? fork = none)
    (hboxes : u.boxes = s.boxes) (hget : ∀ k, u.perspectives.get? k =
      if k = fork then some ⟨id, q.map, []⟩ else s.perspectives.get? k)
    (ht : Moved u fork (q.boxes.filter selection.contains) t) :
    Isolated s p q selection fork t := by
  have hlive {k : PerspectiveKey} {r : Perspective K} (hr : s.perspectives.get? k = some r) :
      k ≠ fork := by
    intro he
    rw [← he, hr] at hnew
    cases hnew
  have hpf : p ≠ fork := hlive hq
  have hmem (b : BoxKey) :
      b ∈ q.boxes.filter selection.contains ↔ b ∈ q.boxes ∧ b ∈ selection := by simp
  refine ⟨ht.linked, .inr hnew, fun he => absurd he.symm hpf,
    fun hb hs => ht.there ((hmem _).2 ⟨hb, hs⟩), fun hb => ?_, ?_, ?_, fun {k r} hk hr => ?_⟩
  · rw [ht.others fun hb' => hb ((hmem _).1 hb'), hboxes]
  · have hmap := ht.maps fork
    rw [hget, if_pos rfl, Option.map_some] at hmap
    obtain ⟨r, hr, hrmap⟩ := Option.map_eq_some_iff.1 hmap
    refine ⟨r, hr, hrmap, fun b hb => ?_⟩
    by_cases hb' : b ∈ q.boxes.filter selection.contains
    · exact (hmem b).1 hb'
    · -- No box was linked to the copy before it was made.
      exfalso
      obtain ⟨x, hx, htarget⟩ := ht.linked.listed hr hb
      rw [ht.others hb', hboxes] at hx
      obtain ⟨_, hforked, -⟩ := h.attached hx htarget
      exact hlive hforked rfl
  · rw [ht.maps, hget, if_neg hpf, hq, Option.map_some]
  · have hkf : k ≠ fork := hlive hr
    refine ht.lists hkf (by rw [hget, if_neg hkf, hr]) fun b hb hbr => ?_
    obtain ⟨x, hx, hxp⟩ := h.listed hq ((hmem b).1 hb).1
    have hxk := h.target_eq hr hbr hx
    rw [hxp, Option.some.injEq] at hxk
    exact hk hxk.symm

theorem Linked.isolate_run {s : Scene K} (h : s.Linked) {p : PerspectiveKey}
    {q : Perspective K} (hq : s.perspectives.get? p = some q) (selection : List BoxKey) :
    ∃ target t, (isolate p selection).run s = .ok target t ∧
      Isolated s p q selection target t := by
  rw [isolate, EStateM.run_bind, hasAllBoxes_run hq]
  by_cases hall : q.boxes.all selection.contains = true
  · -- The perspective has no other boxes.
    have hsel : ∀ b ∈ q.boxes, b ∈ selection := by simpa using hall
    refine ⟨p, s, by simp only [hall, if_true]; rfl, h, .inl rfl, fun _ => hsel,
      fun hb _ => h.listed hq hb, fun _ => rfl, ⟨q, hq, rfl, fun b hb => ⟨hb, hsel b hb⟩⟩,
      by rw [hq, Option.map_some], fun _ hr => hr⟩
  · obtain ⟨hnew, id, hget⟩ := get?_addPerspective s q.map
    have hlinked := h.changes (changes_addPerspective s q.map)
    have hrunfork := duplicatePerspective_run hq
    have hboxes : (s.addPerspective q.map).2.boxes = s.boxes := rfl
    generalize (s.addPerspective q.map).1 = fork at hnew hget hrunfork
    generalize (s.addPerspective q.map).2 = u at hget hlinked hrunfork hboxes
    have hqu : u.perspectives.get? p = some q := by
      rw [hget, if_neg, hq]
      intro he
      rw [← he, hq] at hnew
      cases hnew
    have hkeys : ∀ b ∈ q.boxes.filter selection.contains, ∃ x, u.boxes.get? b = some x := by
      intro b hb
      obtain ⟨x, hx, -⟩ := h.listed hq (List.mem_filter.1 hb).1
      exact ⟨x, hboxes ▸ hx⟩
    obtain ⟨t, hrun, ht⟩ := hlinked.moves_run ⟨_, (hget fork).trans (if_pos rfl)⟩
      ((h.nodup hq).filter _) hkeys
    refine ⟨fork, t, ?_, ht.isolated h hq hnew hboxes hget⟩
    simp only [hall, Bool.false_eq_true, if_false]
    rw [EStateM.run_bind, hrunfork]
    simp only
    rw [EStateM.run_bind, selectedBoxes_run hqu]
    simp only
    rw [EStateM.run_bind, hrun]
    rfl

-- From `s` to `t`, the selected boxes of some perspectives were mapped over the page. They are
-- now in the perspectives to which `d` leads.
structure Transformed (s : Scene K) (ps : List PerspectiveKey) (selection : List BoxKey)
    (f : Affine K) (d : PerspectiveKey → PerspectiveKey) (t : Scene K) : Prop where
  linked : t.Linked
  own : ∀ {p}, p ∈ ps → d p = p ∨ s.perspectives.get? (d p) = none
  whole : ∀ {p q}, p ∈ ps → d p = p → s.perspectives.get? p = some q →
    ∀ b ∈ q.boxes, b ∈ selection
  injective : ∀ {p q}, p ∈ ps → q ∈ ps → d p = d q → p = q
  there : ∀ {p b x}, p ∈ ps → b ∈ selection → s.boxes.get? b = some x →
    x.link.target = some p → ∃ y, t.boxes.get? b = some y ∧ y.link.target = some (d p)
  kept : ∀ {b}, (∀ x p, s.boxes.get? b = some x → x.link.target = some p → p ∈ ps →
    b ∉ selection) → t.boxes.get? b = s.boxes.get? b
  mapped : ∀ {p q}, p ∈ ps → s.perspectives.get? p = some q →
    ∃ r, t.perspectives.get? (d p) = some r ∧ r.map = q.map.applyAffine f
  left : ∀ {p}, p ∈ ps → d p ≠ p → (t.perspectives.get? p).map Perspective.map =
    (s.perspectives.get? p).map Perspective.map
  others : ∀ {q r}, q ∉ ps → s.perspectives.get? q = some r → t.perspectives.get? q = some r

theorem refreshBoxes_run {s : Scene K} {p : PerspectiveKey} {q : Perspective K}
    (hq : s.perspectives.get? p = some q) : (refreshBoxes p).run s =
      .ok ⟨⟩ (s.modifyBoxes q.boxes fun b => b.refresh q.map s.settings.strategy) := by
  rw [refreshBoxes, changeBoxes, EStateM.run_bind, perspective_run, hq]
  rfl

-- The scene after the perspective `q` under a key was mapped and its boxes were refreshed.
def mapped (s : Scene K) (key : PerspectiveKey) (q : Perspective K) (f : Affine K) : Scene K :=
  (s.modifyPerspective key fun p => p.applyAffine f).modifyBoxes q.boxes
    fun b => b.refresh (q.map.applyAffine f) s.settings.strategy

theorem perspectives_mapped {s : Scene K} {key : PerspectiveKey} {q : Perspective K}
    (hq : s.perspectives.get? key = some q) (f : Affine K) (k : PerspectiveKey) :
    (s.mapped key q f).perspectives.get? k =
      if k = key then some (q.applyAffine f) else s.perspectives.get? k := by
  rw [mapped, modifyBoxes, modifyPerspective, SlotTable.get?_modify, hq]
  rfl

theorem boxes_mapped (s : Scene K) {q : Perspective K} (h : q.boxes.Nodup)
    (key : PerspectiveKey) (f : Affine K) (b : BoxKey) :
    (s.mapped key q f).boxes.get? b =
      if b ∈ q.boxes then (s.boxes.get? b).map
        fun b => b.refresh (q.map.applyAffine f) s.settings.strategy
      else s.boxes.get? b := by
  rw [mapped, modifyBoxes, SlotTable.get?_modifyAll _ h]
  rfl

-- What is done for one perspective of the selection.
def transformPerspective (selection : List BoxKey) (f : Affine K) (p : PerspectiveKey) :
    SceneM K PerspectiveKey := do
  let target ← isolate p selection
  modify fun s => s.modifyPerspective target fun p => p.applyAffine f
  refreshBoxes target
  return target

theorem mapped_run {s : Scene K} {key : PerspectiveKey} {q : Perspective K}
    (hq : s.perspectives.get? key = some q) (f : Affine K) :
    (refreshBoxes key).run (s.modifyPerspective key fun p => p.applyAffine f) =
      .ok ⟨⟩ (s.mapped key q f) := by
  have hmapped : (s.modifyPerspective key fun p => p.applyAffine f).perspectives.get? key =
      some (q.applyAffine f) := by
    rw [modifyPerspective, SlotTable.get?_modify, if_pos rfl, hq]
    rfl
  rw [refreshBoxes_run hmapped]
  rfl

theorem Linked.mapped {s : Scene K} (h : s.Linked) {key : PerspectiveKey} {q : Perspective K}
    (hq : s.perspectives.get? key = some q) (f : Affine K) : (s.mapped key q f).Linked := by
  have hchange : Change s (s.modifyPerspective key fun p => p.applyAffine f) :=
    .map key fun m => m.applyAffine f
  rw [← after_of_run_ok (mapped_run hq f)]
  exact (h.change hchange).changes (changes_refreshBoxes _ key)

-- Once its selected boxes are isolated, a perspective can be mapped.
theorem Isolated.transformed {s t : Scene K} (h : s.Linked) {p target : PerspectiveKey}
    {q r : Perspective K} {selection : List BoxKey} (hq : s.perspectives.get? p = some q)
    (ht : Isolated s p q selection target t) (hr : t.perspectives.get? target = some r)
    (hmap : r.map = q.map) (hown : ∀ b ∈ r.boxes, b ∈ q.boxes ∧ b ∈ selection) (f : Affine K) :
    Transformed s [p] selection f (fun _ => target) (t.mapped target r f) := by
  have hget := perspectives_mapped hr f
  have hboxes := boxes_mapped t (ht.linked.nodup hr) target f
  have hmem {k : PerspectiveKey} (hk : k ∈ [p]) : k = p := List.mem_singleton.1 hk
  refine ⟨ht.linked.mapped hr f, fun hk => ?_, fun {k x} hk hd hx => ?_, fun hk hl _ => ?_,
    fun {k b x} hk hb hx hxt => ?_, fun {b} hb => ?_, fun {k x} hk hx => ?_, fun {k} hk hne => ?_,
    fun {k x} hk hx => ?_⟩
  · rw [hmem hk]
    exact ht.own
  · rw [hmem hk] at hd hx
    rw [hq, Option.some.injEq] at hx
    exact hx ▸ ht.whole hd
  · rw [hmem hk, hmem hl]
  · rw [hmem hk] at hxt
    obtain ⟨y, hy, hyt⟩ := ht.there (h.mem_boxes hx hxt hq) hb
    rw [hboxes, hy]
    split
    · exact ⟨_, rfl, by rw [Box.refresh_link, hyt]⟩
    · exact ⟨y, rfl, hyt⟩
  · have hnot : ¬ (b ∈ q.boxes ∧ b ∈ selection) := by
      rintro ⟨hbq, hbs⟩
      obtain ⟨x, hx, hxp⟩ := h.listed hq hbq
      exact hb x p hx hxp (List.mem_singleton.2 rfl) hbs
    rw [hboxes, if_neg fun hbr => hnot (hown b hbr), ht.kept hnot]
  · rw [hmem hk, hq, Option.some.injEq] at hx
    refine ⟨r.applyAffine f, by rw [hget, if_pos rfl], ?_⟩
    rw [← hx, ← hmap]
    rfl
  · rw [hmem hk] at hne ⊢
    have hpt : p ≠ target := fun he => hne he.symm
    rw [hget, if_neg hpt, hq, Option.map_some, ← ht.left]
  · have hkp : k ≠ p := fun he => hk (List.mem_singleton.2 he)
    have hkt : k ≠ target := by
      intro he
      rcases ht.own with hown | hown
      · exact hkp (he.trans hown)
      · rw [← he, hx] at hown
        cases hown
    rw [hget, if_neg hkt]
    exact ht.others hkp hx

theorem Linked.transformPerspective_run {s : Scene K} (h : s.Linked) {p : PerspectiveKey}
    {q : Perspective K} (hq : s.perspectives.get? p = some q) (selection : List BoxKey)
    (f : Affine K) :
    ∃ target t, (transformPerspective selection f p).run s = .ok target t ∧
      Transformed s [p] selection f (fun _ => target) t := by
  obtain ⟨target, t, hrun, ht⟩ := h.isolate_run hq selection
  obtain ⟨r, hr, hmap, hown⟩ := ht.copied
  refine ⟨target, t.mapped target r f, ?_, ht.transformed h hq hr hmap hown f⟩
  rw [transformPerspective, EStateM.run_bind, hrun]
  simp only [EStateM.run_bind, EStateM.run_modify, mapped_run hr f]
  rfl

theorem Transformed.nil {s : Scene K} (h : s.Linked) (selection : List BoxKey) (f : Affine K)
    (d : PerspectiveKey → PerspectiveKey) : Transformed s [] selection f d s :=
  ⟨h, nofun, nofun, nofun, nofun, fun _ => rfl, nofun, nofun, fun _ hr => hr⟩

section Cons

variable {s t u : Scene K} {p : PerspectiveKey} {ps : List PerspectiveKey}
  {selection : List BoxKey} {f : Affine K} {d e : PerspectiveKey → PerspectiveKey}

-- The perspectives still to be dealt with are as they were.
theorem Transformed.rest_eq (hp : p ∉ ps) (hfirst : Transformed s [p] selection f d t)
    {q : PerspectiveKey} {r : Perspective K} (hq : q ∈ ps) (hr : s.perspectives.get? q = some r) :
    t.perspectives.get? q = some r := by
  refine hfirst.others (fun he => hp ?_) hr
  rw [← List.mem_singleton.1 he]
  exact hq

-- Where the first boxes are is not among them.
theorem Transformed.target_not_mem (hp : p ∉ ps)
    (hlive : ∀ q ∈ p :: ps, ∃ r, s.perspectives.get? q = some r)
    (hfirst : Transformed s [p] selection f d t) : d p ∉ ps := by
  intro hdp
  rcases hfirst.own List.mem_cons_self with hown | hown
  · exact hp (hown ▸ hdp)
  · obtain ⟨r, hr⟩ := hlive _ (List.mem_cons_of_mem _ hdp)
    rw [hown] at hr
    cases hr

-- The boxes of another perspective do not end up there either.
theorem Transformed.target_ne (hp : p ∉ ps)
    (hlive : ∀ q ∈ p :: ps, ∃ r, s.perspectives.get? q = some r)
    (hfirst : Transformed s [p] selection f d t) (hrest : Transformed t ps selection f e u)
    {k : PerspectiveKey} (hk : k ∈ ps) : d p ≠ e k := by
  intro he
  rcases hrest.own hk with hown | hown
  · refine hfirst.target_not_mem hp hlive ?_
    rw [he, hown]
    exact hk
  · obtain ⟨q, hq⟩ := hlive p List.mem_cons_self
    obtain ⟨image, himage, -⟩ := hfirst.mapped List.mem_cons_self hq
    rw [← he, himage] at hown
    cases hown

-- A perspective that is new to the rest is new altogether: what was there before is there still.
theorem Transformed.rest_own (hp : p ∉ ps)
    (hlive : ∀ q ∈ p :: ps, ∃ r, s.perspectives.get? q = some r)
    (hfirst : Transformed s [p] selection f d t) (hrest : Transformed t ps selection f e u)
    {k : PerspectiveKey} (hk : k ∈ ps) : e k = k ∨ s.perspectives.get? (e k) = none := by
  rcases hrest.own hk with hown | hown
  · exact .inl hown
  · refine .inr ?_
    cases hs : s.perspectives.get? (e k) with
    | none => rfl
    | some x =>
      by_cases hep : e k = p
      · by_cases hdp : d p = p
        · exact absurd (hdp.trans hep.symm) (hfirst.target_ne hp hlive hrest hk)
        · have hleft := hfirst.left List.mem_cons_self hdp
          rw [hep] at hs hown
          rw [hs, hown] at hleft
          cases hleft
      · rw [hfirst.others (by simpa using hep) hs] at hown
        cases hown

theorem Transformed.first_there (hd : d p ∉ ps) (hfirst : Transformed s [p] selection f d t)
    (hrest : Transformed t ps selection f e u) {b : BoxKey} {x : Box K} (hb : b ∈ selection)
    (hx : s.boxes.get? b = some x) (hxp : x.link.target = some p) :
    ∃ y, u.boxes.get? b = some y ∧ y.link.target = some (d p) := by
  obtain ⟨y, hy, hyt⟩ := hfirst.there List.mem_cons_self hb hx hxp
  refine ⟨y, ?_, hyt⟩
  rw [hrest.kept, hy]
  intro z l hz hzl hl
  rw [hy, Option.some.injEq] at hz
  rw [← hz, hyt, Option.some.injEq] at hzl
  exact absurd (hzl ▸ hl) hd

theorem Transformed.rest_there (hp : p ∉ ps) (hfirst : Transformed s [p] selection f d t)
    (hrest : Transformed t ps selection f e u) {k : PerspectiveKey} {b : BoxKey} {x : Box K}
    (hk : k ∈ ps) (hb : b ∈ selection) (hx : s.boxes.get? b = some x)
    (hxk : x.link.target = some k) :
    ∃ y, u.boxes.get? b = some y ∧ y.link.target = some (e k) := by
  have hbox : t.boxes.get? b = some x := by
    rw [hfirst.kept, hx]
    intro z l hz hzl hl
    rw [hx, Option.some.injEq] at hz
    rw [← hz, hxk, Option.some.injEq] at hzl
    rw [← List.mem_singleton.1 hl, ← hzl] at hp
    exact absurd hk hp
  exact hrest.there hk hb hbox hxk

-- What is done for the first perspective and then for the rest is done for all of them.
theorem Transformed.cons (hp : p ∉ ps)
    (hlive : ∀ q ∈ p :: ps, ∃ r, s.perspectives.get? q = some r)
    (hfirst : Transformed s [p] selection f d t) (hrest : Transformed t ps selection f e u) :
    Transformed s (p :: ps) selection f (fun q => if q = p then d p else e q) u := by
  have hmem : p ∈ [p] := List.mem_cons_self
  have hout {q} (hq : q ∈ ps) : q ≠ p := fun he => hp (he ▸ hq)
  have hd : d p ∉ ps := hfirst.target_not_mem hp hlive
  have hapart {k} (hk : k ∈ ps) : d p ≠ e k := hfirst.target_ne hp hlive hrest hk
  obtain ⟨q, hq⟩ := hlive p List.mem_cons_self
  refine ⟨hrest.linked, fun {k} hk => ?_, fun {k r} hk hd' hr' => ?_, fun {k l} hk hl hkl => ?_,
    fun {k b x} hk hb hx ht => ?_, fun {b} hb => ?_, fun {k r} hk hr' => ?_,
    fun {k} hk hne => ?_, fun {k r} hk hr' => ?_⟩
  · rcases List.mem_cons.1 hk with rfl | hk
    · rw [if_pos rfl]
      exact hfirst.own hmem
    · rw [if_neg (hout hk)]
      exact hfirst.rest_own hp hlive hrest hk
  · rcases List.mem_cons.1 hk with rfl | hk
    · rw [if_pos rfl] at hd'
      exact hfirst.whole hmem hd' hr'
    · rw [if_neg (hout hk)] at hd'
      exact hrest.whole hk hd' (hfirst.rest_eq hp hk hr')
  · rcases List.mem_cons.1 hk with hkp | hkps <;> rcases List.mem_cons.1 hl with hlp | hlps
    · rw [hkp, hlp]
    · rw [if_pos hkp, if_neg (hout hlps)] at hkl
      exact absurd hkl (hapart hlps)
    · rw [if_neg (hout hkps), if_pos hlp] at hkl
      exact absurd hkl.symm (hapart hkps)
    · rw [if_neg (hout hkps), if_neg (hout hlps)] at hkl
      exact hrest.injective hkps hlps hkl
  · rcases List.mem_cons.1 hk with rfl | hk
    · rw [if_pos rfl]
      exact hfirst.first_there hd hrest hb hx ht
    · rw [if_neg (hout hk)]
      exact hfirst.rest_there hp hrest hk hb hx ht
  · have hkept := hfirst.kept (b := b) fun x l hx hl hlp =>
      hb x l hx hl (List.mem_cons.2 (.inl (List.mem_singleton.1 hlp)))
    rw [hrest.kept, hkept]
    intro x l hx hl hlps
    rw [hkept] at hx
    exact hb x l hx hl (List.mem_cons_of_mem _ hlps)
  · rcases List.mem_cons.1 hk with rfl | hk
    · obtain ⟨image, himage, hmap⟩ := hfirst.mapped hmem hr'
      rw [if_pos rfl, hrest.others hd himage]
      exact ⟨image, rfl, hmap⟩
    · rw [if_neg (hout hk)]
      exact hrest.mapped hk (hfirst.rest_eq hp hk hr')
  · rcases List.mem_cons.1 hk with rfl | hk
    · rw [if_pos rfl] at hne
      have hleft := hfirst.left hmem hne
      rw [hq, Option.map_some] at hleft
      obtain ⟨x, hx, hxmap⟩ := Option.map_eq_some_iff.1 hleft
      rw [hrest.others hp hx, hq, Option.map_some, Option.map_some, hxmap]
    · rw [if_neg (hout hk)] at hne
      obtain ⟨x, hx⟩ := hlive k (List.mem_cons_of_mem _ hk)
      rw [hrest.left hk hne, hfirst.rest_eq hp hk hx, hx]
  · rw [List.mem_cons, not_or] at hk
    exact hrest.others hk.2 (hfirst.others (by simpa using hk.1) hr')

end Cons

theorem Linked.transformPerspectives_run {s : Scene K} (h : s.Linked)
    {ps : List PerspectiveKey} (hnodup : ps.Nodup)
    (hlive : ∀ p ∈ ps, ∃ q, s.perspectives.get? p = some q) (selection : List BoxKey)
    (f : Affine K) :
    ∃ d t, (ps.mapM (transformPerspective selection f)).run s = .ok (ps.map d) t ∧
      Transformed s ps selection f d t := by
  induction ps generalizing s with
  | nil => exact ⟨id, s, rfl, .nil h selection f id⟩
  | cons p ps ih =>
    obtain ⟨hp, hps⟩ := List.nodup_cons.1 hnodup
    obtain ⟨q, hq⟩ := hlive p List.mem_cons_self
    obtain ⟨target, t, hrun, hfirst⟩ := h.transformPerspective_run hq selection f
    have hlive' : ∀ k ∈ ps, ∃ r, t.perspectives.get? k = some r := by
      intro k hk
      obtain ⟨r, hr⟩ := hlive k (List.mem_cons_of_mem _ hk)
      exact ⟨r, hfirst.others (fun he => hp (List.mem_singleton.1 he ▸ hk)) hr⟩
    obtain ⟨e, u, hrest, hu⟩ := ih hfirst.linked hps hlive'
    refine ⟨_, u, ?_, hfirst.cons hp hlive hu⟩
    have hmap : ps.map (fun k => if k = p then target else e k) = ps.map e := by
      refine List.map_congr_left fun k hk => ?_
      have hkp : k ≠ p := fun he => hp (he ▸ hk)
      rw [if_neg hkp]
    rw [List.mapM_cons, EStateM.run_bind, hrun]
    simp only [EStateM.run_bind, hrest]
    rw [List.map_cons, if_pos rfl, hmap]
    rfl

private def addNew (found : List PerspectiveKey) (p : PerspectiveKey) : List PerspectiveKey :=
  if found.contains p then found else found ++ [p]

private theorem nodup_foldl_addNew (l : List PerspectiveKey) {found : List PerspectiveKey}
    (h : found.Nodup) : (l.foldl addNew found).Nodup := by
  induction l generalizing found with
  | nil => exact h
  | cons p l ih =>
    refine ih ?_
    rw [addNew]
    split
    · exact h
    · next hp =>
      have hout : p ∉ found := by simpa using hp
      refine List.nodup_append.2 ⟨h, by simp, fun a ha b hb hab => ?_⟩
      rw [List.mem_singleton.1 hb] at hab
      exact hout (hab ▸ ha)

private theorem mem_foldl_addNew (l found : List PerspectiveKey) (p : PerspectiveKey) :
    p ∈ l.foldl addNew found ↔ p ∈ found ∨ p ∈ l := by
  induction l generalizing found with
  | nil => simp
  | cons q l ih =>
    have hadd : p ∈ addNew found q ↔ p ∈ found ∨ p = q := by
      rw [addNew]
      split
      · next hq =>
        have hmem : q ∈ found := by simpa using hq
        constructor
        · exact .inl
        · rintro (hp | rfl)
          · exact hp
          · exact hmem
      · simp
    rw [List.foldl_cons, ih, hadd, List.mem_cons, or_assoc]

omit [Scalar K] in
theorem nodup_selectedPerspectives (s : Scene K) (selection : List BoxKey) :
    (s.selectedPerspectives selection).Nodup :=
  nodup_foldl_addNew _ List.nodup_nil

omit [Scalar K] in
theorem mem_selectedPerspectives (s : Scene K) (selection : List BoxKey) (p : PerspectiveKey) :
    p ∈ s.selectedPerspectives selection ↔ ∃ b ∈ selection, s.perspectiveOf? b = some p := by
  have h : p ∈ s.selectedPerspectives selection ↔
      p ∈ [] ∨ p ∈ selection.filterMap s.perspectiveOf? := mem_foldl_addNew _ [] p
  rw [h]
  simp

omit [Scalar K] in
theorem live_selectedPerspectives (s : Scene K) (selection : List BoxKey) :
    ∀ p ∈ s.selectedPerspectives selection, ∃ q, s.perspectives.get? p = some q := by
  intro p hp
  obtain ⟨b, -, hb⟩ := (mem_selectedPerspectives s selection p).1 hp
  obtain ⟨-, q, -, -, hq⟩ := perspectiveOf?_eq_some_iff.1 hb
  exact ⟨q, hq⟩

-- The selection went over the page and nothing else did. The keys are those of its perspectives.
structure SelectionMoved (s : Scene K) (selection : List BoxKey) (f : Affine K)
    (keys : List PerspectiveKey) (t : Scene K) : Prop where
  -- A selected box has its old projection mapped once.
  selected : ∀ b ∈ selection, t.mapOf? b = (s.mapOf? b).map fun m => m.applyAffine f
  -- Any other box is the same box in the same projection.
  unselected : ∀ b, b ∉ selection →
    t.boxes.get? b = s.boxes.get? b ∧ t.mapOf? b = s.mapOf? b
  detached : ∀ b, s.perspectiveOf? b = none → t.boxes.get? b = s.boxes.get? b
  untouched : ∀ p q, s.perspectives.get? p = some q → (∀ b ∈ q.boxes, b ∉ selection) →
    t.perspectives.get? p = some q
  together : ∀ b ∈ selection, ∀ c ∈ selection, (s.perspectiveOf? b).isSome →
    (s.perspectiveOf? c).isSome →
      (t.perspectiveOf? b = t.perspectiveOf? c ↔ s.perspectiveOf? b = s.perspectiveOf? c)
  nodup : keys.Nodup
  keys : ∀ p, p ∈ keys ↔ ∃ b ∈ selection, t.perspectiveOf? b = some p

omit [Scalar K] in
theorem mapOf?_of_perspectiveOf? {s : Scene K} {b : BoxKey} {p : PerspectiveKey}
    (h : s.perspectiveOf? b = some p) :
    s.mapOf? b = (s.perspectives.get? p).map Perspective.map := by
  rw [mapOf?, h]
  rfl

section Whole

variable {s t : Scene K} {selection : List BoxKey} {f : Affine K}
  {d : PerspectiveKey → PerspectiveKey}

omit [Scalar K] in
theorem mem_selectedPerspectives_of_mem {b : BoxKey} {p : PerspectiveKey} (hb : b ∈ selection)
    (hp : s.perspectiveOf? b = some p) : p ∈ s.selectedPerspectives selection :=
  (mem_selectedPerspectives s selection p).2 ⟨b, hb, hp⟩

-- Where a selected box is now.
theorem Transformed.perspectiveOf?_eq
    (ht : Transformed s (s.selectedPerspectives selection) selection f d t) {b : BoxKey}
    {p : PerspectiveKey} (hb : b ∈ selection) (hp : s.perspectiveOf? b = some p) :
    t.perspectiveOf? b = some (d p) := by
  obtain ⟨x, -, hx, hxp, -⟩ := perspectiveOf?_eq_some_iff.1 hp
  obtain ⟨y, hy, hyp⟩ := ht.there (mem_selectedPerspectives_of_mem hb hp) hb hx hxp
  rw [ht.linked.perspectiveOf?_eq, hy]
  exact hyp

theorem Transformed.get?_of_detached (h : s.Linked)
    (ht : Transformed s (s.selectedPerspectives selection) selection f d t) {b : BoxKey}
    (hb : s.perspectiveOf? b = none) : t.boxes.get? b = s.boxes.get? b := by
  refine ht.kept fun x p hx hp _ => ?_
  rw [h.perspectiveOf?_eq, hx] at hb
  exact absurd (hp.symm.trans hb) (Option.some_ne_none p)

theorem Transformed.perspectiveOf?_same (h : s.Linked)
    (ht : Transformed s (s.selectedPerspectives selection) selection f d t) {b : BoxKey}
    (hb : t.boxes.get? b = s.boxes.get? b) : t.perspectiveOf? b = s.perspectiveOf? b := by
  rw [ht.linked.perspectiveOf?_eq, h.perspectiveOf?_eq, hb]

theorem Transformed.mapOf?_selected (h : s.Linked)
    (ht : Transformed s (s.selectedPerspectives selection) selection f d t) {b : BoxKey}
    (hb : b ∈ selection) : t.mapOf? b = (s.mapOf? b).map fun m => m.applyAffine f := by
  cases hp : s.perspectiveOf? b with
  | none =>
    have htp := (ht.perspectiveOf?_same h (ht.get?_of_detached h hp)).trans hp
    simp only [mapOf?, htp, hp, Option.bind_none, Option.map_none]
  | some p =>
    obtain ⟨-, q, -, -, hq⟩ := perspectiveOf?_eq_some_iff.1 hp
    obtain ⟨r, hr, hrmap⟩ := ht.mapped (mem_selectedPerspectives_of_mem hb hp) hq
    rw [mapOf?_of_perspectiveOf? (ht.perspectiveOf?_eq hb hp), mapOf?_of_perspectiveOf? hp, hr,
      hq, Option.map_some, Option.map_some, Option.map_some, hrmap]

theorem Transformed.mapOf?_unselected (h : s.Linked)
    (ht : Transformed s (s.selectedPerspectives selection) selection f d t) {b : BoxKey}
    (hb : b ∉ selection) : t.mapOf? b = s.mapOf? b := by
  have hsame := ht.perspectiveOf?_same h (ht.kept fun _ _ _ _ _ => hb)
  cases hp : s.perspectiveOf? b with
  | none => simp only [mapOf?, hsame.trans hp, hp, Option.bind_none, Option.map_none]
  | some p =>
    rw [mapOf?_of_perspectiveOf? (hsame.trans hp), mapOf?_of_perspectiveOf? hp]
    obtain ⟨x, q, hx, hxp, hq⟩ := perspectiveOf?_eq_some_iff.1 hp
    by_cases hps : p ∈ s.selectedPerspectives selection
    · -- The box stays in its perspective, so a copy of it was mapped.
      exact ht.left hps fun hd => hb (ht.whole hps hd hq b (h.mem_boxes hx hxp hq))
    · rw [ht.others hps hq, hq]

theorem Transformed.mem_keys_iff (h : s.Linked)
    (ht : Transformed s (s.selectedPerspectives selection) selection f d t) (p : PerspectiveKey) :
    p ∈ (s.selectedPerspectives selection).map d ↔
      ∃ b ∈ selection, t.perspectiveOf? b = some p := by
  constructor
  · intro hp
    obtain ⟨q, hq, rfl⟩ := List.mem_map.1 hp
    obtain ⟨b, hb, hbq⟩ := (mem_selectedPerspectives s selection q).1 hq
    exact ⟨b, hb, ht.perspectiveOf?_eq hb hbq⟩
  · rintro ⟨b, hb, hbp⟩
    cases hq : s.perspectiveOf? b with
    | none =>
      rw [ht.perspectiveOf?_same h (ht.get?_of_detached h hq), hq] at hbp
      cases hbp
    | some q =>
      rw [ht.perspectiveOf?_eq hb hq, Option.some.injEq] at hbp
      exact List.mem_map.2 ⟨q, mem_selectedPerspectives_of_mem hb hq, hbp⟩

theorem Transformed.selectionMoved (h : s.Linked)
    (ht : Transformed s (s.selectedPerspectives selection) selection f d t) :
    SelectionMoved s selection f ((s.selectedPerspectives selection).map d) t := by
  refine ⟨fun b => ht.mapOf?_selected h,
    fun b hb => ⟨ht.kept fun _ _ _ _ _ => hb, ht.mapOf?_unselected h hb⟩,
    fun b => ht.get?_of_detached h, fun p q hq hout => ?_, fun b hb c hc hbp hcp => ?_, ?_,
    ht.mem_keys_iff h⟩
  · refine ht.others (fun hps => ?_) hq
    obtain ⟨b, hb, hbp⟩ := (mem_selectedPerspectives s selection p).1 hps
    obtain ⟨x, -, hx, hxp, -⟩ := perspectiveOf?_eq_some_iff.1 hbp
    exact hout b (h.mem_boxes hx hxp hq) hb
  · obtain ⟨p, hp⟩ := Option.isSome_iff_exists.1 hbp
    obtain ⟨q, hq⟩ := Option.isSome_iff_exists.1 hcp
    have hinjective := ht.injective (mem_selectedPerspectives_of_mem hb hp)
      (mem_selectedPerspectives_of_mem hc hq)
    rw [ht.perspectiveOf?_eq hb hp, ht.perspectiveOf?_eq hc hq, hp, hq, Option.some.injEq,
      Option.some.injEq]
    exact ⟨hinjective, fun he => by rw [he]⟩
  · exact (nodup_selectedPerspectives s selection).map_on fun p hp q hq => ht.injective hp hq

end Whole

-- Mapping a selection moves the selected boxes and nothing else. Each perspective is dealt with
-- once: it or a copy of it is mapped, and has just the selected boxes.
theorem Reachable.transformSelection_run [Numeric K] {s : Scene K} (h : s.Reachable)
    (selection : List BoxKey) (f : Affine K) :
    ∃ keys t, (transformSelection selection f).run s = .ok keys t ∧
      SelectionMoved s selection f keys t := by
  have hlive : ∀ p ∈ s.selectedPerspectives selection, ∃ q, s.perspectives.get? p = some q := by
    intro p hp
    obtain ⟨b, -, hb⟩ := (mem_selectedPerspectives s selection p).1 hp
    obtain ⟨-, q, -, -, hq⟩ := perspectiveOf?_eq_some_iff.1 hb
    exact ⟨q, hq⟩
  obtain ⟨d, t, hrun, ht⟩ := h.linked.transformPerspectives_run
    (nodup_selectedPerspectives s selection) hlive selection f
  exact ⟨_, t, hrun, ht.selectionMoved h.linked⟩

-- One of the two boxes goes, and the other one stays.
theorem transformSelection_sketch : sketch.Reachable ∧ ∃ keys t,
    (transformSelection [⟨2, 1⟩] (.shift 10 0)).run sketch = .ok keys t ∧
      SelectionMoved sketch [⟨2, 1⟩] (.shift 10 0) keys t :=
  ⟨reachable_sketch, reachable_sketch.transformSelection_run _ _⟩

end Scene

end PerspectiveBox
