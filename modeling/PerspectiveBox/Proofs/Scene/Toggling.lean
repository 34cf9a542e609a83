import Mathlib.Data.List.TakeWhile
import Mathlib.Logic.Function.Iterate
import PerspectiveBox.Proofs.Scene.Selection

namespace PerspectiveBox

variable {K : Type} [Scalar K]

namespace Perspective

theorem toggle_boxes (q : Perspective K) (c : Coord) : (q.toggle c).2.boxes = q.boxes := by
  rw [toggle, Scene.vpChange_changed (fun q => q.map.toggled? c) q]

-- What becomes of a box when its perspective is toggled.
def followToggle (q : Perspective K) (c : Coord) (strategy : OrderStrategy) (b : Box K) : Box K :=
  if (q.toggle c).1 then b.refresh (q.toggle c).2.map strategy else b

theorem followToggle_link (q : Perspective K) (c : Coord) (strategy : OrderStrategy)
    (b : Box K) : (q.followToggle c strategy b).link = b.link := by
  rw [followToggle]
  split
  · exact Box.refresh_link b _ strategy
  · rfl

end Perspective

namespace Scene

-- The scene after the perspective `q` under a key was toggled.
def toggled (s : Scene K) (p : PerspectiveKey) (q : Perspective K) (c : Coord) : Scene K :=
  (s.modifyPerspective p fun _ => (q.toggle c).2).modifyBoxes q.boxes
    (q.followToggle c s.settings.strategy)

theorem toggleVp_run {s : Scene K} {p : PerspectiveKey} {q : Perspective K}
    (hq : s.perspectives.get? p = some q) (c : Coord) :
    (toggleVp p c).run s = .ok (q.toggle c).1 (s.toggled p q c) := by
  have hrefresh := refreshBoxes_run (get?_modifyPerspective hq fun _ => (q.toggle c).2)
  rw [Perspective.toggle_boxes] at hrefresh
  rw [toggleVp, changeVp, EStateM.run_bind, perspective_run, hq]
  simp only
  rw [EStateM.run_bind, EStateM.run_modify]
  simp only
  cases hdone : (q.toggle c).1 with
  | true =>
    have hfollow : q.followToggle c s.settings.strategy =
        fun b => b.refresh (q.toggle c).2.map s.settings.strategy :=
      funext fun b => if_pos hdone
    simp only [if_true]
    rw [EStateM.run_bind, hrefresh, toggled, hfollow]
    rfl
  | false =>
    have hfollow (b : Box K) : q.followToggle c s.settings.strategy b = b :=
      if_neg (ne_true_of_eq_false hdone)
    rw [toggled, modifyBoxes, SlotTable.modifyAll_eq_self _ _ hfollow]
    rfl

theorem perspectives_toggled {s : Scene K} {p : PerspectiveKey} {q : Perspective K}
    (hq : s.perspectives.get? p = some q) (c : Coord) (k : PerspectiveKey) :
    (s.toggled p q c).perspectives.get? k =
      if k = p then some (q.toggle c).2 else s.perspectives.get? k := by
  rw [toggled, modifyBoxes, modifyPerspective, SlotTable.get?_modify, hq]
  rfl

theorem Linked.boxes_toggled {s : Scene K} (h : s.Linked) {p : PerspectiveKey}
    {q : Perspective K} (hq : s.perspectives.get? p = some q) (c : Coord) (b : BoxKey) :
    (s.toggled p q c).boxes.get? b =
      if b ∈ q.boxes then (s.boxes.get? b).map (q.followToggle c s.settings.strategy)
      else s.boxes.get? b := by
  rw [toggled, Scene.modifyBoxes, SlotTable.get?_modifyAll _ (h.nodup hq)]
  rfl

-- The boxes that are not in the perspective stay as they are.
theorem Linked.get?_toggled_of_ne {s : Scene K} (h : s.Linked) {p : PerspectiveKey}
    {q : Perspective K} (hq : s.perspectives.get? p = some q) (c : Coord) {b : BoxKey}
    {x : Box K} (hx : x.link.target ≠ some p) :
    (s.toggled p q c).boxes.get? b = some x ↔ s.boxes.get? b = some x := by
  rw [h.boxes_toggled hq]
  split
  · next hb =>
    obtain ⟨y, hy, hyp⟩ := h.listed hq hb
    rw [hy, Option.map_some, Option.some.injEq, Option.some.injEq]
    constructor
    · rintro rfl
      rw [Perspective.followToggle_link] at hx
      exact absurd hyp hx
    · rintro rfl
      exact absurd hyp hx
  · rfl

-- They agree on the perspective itself and on the boxes that are in it.
structure AgreeOn (p : PerspectiveKey) (s t : Scene K) : Prop where
  perspective : s.perspectives.get? p = t.perspectives.get? p
  boxes : ∀ {b x}, x.link.target = some p → (s.boxes.get? b = some x ↔ t.boxes.get? b = some x)

section AgreeOn

variable {p : PerspectiveKey} {s t u : Scene K}

omit [Scalar K] in
theorem AgreeOn.refl (p : PerspectiveKey) (s : Scene K) : AgreeOn p s s := ⟨rfl, fun _ => .rfl⟩

omit [Scalar K] in
theorem AgreeOn.symm (h : AgreeOn p s t) : AgreeOn p t s :=
  ⟨h.perspective.symm, fun hx => (h.boxes hx).symm⟩

omit [Scalar K] in
theorem AgreeOn.trans (h : AgreeOn p s t) (h' : AgreeOn p t u) : AgreeOn p s u :=
  ⟨h.perspective.trans h'.perspective, fun hx => (h.boxes hx).trans (h'.boxes hx)⟩

-- Toggling a perspective makes no difference to another one.
theorem Linked.agreeOn_toggled (h : s.Linked) {q : Perspective K}
    (hq : s.perspectives.get? p = some q) (c : Coord) {k : PerspectiveKey} (hk : k ≠ p) :
    AgreeOn k (s.toggled p q c) s := by
  refine ⟨by rw [perspectives_toggled hq, if_neg hk], fun {b x} hx => ?_⟩
  refine h.get?_toggled_of_ne hq c ?_
  rw [hx]
  exact fun he => hk (Option.some.inj he)

theorem AgreeOn.toggled (h : AgreeOn p s t) (hs : s.Linked) (ht : t.Linked)
    (hsettings : s.settings = t.settings) {q : Perspective K}
    (hq : s.perspectives.get? p = some q) (c : Coord) :
    AgreeOn p (s.toggled p q c) (t.toggled p q c) := by
  have hqt := h.perspective.symm.trans hq
  refine ⟨by rw [perspectives_toggled hq, perspectives_toggled hqt, if_pos rfl, if_pos rfl],
    fun {b x} hx => ?_⟩
  rw [hs.boxes_toggled hq, ht.boxes_toggled hqt, hsettings]
  split
  · next hb =>
    obtain ⟨y, hy, hyp⟩ := hs.listed hq hb
    rw [hy, (h.boxes hyp).1 hy]
  · exact h.boxes hx

end AgreeOn

def toggledTimes (s : Scene K) (p : PerspectiveKey) (c : Coord) (n : Nat) : Scene K :=
  (fun s => s.after (toggleVp p c))^[n] s

-- From `s` to `t`, each perspective was toggled a number of times, and nothing else was done.
structure Toggled (s : Scene K) (c : Coord) (times : PerspectiveKey → Nat) (t : Scene K) :
    Prop where
  parts : ∀ p, AgreeOn p t (s.toggledTimes p c (times p))
  detached : ∀ {b x}, x.link.target = none → (t.boxes.get? b = some x ↔ s.boxes.get? b = some x)
  settings : t.settings = s.settings
  current : t.current = s.current
  lastNumber : t.lastNumber = s.lastNumber
  perspectives : t.perspectives.SameSlots s.perspectives
  boxes : t.boxes.SameSlots s.boxes

theorem toggledTimes_succ (s : Scene K) (p : PerspectiveKey) (c : Coord) (n : Nat) :
    s.toggledTimes p c (n + 1) = (s.toggledTimes p c n).after (toggleVp p c) :=
  Function.iterate_succ_apply' _ n s

theorem settings_after_toggleVp (s : Scene K) (p : PerspectiveKey) (c : Coord) :
    (s.after (toggleVp p c)).settings = s.settings := by
  cases hq : s.perspectives.get? p with
  | none =>
    rw [toggleVp, changeVp, after_perspective_bind, hq]
  | some q =>
    rw [after_of_run_ok (toggleVp_run hq c)]
    rfl

theorem settings_toggledTimes (s : Scene K) (p : PerspectiveKey) (c : Coord) (n : Nat) :
    (s.toggledTimes p c n).settings = s.settings := by
  induction n with
  | zero => rfl
  | succ n ih => rw [toggledTimes_succ, settings_after_toggleVp, ih]

theorem Linked.toggledTimes {s : Scene K} (h : s.Linked) (p : PerspectiveKey) (c : Coord)
    (n : Nat) : (s.toggledTimes p c n).Linked := by
  induction n with
  | zero => exact h
  | succ n ih =>
    rw [toggledTimes_succ]
    exact ih.changes (changes_toggleVp _ p c)

namespace Toggled

variable {s t : Scene K} {c : Coord} {times : PerspectiveKey → Nat}

-- Without a toggle the scene is the same.
theorem zero_iff : Toggled s c (fun _ => 0) t ↔ t = s := by
  constructor
  · intro h
    have hperspectives : t.perspectives = s.perspectives :=
      h.perspectives.eq fun p => (h.parts p).perspective
    have hboxes : t.boxes = s.boxes := by
      refine h.boxes.eq fun b => Option.ext fun x => ?_
      cases hx : x.link.target with
      | none => exact h.detached hx
      | some p => exact (h.parts p).boxes hx
    calc
      t = ⟨t.settings, t.perspectives, t.boxes, t.current, t.lastNumber⟩ := rfl
      _ = s := by rw [h.settings, hperspectives, hboxes, h.current, h.lastNumber]
  · rintro rfl
    exact ⟨fun p => .refl p t, fun _ => .rfl, rfl, rfl, rfl, .refl _, .refl _⟩

-- The number of times matters as far as it makes a difference to the perspective.
theorem iff_of_toggled (h : Toggled s c times t) {times' : PerspectiveKey → Nat} :
    Toggled s c times' t ↔
      ∀ p, AgreeOn p (s.toggledTimes p c (times p)) (s.toggledTimes p c (times' p)) := by
  constructor
  · exact fun h' p => (h.parts p).symm.trans (h'.parts p)
  · exact fun h' => { h with parts := fun p => (h.parts p).trans (h' p) }

-- Of perspectives that are not listed there is nothing to be said.
theorem iff_of_listed {ps : List PerspectiveKey} (h : Toggled s c ps.count t)
    {times' : PerspectiveKey → Nat} (hout : ∀ p ∉ ps, times' p = 0) :
    Toggled s c times' t ↔
      ∀ p ∈ ps, AgreeOn p (s.toggledTimes p c (ps.count p)) (s.toggledTimes p c (times' p)) := by
  refine h.iff_of_toggled.trans (forall_congr' fun p => ⟨fun hp _ => hp, fun hp => ?_⟩)
  by_cases hmem : p ∈ ps
  · exact hp hmem
  · rw [List.count_eq_zero.2 hmem, hout p hmem]
    exact .refl p s

theorem toggle (h : Toggled s c times t) (hs : s.Linked) (ht : t.Linked) {p : PerspectiveKey}
    {q : Perspective K} (hq : t.perspectives.get? p = some q) :
    Toggled s c (fun k => times k + if k = p then 1 else 0) (t.toggled p q c) := by
  refine ⟨fun k => ?_, fun {b x} hx => ?_, h.settings, h.current, h.lastNumber,
    (SlotTable.sameSlots_modify _ _ _).trans h.perspectives,
    (SlotTable.sameSlots_modifyAll _ _ _).trans h.boxes⟩
  · by_cases hk : k = p
    · subst hk
      have hqs := (h.parts k).perspective.symm.trans hq
      have hsettings : t.settings = (s.toggledTimes k c (times k)).settings := by
        rw [settings_toggledTimes, h.settings]
      rw [if_pos rfl, toggledTimes_succ, after_of_run_ok (toggleVp_run hqs c)]
      exact (h.parts k).toggled ht (hs.toggledTimes k c _) hsettings hq c
    · rw [if_neg hk, Nat.add_zero]
      exact (ht.agreeOn_toggled hq c hk).trans (h.parts k)
  · have hne : x.link.target ≠ some p := by
      rw [hx]
      nofun
    exact (ht.get?_toggled_of_ne hq c hne).trans (h.detached hx)

-- Perspectives that are there are toggled without fail.
theorem toggleVps_run (h : Toggled s c times t) (hs : s.Linked) (ht : t.Linked)
    {ps : List PerspectiveKey} (hps : ∀ p ∈ ps, s.perspectives.contains p = true) :
    ∃ u, (toggleVps ps c).run t = .ok ⟨⟩ u ∧
      Toggled s c (fun k => times k + ps.count k) u := by
  induction ps generalizing t times with
  | nil => exact ⟨t, rfl, h⟩
  | cons p ps ih =>
    have hp : t.perspectives.contains p = true :=
      (h.perspectives.contains p).trans (hps p List.mem_cons_self)
    obtain ⟨q, hq⟩ := (SlotTable.contains_iff _ _).1 hp
    have hlinked : (t.toggled p q c).Linked :=
      after_of_run_ok (toggleVp_run hq c) ▸ ht.changes (changes_toggleVp t p c)
    obtain ⟨u, hrun, hu⟩ := ih (h.toggle hs ht hq) hlinked
      fun k hk => hps k (List.mem_cons_of_mem p hk)
    refine ⟨u, ?_, ?_⟩
    · rw [toggleVps, List.forM_eq_forM, List.forM_cons, EStateM.run_bind, EStateM.run_bind,
        toggleVp_run hq]
      exact hrun
    · have hcount : (fun k => times k + (p :: ps).count k) =
          fun k => times k + (if k = p then 1 else 0) + ps.count k := by
        funext k
        rw [List.count_cons]
        by_cases hk : p = k
        · simp [hk]; omega
        · have hk' : ¬ k = p := fun he => hk he.symm
          simp [hk, hk']
      rw [hcount]
      exact hu

end Toggled

section Several

variable {s : Scene K} (ps : List PerspectiveKey) (c : Coord)

theorem Linked.toggleVps_run (h : s.Linked)
    (hps : ∀ p ∈ ps, s.perspectives.contains p = true) :
    ∃ t, (toggleVps ps c).run s = .ok ⟨⟩ t ∧ Toggled s c ps.count t := by
  obtain ⟨t, hrun, ht⟩ := (Toggled.zero_iff.2 rfl).toggleVps_run h h hps
  simp only [Nat.zero_add] at ht
  exact ⟨t, hrun, ht⟩

-- An unknown perspective is noticed when its turn comes.
theorem Linked.toggleVps_run_of_unknown (h : s.Linked)
    (hps : ∃ p ∈ ps, s.perspectives.contains p = false) :
    ∃ p t, (toggleVps ps c).run s = .error (.unknownPerspective p) t ∧
      Toggled s c (ps.takeWhile s.perspectives.contains).count t := by
  have hsplit := List.takeWhile_append_dropWhile (p := s.perspectives.contains) (l := ps)
  have hknown : ∀ p ∈ ps.takeWhile s.perspectives.contains, s.perspectives.contains p = true :=
    fun p hp => List.mem_takeWhile_imp hp
  obtain ⟨t, hrun, ht⟩ := h.toggleVps_run _ c hknown
  cases hrest : ps.dropWhile s.perspectives.contains with
  | nil =>
    obtain ⟨p, hp, hunknown⟩ := hps
    rw [List.dropWhile_eq_nil_iff.1 hrest p hp] at hunknown
    cases hunknown
  | cons p rest =>
    have hp : s.perspectives.contains p = false := by
      have hhead := List.head?_dropWhile_not s.perspectives.contains ps
      rw [hrest] at hhead
      simpa using hhead
    have hnone : t.perspectives.get? p = none := by
      rw [← ht.perspectives.contains] at hp
      simpa [SlotTable.contains] using hp
    refine ⟨p, t, ?_, ht⟩
    rw [← hsplit, hrest, toggleVps, List.forM_eq_forM, List.forM_append, EStateM.run_bind]
    rw [toggleVps, List.forM_eq_forM] at hrun
    rw [hrun]
    simp only
    rw [List.forM_cons, EStateM.run_bind, EStateM.run_bind, toggleVp, changeVp, EStateM.run_bind,
      perspective_run, hnone]

end Several

variable [Numeric K]

-- When all perspectives are known, each is toggled as often as it is listed, which is once for all
-- of them if the difference does not show. When one is unknown, the call fails after those before
-- it were toggled, which leaves the scene as it was if that does not show.
theorem Reachable.toggleVps_iff {s : Scene K} (h : s.Reachable) (ps : List PerspectiveKey)
    (c : Coord) :
    ((∀ p ∈ ps, s.perspectives.contains p = true) →
      ∃ t, (toggleVps ps c).run s = .ok ⟨⟩ t ∧ Toggled s c ps.count t ∧
        (Toggled s c (fun p => if p ∈ ps then 1 else 0) t ↔
          ∀ p ∈ ps, AgreeOn p (s.toggledTimes p c (ps.count p)) (s.toggledTimes p c 1))) ∧
    ((∃ p ∈ ps, s.perspectives.contains p = false) →
      ∃ p t, (toggleVps ps c).run s = .error (.unknownPerspective p) t ∧
        Toggled s c (ps.takeWhile s.perspectives.contains).count t ∧
        (t = s ↔ ∀ p ∈ ps.takeWhile s.perspectives.contains,
          AgreeOn p (s.toggledTimes p c ((ps.takeWhile s.perspectives.contains).count p)) s)) := by
  constructor
  · intro hps
    obtain ⟨t, hrun, ht⟩ := h.linked.toggleVps_run ps c hps
    refine ⟨t, hrun, ht, (ht.iff_of_listed fun p hp => if_neg hp).trans ?_⟩
    refine forall₂_congr fun p hp => ?_
    rw [if_pos hp]
  · intro hps
    obtain ⟨p, t, hrun, ht⟩ := h.linked.toggleVps_run_of_unknown ps c hps
    exact ⟨p, t, hrun, ht, Toggled.zero_iff.symm.trans (ht.iff_of_listed fun _ _ => rfl)⟩

theorem toggleVps_iff_sketch : sketch.Reachable ∧
    (∃ t, (toggleVps [⟨1, 1⟩] .x).run sketch = .ok ⟨⟩ t ∧
      Toggled sketch .x (fun p => if p ∈ [⟨1, 1⟩] then 1 else 0) t) ∧
    ∃ p, (toggleVps [⟨2, 1⟩, ⟨1, 1⟩] .x).run sketch = .error (.unknownPerspective p) sketch := by
  have hknown : sketch.perspectives.contains ⟨1, 1⟩ = true := by decide +kernel
  have hunknown : sketch.perspectives.contains ⟨2, 1⟩ = false := by decide +kernel
  obtain ⟨t, hrun, -, ht⟩ := (reachable_sketch.toggleVps_iff [⟨1, 1⟩] .x).1 (by simpa using hknown)
  obtain ⟨p, u, hfail, -, hu⟩ := (reachable_sketch.toggleVps_iff [⟨2, 1⟩, ⟨1, 1⟩] .x).2
    ⟨⟨2, 1⟩, List.mem_cons_self, hunknown⟩
  refine ⟨reachable_sketch, ⟨t, hrun, ht.2 fun p hp => ?_⟩, p, ?_⟩
  · rw [List.mem_singleton.1 hp]
    exact .refl _ _
  · have hsame : u = sketch := by
      refine hu.2 fun p hp => ?_
      rw [List.takeWhile_cons, hunknown] at hp
      cases hp
    rw [hfail, hsame]

-- Whether the first vanishing point of the first perspective is finite.
def firstVpState (s : Scene Float) : Option VpState :=
  (s.perspectives.get? ⟨1, 1⟩).map fun q => q.vpState .x

-- A perspective stays toggled when the next one is unknown, and is not toggled when it is listed
-- twice.
theorem not_toggled_once_sketch : sketch.Reachable ∧
    sketch.perspectives.contains ⟨1, 1⟩ = true ∧
    (∃ p t, (toggleVps [⟨1, 1⟩, ⟨2, 1⟩] .x).run sketch = .error (.unknownPerspective p) t ∧
      t ≠ sketch) ∧
    ∃ t, (toggleVps [⟨1, 1⟩, ⟨1, 1⟩] .x).run sketch = .ok ⟨⟩ t ∧
      ¬ Toggled sketch .x (fun p => if p ∈ [⟨1, 1⟩, ⟨1, 1⟩] then 1 else 0) t := by
  have hknown : sketch.perspectives.contains ⟨1, 1⟩ = true := by decide +kernel
  have hunknown : sketch.perspectives.contains ⟨2, 1⟩ = false := by decide +kernel
  obtain ⟨p, t, hfail, -⟩ := reachable_sketch.linked.toggleVps_run_of_unknown
    [⟨1, 1⟩, ⟨2, 1⟩] .x ⟨⟨2, 1⟩, by simp, hunknown⟩
  obtain ⟨u, hrun, -⟩ := reachable_sketch.linked.toggleVps_run
    [⟨1, 1⟩, ⟨1, 1⟩] .x (by simpa using hknown)
  have ht : (sketch.after (toggleVps [⟨1, 1⟩, ⟨2, 1⟩] .x)).firstVpState ≠
      sketch.firstVpState := by
    decide +kernel
  have hu : (sketch.after (toggleVps [⟨1, 1⟩, ⟨1, 1⟩] .x)).firstVpState ≠
      (sketch.toggledTimes ⟨1, 1⟩ .x 1).firstVpState := by
    decide +kernel
  rw [after_of_run_error hfail] at ht
  rw [after_of_run_ok hrun] at hu
  refine ⟨reachable_sketch, hknown, ⟨p, t, hfail, fun hsame => ht (by rw [hsame])⟩, u, hrun,
    fun hone => hu ?_⟩
  exact congrArg (Option.map _) (hone.parts ⟨1, 1⟩).perspective

end Scene

end PerspectiveBox
