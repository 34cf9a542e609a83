import PerspectiveBox.Proofs.Scene.Reference

namespace PerspectiveBox

variable {K : Type}

namespace Scene

structure DistinctIds (s : Scene K) : Prop where
  id_inj : ∀ {p q x y}, s.perspectives.get? p = some x → s.perspectives.get? q = some y →
    x.id = y.id → p = q

theorem findPerspective_ne_none {s : Scene K} {p : PerspectiveKey} {x : Perspective K}
    (hx : s.perspectives.get? p = some x) : s.findPerspective x.id ≠ none := fun h =>
  (findPerspective_eq_none_iff s x.id).1 h x ((SlotTable.mem_values_iff _ _).2 ⟨p, hx⟩) rfl

theorem DistinctIds.findPerspective_eq {s : Scene K} (h : s.DistinctIds) {p : PerspectiveKey}
    {x : Perspective K} (hx : s.perspectives.get? p = some x) :
    s.findPerspective x.id = some p := by
  cases hfind : s.findPerspective x.id with
  | none => exact absurd hfind (findPerspective_ne_none hx)
  | some q =>
    obtain ⟨y, hy, hid⟩ := get?_of_findPerspective hfind
    rw [h.id_inj hy hx hid]

theorem DistinctIds.insertPerspective {s : Scene K} (h : s.DistinctIds) {p : Perspective K}
    (hnew : s.findPerspective p.id = none) : (s.insertPerspective p).2.DistinctIds := by
  refine ⟨fun {k l x y} hx hy hid => ?_⟩
  simp only [Scene.insertPerspective, SlotTable.get?_insert] at hx hy
  split at hx
  · next hk =>
    split at hy
    · next hl => exact hk.trans hl.symm
    · cases hx
      exact absurd (hid ▸ hnew) (findPerspective_ne_none hy)
  · split at hy
    · cases hy
      exact absurd (hid ▸ hnew) (findPerspective_ne_none hx)
    · exact h.id_inj hx hy hid

variable [Scalar K]

theorem DistinctIds.change {s t : Scene K} (h : s.DistinctIds) (hchange : Change s t) :
    t.DistinctIds := by
  rcases hchange.perspectiveBefore with ⟨p, hnew, rfl⟩ | hbefore
  · exact h.insertPerspective hnew
  · refine ⟨fun {p q x y} hx hy hid => ?_⟩
    obtain ⟨x', hx', hxid⟩ := hbefore p x hx
    obtain ⟨y', hy', hyid⟩ := hbefore q y hy
    exact h.id_inj hx' hy' (hxid.symm.trans (hid.trans hyid))

theorem DistinctIds.changes {s t : Scene K} (h : s.DistinctIds) (hchanges : Changes s t) :
    t.DistinctIds := by
  induction hchanges with
  | refl => exact h
  | tail _ hchange ih => exact ih.change hchange

omit [Scalar K] in
theorem distinctIds_ofSettings (settings : Settings K) : (ofSettings settings).DistinctIds := by
  refine ⟨fun {p q x y} hx => ?_⟩
  rw [ofSettings, SlotTable.get?_empty] at hx
  cases hx

-- The reference that a box is attached by changes nothing when it is given again.
theorem setHref_run_own {s : Scene K} {b : BoxKey} {x : Box K} {p : PerspectiveKey} {href : String}
    (hx : s.boxes.get? b = some x) (hp : x.link.target = some p)
    (hhref : x.link.href = some href) : (setHref b (some href)).run s = .ok ⟨⟩ s := by
  unfold setHref
  rw [EStateM.run_bind, box_run, hx]
  simp only [Option.isSome_some, hhref, Link.isAttached, hp, beq_self_eq_true, Bool.and_self,
    if_true]
  rfl

variable [Numeric K]

-- The scenes that there are when a perspective is only put in under an id that no other one has.
-- All commands but the one to put in a given perspective make their own ids.
inductive ReachableFresh : Scene K → Prop where
  | empty : ReachableFresh .empty
  | withSettings {settings : Settings K} {s : Scene K} (h : Scene.withSettings settings = .ok s) :
      ReachableFresh s
  | ofDocument {d : Document} {settings : Settings K} {s : Scene K}
      (h : Scene.ofDocument d settings = .ok s) : ReachableFresh s
  | run {s : Scene K} {α : Type} (h : ReachableFresh s) (c : Command K α)
      (hc : s.TakesNewId c) : ReachableFresh (s.after c.run)

theorem ReachableFresh.reachable {s : Scene K} (h : s.ReachableFresh) : s.Reachable := by
  induction h with
  | empty => exact .empty
  | withSettings h => exact .withSettings h
  | ofDocument h => exact .ofDocument h
  | run _ c _ ih => exact ih.run c

theorem ReachableFresh.distinctIds {s : Scene K} (h : s.ReachableFresh) : s.DistinctIds := by
  induction h with
  | empty => exact distinctIds_ofSettings .default
  | withSettings h => exact eq_of_withSettings h ▸ distinctIds_ofSettings _
  | ofDocument h => exact (distinctIds_ofSettings _).changes (changes_ofDocument h)
  | run _ c hc ih => exact ih.changes (changes_command hc)

-- Different perspectives have different ids, and the reference of an attached box is resolved to
-- its perspective, unless that has an id no reference can name.
theorem ReachableFresh.reference_resolves {s : Scene K} (h : s.ReachableFresh) :
    (∀ p q x y, s.perspectives.get? p = some x → s.perspectives.get? q = some y →
      x.id = y.id → p = q) ∧
    ∀ b x p, s.boxes.get? b = some x → x.link.target = some p →
      ∃ q href, s.perspectives.get? p = some q ∧ x.link.href = some href ∧
        (Reference.IsName q.id →
          Reference.read href = .ok q.id ∧ s.findPerspective q.id = some p) ∧
        (setHref b (some href)).run s = .ok ⟨⟩ s := by
  refine ⟨fun _ _ _ _ => h.distinctIds.id_inj, fun b x p hx hp => ?_⟩
  obtain ⟨q, hq, -⟩ := h.reachable.linked.attached hx hp
  obtain ⟨href, hhref, -⟩ := h.reachable.named.href hx hp hq
  refine ⟨q, href, hq, hhref, fun hid => ?_, setHref_run_own hx hp hhref⟩
  obtain ⟨text, htext, hread⟩ := h.reachable.href_of_attached hx hp hq hid
  rw [hhref, Option.some.injEq] at htext
  exact ⟨htext ▸ hread, h.distinctIds.findPerspective_eq hq⟩

-- The box comes before its perspective, and has blanks around the reference to it.
def numberedDocument : Document where
  elements := [
    .box ⟨"box", " #perspective1 ", none, none, []⟩,
    .perspective ⟨"perspective1", "0 : 1 : 0", "1 : 0 : 0", "1 : 1", "0 : 0"⟩]

def numbered : Scene Float :=
  ((ofDocument numberedDocument .default).toOption.getD .empty).after
    Command.addDefaultPerspective.run

theorem reachableFresh_numbered : numbered.ReachableFresh := by
  rw [numbered]
  cases h : ofDocument numberedDocument (.default : Settings Float) with
  | error e => exact ReachableFresh.empty.run .addDefaultPerspective trivial
  | ok s => exact (ReachableFresh.ofDocument h).run .addDefaultPerspective trivial

theorem reference_resolves_numbered : numbered.ReachableFresh ∧
    numbered.perspectives.values.map Perspective.id = ["perspective1", "perspective2"] ∧
    ∃ x q, numbered.boxes.get? ⟨1, 1⟩ = some x ∧
      x.link = ⟨" #perspective1 ", some ⟨1, 1⟩⟩ ∧
      numbered.perspectives.get? ⟨1, 1⟩ = some q ∧
      Reference.read " #perspective1 " = .ok q.id ∧
      numbered.findPerspective q.id = some ⟨1, 1⟩ ∧
      (setHref ⟨1, 1⟩ (some " #perspective1 ")).run numbered = .ok ⟨⟩ numbered := by
  refine ⟨reachableFresh_numbered, by decide +kernel, ?_⟩
  have hlink : (numbered.boxes.get? ⟨1, 1⟩).map Box.link =
      some ⟨" #perspective1 ", some ⟨1, 1⟩⟩ := by decide +kernel
  have hid : (numbered.perspectives.get? ⟨1, 1⟩).map Perspective.id = some "perspective1" := by
    decide +kernel
  have hplain : ("perspective1".toList.all fun c => Text.isBlank c == false) = true := by
    decide +kernel
  have hname : Reference.IsName "perspective1" :=
    ⟨by decide, fun c hc => beq_iff_eq.1 (List.all_eq_true.1 hplain c hc)⟩
  obtain ⟨x, hx, hxlink⟩ := Option.map_eq_some_iff.1 hlink
  have hp : x.link.target = some ⟨1, 1⟩ := by rw [hxlink]
  obtain ⟨q, href, hq, hhref, hresolves, hrun⟩ :=
    reachableFresh_numbered.reference_resolves.2 ⟨1, 1⟩ x ⟨1, 1⟩ hx hp
  rw [hxlink, Option.some.injEq] at hhref
  rw [hq, Option.map_some, Option.some.injEq] at hid
  rw [← hhref, hid] at hresolves
  obtain ⟨hread, hfind⟩ := hresolves hname
  exact ⟨x, q, hx, hxlink, hq, hid ▸ hread, hid ▸ hfind, hhref ▸ hrun⟩

end Scene

end PerspectiveBox
