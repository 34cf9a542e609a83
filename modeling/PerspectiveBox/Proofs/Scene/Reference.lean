import PerspectiveBox.Proofs.Scene.Linked
import PerspectiveBox.Proofs.Text.Blank

namespace PerspectiveBox

variable {K : Type}

namespace Reference

-- An id that a reference can name.
def IsName (id : String) : Prop := id ≠ "" ∧ ∀ c ∈ id.toList, Text.isBlank c = false

theorem read_write {id : String} (h : IsName id) : read (write id) = .ok id := by
  obtain ⟨hne, hplain⟩ := h
  have hlist : (write id).toList = '#' :: id.toList := by
    rw [write, String.toList_append]
    rfl
  have htrim : Text.trim ('#' :: id.toList) = '#' :: id.toList :=
    Text.trim_eq_self (List.forall_mem_cons.2 ⟨by decide, hplain⟩)
  have hempty : id.toList.isEmpty = false := by
    rw [List.isEmpty_eq_false_iff]
    exact fun hnil => hne (String.toList_eq_nil_iff.1 hnil)
  have hblank : id.toList.any Text.isBlank = false := by
    rw [List.any_eq_false]
    exact fun c hc => by simp [hplain c hc]
  rw [read, id?, hlist, htrim]
  simp only [hempty, hblank, Bool.or_self, Bool.false_eq_true, if_false, String.ofList_toList]

end Reference

namespace Scene

-- The text was written for the id of the perspective, or is read as that id.
structure Named (s : Scene K) : Prop where
  href : ∀ {b x p q}, s.boxes.get? b = some x → x.link.target = some p →
    s.perspectives.get? p = some q →
      ∃ h, x.link.href = some h ∧ (h = Reference.write q.id ∨ Reference.read h = .ok q.id)

variable [Scalar K]

theorem Named.change {s t : Scene K} (hs : s.Linked) (h : s.Named) (hchange : Change s t) :
    t.Named := by
  refine ⟨fun {b x p q} hx hp hq => ?_⟩
  have hold {y : Box K} (hy : s.boxes.get? b = some y) (hyp : y.link.target = some p) :
      ∃ h, y.link.href = some h ∧ (h = Reference.write q.id ∨ Reference.read h = .ok q.id) := by
    obtain ⟨r, hr, -⟩ := hs.attached hy hyp
    rw [hchange.id_eq hr hq]
    exact h.href hy hyp hr
  cases hchange.boxBefore hx with
  | new _ => cases hp
  | same hy => exact hold hy hp
  | edited hy e =>
    rw [(Box.edited_link _ e).2] at hp ⊢
    exact hold hy hp
  | linked _ hlink =>
    cases hlink with
    | none => cases hp
    | attached hr =>
      cases hp
      exact ⟨_, rfl, .inl (by rw [hchange.id_eq hr hq])⟩
    | resolved hread =>
      obtain ⟨r, hr, hname⟩ := get?_of_findPerspective hp
      rw [hchange.id_eq hr hq, hname]
      exact ⟨_, rfl, .inr hread⟩

omit [Scalar K] in
theorem Named.insertPerspective {s : Scene K} (hs : s.Linked) (h : s.Named) (p : Perspective K) :
    (s.insertPerspective p).2.Named := by
  refine ⟨fun {b x k q} hx hk hq => ?_⟩
  obtain ⟨r, hr, -⟩ := hs.attached hx hk
  rw [get?_insertPerspective_of_some hr p, Option.some.injEq] at hq
  exact hq ▸ h.href hx hk hr

variable [Numeric K]

theorem Reachable.named {s : Scene K} (h : s.Reachable) : s.Named := by
  refine (h.induct (P := fun s => s.Linked ∧ s.Named) (fun settings => ?_)
    (fun s t hchange hs => ?_) fun s p hs => ?_).2
  · refine ⟨linked_ofSettings settings, ⟨fun {b x p q} hx => ?_⟩⟩
    rw [ofSettings, SlotTable.get?_empty] at hx
    cases hx
  · exact ⟨hs.1.change hchange, hs.2.change hs.1 hchange⟩
  · exact ⟨hs.1.insertPerspective p, hs.2.insertPerspective hs.1 p⟩

-- A box that is attached to a perspective with a proper id is linked by a text that is read as
-- this id.
theorem Reachable.href_of_attached {s : Scene K} (h : s.Reachable) {b : BoxKey} {x : Box K}
    {p : PerspectiveKey} {q : Perspective K} (hx : s.boxes.get? b = some x)
    (hp : x.link.target = some p) (hq : s.perspectives.get? p = some q)
    (hid : Reference.IsName q.id) :
    ∃ href, x.link.href = some href ∧ Reference.read href = .ok q.id := by
  obtain ⟨href, hhref, hname⟩ := h.named.href hx hp hq
  refine ⟨href, hhref, ?_⟩
  rcases hname with rfl | hread
  · exact Reference.read_write hid
  · exact hread

-- Boxes are only ever made and edited.
def BoxesMade (s : Scene K) : Prop := ∀ b x, s.boxes.get? b = some x → x.Made

omit [Numeric K] in
theorem BoxesMade.change {s t : Scene K} (h : s.BoxesMade) (hchange : Change s t) :
    t.BoxesMade := by
  intro key b hb
  cases hchange.boxBefore hb with
  | new hmade => exact hmade.linked .none
  | same hc => exact h key b hc
  | edited hc e => exact (h key _ hc).edited e
  | linked hc _ => exact (h key _ hc).linked _

theorem Reachable.boxesMade {s : Scene K} (h : s.Reachable) : s.BoxesMade := by
  refine h.induct (P := fun s => s.BoxesMade) (fun settings b x hx => ?_)
    (fun s t hchange hs => hs.change hchange) fun s p hs => hs
  rw [ofSettings, SlotTable.get?_empty] at hx
  cases hx

end Scene

end PerspectiveBox
