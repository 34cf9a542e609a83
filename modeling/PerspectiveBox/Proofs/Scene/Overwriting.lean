import PerspectiveBox.Proofs.Scene.Linked

namespace PerspectiveBox

variable {K : Type} [Scalar K]

namespace Box

-- What can be done to a box in place.
inductive Write (K : Type) where
  | edit (e : Edit K)
  | overwrite (b : Box K)

def written (b : Box K) : Write K → Box K
  | .edit e => b.edited e
  | .overwrite x => x

end Box

namespace Scene

def writeBoxes (s : Scene K) (ws : List (BoxKey × Box.Write K)) : Scene K :=
  ws.foldl (fun s w => s.modifyBox w.1 fun b => b.written w.2) s

-- The box that was put in the place of another one last.
def lastPut? (key : BoxKey) : List (BoxKey × Box.Write K) → Option (Box K)
  | [] => none
  | (_, .edit _) :: ws => lastPut? key ws
  | (k, .overwrite x) :: ws => (lastPut? key ws).or (if k = key then some x else none)

variable {s : Scene K}

theorem writeBoxes_eq (s : Scene K) (ws : List (BoxKey × Box.Write K)) :
    s.writeBoxes ws = { s with boxes := (s.writeBoxes ws).boxes } := by
  induction ws generalizing s with
  | nil => rfl
  | cons w ws ih => exact ih (s.modifyBox w.1 fun b => b.written w.2)

-- The link is that of the box put there last, or that of the box that was there.
theorem link_writeBoxes (s : Scene K) (ws : List (BoxKey × Box.Write K)) (key : BoxKey) :
    ((s.writeBoxes ws).boxes.get? key).map Box.link =
      (s.boxes.get? key).map fun b => ((lastPut? key ws).getD b).link := by
  induction ws generalizing s with
  | nil => rfl
  | cons w ws ih =>
    obtain ⟨k, w⟩ := w
    refine (ih (s.modifyBox k fun b => b.written w)).trans ?_
    rw [modifyBox, SlotTable.get?_modify]
    by_cases hk : key = k
    · subst hk
      rw [if_pos rfl, Option.map_map]
      refine congrArg (fun f => (s.boxes.get? key).map f) (funext fun b => ?_)
      cases w with
      | edit e =>
        simp only [Function.comp, lastPut?, Box.written]
        cases lastPut? key ws with
        | none => exact (Box.edited_link b e).2
        | some y => rfl
      | overwrite x =>
        simp only [Function.comp, lastPut?, Box.written]
        cases lastPut? key ws <;> simp
    · have hk' : ¬ k = key := fun he => hk he.symm
      rw [if_neg hk]
      cases w with
      | edit e => rfl
      | overwrite x => simp only [lastPut?, if_neg hk', Option.or_none]

-- What was attached to a perspective is still attached to it if it was not overwritten, or by a
-- box that is attached to it as well.
theorem Linked.writeBoxes_iff (h : s.Linked) (ws : List (BoxKey × Box.Write K)) :
    (s.writeBoxes ws).Linked ↔ ∀ key b y, s.boxes.get? key = some b →
      lastPut? key ws = some y → y.link.target = b.link.target := by
  constructor
  · intro h' key b y hb hy
    have hlink := link_writeBoxes s ws key
    rw [hb, hy] at hlink
    obtain ⟨x, hx, hxy⟩ := Option.map_eq_some_iff.1 hlink
    have hperspectives : (s.writeBoxes ws).perspectives = s.perspectives := by
      rw [writeBoxes_eq]
    have hxlink : x.link = y.link := hxy
    rw [← hxlink]
    refine Option.ext fun p => ⟨fun hp => ?_, fun hp => ?_⟩
    · obtain ⟨q, hq, hkey⟩ := h'.attached hx hp
      exact h.target_eq (hperspectives ▸ hq) hkey hb
    · obtain ⟨q, hq, hkey⟩ := h.attached hb hp
      exact h'.target_eq (hperspectives ▸ hq) hkey hx
  · intro hsame
    rw [writeBoxes_eq]
    refine h.boxes fun key p => ?_
    have hlink := link_writeBoxes s ws key
    cases hb : s.boxes.get? key with
    | none =>
      rw [hb] at hlink
      rw [Option.map_eq_none_iff.1 hlink]
    | some b =>
      rw [hb] at hlink
      obtain ⟨x, hx, hlast⟩ := Option.map_eq_some_iff.1 hlink
      have htarget : x.link.target = b.link.target := by
        rw [hlast]
        cases hy : lastPut? key ws with
        | none => rfl
        | some y => exact hsame key b y hb hy
      rw [hx]
      simp only [Option.some.injEq, exists_eq_left', htarget]

variable [Numeric K]

-- A box that is written to keeps its link, and the perspectives list the boxes that are linked to
-- them, as long as no box with another link is put in the place of one.
theorem Reachable.writeBoxes_iff_link (h : s.Reachable) (ws : List (BoxKey × Box.Write K)) :
    (∀ key b, s.boxes.get? key = some b → ∃ x, (s.writeBoxes ws).boxes.get? key = some x ∧
      (x.link = b.link ↔ ∀ y, lastPut? key ws = some y → y.link = b.link)) ∧
    ((s.writeBoxes ws).Linked ↔ ∀ key b y, s.boxes.get? key = some b →
      lastPut? key ws = some y → y.link.target = b.link.target) := by
  refine ⟨fun key b hb => ?_, h.linked.writeBoxes_iff ws⟩
  have hlink := link_writeBoxes s ws key
  rw [hb] at hlink
  obtain ⟨x, hx, hlast⟩ := Option.map_eq_some_iff.1 hlink
  refine ⟨x, hx, ?_⟩
  rw [hlast]
  cases lastPut? key ws with
  | none => exact iff_of_true rfl nofun
  | some y => simp

theorem writeBoxes_iff_link_sketch : sketch.Reachable ∧
    (sketch.writeBoxes [(⟨1, 1⟩, .edit .relabel), (⟨2, 1⟩, .edit .saveCorners)]).Linked :=
  ⟨reachable_sketch, (reachable_sketch.writeBoxes_iff_link _).2.2 fun _ _ _ _ hy => by cases hy⟩

def spareBox : Box Float := .ofCorners "box" ⟨⟨1, 1, 0, 1⟩, ⟨0, 0, 1, 1⟩⟩

-- A spare box in the place of the first one is listed by a perspective that it is not linked to.
theorem not_linked_spareBox : sketch.Reachable ∧
    (∃ b x, sketch.boxes.get? ⟨1, 1⟩ = some b ∧
      (sketch.writeBoxes [(⟨1, 1⟩, .overwrite spareBox)]).boxes.get? ⟨1, 1⟩ = some x ∧
      x.link ≠ b.link) ∧
    ¬ (sketch.writeBoxes [(⟨1, 1⟩, .overwrite spareBox)]).Linked := by
  have htarget : (sketch.boxes.get? ⟨1, 1⟩).map (fun b => b.link.target) = some (some ⟨1, 1⟩) := by
    decide +kernel
  obtain ⟨b, hb, hbp⟩ := Option.map_eq_some_iff.1 htarget
  have hlink := link_writeBoxes sketch [(⟨1, 1⟩, .overwrite spareBox)] ⟨1, 1⟩
  rw [hb] at hlink
  obtain ⟨x, hx, hxlink⟩ := Option.map_eq_some_iff.1 hlink
  refine ⟨reachable_sketch, ⟨b, x, hb, hx, fun hsame => ?_⟩, fun hlinked => ?_⟩
  · have hxtarget : x.link.target = none := congrArg Link.target hxlink
    rw [hsame, hbp] at hxtarget
    cases hxtarget
  · have hsame := (reachable_sketch.linked.writeBoxes_iff _).1 hlinked ⟨1, 1⟩ b spareBox hb rfl
    rw [hbp] at hsame
    cases hsame

end Scene

end PerspectiveBox
