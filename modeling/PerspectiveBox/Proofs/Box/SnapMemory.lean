import PerspectiveBox.Proofs.Number.Length
import PerspectiveBox.Box.Snap

namespace PerspectiveBox

open Scalar

variable {K : Type} [Scalar K]

namespace Snap

-- One comparison in the search for the smallest length.
def nearer (best candidate : Length K × Nat) : Length K × Nat :=
  if lengthLT candidate.1 best.1 then candidate else best

theorem nearest_eq (lengths : List (Length K)) :
    nearest lengths = (lengths.zipIdx.foldl nearer (lengthOf infinity, 0)).2 := rfl

-- A smallest of some lengths, by its index. It is below infinity if any of them is.
structure Smallest (lengths : List (Length K)) (i : Nat) (d : Length K) : Prop where
  length_at : lengths[i]? = some d
  minimal : ∀ e ∈ lengths, lengthLT e d = false
  below_infinity : (∃ e ∈ lengths, lengthLT e (lengthOf infinity) = true) →
    lengthLT d (lengthOf infinity) = true

section Search

variable [OrdersLengths K]

theorem foldl_nearer_cases (candidates : List (Length K × Nat)) (best : Length K × Nat) :
    candidates.foldl nearer best = best ∨
      candidates.foldl nearer best ∈ candidates ∧
        lengthLT (candidates.foldl nearer best).1 best.1 = true := by
  induction candidates generalizing best with
  | nil => exact .inl rfl
  | cons c rest ih =>
    rw [List.foldl_cons]
    by_cases hc : lengthLT c.1 best.1 = true
    · rw [nearer, if_pos hc]
      refine .inr ?_
      obtain h | ⟨hmem, hlt⟩ := ih c
      · rw [h]
        exact ⟨List.mem_cons_self, hc⟩
      · exact ⟨List.mem_cons_of_mem c hmem, OrdersLengths.trans hlt hc⟩
    · rw [nearer, if_neg hc]
      exact (ih best).imp_right fun ⟨hmem, hlt⟩ => ⟨List.mem_cons_of_mem c hmem, hlt⟩

-- What was not below the best so far is not below what is found in the end.
theorem not_lt_foldl_nearer {d : Length K} {best : Length K × Nat}
    (h : lengthLT d best.1 = false) (candidates : List (Length K × Nat)) :
    lengthLT d (candidates.foldl nearer best).1 = false := by
  obtain he | ⟨-, hlt⟩ := foldl_nearer_cases candidates best
  · rwa [he]
  · rw [Bool.eq_false_iff] at h ⊢
    exact fun hd => h (OrdersLengths.trans hd hlt)

theorem foldl_nearer_minimal (candidates : List (Length K × Nat)) (best : Length K × Nat) :
    ∀ c ∈ candidates, lengthLT c.1 (candidates.foldl nearer best).1 = false := by
  induction candidates generalizing best with
  | nil => exact fun c hc => nomatch hc
  | cons c rest ih =>
    intro e he
    rw [List.foldl_cons]
    obtain rfl | he := List.mem_cons.1 he
    · refine not_lt_foldl_nearer ?_ rest
      rw [nearer]
      split
      · exact OrdersLengths.irrefl e.1
      · next h => exact Bool.eq_false_iff.2 h
    · exact ih _ e he

theorem exists_smallest_nearest {lengths : List (Length K)} (h : lengths ≠ []) :
    ∃ d, Smallest lengths (nearest lengths) d := by
  have hminimal : ∀ e ∈ lengths,
      lengthLT e (lengths.zipIdx.foldl nearer (lengthOf infinity, 0)).1 = false := by
    intro e he
    obtain ⟨i, hi⟩ := List.mem_iff_getElem?.1 he
    exact foldl_nearer_minimal _ _ (e, i) (List.mk_mem_zipIdx_iff_getElem?.2 hi)
  rw [nearest_eq]
  obtain hstart | ⟨hmem, hlt⟩ := foldl_nearer_cases lengths.zipIdx (lengthOf infinity, 0)
  · -- nothing is below infinity, so nothing is below anything
    rw [hstart] at hminimal ⊢
    obtain ⟨d, rest, rfl⟩ := List.exists_cons_of_ne_nil h
    refine ⟨d, rfl, fun e he => ?_, fun ⟨e, he, hbelow⟩ => ?_⟩
    · have hnot := hminimal e he
      rw [Bool.eq_false_iff] at hnot ⊢
      exact fun hd => hnot (OrdersLengths.below_infinity hd)
    · exact absurd hbelow (Bool.eq_false_iff.1 (hminimal e he))
  · exact ⟨_, List.mk_mem_zipIdx_iff_getElem?.1 hmem, hminimal, fun _ => hlt⟩

end Search

end Snap

-- What one motion of the pointer hands to snapping, apart from the memory.
structure SnapCall (K : Type) where
  map : Projection K
  saved : Corners K
  target : SnapTarget
  dragged : HPoint3 K
  start : HPoint3 K

namespace SnapCall

variable (c : SnapCall K)

def pointer : Point K := c.map.screen c.dragged

def lines : List (Line K) := Snap.lines c.map c.saved c.target c.start

-- How far on screen the pointer is from each line, times the zoom.
def distances (zoom : K) : List (Length K) :=
  c.lines.map fun l => scaleLength (l.closest c.pointer - c.pointer).length zoom

-- The point that appears at the foot of the pointer on a line.
def pulledTo (l : Line K) : HPoint3 K := c.map.preimage (l.closest c.pointer) c.start.z .z

def result (session : DragSession K) : HPoint3 K :=
  (c.map.snap c.saved c.target c.dragged c.start session).1

-- All lines are within the threshold of the drag.
def InBand (session : DragSession K) : Prop :=
  ∀ d ∈ c.distances session.zoom, lengthLE d (lengthOf session.threshold) = true

instance (session : DragSession K) : Decidable (c.InBand session) :=
  inferInstanceAs (Decidable (∀ d ∈ c.distances session.zoom, _ = true))

theorem lines_ne_nil : c.lines ≠ [] := by
  unfold lines Snap.lines
  cases c.target <;> exact List.cons_ne_nil _ _

theorem length_distances (zoom : K) : (c.distances zoom).length = c.lines.length :=
  List.length_map _

end SnapCall

namespace DragSession

-- What a drag remembers after a call, and after any number of them.
def afterCall (session : DragSession K) (c : SnapCall K) : DragSession K :=
  (c.map.snap c.saved c.target c.dragged c.start session).2

def afterCalls (session : DragSession K) (calls : List (SnapCall K)) : DragSession K :=
  calls.foldl afterCall session

end DragSession

namespace SnapCall

variable {c : SnapCall K} {session : DragSession K}

theorem snap_of_hidden (h : c.pointer.isFinite = false) :
    c.result session = c.dragged ∧ session.afterCall c = session := by
  unfold pointer at h
  simp [result, DragSession.afterCall, Projection.snap, h]

theorem afterCall_of_seen (h : c.pointer.isFinite = true) :
    session.afterCall c =
      { session with lastLine := Snap.choose session (c.distances session.zoom) } := by
  unfold pointer at h
  simp only [DragSession.afterCall, Projection.snap, h, if_true, distances, List.map_map]
  rfl

theorem result_of_seen (h : c.pointer.isFinite = true) {l : Line K}
    (hl : c.lines[(session.afterCall c).lastLine]? = some l) : c.result session = c.pulledTo l := by
  rw [afterCall_of_seen h] at hl
  have hfoot : (c.lines.map fun l => l.closest c.pointer)[
      Snap.choose session (c.distances session.zoom)]? = some (l.closest c.pointer) := by
    rw [List.getElem?_map, hl, Option.map_some]
  unfold pointer at h
  simp only [distances, lines, pointer] at hfoot
  simp only [result, Projection.snap, h, if_true, List.map_map, pulledTo, pointer]
  exact congrArg (fun s : Option (Point K) => c.map.preimage (s.getD _) c.start.z .z) hfoot

end SnapCall

namespace Snap

theorem choose_keeps {session : DragSession K} {distances : List (Length K)}
    (hband : ∀ d ∈ distances, lengthLE d (lengthOf session.threshold) = true)
    (hline : session.lastLine < distances.length) :
    choose session distances = session.lastLine := by
  rw [choose, if_pos]
  rw [Bool.and_eq_true, List.all_eq_true, decide_eq_true_iff]
  exact ⟨hband, hline⟩

theorem choose_nearest {session : DragSession K} {distances : List (Length K)}
    (h : ¬ ((∀ d ∈ distances, lengthLE d (lengthOf session.threshold) = true) ∧
      session.lastLine < distances.length)) : choose session distances = nearest distances := by
  rw [choose, if_neg]
  rwa [Bool.and_eq_true, List.all_eq_true, decide_eq_true_iff]

end Snap

namespace DragSession

variable {session : DragSession K} {c : SnapCall K}

-- The threshold and the zoom are those the drag began with.
theorem afterCall_eq (session : DragSession K) (c : SnapCall K) :
    ∃ line, session.afterCall c = { session with lastLine := line } := by
  by_cases h : c.pointer.isFinite = true
  · exact ⟨_, SnapCall.afterCall_of_seen h⟩
  · exact ⟨session.lastLine, (SnapCall.snap_of_hidden (Bool.eq_false_iff.2 h)).2⟩

theorem afterCalls_eq (session : DragSession K) (calls : List (SnapCall K)) :
    ∃ line, session.afterCalls calls = { session with lastLine := line } := by
  induction calls generalizing session with
  | nil => exact ⟨session.lastLine, rfl⟩
  | cons c rest ih =>
    obtain ⟨line, hstep⟩ := afterCall_eq session c
    obtain ⟨last, hrun⟩ := ih (session.afterCall c)
    refine ⟨last, ?_⟩
    rw [afterCalls, List.foldl_cons, ← afterCalls, hrun, hstep]

theorem zoom_afterCalls (session : DragSession K) (calls : List (SnapCall K)) :
    (session.afterCalls calls).zoom = session.zoom := by
  obtain ⟨line, h⟩ := afterCalls_eq session calls
  rw [h]

theorem inBand_afterCalls {calls : List (SnapCall K)} :
    c.InBand (session.afterCalls calls) ↔ c.InBand session := by
  obtain ⟨line, h⟩ := afterCalls_eq session calls
  rw [h]
  rfl

-- Within the band nothing is chosen anew. Nor is it for a pointer that is over no point.
theorem afterCall_of_inBand (h : c.pointer.isFinite = true →
    c.InBand session ∧ session.lastLine < c.lines.length) : session.afterCall c = session := by
  by_cases hseen : c.pointer.isFinite = true
  · obtain ⟨hband, hline⟩ := h hseen
    rw [← c.length_distances session.zoom] at hline
    rw [SnapCall.afterCall_of_seen hseen, Snap.choose_keeps hband hline]
  · exact (SnapCall.snap_of_hidden (Bool.eq_false_iff.2 hseen)).2

theorem smallest_afterCall [OrdersLengths K] (h : c.pointer.isFinite = true)
    (hleave : ¬ (c.InBand session ∧ session.lastLine < c.lines.length)) :
    ∃ d, Snap.Smallest (c.distances session.zoom) (session.afterCall c).lastLine d := by
  rw [SnapCall.afterCall_of_seen h]
  rw [← c.length_distances session.zoom] at hleave
  rw [Snap.choose_nearest hleave]
  refine Snap.exists_smallest_nearest ?_
  rw [SnapCall.distances, ne_eq, List.map_eq_nil_iff]
  exact c.lines_ne_nil

-- There is a line at the index taken, whatever was remembered.
theorem lastLine_afterCall_lt [OrdersLengths K] (session : DragSession K)
    (h : c.pointer.isFinite = true) : (session.afterCall c).lastLine < c.lines.length := by
  by_cases hkeep : c.InBand session ∧ session.lastLine < c.lines.length
  · rw [afterCall_of_inBand fun _ => hkeep]
    exact hkeep.2
  · obtain ⟨d, hd⟩ := smallest_afterCall h hkeep
    rw [← c.length_distances session.zoom]
    exact (List.getElem?_eq_some_iff.1 hd.length_at).1

theorem exists_line_afterCall [OrdersLengths K] (session : DragSession K)
    (h : c.pointer.isFinite = true) :
    ∃ l, c.lines[(session.afterCall c).lastLine]? = some l ∧ c.result session = c.pulledTo l := by
  have hl := List.getElem?_eq_getElem (lastLine_afterCall_lt session h)
  exact ⟨_, hl, SnapCall.result_of_seen h hl⟩

-- The call after any others of a drag. If the pointer is over a point and all lines are within the
-- threshold, the line taken last is kept as long as there is one; if they are not, or there is
-- none, it is a nearest line. The point is pulled to that line.
theorem afterCalls_remember [OrdersLengths K] (session : DragSession K)
    (calls : List (SnapCall K)) (c : SnapCall K) :
    let before := session.afterCalls calls
    let after := before.afterCall c
    (c.pointer.isFinite = true →
      (∃ l, c.lines[after.lastLine]? = some l ∧ c.result before = c.pulledTo l) ∧
      (c.InBand session ∧ before.lastLine < c.lines.length → after.lastLine = before.lastLine) ∧
      (¬ (c.InBand session ∧ before.lastLine < c.lines.length) →
        ∃ d, Snap.Smallest (c.distances session.zoom) after.lastLine d)) ∧
    (c.pointer.isFinite = false → c.result before = c.dragged ∧ after = before) := by
  intro before after
  refine ⟨fun h => ⟨exists_line_afterCall _ h, fun hkeep => ?_, fun hleave => ?_⟩,
    SnapCall.snap_of_hidden⟩
  · obtain ⟨hband, hline⟩ := hkeep
    exact congrArg lastLine (afterCall_of_inBand fun _ => ⟨inBand_afterCalls.2 hband, hline⟩)
  · rw [← zoom_afterCalls session calls]
    exact smallest_afterCall h fun ⟨hband, hline⟩ => hleave ⟨inBand_afterCalls.1 hband, hline⟩

-- The near corner of a board ten times as long as high, dragged over its front.
def boardCall (x y : Float) : SnapCall Float where
  map := ⟨⟨1, 0, 0⟩, ⟨0, 1, 0⟩, ⟨0.3, -0.4, 0⟩, ⟨0, 0, 1⟩⟩
  saved := ⟨⟨0, 0, 0, 1⟩, ⟨100, 10, 50, 1⟩⟩
  target := .corner .empty
  dragged := ⟨x, y, 0, 1⟩
  start := ⟨0, 0, 0, 1⟩

-- By the corner the edge is kept that was taken above it. Far along the board the diagonal is
-- nearer than the long edge.
theorem afterCalls_remember_board :
    let above := DragSession.default.afterCalls [boardCall 2 50]
    let along := DragSession.default.afterCalls [boardCall 2 50, boardCall 200 4]
    (boardCall 7 3).InBand .default ∧ (above.afterCall (boardCall 7 3)).lastLine = 1 ∧
      ¬ (boardCall 200 16).InBand .default ∧
      ∃ d, Snap.Smallest ((boardCall 200 16).distances 1.0)
        (along.afterCall (boardCall 200 16)).lastLine d := by
  intro above along
  have habove : above.lastLine = 1 := by decide +kernel
  have hnear : (boardCall 7 3).InBand .default := by decide +kernel
  have hfar : ¬ (boardCall 200 16).InBand .default := by decide +kernel
  have hkeep := ((afterCalls_remember .default [boardCall 2 50] (boardCall 7 3)).1
    (by decide +kernel)).2.1 ⟨hnear, by decide +kernel⟩
  have hleave := ((afterCalls_remember .default [boardCall 2 50, boardCall 200 4]
    (boardCall 200 16)).1 (by decide +kernel)).2.2 fun hband => hfar hband.1
  exact ⟨hnear, hkeep.trans habove, hfar, hleave⟩

-- The long edge was taken last and is within the threshold, and yet the drag leaves it.
theorem leaves_line_within_threshold :
    let before := DragSession.default.afterCalls [boardCall 200 4]
    let c := boardCall 200 16
    c.pointer.isFinite = true ∧ before.lastLine = 0 ∧ before.lastLine < c.lines.length ∧
      (c.distances before.zoom)[before.lastLine]?.any
        (lengthLE · (lengthOf before.threshold)) = true ∧
      (before.afterCall c).lastLine = 2 := by
  decide +kernel

end DragSession

end PerspectiveBox
