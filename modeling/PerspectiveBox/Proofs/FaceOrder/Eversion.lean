import Mathlib.Data.List.Basic
import Mathlib.Logic.Function.Basic
import PerspectiveBox.Number.Double
import PerspectiveBox.Proofs.FaceOrder.Complete

namespace PerspectiveBox

def FacePosition.opposite : FacePosition → FacePosition
  | front => rear
  | rear => front

namespace Face

def opposite (f : Face) : Face := { f with position := f.position.opposite }

-- The face that has come to the place of another if the box is everted along some axes.
def turned (axes : AxisSet) (f : Face) : Face := if axes.has f.normal then f.opposite else f

-- The same on slots. A number that is no slot stays as it is.
def turnedSlot (axes : AxisSet) (slot : Nat) : Nat :=
  ((ofSlot? slot).map fun f => (f.turned axes).slot).getD slot

theorem slot_opposite_ne (f : Face) : f.opposite.slot ≠ f.slot := by
  rcases f with ⟨_ | _, _ | _, _ | _⟩ <;> decide

theorem turnedSlot_slot (axes : AxisSet) (f : Face) :
    turnedSlot axes f.slot = (f.turned axes).slot := by
  rw [turnedSlot, ofSlot?_slot, Option.map_some, Option.getD_some, turned, turned]
  split <;> rfl

theorem turned_turned (axes others : AxisSet) (f : Face) :
    (f.turned axes).turned others = f.turned (axes ^^^ others) := by
  rcases f with ⟨_ | _, _ | _, _⟩ <;> rcases axes with ⟨_ | _, _ | _, _ | _⟩ <;>
    rcases others with ⟨_ | _, _ | _, _ | _⟩ <;> rfl

theorem turnedSlot_turnedSlot (axes others : AxisSet) (slot : Nat) :
    turnedSlot others (turnedSlot axes slot) = turnedSlot (axes ^^^ others) slot := by
  cases h : ofSlot? slot with
  | none => simp only [turnedSlot, h, Option.map_none, Option.getD_none]
  | some f =>
    obtain rfl := slot_of_ofSlot? h
    rw [turnedSlot_slot, turnedSlot_slot, turnedSlot_slot, turned_turned]

theorem turnedSlot_empty (slot : Nat) : turnedSlot .empty slot = slot := by
  cases h : ofSlot? slot with
  | none => rw [turnedSlot, h, Option.map_none, Option.getD_none]
  | some f =>
    obtain rfl := slot_of_ofSlot? h
    rw [turnedSlot_slot, turned, if_neg (by cases f.normal <;> decide)]

-- Turning over twice changes nothing.
theorem turnedSlot_involutive (axes : AxisSet) : Function.Involutive (turnedSlot axes) := by
  intro slot
  have hself : axes ^^^ axes = .empty := by
    rcases axes with ⟨_ | _, _ | _, _ | _⟩ <;> rfl
  rw [turnedSlot_turnedSlot, hself, turnedSlot_empty]

def isOrthogonal (a : Axis) (slot : Nat) : Bool := !(slotPlane slot).meets (.single a)

theorem turnedSlot_of_orthogonal (a : Axis) :
    ∀ s ∈ (List.range count).filter (isOrthogonal a),
      ∀ t ∈ (List.range count).filter (isOrthogonal a), s ≠ t → turnedSlot (.single a) s = t := by
  cases a <;> decide

theorem turnedSlot_of_not_orthogonal (a : Axis) :
    ∀ slot ∈ List.range count, isOrthogonal a slot = false →
      turnedSlot (.single a) slot = slot := by
  cases a <;> decide

end Face

-- Exchanging the only two entries of a list that a test picks out.
private theorem exchange_eq_map {α : Type} {l : List α} {test : α → Bool} {f : α → α} {a b : α}
    {i j : Nat} (hpicked : (l.zipIdx.filter fun e => test e.1) = [(a, i), (b, j)])
    (hab : f a = b) (hba : f b = a) (hothers : ∀ x ∈ l, test x = false → f x = x) :
    (l.set i b).set j a = l.map f := by
  have hentry {x : α} {k : Nat} : (x, k) ∈ [(a, i), (b, j)] ↔ l[k]? = some x ∧ test x = true := by
    rw [← hpicked, List.mem_filter, List.mem_zipIdx_iff_getElem?]
  have hi : l[i]? = some a := (hentry.1 List.mem_cons_self).1
  have hj : l[j]? = some b := (hentry.1 (List.mem_cons_of_mem _ List.mem_cons_self)).1
  refine List.ext_getElem? fun k => ?_
  rw [List.getElem?_map, List.getElem?_set, List.getElem?_set]
  by_cases hkj : j = k
  · obtain ⟨hlt, hb⟩ := List.getElem?_eq_some_iff.1 hj
    subst hkj
    simp [hlt, hb, hba]
  by_cases hki : i = k
  · obtain ⟨hlt, ha⟩ := List.getElem?_eq_some_iff.1 hi
    subst hki
    simp [hkj, hlt, ha, hab]
  rw [if_neg hkj, if_neg hki]
  cases hk : l[k]? with
  | none => rfl
  | some x =>
    have htest : test x = false := by
      rw [← Bool.not_eq_true]
      intro hx
      have hmem := hentry.2 ⟨hk, hx⟩
      simp only [List.mem_cons, Prod.mk.injEq, List.not_mem_nil, or_false] at hmem
      rcases hmem with ⟨-, rfl⟩ | ⟨-, rfl⟩
      · exact hki rfl
      · exact hkj rfl
    rw [Option.map_some, hothers x (List.mem_of_getElem? hk) htest]

namespace FaceOrder

theorem Complete.map_turnedSlot {order : FaceOrder} (h : order.Complete) (axes : AxisSet) :
    Complete (order.map (Face.turnedSlot axes)) := by
  have hslots : ((List.range Face.count).map (Face.turnedSlot axes)).Perm
      (List.range Face.count) := by
    rcases axes with ⟨_ | _, _ | _, _ | _⟩ <;> decide
  exact (h.map _).trans hslots

-- What is exchanged along an axis: the two slots with a face orthogonal to it.
private theorem swapFaces_of_pair {order : FaceOrder} {axes : AxisSet} {s t i j : Nat}
    (h : (order.zipIdx.filter fun e => !(Face.slotPlane e.1).meets axes) = [(s, i), (t, j)]) :
    order.swapFaces axes = (order.set i t).set j s := by
  rw [swapFaces]
  split
  · next heq =>
    rw [h] at heq
    cases heq
    rfl
  · next hnone => exact absurd h (hnone _ _ _ _ _)

theorem Complete.swapFaces_eq {order : FaceOrder} (h : order.Complete) (a : Axis) :
    order.swapFaces (.single a) = order.map (Face.turnedSlot (.single a)) := by
  have hfaces : (order.filter (Face.isOrthogonal a)).Perm
      ((List.range Face.count).filter (Face.isOrthogonal a)) := h.filter _
  have hslots : (order.zipIdx.filter fun e => Face.isOrthogonal a e.1).map Prod.fst =
      order.filter (Face.isOrthogonal a) := by
    conv_rhs => rw [← List.zipIdx_map_fst 0 order, List.filter_map]
    rfl
  have hlength : (order.zipIdx.filter fun e => Face.isOrthogonal a e.1).length = 2 := by
    rw [← List.length_map Prod.fst, hslots, hfaces.length_eq]
    cases a <;> decide
  obtain ⟨⟨s, i⟩, ⟨t, j⟩, hpair⟩ := List.length_eq_two.1 hlength
  rw [hpair] at hslots
  have hst : s ≠ t := by
    have hnodup : (order.filter (Face.isOrthogonal a)).Nodup :=
      (h.nodup_iff.2 List.nodup_range).filter _
    rw [← hslots] at hnodup
    simpa using hnodup
  have hmem {slot : Nat} (hslot : slot ∈ [s, t]) :
      slot ∈ (List.range Face.count).filter (Face.isOrthogonal a) :=
    hfaces.mem_iff.1 (hslots ▸ hslot)
  have hs := hmem List.mem_cons_self
  have ht := hmem (List.mem_cons_of_mem _ List.mem_cons_self)
  rw [swapFaces_of_pair hpair]
  exact exchange_eq_map hpair (Face.turnedSlot_of_orthogonal a s hs t ht hst)
    (Face.turnedSlot_of_orthogonal a t ht s hs hst.symm) fun slot hslot =>
      Face.turnedSlot_of_not_orthogonal a slot (h.mem_iff.1 hslot)

-- Exchanges along one axis after the other.
theorem Complete.foldl_swapFaces_eq {order : FaceOrder} (h : order.Complete) (done : AxisSet)
    (axes : List Axis) :
    axes.foldl (fun order a => swapFaces order (.single a)) (order.map (Face.turnedSlot done)) =
      order.map (Face.turnedSlot (axes.foldl (fun done a => done ^^^ .single a) done)) := by
  induction axes generalizing done with
  | nil => rfl
  | cons a axes ih =>
    have hstep : swapFaces (order.map (Face.turnedSlot done)) (.single a) =
        order.map (Face.turnedSlot (done ^^^ .single a)) := by
      rw [(h.map_turnedSlot done).swapFaces_eq a, List.map_map]
      exact List.map_congr_left fun slot _ => Face.turnedSlot_turnedSlot done (.single a) slot
    rw [List.foldl_cons, hstep, ih, List.foldl_cons]

end FaceOrder

namespace FaceOrder

-- The place of a face, counted from the top.
def place (order : FaceOrder) (f : Face) : Nat := order.idxOf f.slot

-- The faces orthogonal to an axis stand in each other's places.
def Exchanged (before after : FaceOrder) (a : Axis) : Prop :=
  ∀ f : Face, f.normal = a → after.place f = before.place f.opposite

-- They stand where they stood.
def Kept (before after : FaceOrder) (a : Axis) : Prop :=
  ∀ f : Face, f.normal = a → after.place f = before.place f

theorem place_map_turnedSlot (order : FaceOrder) (axes : AxisSet) (f : Face) :
    place (order.map (Face.turnedSlot axes)) f = order.place (f.turned axes) := by
  rw [place, place, ← Face.turnedSlot_slot, List.idxOf, List.idxOf, List.findIdx_map]
  congr 1
  funext slot
  rw [Function.comp, Bool.eq_iff_iff, beq_iff_eq, beq_iff_eq]
  exact (Face.turnedSlot_involutive axes).eq_iff

-- Opposite faces never share a place.
theorem Complete.place_opposite_ne {order : FaceOrder} (h : order.Complete) (f : Face) :
    order.place f.opposite ≠ order.place f := by
  have hmem : f.opposite.slot ∈ order := h.mem_iff.2 (List.mem_range.2 f.opposite.slot_lt)
  exact fun hplace => f.slot_opposite_ne ((List.idxOf_inj hmem).1 hplace)

-- The faces of an order turned over along some axes: they have changed places along these axes and
-- no others.
theorem Complete.exchanged_iff {order : FaceOrder} (h : order.Complete) (axes : AxisSet)
    (a : Axis) :
    (Exchanged order (order.map (Face.turnedSlot axes)) a ↔ axes.has a = true) ∧
    (Kept order (order.map (Face.turnedSlot axes)) a ↔ axes.has a = false) := by
  let f : Face := ⟨a, .front, false⟩
  have hne := h.place_opposite_ne f
  cases ha : axes.has a with
  | false =>
    have hkept : Kept order (order.map (Face.turnedSlot axes)) a := by
      rintro f rfl
      rw [place_map_turnedSlot, Face.turned, ha]
      rfl
    refine ⟨⟨fun hexchanged => ?_, nofun⟩, ⟨fun _ => rfl, fun _ => hkept⟩⟩
    exact absurd ((hexchanged f rfl).symm.trans (hkept f rfl)) hne
  | true =>
    have hexchanged : Exchanged order (order.map (Face.turnedSlot axes)) a := by
      rintro f rfl
      rw [place_map_turnedSlot, Face.turned, ha]
      rfl
    refine ⟨⟨fun _ => rfl, fun _ => hexchanged⟩, ⟨fun hkept => ?_, nofun⟩⟩
    exact absurd ((hexchanged f rfl).symm.trans (hkept f rfl)) hne

end FaceOrder

-- Along a set of axes, the exchanges come to the same in whatever order they are made.
theorem AxisSet.foldl_xor_of_perm {axes : List Axis} {s : AxisSet} (h : axes.Perm s.axes) :
    axes.foldl (fun done a => done ^^^ single a) .empty = s := by
  have hcomm (done : AxisSet) (a b : Axis) :
      done ^^^ single a ^^^ single b = done ^^^ single b ^^^ single a := by
    rcases done with ⟨_ | _, _ | _, _ | _⟩ <;> cases a <;> cases b <;> rfl
  have hall : s.axes.foldl (fun done a => done ^^^ single a) .empty = s := by
    rcases s with ⟨_ | _, _ | _, _ | _⟩ <;> rfl
  rw [← hall]
  exact h.foldl_eq' (fun a _ b _ done => hcomm done a b) .empty

namespace Corners

variable {K : Type} [Scalar K] (c : Corners K) (m : Projection K) (strategy : OrderStrategy)

theorem foldl_swapFaces_eq {axes : List Axis} (h : axes.Perm c.everted.axes) :
    axes.foldl (fun order a => order.swapFaces (.single a)) (c.vanishingCase m strategy).order =
      (c.vanishingCase m strategy).order.map (Face.turnedSlot c.everted) := by
  have hcomplete := FaceOrder.complete_order (c.vanishingCase m strategy)
  have hfold := hcomplete.foldl_swapFaces_eq .empty axes
  rw [AxisSet.foldl_xor_of_perm h, funext Face.turnedSlot_empty, List.map_id'] at hfold
  exact hfold

-- The order of a box is the one called for, with the faces turned over along the everted axes.
theorem faceOrder_eq_map : c.faceOrder m strategy =
    (c.vanishingCase m strategy).order.map (Face.turnedSlot c.everted) :=
  c.foldl_swapFaces_eq m strategy (.refl _)

-- A face order has every slot once. Against the order called for, the faces orthogonal to an axis
-- have changed places if and only if the box is everted along it, and all others have kept theirs;
-- along which axis faces are exchanged first makes no difference.
theorem faceOrder_exchanged_iff :
    (c.faceOrder m strategy).Complete ∧
    (∀ axes : List Axis, axes.Perm c.everted.axes →
      axes.foldl (fun order a => order.swapFaces (.single a)) (c.vanishingCase m strategy).order =
        c.faceOrder m strategy) ∧
    ∀ a, ((c.vanishingCase m strategy).order.Exchanged (c.faceOrder m strategy) a ↔
        c.everted.has a = true) ∧
      ((c.vanishingCase m strategy).order.Kept (c.faceOrder m strategy) a ↔
        c.everted.has a = false) := by
  refine ⟨c.complete_faceOrder m strategy, fun axes haxes => ?_, fun a => ?_⟩
  · rw [c.foldl_swapFaces_eq m strategy haxes, c.faceOrder_eq_map m strategy]
  · rw [c.faceOrder_eq_map m strategy]
    exact (FaceOrder.complete_order (c.vanishingCase m strategy)).exchanged_iff c.everted a

end Corners

-- A box that stands the wrong way around along x and z.
def insideOut : Corners Float := ⟨⟨0, 10, 10, 1⟩, ⟨10, 0, 0, 1⟩⟩

def insideOutView : Projection Float := ⟨⟨-400, 100, 1⟩, ⟨0, 1000, 0⟩, ⟨900, 50, 1⟩, ⟨300, 200, 1⟩⟩

theorem faceOrder_exchanged_insideOut : [Axis.z, .x].Perm insideOut.everted.axes ∧
    [Axis.z, .x].foldl (fun order a => order.swapFaces (.single a))
        (insideOut.vanishingCase insideOutView .sectorHeuristics).order =
      insideOut.faceOrder insideOutView .sectorHeuristics := by
  have haxes : [Axis.z, .x].Perm insideOut.everted.axes := by
    have heverted : insideOut.everted = .xz := by decide +kernel
    rw [heverted]
    decide
  exact ⟨haxes, (insideOut.faceOrder_exchanged_iff insideOutView .sectorHeuristics).2.1 _ haxes⟩

end PerspectiveBox
