import Mathlib.Data.List.Induction
import PerspectiveBox.Proofs.Box.Drawn

namespace PerspectiveBox

-- One motion of the pointer that holds a corner.
structure DragMotion (K : Type) where
  map : Projection K
  pointer : Point K
  movement : AxisSet
  constrained : Bool
  session : DragSession K

namespace AxisSet

-- What a drag may be free along: one axis or two.
def IsFreedom (s : AxisSet) : Prop := s ≠ .empty ∧ s ≠ .xyz

instance (s : AxisSet) : Decidable s.IsFreedom := inferInstanceAs (Decidable (_ ∧ _))

-- The axis along which a drag that is free along z takes the coordinate of its corner as known.
def knownAxis (movement : AxisSet) : Axis := if movement.hasY then .x else .y

-- Corners with numbers that differ in all three bits are opposite.
theorem ofBits_xor_seven (n : Nat) : ofBits (n ^^^ 7) = (ofBits n).complement := by
  have h₀ : Nat.testBit 7 0 = true := rfl
  have h₁ : Nat.testBit 7 1 = true := rfl
  have h₂ : Nat.testBit 7 2 = true := rfl
  simp only [ofBits, complement, Nat.testBit_xor, h₀, h₁, h₂, Bool.bne_true]

end AxisSet

variable {K : Type} [Scalar K]

namespace Corners

section

variable (c saved : Corners K) (id : AxisSet) (e : DragMotion K)

-- Where the pointer is in the plane of the corner, or what it snaps to there.
def planePoint : HPoint3 K :=
  let free := e.map.preimage e.pointer (c.corner id).z .z
  if e.constrained then (e.map.snap saved (.corner id) free (saved.corner id) e.session).1
  else free

-- Where the pointer is on the perspective line of the corner.
def linePoint : HPoint3 K :=
  let line := (PerspectiveLine.through e.map (saved.screen e.map id) .z).line
  e.map.preimage (line.closest e.pointer) ((c.corner id).get e.movement.knownAxis)
    e.movement.knownAxis

-- The point that a motion takes the corner to, if it finds one.
def cornerTarget? : Option (HPoint3 K) :=
  target? (if e.movement.hasZ then c.linePoint saved id e else c.planePoint saved id e)

-- The corners of the box when a motion has found a point.
def cornerAt (movement : AxisSet) (p : HPoint3 K) : Corners K :=
  if movement.hasZ then c.movedAlongZ id movement p else saved.movedInPlane id p

def afterMotion : Corners K :=
  ((c.cornerTarget? saved id e).map (c.cornerAt saved id e.movement)).getD c

end

variable (c saved : Corners K) (id : AxisSet)

theorem hasUnitWeights_cornerAt (movement : AxisSet) (p : HPoint3 K) :
    (c.cornerAt saved id movement p).HasUnitWeights := by
  rw [cornerAt]
  split <;> exact ⟨rfl, rfl⟩

-- Both ways to move a corner leave the coordinates of the opposite one.
theorem opposite_cornerAt {c saved : Corners K} {id : AxisSet}
    (h : c.corner id.complement = saved.corner id.complement) (movement : AxisSet)
    (p : HPoint3 K) :
    (c.cornerAt saved id movement p).corner id.complement = saved.corner id.complement := by
  rw [cornerAt]
  split
  · rw [← h]
    rcases id with ⟨_ | _, _ | _, _ | _⟩ <;> rfl
  · rcases id with ⟨_ | _, _ | _, _ | _⟩ <;> rfl

-- The second motion sets whatever the first one has set.
theorem cornerAt_cornerAt (movement : AxisSet) (p q : HPoint3 K) :
    (c.cornerAt saved id movement p).cornerAt saved id movement q =
      c.cornerAt saved id movement q := by
  simp only [cornerAt]
  split
  · rcases id with ⟨_ | _, _ | _, _ | _⟩ <;> rcases movement with ⟨_ | _, _ | _, _⟩ <;> rfl
  · rfl

-- The coordinate by which a point of the line is found is one that the motion does not set.
theorem known_cornerAt {movement : AxisSet} (hm : movement.IsFreedom)
    (hz : movement.hasZ = true) (p : HPoint3 K) :
    ((c.cornerAt saved id movement p).corner id).get movement.knownAxis =
      (c.corner id).get movement.knownAxis := by
  rw [cornerAt, if_pos hz]
  rcases movement with ⟨hasX, _ | _, hasZ⟩
  · rcases id with ⟨_ | _, _ | _, _ | _⟩ <;> rfl
  · obtain rfl : hasZ = true := hz
    cases hasX with
    | true => exact absurd rfl hm.2
    | false => rcases id with ⟨_ | _, _ | _, _ | _⟩ <;> rfl

theorem z_cornerAt {movement : AxisSet} (hz : movement.hasZ = false) (p : HPoint3 K) :
    ((c.cornerAt saved id movement p).corner id).z = (saved.corner id).z := by
  rw [cornerAt, hz]
  rcases id with ⟨_ | _, _ | _, _ | _⟩ <;> rfl

-- A motion finds its point by coordinates that an earlier one of the same freedom leaves alone.
theorem cornerTarget?_cornerAt {e : DragMotion K} (hm : e.movement.IsFreedom) (p : HPoint3 K) :
    (c.cornerAt c id e.movement p).cornerTarget? c id e = c.cornerTarget? c id e := by
  rw [cornerTarget?, cornerTarget?]
  by_cases hz : e.movement.hasZ = true
  · simp only [if_pos hz, linePoint, known_cornerAt c c id hm hz p]
  · have hplane : e.movement.hasZ = false := Bool.eq_false_iff.2 hz
    simp only [if_neg hz, planePoint, z_cornerAt c c id hplane p]

end Corners

namespace Box

def afterMotion (b : Box K) (id : Nat) (e : DragMotion K) : Box K :=
  b.edited (.dragCorner e.map id e.pointer e.movement e.constrained e.session)

def afterMotions (b : Box K) (id : Nat) (es : List (DragMotion K)) : Box K :=
  es.foldl (fun b e => b.afterMotion id e) b

-- Whether a motion finds a point to take the corner to.
def follows (b : Box K) (id : Nat) (e : DragMotion K) : Bool :=
  (b.corners.normalized.cornerTarget? b.saved (.ofBits id) e).isSome

theorem dragCorner_run (b : Box K) {id : Nat} (hid : id ≤ 7) {e : DragMotion K}
    (hm : e.movement.IsFreedom) : ∃ next,
    b.dragCorner e.map id e.pointer e.movement e.constrained e.session =
      .ok ({ b with corners := b.corners.normalized.afterMotion b.saved (.ofBits id) e }, next) := by
  have hmovement : checkMovement e.movement = .ok () := if_neg (not_or.2 hm)
  unfold dragCorner Corners.afterMotion Corners.cornerTarget? Corners.cornerAt
  simp only [hmovement, if_neg (Nat.not_lt.2 hid)]
  by_cases hz : e.movement.hasZ = true
  · simp only [if_pos hz]
    exact ⟨e.session, rfl⟩
  · simp only [if_neg hz, Corners.dragCornerInPlane?, Corners.planePoint]
    by_cases hc : e.constrained = true
    · simp only [if_pos hc]
      exact ⟨_, rfl⟩
    · simp only [if_neg hc]
      exact ⟨_, rfl⟩

-- A motion without a freedom, or of no corner, is refused.
theorem afterMotion_of_refused (b : Box K) {id : Nat} {e : DragMotion K}
    (h : ¬ (e.movement.IsFreedom ∧ id ≤ 7)) : b.afterMotion id e = b := by
  simp only [afterMotion, edited, dragCorner, bind, Except.bind]
  by_cases hm : e.movement = .empty ∨ e.movement = .xyz
  · simp only [checkMovement, if_pos hm]
    rfl
  · have hid : 7 < id := Nat.lt_of_not_le fun hid => h ⟨not_or.1 hm, hid⟩
    simp only [checkMovement, if_neg hm, if_pos hid]
    rfl

theorem afterMotion_of_freedom (b : Box K) {id : Nat} (hid : id ≤ 7) {e : DragMotion K}
    (hm : e.movement.IsFreedom) : b.afterMotion id e =
      { b with corners := b.corners.normalized.afterMotion b.saved (.ofBits id) e } := by
  obtain ⟨next, hrun⟩ := b.dragCorner_run hid hm
  rw [afterMotion, edited, hrun]
  rfl

theorem afterMotions_concat (b : Box K) (id : Nat) (es : List (DragMotion K))
    (e : DragMotion K) :
    b.afterMotions id (es ++ [e]) = (b.afterMotions id es).afterMotion id e := by
  simp only [afterMotions, List.foldl_append, List.foldl_cons, List.foldl_nil]

section

variable (hone : ((1 : K) == 1) = true)
include hone

-- Refused, or without a point to take the corner to, a motion changes nothing.
theorem afterMotion_cases {b : Box K} (h : b.corners.HasUnitWeights) (id : Nat)
    (e : DragMotion K) : b.afterMotion id e = b ∨ ∃ p, b.afterMotion id e =
      { b with corners := b.corners.cornerAt b.saved (.ofBits id) e.movement p } := by
  by_cases hallowed : e.movement.IsFreedom ∧ id ≤ 7
  · rw [afterMotion_of_freedom b hallowed.2 hallowed.1, h.normalized_eq hone, Corners.afterMotion]
    cases b.corners.cornerTarget? b.saved (.ofBits id) e with
    | none => exact .inl rfl
    | some p => exact .inr ⟨p, rfl⟩
  · exact .inl (afterMotion_of_refused b hallowed)

-- What no motion of a corner changes: the weights, the corners that were saved, and the opposite
-- corner.
structure HeldFrom (start : Box K) (id : AxisSet) (b : Box K) : Prop where
  unit : b.corners.HasUnitWeights
  saved : b.saved = start.corners
  opposite : b.corners.corner id.complement = start.corners.corner id.complement

theorem heldFrom_beginDrag {b : Box K} (h : b.corners.HasUnitWeights) (id : AxisSet) :
    HeldFrom b.beginDrag id b.beginDrag := by
  refine ⟨?_, rfl, rfl⟩
  rw [← h.normalized_eq hone] at h
  exact h

theorem HeldFrom.afterMotion {start b : Box K} {id : Nat} (h : HeldFrom start (.ofBits id) b)
    (e : DragMotion K) : HeldFrom start (.ofBits id) (b.afterMotion id e) := by
  obtain hsame | ⟨p, hmoved⟩ := afterMotion_cases hone h.unit id e
  · rw [hsame]
    exact h
  · have hopposite : b.corners.corner (AxisSet.ofBits id).complement =
        b.saved.corner (AxisSet.ofBits id).complement := by
      rw [h.saved]
      exact h.opposite
    rw [hmoved]
    refine ⟨Corners.hasUnitWeights_cornerAt _ _ _ _ p, h.saved, ?_⟩
    exact (Corners.opposite_cornerAt hopposite e.movement p).trans (by rw [h.saved])

theorem HeldFrom.afterMotions {start b : Box K} {id : Nat} (h : HeldFrom start (.ofBits id) b)
    (es : List (DragMotion K)) : HeldFrom start (.ofBits id) (b.afterMotions id es) := by
  induction es generalizing b with
  | nil => exact h
  | cons e es ih => exact ih (h.afterMotion hone e)

-- Through all motions of a drag, refused ones and such as find no point among them, the opposite
-- corner stays where it was when the drag began.
theorem opposite_afterMotions {b : Box K} (h : b.corners.HasUnitWeights) (id : Nat)
    (es : List (DragMotion K)) :
    (b.beginDrag.afterMotions id es).corners.corner (.ofBits (id ^^^ 7)) =
      b.beginDrag.corners.corner (.ofBits (id ^^^ 7)) := by
  rw [AxisSet.ofBits_xor_seven]
  exact ((heldFrom_beginDrag hone h _).afterMotions hone es).opposite

end

-- A chest on a page where lines along z run down to the right.
def slanted : Projection Float := ⟨⟨1, 0, 0⟩, ⟨0, 1, 0⟩, ⟨1, 1, 0⟩, ⟨0, 0, 1⟩⟩

def chest : Box Float := .ofCorners "chest" ⟨⟨0, 0, 0, 1⟩, ⟨10, 10, 10, 1⟩⟩

-- The last of these motions is refused.
def chestMotions : List (DragMotion Float) :=
  [⟨slanted, ⟨2, 2⟩, .z, false, .default⟩, ⟨slanted, ⟨5, 7⟩, .xy, true, .default⟩,
    ⟨slanted, ⟨8, 1⟩, .xyz, false, .default⟩]

theorem opposite_afterMotions_chest : ((1 : Float) == 1) = true ∧
    chest.corners.HasUnitWeights ∧
    (chest.beginDrag.afterMotions 0 chestMotions).corners.corner (.ofBits (0 ^^^ 7)) =
      chest.beginDrag.corners.corner (.ofBits (0 ^^^ 7)) :=
  ⟨by decide, ⟨rfl, rfl⟩, opposite_afterMotions (by decide) ⟨rfl, rfl⟩ 0 chestMotions⟩

-- A box whose corner is about to be dragged along a freedom.
structure Begun (start : Box K) (id : Nat) (movement : AxisSet) : Prop where
  unit : start.corners.HasUnitWeights
  saved : start.saved = start.corners
  corner : id ≤ 7
  freedom : movement.IsFreedom

-- Where one motion at most has taken the corner.
inductive Placed (start : Box K) (id movement : AxisSet) : Box K → Prop where
  | start : Placed start id movement start
  | moved (p : HPoint3 K) : Placed start id movement
      { start with corners := start.corners.cornerAt start.corners id movement p }

section

variable (hone : ((1 : K) == 1) = true) {start b : Box K} {id : Nat} {e : DragMotion K}
  (hbegun : Begun start id e.movement)
include hone hbegun

theorem Placed.normalized_eq (h : Placed start (.ofBits id) e.movement b) :
    b.corners.normalized = b.corners := by
  cases h with
  | start => exact hbegun.unit.normalized_eq hone
  | moved p => exact (Corners.hasUnitWeights_cornerAt _ _ _ _ p).normalized_eq hone

theorem Placed.target_eq (h : Placed start (.ofBits id) e.movement b) :
    b.corners.normalized.cornerTarget? b.saved (.ofBits id) e =
      start.corners.cornerTarget? start.corners (.ofBits id) e := by
  rw [h.normalized_eq hone hbegun]
  cases h with
  | start => rw [hbegun.saved]
  | moved p =>
    show Corners.cornerTarget? _ start.saved _ e = _
    rw [hbegun.saved]
    exact Corners.cornerTarget?_cornerAt _ _ hbegun.freedom p

theorem Placed.follows_eq (h : Placed start (.ofBits id) e.movement b) :
    b.follows id e = start.follows id e := by
  rw [follows, follows, h.target_eq hone hbegun, Placed.start.target_eq hone hbegun]

theorem Placed.afterMotion_of_none (h : Placed start (.ofBits id) e.movement b)
    (hp : start.corners.cornerTarget? start.corners (.ofBits id) e = none) :
    b.afterMotion id e = b := by
  rw [afterMotion_of_freedom b hbegun.corner hbegun.freedom, Corners.afterMotion,
    h.target_eq hone hbegun, hp, h.normalized_eq hone hbegun]
  rfl

theorem Placed.afterMotion_of_some (h : Placed start (.ofBits id) e.movement b) {p : HPoint3 K}
    (hp : start.corners.cornerTarget? start.corners (.ofBits id) e = some p) :
    b.afterMotion id e =
      { start with corners := start.corners.cornerAt start.corners (.ofBits id) e.movement p } := by
  rw [afterMotion_of_freedom b hbegun.corner hbegun.freedom, Corners.afterMotion,
    h.target_eq hone hbegun, hp, h.normalized_eq hone hbegun]
  cases h with
  | start =>
    rw [hbegun.saved]
    rfl
  | moved q =>
    simp only [hbegun.saved, Option.map_some, Option.getD_some, Corners.cornerAt_cornerAt]

-- A motion that finds a point leads to the same box as if it were the first one.
theorem Placed.afterMotion_eq (h : Placed start (.ofBits id) e.movement b) :
    b.afterMotion id e = if start.follows id e then start.afterMotion id e else b := by
  have hstart : Placed start (.ofBits id) e.movement start := .start
  rw [follows, hstart.target_eq hone hbegun]
  cases hp : start.corners.cornerTarget? start.corners (.ofBits id) e with
  | none => exact h.afterMotion_of_none hone hbegun hp
  | some p =>
    rw [h.afterMotion_of_some hone hbegun hp, hstart.afterMotion_of_some hone hbegun hp]
    rfl

theorem Placed.afterMotion (h : Placed start (.ofBits id) e.movement b) :
    Placed start (.ofBits id) e.movement (b.afterMotion id e) := by
  cases hp : start.corners.cornerTarget? start.corners (.ofBits id) e with
  | none =>
    rw [h.afterMotion_of_none hone hbegun hp]
    exact h
  | some p =>
    rw [h.afterMotion_of_some hone hbegun hp]
    exact .moved p

end

section

variable (hone : ((1 : K) == 1) = true) {start : Box K} {id : Nat} {movement : AxisSet}
  (hbegun : Begun start id movement) {es : List (DragMotion K)}
  (hes : ∀ e ∈ es, e.movement = movement)
include hone hbegun hes

theorem Begun.placed : Placed start (.ofBits id) movement (start.afterMotions id es) := by
  induction es using List.reverseRecOn with
  | nil => exact .start
  | append_singleton es e ih =>
    obtain ⟨hes, rfl⟩ := (List.forall_mem_append.1 hes).imp_right List.forall_mem_singleton.1
    rw [afterMotions_concat]
    exact (ih hes).afterMotion hone hbegun

theorem Begun.afterMotions_eq : start.afterMotions id es =
    ((es.filter (start.follows id)).getLast?.map (start.afterMotion id)).getD start := by
  induction es using List.reverseRecOn with
  | nil => rfl
  | append_singleton es e ih =>
    obtain ⟨hes, rfl⟩ := (List.forall_mem_append.1 hes).imp_right List.forall_mem_singleton.1
    rw [afterMotions_concat, (hbegun.placed hone hes).afterMotion_eq hone hbegun,
      List.filter_append]
    cases hfollows : start.follows id e with
    | true => simp [hfollows]
    | false => simp [hfollows, ih hes]

end

-- While the freedom stays the same, a box stands where the last motion that found a point takes it
-- from the start. No motion fails, and whether it finds a point is independent of those before it.
theorem afterMotions_eq_last (hone : ((1 : K) == 1) = true) {b : Box K}
    (h : b.corners.HasUnitWeights) {id : Nat} (hid : id ≤ 7) {movement : AxisSet}
    (hm : movement.IsFreedom) {es : List (DragMotion K)}
    (hes : ∀ e ∈ es, e.movement = movement) :
    b.beginDrag.afterMotions id es =
      ((es.filter (b.beginDrag.follows id)).getLast?.map (b.beginDrag.afterMotion id)).getD
        b.beginDrag ∧
    ∀ e : DragMotion K, e.movement = movement →
      (b.beginDrag.afterMotions id es).follows id e = b.beginDrag.follows id e ∧
      ∃ next, (b.beginDrag.afterMotions id es).dragCorner e.map id e.pointer e.movement
        e.constrained e.session = .ok (b.beginDrag.afterMotions id (es ++ [e]), next) := by
  have hbegun : Begun b.beginDrag id movement :=
    ⟨(heldFrom_beginDrag hone h .empty).unit, rfl, hid, hm⟩
  refine ⟨hbegun.afterMotions_eq hone hes, ?_⟩
  rintro e rfl
  refine ⟨(hbegun.placed hone hes).follows_eq hone hbegun, ?_⟩
  obtain ⟨next, hrun⟩ := (b.beginDrag.afterMotions id es).dragCorner_run hid hm
  rw [afterMotions_concat, afterMotion_of_freedom _ hid hm]
  exact ⟨next, hrun⟩

-- Motions in depth and to the side, the last of them with the pointer nowhere on the page.
def firstPull : DragMotion Float := ⟨slanted, ⟨2, 2⟩, .xz, false, .default⟩

def secondPull : DragMotion Float := ⟨slanted, ⟨4, 3⟩, .xz, false, .default⟩

def lostPull : DragMotion Float := ⟨slanted, .nowhere, .xz, false, .default⟩

theorem afterMotions_eq_last_chest : chest.corners.HasUnitWeights ∧
    (∀ e ∈ [firstPull, secondPull, lostPull], e.movement = .xz) ∧
    chest.beginDrag.afterMotions 0 [firstPull, secondPull, lostPull] =
      chest.beginDrag.afterMotion 0 secondPull := by
  have hfirst : chest.beginDrag.follows 0 firstPull = true := by decide +kernel
  have hsecond : chest.beginDrag.follows 0 secondPull = true := by decide +kernel
  have hlost : chest.beginDrag.follows 0 lostPull = false := by decide +kernel
  have hsame : ∀ e ∈ [firstPull, secondPull, lostPull], e.movement = .xz := by
    simp [firstPull, secondPull, lostPull]
  refine ⟨⟨rfl, rfl⟩, hsame, ?_⟩
  rw [(afterMotions_eq_last (by decide) ⟨rfl, rfl⟩ (by decide) (by decide) hsame).1]
  simp [hfirst, hsecond, hlost]

end Box

end PerspectiveBox
