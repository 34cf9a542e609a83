import PerspectiveBox.Proofs.Box.Drawn
import PerspectiveBox.Proofs.Number.Order

namespace PerspectiveBox

open Scalar

variable {K : Type} [Scalar K]

namespace Corners

-- No coordinate is undefined.
def AreNumbers (c : Corners K) : Prop :=
  ∀ a : Axis, IsNumber (c.near.get a) ∧ IsNumber (c.far.get a)

instance (c : Corners K) : Decidable c.AreNumbers :=
  decidable_of_iff
    (∀ a ∈ Axis.all, IsNumber (c.near.get a) ∧ IsNumber (c.far.get a))
    ⟨fun h a => h a (by cases a <;> decide), fun h a _ => h a⟩

-- Equal depths are the same: they are not the two zeros.
def SameDepth (c : Corners K) : Prop :=
  ¬ c.near.z < c.far.z → ¬ c.far.z < c.near.z → c.near.z = c.far.z

-- The same box named from another of its corners: along some axes the two corners that span it
-- have exchanged their coordinates.
def exchanged (c : Corners K) (axes : AxisSet) : Corners K :=
  ⟨c.corner axes, c.corner axes.complement⟩

-- The axes along which relabeling exchanges coordinates: equal depths are exchanged, too.
def misordered (c : Corners K) : AxisSet :=
  ⟨c.near.x < c.far.x, c.near.y < c.far.y, !decide (c.near.z < c.far.z)⟩

section

variable (c : Corners K) (axes id : AxisSet)

theorem get_corner (a : Axis) :
    (c.corner id).get a = if id.has a then c.far.get a else c.near.get a := by
  cases a <;> rfl

theorem corner_exchanged : (c.exchanged axes).corner id = c.corner (id ^^^ axes) := by
  rcases axes with ⟨_ | _, _ | _, _ | _⟩ <;> rcases id with ⟨_ | _, _ | _, _ | _⟩ <;> rfl

theorem exchanged_exchanged (others : AxisSet) :
    (c.exchanged axes).exchanged others = c.exchanged (axes ^^^ others) := by
  rcases axes with ⟨_ | _, _ | _, _ | _⟩ <;> rcases others with ⟨_ | _, _ | _, _ | _⟩ <;> rfl

end

namespace HasUnitWeights

variable {c : Corners K} (h : c.HasUnitWeights)
include h

theorem corner_empty : c.corner .empty = c.near := by
  obtain ⟨⟨x, y, z, w⟩, far⟩ := c
  obtain rfl : w = 1 := h.1
  rfl

theorem corner_xyz : c.corner .xyz = c.far := by
  obtain ⟨near, ⟨x, y, z, w⟩⟩ := c
  obtain rfl : w = 1 := h.2
  rfl

theorem exchanged_empty : c.exchanged .empty = c := by
  have hfar : c.corner AxisSet.empty.complement = c.far := h.corner_xyz
  rw [exchanged, h.corner_empty, hfar]

theorem exchanged_single (a : Axis) : c.exchanged (.single a) =
    ⟨c.near.set a (c.far.get a), c.far.set a (c.near.get a)⟩ := by
  obtain ⟨⟨x, y, z, w⟩, ⟨x', y', z', w'⟩⟩ := c
  obtain ⟨rfl, rfl⟩ : w = 1 ∧ w' = 1 := h
  cases a <;> rfl

variable [OrdersNumbers K]

theorem normalized_self : c.normalized = c := h.normalized_eq OrdersNumbers.isNumber_one

theorem ordered_eq (a : Axis) (nearSmaller : Bool) : c.ordered a nearSmaller =
    c.exchanged (if decide (c.near.get a < c.far.get a) = nearSmaller then .empty else .single a) := by
  rw [Corners.ordered, h.normalized_self]
  split
  · rw [h.exchanged_empty]
  · rw [h.exchanged_single]

theorem everted_eq : c.everted =
    ⟨c.near.x < c.far.x, c.near.y < c.far.y, c.far.z < c.near.z⟩ := by
  rw [everted, h.normalized_self]

-- Along other axes nothing is exchanged.
theorem get_ordered {a b : Axis} (hab : a ≠ b) (nearSmaller : Bool) :
    (c.ordered a nearSmaller).near.get b = c.near.get b ∧
      (c.ordered a nearSmaller).far.get b = c.far.get b := by
  have hcoord : a.coord ≠ b.coord := by
    cases a <;> cases b <;> first | exact absurd rfl hab | nofun
  rw [Corners.ordered, h.normalized_self]
  split
  · exact ⟨rfl, rfl⟩
  · exact ⟨HPoint3.get_set_other _ _ hcoord, HPoint3.get_set_other _ _ hcoord⟩

theorem relabeled_eq : c.relabeled = c.exchanged c.misordered := by
  have hx := h.ordered OrdersNumbers.isNumber_one .x false
  have hy := hx.ordered OrdersNumbers.isNumber_one .y false
  have hxy := h.get_ordered (show Axis.x ≠ .y from nofun) false
  have hxz := h.get_ordered (show Axis.x ≠ .z from nofun) false
  have hyz := hx.get_ordered (show Axis.y ≠ .z from nofun) false
  have hrelabeled : c.relabeled =
      ((c.ordered Axis.x false).ordered Axis.y false).ordered Axis.z true := rfl
  rw [hrelabeled, hy.ordered_eq .z true, hyz.1, hyz.2, hxz.1, hxz.2,
    hx.ordered_eq .y false, hxy.1, hxy.2, h.ordered_eq .x false, exchanged_exchanged,
    exchanged_exchanged]
  congr 1
  simp only [misordered, HPoint3.get, Axis.coord]
  by_cases hx : c.near.x < c.far.x <;> by_cases hy : c.near.y < c.far.y <;>
    by_cases hz : c.near.z < c.far.z <;> simp only [hx, hy, hz] <;> rfl

omit [OrdersNumbers K] in
-- The six coordinates are the same.
theorem areFinite_exchanged (axes : AxisSet) : (c.exchanged axes).areFinite = c.areFinite := by
  obtain ⟨⟨x, y, z, w⟩, ⟨x', y', z', w'⟩⟩ := c
  obtain ⟨rfl, rfl⟩ : w = 1 ∧ w' = 1 := h
  rcases axes with ⟨_ | _, _ | _, _ | _⟩ <;>
    simp only [areFinite, HPoint3.isFinite, exchanged, corner, AxisSet.complement, Bool.not_true,
      Bool.not_false, Bool.false_eq_true, if_true, if_false] <;>
    ac_rfl

theorem areFinite_relabeled : c.relabeled.areFinite = c.areFinite := by
  rw [h.relabeled_eq, h.areFinite_exchanged]

end HasUnitWeights

end Corners

namespace HPoint3

variable {p q : HPoint3 K}

theorem beq_iff : (p == q) = true ↔ ∀ c : Coord, (p.get c == q.get c) = true := by
  have hbeq : (p == q) = (p.x == q.x && (p.y == q.y && (p.z == q.z && p.w == q.w))) := rfl
  rw [hbeq]
  simp only [Bool.and_eq_true]
  constructor
  · rintro ⟨hx, hy, hz, hw⟩ (_ | _ | _ | _)
    · exact hx
    · exact hy
    · exact hz
    · exact hw
  · exact fun h => ⟨h .x, h .y, h .z, h .w⟩

end HPoint3

namespace Corners

variable {c : Corners K}

namespace AreNumbers

variable (h : c.AreNumbers)
include h

theorem isNumber_corner (id : AxisSet) (a : Axis) : IsNumber ((c.corner id).get a) := by
  rw [get_corner]
  split
  · exact (h a).2
  · exact (h a).1

theorem exchanged (axes : AxisSet) : (c.exchanged axes).AreNumbers :=
  fun a => ⟨h.isNumber_corner axes a, h.isNumber_corner axes.complement a⟩

-- Two corners are equal if they differ only along axes on which the box has no extent.
theorem corner_beq [OrdersNumbers K] {id other : AxisSet} (hsame : ∀ a, id.has a = other.has a ∨
    ¬ c.near.get a < c.far.get a ∧ ¬ c.far.get a < c.near.get a) :
    (c.corner id == c.corner other) = true := by
  have haxis (a : Axis) : ((c.corner id).get a == (c.corner other).get a) = true := by
    rcases hsame a with hhas | ⟨hnear, hfar⟩
    · have hget : (c.corner id).get a = (c.corner other).get a := by
        rw [get_corner, get_corner, hhas]
      rw [hget]
      exact h.isNumber_corner other a
    · obtain ⟨hn, hf⟩ := h a
      rw [get_corner, get_corner]
      split <;> split
      · exact hf
      · exact OrdersNumbers.beq_of_not_lt hf hn hfar hnear
      · exact OrdersNumbers.beq_of_not_lt hn hf hnear hfar
      · exact hn
  refine HPoint3.beq_iff.2 fun coord => ?_
  cases coord
  · exact haxis .x
  · exact haxis .y
  · exact haxis .z
  · exact OrdersNumbers.isNumber_one

end AreNumbers

namespace HasUnitWeights

variable [OrdersNumbers K] (h : c.HasUnitWeights)
include h

-- In canonical order the near corner is not below the far one in x and y, nor above it in z.
theorem not_lt_relabeled : ¬ c.relabeled.near.x < c.relabeled.far.x ∧
    ¬ c.relabeled.near.y < c.relabeled.far.y ∧ ¬ c.relabeled.far.z < c.relabeled.near.z := by
  have hdescends (p q : K) :
      ¬ (if decide (p < q) then q else p) < (if !decide (p < q) then q else p) := by
    by_cases hpq : p < q
    · simpa [hpq] using OrdersNumbers.asymm hpq
    · simp [hpq]
  have hascends (p q : K) :
      ¬ (if !!decide (p < q) then q else p) < (if !decide (p < q) then q else p) := by
    rw [Bool.not_not]
    exact hdescends p q
  rw [h.relabeled_eq]
  exact ⟨hdescends c.near.x c.far.x, hdescends c.near.y c.far.y, hascends c.near.z c.far.z⟩

-- Only equal depths are exchanged without the box being everted.
theorem misordered_eq (hz : c.near.z < c.far.z ∨ c.far.z < c.near.z) :
    c.misordered = c.everted := by
  have hdepth : (!decide (c.near.z < c.far.z)) = decide (c.far.z < c.near.z) := by
    rcases hz with hz | hz
    · rw [decide_eq_true hz, decide_eq_false (OrdersNumbers.asymm hz), Bool.not_true]
    · rw [decide_eq_true hz, decide_eq_false (OrdersNumbers.asymm hz), Bool.not_false]
  rw [h.everted_eq, misordered, hdepth]

theorem has_misordered (id : AxisSet) (a : Axis) :
    (id ^^^ c.misordered).has a = (id ^^^ c.everted).has a ∨
      ¬ c.near.get a < c.far.get a ∧ ¬ c.far.get a < c.near.get a := by
  by_cases hz : c.near.z < c.far.z ∨ c.far.z < c.near.z
  · exact .inl (by rw [h.misordered_eq hz])
  · rw [h.everted_eq]
    cases a with
    | x => exact .inl rfl
    | y => exact .inl rfl
    | z => exact .inr (not_or.1 hz)

theorem everted_relabeled : c.relabeled.everted = .empty := by
  obtain ⟨hx, hy, hz⟩ := h.not_lt_relabeled
  rw [(h.relabeled OrdersNumbers.isNumber_one).everted_eq, decide_eq_false hx, decide_eq_false hy,
    decide_eq_false hz]

-- To the letter, if equal depths are the same.
theorem relabeled_eq_of_depth (hdepth : c.SameDepth) : c.relabeled = c.exchanged c.everted := by
  by_cases hz : c.near.z < c.far.z ∨ c.far.z < c.near.z
  · rw [h.relabeled_eq, h.misordered_eq hz]
  · have hsame : c.near.z = c.far.z := hdepth (not_or.1 hz).1 (not_or.1 hz).2
    rw [h.relabeled_eq, h.everted_eq, exchanged, exchanged, corner, corner, corner, corner, hsame]
    simp only [ite_self]
    rfl

theorem sameDepth_relabeled (hdepth : c.SameDepth) : c.relabeled.SameDepth := by
  rw [h.relabeled_eq_of_depth hdepth, h.everted_eq]
  by_cases hz : c.far.z < c.near.z
  · simp only [SameDepth, exchanged, corner, AxisSet.complement, hz, decide_true]
    exact fun hnear => absurd hz hnear
  · simp only [SameDepth, exchanged, corner, AxisSet.complement, hz, decide_false]
    exact hdepth

-- Then a second time nothing at all is exchanged.
theorem relabeled_relabeled_eq (hdepth : c.SameDepth) : c.relabeled.relabeled = c.relabeled := by
  have hunit := h.relabeled OrdersNumbers.isNumber_one
  rw [hunit.relabeled_eq_of_depth (h.sameDepth_relabeled hdepth), h.everted_relabeled,
    hunit.exchanged_empty]

variable (hn : c.AreNumbers)
include hn

theorem areNumbers_relabeled : c.relabeled.AreNumbers := by
  rw [h.relabeled_eq]
  exact hn.exchanged c.misordered

theorem corner_relabeled (id : AxisSet) :
    (c.relabeled.corner id == c.corner (id ^^^ c.everted)) = true := by
  rw [h.relabeled_eq, corner_exchanged]
  exact hn.corner_beq (h.has_misordered id)

-- Corners in canonical order stay as they are.
theorem relabeled_relabeled : (c.relabeled.relabeled == c.relabeled) = true := by
  have hunit := h.relabeled OrdersNumbers.isNumber_one
  have hunit' := hunit.relabeled OrdersNumbers.isNumber_one
  have hcorner (id : AxisSet) :
      (c.relabeled.relabeled.corner id == c.relabeled.corner (id ^^^ .empty)) = true := by
    rw [← h.everted_relabeled]
    exact hunit.corner_relabeled (h.areNumbers_relabeled hn) id
  have hnear := hcorner .empty
  have hfar := hcorner .xyz
  rw [hunit'.corner_empty] at hnear
  rw [hunit'.corner_xyz] at hfar
  have hbeq : (c.relabeled.relabeled == c.relabeled) =
      (c.relabeled.relabeled.near == c.relabeled.near &&
        c.relabeled.relabeled.far == c.relabeled.far) := rfl
  rw [hbeq, Bool.and_eq_true]
  exact ⟨hunit.corner_empty ▸ hnear, hunit.corner_xyz ▸ hfar⟩

end HasUnitWeights

end Corners

-- After relabeling, every corner of a box is the one that was named by the flipped everted axes.
-- The box then stands in canonical order, and relabeling it again changes nothing.
theorem Box.relabel_renames [OrdersNumbers K] {b : Box K} (h : b.corners.HasUnitWeights)
    (hn : b.corners.AreNumbers) :
    (∀ id, (b.relabel.corners.corner id == b.corners.corner (id ^^^ b.corners.everted)) = true) ∧
    b.relabel.corners.everted = .empty ∧
    b.relabel.corners.far.x ≤ b.relabel.corners.near.x ∧
    b.relabel.corners.far.y ≤ b.relabel.corners.near.y ∧
    b.relabel.corners.near.z ≤ b.relabel.corners.far.z ∧
    (∃ d, (d == b.relabel.corners) = true ∧ b.relabel.relabel = { b.relabel with corners := d }) ∧
    (b.corners.SameDepth → b.relabel.relabel = b.relabel) := by
  obtain ⟨hx, hy, hz⟩ := h.not_lt_relabeled
  have hrelabeled := h.areNumbers_relabeled hn
  have hle {p q : K} (hp : IsNumber p) (hq : IsNumber q) (hpq : ¬ p < q) : q ≤ p :=
    OrdersNumbers.le_of_not_lt hp hq hpq
  refine ⟨h.corner_relabeled hn, h.everted_relabeled, ?_, ?_, ?_, ?_, fun hdepth => ?_⟩
  · exact hle (hrelabeled .x).1 (hrelabeled .x).2 hx
  · exact hle (hrelabeled .y).1 (hrelabeled .y).2 hy
  · exact hle (hrelabeled .z).2 (hrelabeled .z).1 hz
  · exact ⟨_, h.relabeled_relabeled hn, rfl⟩
  · have hcorners : b.relabel.relabel.corners = b.relabel.corners :=
      h.relabeled_relabeled_eq hdepth
    rw [relabel]
    exact congrArg (fun d => { b.relabel with corners := d }) hcorners

-- A box that stands the wrong way around along x and has no height.
def flatBox : Box Float := Box.ofCorners "flat" ⟨⟨0, 5, 3, 1⟩, ⟨10, 5, 3, 1⟩⟩

theorem relabel_renames_flatBox :
    flatBox.corners.HasUnitWeights ∧ flatBox.corners.AreNumbers ∧ flatBox.corners.SameDepth ∧
    flatBox.corners.everted = .x ∧
    (flatBox.relabel.corners.corner .yz ==
      flatBox.corners.corner (.yz ^^^ flatBox.corners.everted)) = true ∧
    flatBox.relabel.relabel = flatBox.relabel := by
  have hunit : flatBox.corners.HasUnitWeights := ⟨rfl, rfl⟩
  have hnumbers : flatBox.corners.AreNumbers := by decide +kernel
  have hdepth : flatBox.corners.SameDepth := fun _ _ => rfl
  obtain ⟨hcorner, -, -, -, -, -, hagain⟩ := Box.relabel_renames hunit hnumbers
  exact ⟨hunit, hnumbers, hdepth, by decide +kernel, hcorner .yz, hagain hdepth⟩

end PerspectiveBox
