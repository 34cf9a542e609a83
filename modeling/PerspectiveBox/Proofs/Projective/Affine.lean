import Mathlib.Tactic.FieldSimp
import Mathlib.Tactic.LinearCombination
import PerspectiveBox.Proofs.Projective.Preimage
import PerspectiveBox.Proofs.Projective.Vanishing

namespace PerspectiveBox

theorem Point.weighted_one_inj {p q : Point Rat} : p.weighted 1 = q.weighted 1 ↔ p = q := by
  obtain ⟨_, _⟩ := p
  obtain ⟨_, _⟩ := q
  simp [weighted]

namespace Affine

-- The last row says that weights are kept.
structure KeepsWeight (f : Affine Rat) : Prop where
  m31 : f.m31 = 0
  m32 : f.m32 = 0
  m33 : f.m33 = 1

def exact (f : Affine Rat) : Affine Exact where
  m11 := .rational f.m11
  m12 := .rational f.m12
  m13 := .rational f.m13
  m21 := .rational f.m21
  m22 := .rational f.m22
  m23 := .rational f.m23
  m31 := .rational f.m31
  m32 := .rational f.m32
  m33 := .rational f.m33

def moved (f : Affine Rat) (p : HPoint2 Rat) : HPoint2 Rat :=
  ⟨f.m11 * p.x + f.m12 * p.y + f.m13 * p.w, f.m21 * p.x + f.m22 * p.y + f.m23 * p.w, p.w⟩

def movedPoint (f : Affine Rat) (p : Point Rat) : Point Rat :=
  ⟨f.m11 * p.x + f.m12 * p.y + f.m13 * 1, f.m21 * p.x + f.m22 * p.y + f.m23 * 1⟩

variable (f g : Affine Rat)

theorem applyPoint_exact (p : Point Rat) :
    f.exact.applyPoint p.exact = (f.movedPoint p).exact := rfl

theorem moved_weighted_one (p : Point Rat) :
    f.moved (p.weighted 1) = (f.movedPoint p).weighted 1 := by
  simp only [moved, movedPoint, Point.weighted, one_mul]

theorem place_moved {p : HPoint2 Rat} (h : p.w ≠ 0) : (f.moved p).place = f.movedPoint p.place := by
  simp only [HPoint2.place, moved, movedPoint, Point.mk.injEq]
  constructor <;> field_simp

def product : Affine Rat where
  m11 := f.m11 * g.m11 + f.m12 * g.m21 + f.m13 * g.m31
  m12 := f.m11 * g.m12 + f.m12 * g.m22 + f.m13 * g.m32
  m13 := f.m11 * g.m13 + f.m12 * g.m23 + f.m13 * g.m33
  m21 := f.m21 * g.m11 + f.m22 * g.m21 + f.m23 * g.m31
  m22 := f.m21 * g.m12 + f.m22 * g.m22 + f.m23 * g.m32
  m23 := f.m21 * g.m13 + f.m22 * g.m23 + f.m23 * g.m33
  m31 := f.m31 * g.m11 + f.m32 * g.m21 + f.m33 * g.m31
  m32 := f.m31 * g.m12 + f.m32 * g.m22 + f.m33 * g.m32
  m33 := f.m31 * g.m13 + f.m32 * g.m23 + f.m33 * g.m33

theorem compose_exact : f.exact.compose g.exact = (f.product g).exact := rfl

variable {g} in
theorem moved_product (hg : g.KeepsWeight) (p : HPoint2 Rat) :
    (f.product g).moved p = f.moved (g.moved p) := by
  simp only [moved, product, hg.m31, hg.m32, hg.m33, HPoint2.mk.injEq]
  refine ⟨?_, ?_, trivial⟩ <;> ring

variable {g} in
theorem movedPoint_product (hg : g.KeepsWeight) (p : Point Rat) :
    (f.product g).movedPoint p = f.movedPoint (g.movedPoint p) := by
  rw [← Point.weighted_one_inj, ← moved_weighted_one, moved_product f hg, moved_weighted_one,
    moved_weighted_one]

-- The maps take a place to the same one in either order.
def CommutesAt (p : HPoint2 Rat) : Prop := f.moved (g.moved p) = g.moved (f.moved p)

theorem commutesAt_weighted_one (p : Point Rat) : f.CommutesAt g (p.weighted 1) ↔
    f.movedPoint (g.movedPoint p) = g.movedPoint (f.movedPoint p) := by
  simp only [CommutesAt, moved_weighted_one, Point.weighted_one_inj]

-- Their products are the same map: the linear parts commute, and both products shift alike.
structure Commutes : Prop where
  turn : f.m12 * g.m21 = g.m12 * f.m21
  shearX : (f.m11 - f.m22) * g.m12 = (g.m11 - g.m22) * f.m12
  shearY : (f.m11 - f.m22) * g.m21 = (g.m11 - g.m22) * f.m21
  shiftX : f.m11 * g.m13 + f.m12 * g.m23 + f.m13 = g.m11 * f.m13 + g.m12 * f.m23 + g.m13
  shiftY : f.m21 * g.m13 + f.m22 * g.m23 + f.m23 = g.m21 * f.m13 + g.m22 * f.m23 + g.m23

variable {f g}

theorem Commutes.commutesAt (h : f.Commutes g) (p : HPoint2 Rat) : f.CommutesAt g p := by
  simp only [CommutesAt, moved, HPoint2.mk.injEq]
  refine ⟨?_, ?_, trivial⟩
  · linear_combination p.x * h.turn + p.y * h.shearX + p.w * h.shiftX
  · linear_combination p.x * -h.shearY - p.y * h.turn + p.w * h.shiftY

-- The two orders are told apart at the origin of the page and in the directions of its sides.
theorem commutesAt_iff : (∀ p, f.CommutesAt g p) ↔ f.Commutes g := by
  refine ⟨fun h => ?_, Commutes.commutesAt⟩
  have hplace (p : HPoint2 Rat) := HPoint2.mk.inj (h p)
  obtain ⟨hx, hx', -⟩ := hplace ⟨1, 0, 0⟩
  obtain ⟨hy, -, -⟩ := hplace ⟨0, 1, 0⟩
  obtain ⟨ho, ho', -⟩ := hplace ⟨0, 0, 1⟩
  simp only [moved] at hx hx' hy ho ho'
  refine ⟨?_, ?_, ?_, ?_, ?_⟩
  · linear_combination hx
  · linear_combination hy
  · linear_combination -hx'
  · linear_combination ho
  · linear_combination ho'

variable (f g)

def det : Rat := f.m11 * f.m22 - f.m21 * f.m12

def undone : Affine Rat where
  m11 := f.m22 / f.det
  m12 := -f.m12 / f.det
  m13 := (f.m12 * f.m23 - f.m22 * f.m13) / f.det
  m21 := -f.m21 / f.det
  m22 := f.m11 / f.det
  m23 := (f.m13 * f.m21 - f.m23 * f.m11) / f.det
  m31 := 0
  m32 := 0
  m33 := 1

variable {f}

theorem inverse?_exact (h : f.KeepsWeight) :
    f.exact.inverse? = if f.det = 0 then none else some f.undone.exact := by
  have hdet : f.exact.m11 * (f.exact.m22 * f.exact.m33 - f.exact.m32 * f.exact.m23) -
      f.exact.m12 * (f.exact.m21 * f.exact.m33 - f.exact.m31 * f.exact.m23) +
      f.exact.m13 * (f.exact.m21 * f.exact.m32 - f.exact.m31 * f.exact.m22) =
        .rational f.det := by
    refine congrArg Exact.rational ?_
    rw [h.m31, h.m32, h.m33, det]
    ring
  simp only [inverse?, hdet, Exact.beq_zero, decide_eq_true_eq]
  by_cases h0 : f.det = 0
  · rw [if_pos h0, if_pos h0]
  · have hentry {p q : Rat} (hpq : p = q) :
        Exact.rational p / .rational f.det = .rational (q / f.det) := by
      rw [Exact.rational_div _ _ h0, hpq]
    have hzero {p : Rat} (hp : p = 0) : Exact.rational p / .rational f.det = .rational 0 := by
      rw [hentry hp, zero_div]
    have hone {p : Rat} (hp : p = f.det) : Exact.rational p / .rational f.det = .rational 1 := by
      rw [hentry hp, div_self h0]
    rw [if_neg h0, if_neg h0, Option.some.injEq, undone, exact, Affine.mk.injEq]
    refine ⟨hentry ?_, hentry ?_, hentry ?_, hentry ?_, hentry ?_, hentry ?_, hzero ?_, hzero ?_,
      hone ?_⟩
    all_goals simp [h.m31, h.m32, h.m33, det]

theorem moved_undone (h : f.det ≠ 0) (p : HPoint2 Rat) : f.undone.moved (f.moved p) = p := by
  obtain ⟨x, y, w⟩ := p
  simp only [moved, undone, HPoint2.mk.injEq, div_mul_eq_mul_div, ← add_div, div_eq_iff h]
  refine ⟨?_, ?_, trivial⟩ <;>
  · rw [det]
    ring

end Affine

namespace Projection

def moved (m : Projection Rat) (f : Affine Rat) : Projection Rat := m.mapColumns f.moved

variable (m : Projection Rat) (f : Affine Rat)

theorem applyAffine_exact : m.exact.applyAffine f.exact = (m.moved f).exact := rfl

theorem column_moved (c : Coord) : (m.moved f).column c = f.moved (m.column c) :=
  m.column_mapColumns f.moved c

theorem isFinite_column_moved (c : Coord) :
    ((m.moved f).exact.column c).isFinite = (m.exact.column c).isFinite := by
  rw [isFinite_column_exact, isFinite_column_exact, column_moved]
  rfl

theorem shown_moved (p : HPoint3 Rat) : (m.moved f).shown p = f.moved (m.shown p) := by
  simp only [moved, mapColumns, shown, Affine.moved, HPoint2.mk.injEq]
  refine ⟨?_, ?_, trivial⟩ <;> ring

theorem eq_of_columns {m n : Projection Rat} (h : ∀ c, m.column c = n.column c) : m = n := by
  obtain ⟨_, _, _, _⟩ := m
  obtain ⟨_, _, _, _⟩ := n
  obtain ⟨rfl, rfl, rfl, rfl⟩ := And.intro (h .x) (And.intro (h .y) (And.intro (h .z) (h .w)))
  rfl

-- With the columns the whole picture is mapped, and it is mapped back by an inverse. There is one
-- just if the map does not flatten the page.
theorem applyAffine_moves {f : Affine Rat} (h : f.KeepsWeight) :
    (∀ p : HPoint3 Rat, (m.exact.image p.exact).isFinite = true →
      ((m.exact.applyAffine f.exact).image p.exact).w = (m.exact.image p.exact).w ∧
      (m.exact.applyAffine f.exact).screen p.exact = f.exact.applyPoint (m.exact.screen p.exact)) ∧
    (∀ c, (m.exact.applyAffine f.exact).isFinite c = m.exact.isFinite c) ∧
    (f.exact.inverse? = none ↔ f.det = 0) ∧
    ∀ g, f.exact.inverse? = some g → (m.exact.applyAffine f.exact).applyAffine g = m.exact := by
  rw [applyAffine_exact]
  refine ⟨fun p hp => ?_, m.isFinite_column_moved f, ?_, fun g hg => ?_⟩
  · rw [image_exact, HPoint2.isFinite_exact, decide_eq_true_eq] at hp
    have hmoved : ((m.moved f).shown p).w ≠ 0 := by rwa [shown_moved]
    rw [image_exact, image_exact, screen_exact _ hmoved, screen_exact m hp, shown_moved,
      f.place_moved hp, f.applyPoint_exact]
    exact ⟨rfl, rfl⟩
  · rw [Affine.inverse?_exact h]
    split <;> simp [*]
  · rw [Affine.inverse?_exact h] at hg
    split at hg
    · cases hg
    · next hdet =>
      obtain rfl := Option.some.inj hg
      rw [applyAffine_exact, exact_inj]
      refine eq_of_columns fun c => ?_
      rw [column_moved, column_moved, Affine.moved_undone hdet]

-- A page that is stretched, sheared and shifted.
def sheared : Affine Rat := ⟨2, 1, 30, 0, 3, -10, 0, 0, 1⟩

theorem applyAffine_moves_corridor : sheared.KeepsWeight ∧
    (corridor.exact.image (HPoint3.exact ⟨3, 5, 1, 1⟩)).isFinite = true ∧
    (corridor.exact.applyAffine sheared.exact).screen (HPoint3.exact ⟨3, 5, 1, 1⟩) =
      sheared.exact.applyPoint (corridor.exact.screen (HPoint3.exact ⟨3, 5, 1, 1⟩)) ∧
    sheared.exact.inverse? = some sheared.undone.exact ∧
    (corridor.exact.applyAffine sheared.exact).applyAffine sheared.undone.exact =
      corridor.exact := by
  have hkeeps : sheared.KeepsWeight := ⟨rfl, rfl, rfl⟩
  have hfinite : (corridor.exact.image (HPoint3.exact ⟨3, 5, 1, 1⟩)).isFinite = true := by
    decide +kernel
  have hinverse : sheared.exact.inverse? = some sheared.undone.exact := by
    rw [Affine.inverse?_exact hkeeps, if_neg (by norm_num [Affine.det, sheared])]
  obtain ⟨himage, -, -, hback⟩ := applyAffine_moves corridor hkeeps
  exact ⟨hkeeps, hfinite, (himage _ hfinite).2, hinverse, hback _ hinverse⟩

-- A product maps by its second factor first. It maps by the first one first just where the two
-- maps commute.
theorem applyAffine_compose_iff {g : Affine Rat} (hg : g.KeepsWeight) :
    (∀ m : Projection Rat,
      m.exact.applyAffine (f.exact.compose g.exact) =
        (m.exact.applyAffine g.exact).applyAffine f.exact ∧
      (m.exact.applyAffine (f.exact.compose g.exact) =
        (m.exact.applyAffine f.exact).applyAffine g.exact ↔ ∀ c, f.CommutesAt g (m.column c))) ∧
    (∀ p : Point Rat,
      (f.exact.compose g.exact).applyPoint p.exact =
        f.exact.applyPoint (g.exact.applyPoint p.exact) ∧
      ((f.exact.compose g.exact).applyPoint p.exact =
        g.exact.applyPoint (f.exact.applyPoint p.exact) ↔ f.CommutesAt g (p.weighted 1))) ∧
    ((∀ p, f.CommutesAt g p) ↔ f.Commutes g) := by
  refine ⟨fun m => ?_, fun p => ?_, Affine.commutesAt_iff⟩
  · have hproduct : m.moved (f.product g) = (m.moved g).moved f := by
      refine eq_of_columns fun c => ?_
      rw [column_moved, column_moved, column_moved, Affine.moved_product f hg]
    simp only [Affine.compose_exact, applyAffine_exact, hproduct, exact_inj, true_and]
    constructor
    · intro heq c
      have hcolumn := congrArg (fun n : Projection Rat => n.column c) heq
      simp only [column_moved] at hcolumn
      exact hcolumn
    · intro hcommutes
      refine eq_of_columns fun c => ?_
      rw [column_moved, column_moved, column_moved, column_moved]
      exact hcommutes c
  · simp only [Affine.compose_exact, Affine.applyPoint_exact, f.movedPoint_product hg,
      Point.exact_inj, true_and]
    exact (f.commutesAt_weighted_one g p).symm

-- The page shifted, and the page at twice its size.
def nudged : Affine Rat := ⟨1, 0, 3, 0, 1, 4, 0, 0, 1⟩

def doubled : Affine Rat := ⟨2, 0, 0, 0, 2, 0, 0, 0, 1⟩

theorem applyAffine_compose_doubled : doubled.KeepsWeight ∧
    corridor.exact.applyAffine (nudged.exact.compose doubled.exact) =
      (corridor.exact.applyAffine doubled.exact).applyAffine nudged.exact ∧
    (nudged.exact.compose doubled.exact).applyPoint (Point.exact ⟨1, 0⟩) =
      nudged.exact.applyPoint (doubled.exact.applyPoint (Point.exact ⟨1, 0⟩)) := by
  have hkeeps : doubled.KeepsWeight := ⟨rfl, rfl, rfl⟩
  obtain ⟨hmap, hpoint, -⟩ := applyAffine_compose_iff nudged hkeeps
  exact ⟨hkeeps, (hmap corridor).1, (hpoint ⟨1, 0⟩).1⟩

-- Shifted and then doubled, the place goes to `(8, 8)`.
theorem compose_doubles_first :
    nudged.KeepsWeight ∧ doubled.KeepsWeight ∧
    (nudged.exact.compose doubled.exact).applyPoint (Point.exact ⟨1, 0⟩) = Point.exact ⟨5, 4⟩ ∧
    doubled.exact.applyPoint (nudged.exact.applyPoint (Point.exact ⟨1, 0⟩)) =
      Point.exact ⟨8, 8⟩ ∧
    corridor.exact.applyAffine (nudged.exact.compose doubled.exact) ≠
      (corridor.exact.applyAffine nudged.exact).applyAffine doubled.exact := by
  refine ⟨⟨rfl, rfl, rfl⟩, ⟨rfl, rfl, rfl⟩, ?_, ?_, fun h => ?_⟩
  · norm_num [Affine.compose_exact, Affine.applyPoint_exact, Affine.movedPoint, Affine.product,
      nudged, doubled, Point.exact_inj]
  · norm_num [Affine.applyPoint_exact, Affine.movedPoint, nudged, doubled, Point.exact_inj]
  · rw [Affine.compose_exact, applyAffine_exact, applyAffine_exact, applyAffine_exact,
      exact_inj] at h
    have horigin := congrArg (fun m : Projection Rat => m.origin.x) h
    norm_num [moved, mapColumns, Affine.moved, Affine.product, nudged, doubled, corridor] at horigin

end Projection

end PerspectiveBox
