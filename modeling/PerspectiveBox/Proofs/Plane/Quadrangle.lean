import Mathlib.Analysis.Convex.Combination
import PerspectiveBox.Proofs.Plane.Turn

namespace PerspectiveBox

namespace Line

-- A point lies on the side of the line on which another one is, or on the line itself.
def OnSideOf (l : Line Exact) (c p : Point Exact) : Prop :=
  l.side p = 0 ∨ l.sameSide c p = true

theorem onSideOf_through_iff {a b c : Point Rat} (h : a.area b c ≠ 0) (p : Point Rat) :
    (through a.exact b.exact).OnSideOf c.exact p.exact ↔ 0 ≤ a.area b c * a.area b p := by
  have hon : (through a.exact b.exact).side p.exact = 0 ↔ a.area b c * a.area b p = 0 := by
    rw [side_through, Exact.zero_eq, Exact.rational.injEq, neg_eq_zero, mul_eq_zero]
    exact (or_iff_right h).symm
  have hsame : (through a.exact b.exact).sameSide c.exact p.exact = true ↔
      0 < a.area b c * a.area b p := by
    rw [sameSide, decide_eq_true_iff, side_through, side_through, Exact.zero_eq,
      Exact.rational_mul, Exact.rational_lt, neg_mul_neg]
  rw [OnSideOf, hon, hsame, le_iff_eq_or_lt, eq_comm]

end Line

namespace Point

-- A point lies in the angle at `a` when the turns past it go the same way as the whole turn.
theorem between_iff {a b d : Point Rat} (h : 1e-6 ≤ |a.area d b|) (p : Point Rat) :
    (d.exact - a.exact).between (b.exact - a.exact) (p.exact - a.exact) = true ↔
      0 ≤ a.area d b * a.area p b ∧ 0 ≤ a.area d b * a.area d p := by
  have hsign (r : Rat) : 0 ≤ r / a.area d b ↔ 0 ≤ a.area d b * r := by
    rw [mul_comm, div_nonneg_iff, mul_nonneg_iff]
  have hbetween := Vec.between_exact h (a.vecTo p)
  change (d.exact - a.exact).between (b.exact - a.exact) (p.exact - a.exact) =
    (decide (0 ≤ a.area p b / a.area d b) && decide (0 ≤ a.area d p / a.area d b)) at hbetween
  rw [hbetween, Bool.and_eq_true, decide_eq_true_iff, decide_eq_true_iff, hsign, hsign]

-- A point as a vector, to be mixed with others.
def pair (p : Point Rat) : Rat × Rat := (p.x, p.y)

theorem area_start (a b : Point Rat) : a.area b a = 0 := by
  simp [area, vecTo, Vec.cross]

theorem area_finish (a b : Point Rat) : a.area b b = 0 := Vec.cross_self _

theorem area_combination (p a b c : Point Rat) :
    p.area b c * a.x + p.area c a * b.x + p.area a b * c.x = a.area b c * p.x ∧
      p.area b c * a.y + p.area c a * b.y + p.area a b * c.y = a.area b c * p.y := by
  simp only [area, vecTo, Vec.cross]
  constructor <;> ring

-- The triangles that a point makes with the sides of another are the weights of the corners.
theorem mem_convexHull_of_areas {s : Set (Rat × Rat)} {a b c p : Point Rat} (ha : a.pair ∈ s)
    (hb : b.pair ∈ s) (hc : c.pair ∈ s) (habc : a.area b c ≠ 0)
    (hpa : 0 ≤ a.area b c * p.area b c) (hpb : 0 ≤ a.area b c * p.area c a)
    (hpc : 0 ≤ a.area b c * p.area a b) : p.pair ∈ convexHull Rat s := by
  have hsign {r : Rat} (h : 0 ≤ a.area b c * r) : 0 ≤ r / a.area b c := by
    rwa [div_nonneg_iff, ← mul_nonneg_iff, mul_comm]
  have hsum : p.area b c / a.area b c + p.area c a / a.area b c + p.area a b / a.area b c = 1 := by
    rw [← add_div, ← add_div, div_eq_one_iff_eq habc, area_add p a b c]
    ring
  refine mem_convexHull_of_exists_fintype
    ![p.area b c / a.area b c, p.area c a / a.area b c, p.area a b / a.area b c]
    ![a.pair, b.pair, c.pair] (fun i => ?_) ?_ (fun i => ?_) ?_
  · fin_cases i
    · exact hsign hpa
    · exact hsign hpb
    · exact hsign hpc
  · rw [Fin.sum_univ_three]
    exact hsum
  · fin_cases i
    · exact ha
    · exact hb
    · exact hc
  · have hcoordinates := area_combination p a b c
    rw [Fin.sum_univ_three]
    simp only [pair, Matrix.cons_val, Prod.smul_mk, Prod.mk_add_mk, smul_eq_mul,
      div_mul_eq_mul_div, ← add_div, hcoordinates.1, hcoordinates.2, mul_div_cancel_left₀ _ habc]

end Point

-- The corners in order; after the last one comes the first again.
structure Quadrangle where
  corner : Fin 4 → Point Rat

namespace Quadrangle

variable (q : Quadrangle)

-- The turn from an edge to the next one.
def turn (i : Fin 4) : Rat := (q.corner i).area (q.corner (i + 1)) (q.corner (i + 2))

-- Strictly: all turns go the same way, whichever it is.
def IsConvex : Prop := (∀ i, 0 < q.turn i) ∨ ∀ i, q.turn i < 0

instance : Decidable q.IsConvex := inferInstanceAs (Decidable (_ ∨ _))

-- The inner side of an edge is the one on which the next corner is.
def Encloses (p : Point Rat) : Prop :=
  ∀ i, (Line.through (q.corner i).exact (q.corner (i + 1)).exact).OnSideOf
    (q.corner (i + 2)).exact p.exact

-- Twice the area over an edge: zero on the line of the edge.
def edgeArea (i : Fin 4) (p : Point Rat) : Rat := (q.corner i).area (q.corner (i + 1)) p

variable {q}

theorem IsConvex.turn_mul_pos (h : q.IsConvex) (i j : Fin 4) : 0 < q.turn i * q.turn j := by
  rcases h with h | h
  · exact mul_pos (h i) (h j)
  · exact mul_pos_of_neg_of_neg (h i) (h j)

theorem IsConvex.turn_ne_zero (h : q.IsConvex) (i : Fin 4) : q.turn i ≠ 0 :=
  left_ne_zero_of_mul (h.turn_mul_pos i i).ne'

-- All turns have one sign, so any of them will do to compare with.
theorem IsConvex.nonneg_iff (h : q.IsConvex) (i j : Fin 4) (r : Rat) :
    0 ≤ q.turn i * r ↔ 0 ≤ q.turn j * r := by
  rcases h with h | h
  · rw [mul_nonneg_iff_of_pos_left (h i), mul_nonneg_iff_of_pos_left (h j)]
  · rw [← neg_mul_neg, ← neg_mul_neg (q.turn j), mul_nonneg_iff_of_pos_left (neg_pos.2 (h i)),
      mul_nonneg_iff_of_pos_left (neg_pos.2 (h j))]

theorem IsConvex.encloses_iff (h : q.IsConvex) (p : Point Rat) :
    q.Encloses p ↔ ∀ i j, 0 ≤ q.turn j * q.edgeArea i p := by
  refine forall_congr' fun i => ?_
  rw [Line.onSideOf_through_iff (h.turn_ne_zero i)]
  exact ⟨fun hi j => (h.nonneg_iff i j _).1 hi, fun hi => hi i⟩

theorem IsConvex.inQuadrangle_iff_encloses (h : q.IsConvex)
    (ha : 1e-6 ≤ |(q.corner 0).area (q.corner 3) (q.corner 1)|)
    (hc : 1e-6 ≤ |(q.corner 2).area (q.corner 3) (q.corner 1)|) (p : Point Rat) :
    p.exact.inQuadrangle (q.corner 0).exact (q.corner 1).exact (q.corner 2).exact
      (q.corner 3).exact = true ↔ q.Encloses p := by
  have hturn₃ : (q.corner 0).area (q.corner 3) (q.corner 1) = -q.turn 3 := by
    rw [Point.area_swap, Point.area_rotate]
    rfl
  have hturn₁ : (q.corner 2).area (q.corner 3) (q.corner 1) = q.turn 1 :=
    Point.area_rotate (q.corner 1) (q.corner 2) (q.corner 3)
  have hedge₀ : (q.corner 0).area p (q.corner 1) = -q.edgeArea 0 p := Point.area_swap _ _ _
  have hedge₁ : (q.corner 2).area p (q.corner 1) = q.edgeArea 1 p :=
    Point.area_rotate (q.corner 1) (q.corner 2) p
  have hedge₃ : (q.corner 0).area (q.corner 3) p = -q.edgeArea 3 p := by
    rw [Point.area_swap, Point.area_rotate]
    rfl
  have hedge₂ : (q.corner 2).area (q.corner 3) p = q.edgeArea 2 p := rfl
  rw [Point.inQuadrangle, Bool.and_eq_true, Point.between_iff ha, Point.between_iff hc, hturn₃,
    hturn₁, hedge₀, hedge₁, hedge₂, hedge₃, neg_mul_neg, neg_mul_neg, h.encloses_iff]
  constructor
  · rintro ⟨⟨h₀, h₃⟩, h₁, h₂⟩ i j
    rw [h.nonneg_iff j 1]
    rw [h.nonneg_iff 3 1] at h₀ h₃
    fin_cases i
    · exact h₀
    · exact h₁
    · exact h₂
    · exact h₃
  · exact fun hedges => ⟨⟨hedges 0 3, hedges 3 3⟩, hedges 1 1, hedges 2 1⟩

def hull (q : Quadrangle) : Set (Rat × Rat) :=
  convexHull Rat (Set.range fun i => (q.corner i).pair)

-- Of the corners two are on the line of an edge, and two are on its inner side.
theorem IsConvex.edgeArea_corner_nonneg (h : q.IsConvex) (i j k : Fin 4) :
    0 ≤ q.turn j * q.edgeArea i (q.corner k) := by
  obtain ⟨d, rfl⟩ : ∃ d, k = i + d := ⟨k - i, (add_sub_cancel i k).symm⟩
  have hlast : q.edgeArea i (q.corner (i + 3)) = q.turn (i + 3) := by
    have hi : i + 3 + 1 = i := by
      fin_cases i <;> rfl
    have hi' : i + 3 + 2 = i + 1 := by
      fin_cases i <;> rfl
    rw [edgeArea, turn, hi, hi', Point.area_rotate]
  fin_cases d
  · change 0 ≤ q.turn j * q.edgeArea i (q.corner (i + 0))
    rw [add_zero, edgeArea, Point.area_start, mul_zero]
  · change 0 ≤ q.turn j * q.edgeArea i (q.corner (i + 1))
    rw [edgeArea, Point.area_finish, mul_zero]
  · exact (h.turn_mul_pos j i).le
  · exact hlast ▸ (h.turn_mul_pos j (i + 3)).le

-- What an edge does not separate from the corners is closed under mixing.
theorem convex_edgeArea (q : Quadrangle) (t : Rat) (i : Fin 4) :
    Convex Rat {z : Rat × Rat | 0 ≤ t * q.edgeArea i ⟨z.1, z.2⟩} := by
  refine convex_iff_add_mem.2 fun y hy z hz r s hr hs hrs => ?_
  have hmixed : t * q.edgeArea i ⟨(r • y + s • z).1, (r • y + s • z).2⟩ =
      r * (t * q.edgeArea i ⟨y.1, y.2⟩) + s * (t * q.edgeArea i ⟨z.1, z.2⟩) := by
    rw [← eq_sub_iff_add_eq'] at hrs
    simp only [edgeArea, Point.area, Point.vecTo, Vec.cross, Prod.fst_add, Prod.snd_add,
      Prod.smul_fst, Prod.smul_snd, smul_eq_mul, hrs]
    ring
  change 0 ≤ t * q.edgeArea i ⟨(r • y + s • z).1, (r • y + s • z).2⟩
  rw [hmixed]
  exact add_nonneg (mul_nonneg hr hy) (mul_nonneg hs hz)

theorem IsConvex.encloses_of_mem_hull (h : q.IsConvex) {p : Point Rat} (hp : p.pair ∈ q.hull) :
    q.Encloses p := by
  refine (h.encloses_iff p).2 fun i j => ?_
  have hcorners : (Set.range fun k => (q.corner k).pair) ⊆
      {z : Rat × Rat | 0 ≤ q.turn j * q.edgeArea i ⟨z.1, z.2⟩} := by
    rintro _ ⟨k, rfl⟩
    exact h.edgeArea_corner_nonneg i j k
  have hmem := convexHull_min hcorners (q.convex_edgeArea (q.turn j) i) hp
  rwa [Set.mem_ofPred_eq] at hmem

-- The diagonal through the first corner divides the quadrangle into two triangles.
theorem IsConvex.mem_hull_of_encloses (h : q.IsConvex) {p : Point Rat} (hp : q.Encloses p) :
    p.pair ∈ q.hull := by
  have hedges := (h.encloses_iff p).1 hp
  have hcorner (i : Fin 4) : (q.corner i).pair ∈ Set.range fun i => (q.corner i).pair := ⟨i, rfl⟩
  rcases le_total 0 (q.turn 0 * p.area (q.corner 2) (q.corner 0)) with hside | hside
  · refine Point.mem_convexHull_of_areas (hcorner 0) (hcorner 1) (hcorner 2) (h.turn_ne_zero 0)
      ?_ hside ?_
    · rw [← Point.area_rotate p]
      exact hedges 1 0
    · rw [← Point.area_rotate p]
      exact hedges 0 0
  · refine Point.mem_convexHull_of_areas (hcorner 2) (hcorner 3) (hcorner 0) (h.turn_ne_zero 2)
      ?_ ?_ ?_
    · rw [← Point.area_rotate p]
      exact hedges 3 2
    · change 0 ≤ q.turn 2 * p.area (q.corner 0) (q.corner 2)
      rw [h.nonneg_iff 2 0, Point.area_swap, mul_neg]
      exact neg_nonneg.2 hside
    · rw [← Point.area_rotate p]
      exact hedges 2 2

-- The points inside are those on the inner side of every edge or on it, and these are the points
-- of the convex hull of the corners. Which way the corners go round does not matter.
theorem inQuadrangle_iff (hconvex : q.IsConvex)
    (ha : 1e-6 ≤ |(q.corner 0).area (q.corner 3) (q.corner 1)|)
    (hc : 1e-6 ≤ |(q.corner 2).area (q.corner 3) (q.corner 1)|) (p : Point Rat) :
    (p.exact.inQuadrangle (q.corner 0).exact (q.corner 1).exact (q.corner 2).exact
      (q.corner 3).exact = true ↔ q.Encloses p) ∧ (q.Encloses p ↔ p.pair ∈ q.hull) :=
  ⟨hconvex.inQuadrangle_iff_encloses ha hc p,
    hconvex.mem_hull_of_encloses, hconvex.encloses_of_mem_hull⟩

def kite : Quadrangle := ⟨![⟨0, 0⟩, ⟨0, 4⟩, ⟨4, 5⟩, ⟨3, 0⟩]⟩

-- The point is on the edge from the second corner to the third.
theorem inQuadrangle_iff_kite : kite.IsConvex ∧
    1e-6 ≤ |(kite.corner 0).area (kite.corner 3) (kite.corner 1)| ∧
    1e-6 ≤ |(kite.corner 2).area (kite.corner 3) (kite.corner 1)| ∧
    (Point.exact ⟨2, 9 / 2⟩).inQuadrangle (kite.corner 0).exact (kite.corner 1).exact
      (kite.corner 2).exact (kite.corner 3).exact = true ∧
    kite.Encloses ⟨2, 9 / 2⟩ ∧ Point.pair ⟨2, 9 / 2⟩ ∈ kite.hull := by
  have hconvex : kite.IsConvex := by decide +kernel
  have ha : 1e-6 ≤ |(kite.corner 0).area (kite.corner 3) (kite.corner 1)| := by decide +kernel
  have hc : 1e-6 ≤ |(kite.corner 2).area (kite.corner 3) (kite.corner 1)| := by decide +kernel
  have hinside : (Point.exact ⟨2, 9 / 2⟩).inQuadrangle (kite.corner 0).exact
      (kite.corner 1).exact (kite.corner 2).exact (kite.corner 3).exact = true := by
    decide +kernel
  obtain ⟨hencloses, hhull⟩ := inQuadrangle_iff hconvex ha hc ⟨2, 9 / 2⟩
  exact ⟨hconvex, ha, hc, hinside, hencloses.1 hinside, hhull.1 (hencloses.1 hinside)⟩

end Quadrangle

end PerspectiveBox
