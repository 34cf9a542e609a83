import PerspectiveBox.Box.Basic
import PerspectiveBox.Proofs.FaceOrder.Parallel

namespace PerspectiveBox

section

variable {K : Type}

def HPoint3.SameCoordinates (p q : HPoint3 K) : Prop := ∀ a : Axis, p.get a = q.get a

def Corners.SameCoordinates (c d : Corners K) : Prop :=
  c.near.SameCoordinates d.near ∧ c.far.SameCoordinates d.far

variable [Scalar K]

-- Nothing that is displayed of the boxes tells them apart, in any projection.
structure Box.ShowsSame (b d : Box K) : Prop where
  corner : ∀ id, b.corners.corner id = d.corners.corner id
  screen : ∀ m id, b.corners.screen m id = d.corners.screen m id
  center : b.corners.center = d.corners.center
  centerScreen : ∀ m, b.corners.centerScreen m = d.corners.centerScreen m
  everted : b.corners.everted = d.corners.everted
  sides : ∀ m, (b.redraw m).sides = (d.redraw m).sides
  drawableCount : ∀ m, b.drawableCount m = d.drawableCount m
  faceOrder : ∀ m strategy, b.corners.faceOrder m strategy = d.corners.faceOrder m strategy

namespace Corners

variable {c d : Corners K}

theorem SameCoordinates.corner_eq (h : c.SameCoordinates d) : c.corner = d.corner := by
  obtain ⟨hnear, hfar⟩ := h
  have hx : c.near.x = d.near.x := hnear .x
  have hy : c.near.y = d.near.y := hnear .y
  have hz : c.near.z = d.near.z := hnear .z
  have hx' : c.far.x = d.far.x := hfar .x
  have hy' : c.far.y = d.far.y := hfar .y
  have hz' : c.far.z = d.far.z := hfar .z
  funext id
  simp only [corner, hx, hy, hz, hx', hy', hz']

theorem sameCoordinates_of_corner (h : ∀ id, c.corner id = d.corner id) : c.SameCoordinates d := by
  constructor
  · intro a
    have ha := congrArg (fun p => p.get a) (h .empty)
    cases a <;> exact ha
  · intro a
    have ha := congrArg (fun p => p.get a) (h .xyz)
    cases a <;> exact ha

-- The configuration of the vanishing points is told by the corners on screen alone.
theorem SameCoordinates.vanishingCase_eq (h : c.SameCoordinates d) (m : Projection K)
    (strategy : OrderStrategy) : c.vanishingCase m strategy = d.vanishingCase m strategy := by
  have hscreen : c.screen = d.screen := by
    funext m id
    rw [screen, screen, h.corner_eq]
  have hposition : c.sectorPosition = d.sectorPosition := by
    funext m p id₁ id₂ axis
    simp only [sectorPosition, hscreen]
  simp only [vanishingCase, triangleCase, sectorCase, oneFiniteCase, vpSector, vpSectorPosition,
    sectorPositionOf, hscreen, hposition]

end Corners

namespace Box

variable {b d : Box K}

theorem showsSame_of_sameCoordinates (h : b.corners.SameCoordinates d.corners)
    (hnormalized : b.corners.normalized = d.corners.normalized) (hsides : b.sides = d.sides) :
    b.ShowsSame d := by
  have hcenter : b.corners.center = d.corners.center := by
    simp only [Corners.center, hnormalized]
  have heverted : b.corners.everted = d.corners.everted := by
    simp only [Corners.everted, hnormalized]
  have hshape (s : Side K) (m : Projection K) : s.shape? b.corners m = s.shape? d.corners m := by
    simp only [Side.shape?, Side.corners, h.corner_eq]
  refine ⟨fun id => congrFun h.corner_eq id, fun m id => ?_, hcenter, fun m => ?_, heverted,
    fun m => ?_, fun m => ?_, fun m strategy => ?_⟩
  · rw [Corners.screen, Corners.screen, h.corner_eq]
  · rw [Corners.centerScreen, Corners.centerScreen, hcenter]
  · simp only [redraw, Side.redrawn, hshape, hsides]
  · simp only [drawableCount, hshape, hsides]
  · rw [Corners.faceOrder, Corners.faceOrder, heverted, h.vanishingCase_eq]

end Box

end

namespace HPoint3

-- Other homogeneous coordinates of the same point.
def scaled (k : Rat) (p : HPoint3 Rat) : HPoint3 Rat := ⟨k * p.x, k * p.y, k * p.z, k * p.w⟩

def IsOrigin (p : HPoint3 Rat) : Prop := p.x = 0 ∧ p.y = 0 ∧ p.z = 0

variable {p : HPoint3 Rat} {k : Rat}

theorem normalized_exact_of_weight (h : 1e-6 ≤ |p.w|) :
    p.exact.normalized = HPoint3.exact ⟨p.x / p.w, p.y / p.w, p.z / p.w, 1⟩ := by
  have hne : p.w ≠ 0 := ne_zero_of_epsilon_le h
  by_cases hone : p.w = 1
  · rw [normalized_exact hone, hone, div_one, div_one, div_one, ← hone]
  · have hfar : ¬ Scalar.abs p.exact.w < Scalar.epsilon := by
      show ¬ Scalar.abs (Exact.rational p.w) < Scalar.epsilon
      rw [Exact.abs_rational, Exact.epsilon_eq, Exact.rational_lt]
      exact not_lt.2 h
    have hother : (p.exact.w == 1) = false := by
      show (Exact.rational p.w == 1) = false
      rw [Exact.one_eq, Exact.rational_beq]
      exact beq_eq_false_iff_ne.2 hone
    have hdiv (q : Rat) : Exact.rational q / Exact.rational p.w = .rational (q / p.w) :=
      Exact.rational_div _ _ hne
    rw [normalized, normalize?, if_neg hfar, if_neg (Bool.eq_false_iff.1 hother), ← div_self hne]
    show HPoint3.mk _ _ _ _ = HPoint3.mk _ _ _ _
    exact congr (congr (congr (congrArg _ (hdiv p.x)) (hdiv p.y)) (hdiv p.z)) (hdiv p.w)

theorem normalized_scaled (h : 1e-6 ≤ |p.w|) (hscaled : 1e-6 ≤ |(p.scaled k).w|) :
    (p.scaled k).exact.normalized = p.exact.normalized := by
  have hk : k ≠ 0 := left_ne_zero_of_mul (ne_zero_of_epsilon_le hscaled)
  rw [normalized_exact_of_weight h, normalized_exact_of_weight hscaled]
  simp only [scaled, mul_div_mul_left _ _ hk]

theorem sameCoordinates_scaled_iff :
    (p.scaled k).exact.SameCoordinates p.exact ↔ k = 1 ∨ p.IsOrigin := by
  have hcoordinate (q : Rat) : Exact.rational (k * q) = .rational q ↔ k = 1 ∨ q = 0 := by
    rw [Exact.rational.injEq, mul_left_eq_self₀]
  constructor
  · intro h
    have hx := (hcoordinate p.x).1 (h .x)
    have hy := (hcoordinate p.y).1 (h .y)
    have hz := (hcoordinate p.z).1 (h .z)
    by_cases hone : k = 1
    · exact .inl hone
    · exact .inr ⟨hx.resolve_left hone, hy.resolve_left hone, hz.resolve_left hone⟩
  · intro h a
    cases a
    · exact (hcoordinate p.x).2 (h.imp_right And.left)
    · exact (hcoordinate p.y).2 (h.imp_right fun h => h.2.1)
    · exact (hcoordinate p.z).2 (h.imp_right fun h => h.2.2)

end HPoint3

namespace Corners

-- Weights that do not count as zero.
structure Weighted (c : Corners Rat) : Prop where
  near : 1e-6 ≤ |c.near.w|
  far : 1e-6 ≤ |c.far.w|

def scaled (a b : Rat) (c : Corners Rat) : Corners Rat := ⟨c.near.scaled a, c.far.scaled b⟩

-- A projection with all vanishing points at infinity. Lines along Z run down the screen, and the
-- slant tells how far they lead to the side.
def oblique (slant : Rat) : Projection Rat := ⟨⟨1, 0, 0⟩, ⟨0, 1, 0⟩, ⟨slant, 1, 0⟩, ⟨0, 0, 1⟩⟩

variable {c d : Corners Rat}

theorem screen_oblique (c : Corners Rat) (slant : Rat) (id : AxisSet) :
    c.exact.screen (oblique slant).exact id =
      Point.exact ⟨c.coordinate id .x + slant * c.coordinate id .z,
        c.coordinate id .y + c.coordinate id .z⟩ := by
  have himage : (oblique slant).exact.image (c.exact.corner id) = HPoint2.exact
      ⟨c.coordinate id .x + slant * c.coordinate id .z,
        c.coordinate id .y + c.coordinate id .z, 1⟩ := by
    rw [corner_exact]
    show HPoint2.exact ⟨_, _, _⟩ = _
    simp [oblique]
  rw [screen, Projection.screen, himage, HPoint2.toPoint_exact one_ne_zero]
  simp only [div_one]

-- Two projections together show where every corner is.
theorem sameCoordinates_of_screen
    (h : ∀ m id, c.exact.screen m id = d.exact.screen m id) : c.exact.SameCoordinates d.exact := by
  refine sameCoordinates_of_corner fun id => ?_
  have hsteep := h (oblique 1).exact id
  have hflat := h (oblique 2).exact id
  rw [screen_oblique, screen_oblique, Point.exact, Point.exact, Point.mk.injEq,
    Exact.rational.injEq, Exact.rational.injEq] at hsteep hflat
  have hz : c.coordinate id .z = d.coordinate id .z := by linarith
  have hx : c.coordinate id .x = d.coordinate id .x := by linarith
  have hy : c.coordinate id .y = d.coordinate id .y := by linarith
  rw [corner_exact, corner_exact, hx, hy, hz]

variable {a b : Rat}

theorem sameCoordinates_scaled_iff : (c.scaled a b).exact.SameCoordinates c.exact ↔
    (a = 1 ∨ c.near.IsOrigin) ∧ (b = 1 ∨ c.far.IsOrigin) :=
  and_congr HPoint3.sameCoordinates_scaled_iff HPoint3.sameCoordinates_scaled_iff

namespace Weighted

variable (hc : c.Weighted) (hscaled : (c.scaled a b).Weighted)
include hc hscaled

theorem normalized_scaled : (c.scaled a b).exact.normalized = c.exact.normalized := by
  have hnear : (c.scaled a b).exact.near.normalized = c.exact.near.normalized :=
    HPoint3.normalized_scaled hc.near hscaled.near
  have hfar : (c.scaled a b).exact.far.normalized = c.exact.far.normalized :=
    HPoint3.normalized_scaled hc.far hscaled.far
  rw [normalized, normalized, hnear, hfar]

-- A box spanned by the same two points in other homogeneous coordinates has the same center, is
-- everted along the same axes and is the same box once its corners are saved. Until then it
-- looks the same only if the coordinates beside the weight have not changed.
theorem showsSame_scaled_iff (id : String) :
    (c.scaled a b).exact.center = c.exact.center ∧
    (c.scaled a b).exact.everted = c.exact.everted ∧
    (Box.ofCorners id (c.scaled a b).exact).saveCorners =
      (Box.ofCorners id c.exact).saveCorners ∧
    ((Box.ofCorners id (c.scaled a b).exact).ShowsSame (Box.ofCorners id c.exact) ↔
      (a = 1 ∨ c.near.IsOrigin) ∧ (b = 1 ∨ c.far.IsOrigin)) ∧
    ((∀ m id, (c.scaled a b).exact.screen m id = c.exact.screen m id) ↔
      (a = 1 ∨ c.near.IsOrigin) ∧ (b = 1 ∨ c.far.IsOrigin)) := by
  have hnormalized := hc.normalized_scaled hscaled
  refine ⟨?_, ?_, ?_, ?_, ?_⟩
  · rw [center, hnormalized, ← center]
  · rw [everted, hnormalized, ← everted]
  · have hcorners : (Box.ofCorners id (c.scaled a b).exact).corners.normalized =
        (Box.ofCorners id c.exact).corners.normalized := hnormalized
    rw [Box.saveCorners, Box.saveCorners, hcorners]
    rfl
  · rw [← sameCoordinates_scaled_iff]
    exact ⟨fun h => sameCoordinates_of_corner h.corner,
      fun h => Box.showsSame_of_sameCoordinates h hnormalized rfl⟩
  · rw [← sameCoordinates_scaled_iff]
    refine ⟨sameCoordinates_of_screen, fun h m id => ?_⟩
    rw [screen, screen, h.corner_eq]

end Weighted

end Corners

def unitWeights : Corners Rat := ⟨⟨2, 2, 0, 1⟩, ⟨0, 0, 1, 1⟩⟩

theorem weighted_unitWeights : unitWeights.Weighted := by
  constructor <;> decide +kernel

theorem weighted_doubled : (unitWeights.scaled 2 1).Weighted := by
  constructor <;> decide +kernel

theorem saveCorners_doubled : unitWeights.Weighted ∧ (unitWeights.scaled 2 1).Weighted ∧
    (Box.ofCorners "box" (unitWeights.scaled 2 1).exact).saveCorners =
      (Box.ofCorners "box" unitWeights.exact).saveCorners :=
  ⟨weighted_unitWeights, weighted_doubled,
    (weighted_unitWeights.showsSame_scaled_iff weighted_doubled "box").2.2.1⟩

-- The near corner is shown at twice its place.
theorem not_showsSame_doubled : unitWeights.Weighted ∧ (unitWeights.scaled 2 1).Weighted ∧
    (unitWeights.scaled 2 1).exact.corner .empty = HPoint3.exact ⟨4, 4, 0, 1⟩ ∧
    unitWeights.exact.corner .empty = HPoint3.exact ⟨2, 2, 0, 1⟩ ∧
    ¬ (Box.ofCorners "box" (unitWeights.scaled 2 1).exact).ShowsSame
      (Box.ofCorners "box" unitWeights.exact) := by
  have hdoubled : (unitWeights.scaled 2 1).exact.corner .empty = HPoint3.exact ⟨4, 4, 0, 1⟩ := by
    rw [Corners.corner_exact]
    norm_num [Corners.coordinate, Corners.scaled, HPoint3.scaled, unitWeights, AxisSet.has,
      HPoint3.get, Axis.coord]
  refine ⟨weighted_unitWeights, weighted_doubled, hdoubled, rfl, ?_⟩
  intro h
  have hcorner := (hdoubled.symm.trans (h.corner .empty)).trans
    (show unitWeights.exact.corner .empty = HPoint3.exact ⟨2, 2, 0, 1⟩ from rfl)
  have hx := Exact.rational.inj (congrArg HPoint3.x hcorner)
  norm_num at hx

end PerspectiveBox
