import Mathlib.Tactic.FieldSimp
import Mathlib.Tactic.LinearCombination
import PerspectiveBox.Projective.Equations
import PerspectiveBox.Proofs.Exact

namespace PerspectiveBox

namespace Equation2

def exact (e : Equation2 Rat) : Equation2 Exact := ⟨.rational e.y, .rational e.z, .rational e.c⟩

def Holds (e : Equation2 Rat) (y z : Rat) : Prop := e.y * y + e.z * z = e.c

def det (e f : Equation2 Rat) : Rat := e.y * f.z - e.z * f.y

-- What is left of an equation: the coefficient of the last unknown, and the right-hand side.
def rest (pivot e : Equation2 Rat) : Rat × Rat :=
  (-pivot.z * (e.y * (1 / pivot.y)) + e.z, -pivot.c * (e.y * (1 / pivot.y)) + e.c)

variable {e f : Equation2 Rat}

theorem det_swap (e f : Equation2 Rat) : det f e = -det e f := by
  simp only [det]
  ring

theorem eliminate_exact (h : e.y ≠ 0) :
    eliminate e.exact f.exact = (.rational (rest e f).1, .rational (rest e f).2) := by
  have hinverse : 1 / e.exact.y = .rational (1 / e.y) := Exact.rational_div 1 e.y h
  unfold eliminate
  rw [hinverse]
  rfl

theorem det_eq_mul_rest (h : e.y ≠ 0) : det e f = e.y * (rest e f).1 := by
  simp only [det, rest]
  field_simp
  ring

theorem holds_of_rest (h : e.y ≠ 0) {y z : Rat} (he : e.Holds y z)
    (hf : (rest e f).1 * z = (rest e f).2) : f.Holds y z := by
  simp only [rest] at hf
  simp only [Holds] at he ⊢
  field_simp at hf
  apply mul_left_cancel₀ h
  linear_combination hf + f.y * he

-- The larger coefficient is taken as the pivot whichever equation comes first.
theorem solve?_swap (h : |e.y| < |f.y|) : solve? e.exact f.exact = solve? f.exact e.exact := by
  have hlt : Scalar.abs e.exact.y < Scalar.abs f.exact.y := (Exact.abs_lt_abs _ _).2 h
  have hnot : ¬ Scalar.abs f.exact.y < Scalar.abs e.exact.y :=
    mt (Exact.abs_lt_abs _ _).1 h.not_gt
  simp only [solve?, if_pos hlt, if_neg hnot]

section Pivot

variable (h : |f.y| ≤ |e.y|)
include h

theorem not_abs_lt : ¬ Scalar.abs e.exact.y < Scalar.abs f.exact.y :=
  mt (Exact.abs_lt_abs _ _).1 h.not_gt

theorem solve?_of_rest (hy : e.y ≠ 0) (hrest : (rest e f).1 ≠ 0) :
    ∃ y z : Rat, solve? e.exact f.exact = some (.rational y, .rational z) ∧
      e.Holds y z ∧ f.Holds y z := by
  have hpivot : (e.exact.y == 0) = false := (Exact.beq_zero e.y).trans (decide_eq_false hy)
  have hlast : (Exact.rational (rest e f).1 == 0) = false :=
    (Exact.beq_zero _).trans (decide_eq_false hrest)
  let z := (rest e f).2 / (rest e f).1
  let y := (-z * e.z + e.c) / e.y
  have hz : Exact.rational (rest e f).2 / Exact.rational (rest e f).1 = .rational z :=
    Exact.rational_div _ _ hrest
  have hsolved : (-Exact.rational z * e.exact.z + e.exact.c) / e.exact.y = .rational y :=
    Exact.rational_div (-z * e.z + e.c) e.y hy
  have he : e.Holds y z := by
    simp only [Holds, y]
    field_simp
    ring
  have hf : (rest e f).1 * z = (rest e f).2 := mul_div_cancel₀ _ hrest
  refine ⟨y, z, ?_, he, holds_of_rest hy he hf⟩
  simp only [solve?, if_neg (not_abs_lt h), hpivot, eliminate_exact hy, hlast, hz, hsolved,
    Bool.false_eq_true, if_false]

theorem solve?_of_no_rest (hzero : e.y = 0 ∨ (rest e f).1 = 0) :
    solve? e.exact f.exact = none := by
  by_cases hy : e.y = 0
  · have hpivot : (e.exact.y == 0) = true := (Exact.beq_zero e.y).trans (decide_eq_true hy)
    simp only [solve?, if_neg (not_abs_lt h), hpivot, if_true]
  · have hpivot : (e.exact.y == 0) = false := (Exact.beq_zero e.y).trans (decide_eq_false hy)
    have hlast : (Exact.rational (rest e f).1 == 0) = true :=
      (Exact.beq_zero _).trans (decide_eq_true (hzero.resolve_left hy))
    simp only [solve?, if_neg (not_abs_lt h), hpivot, eliminate_exact hy, hlast,
      Bool.false_eq_true, if_false, if_true]

end Pivot

theorem solve?_of_det_ne_zero (h : det e f ≠ 0) :
    ∃ y z : Rat, solve? e.exact f.exact = some (.rational y, .rational z) ∧
      e.Holds y z ∧ f.Holds y z := by
  -- It is enough to look at two equations of which the first is the pivot.
  have hpivot {e f : Equation2 Rat} (hle : |f.y| ≤ |e.y|) (h : det e f ≠ 0) :
      ∃ y z : Rat, solve? e.exact f.exact = some (.rational y, .rational z) ∧
        e.Holds y z ∧ f.Holds y z := by
    have hy : e.y ≠ 0 := by
      intro hy
      rw [hy, abs_zero] at hle
      apply h
      rw [det, hy, abs_nonpos_iff.1 hle]
      ring
    rw [det_eq_mul_rest hy] at h
    exact solve?_of_rest hle hy (right_ne_zero_of_mul h)
  by_cases hlt : |e.y| < |f.y|
  · have hswapped : det f e ≠ 0 := by
      rw [det_swap]
      exact neg_ne_zero.2 h
    obtain ⟨y, z, hsolve, hf, he⟩ := hpivot hlt.le hswapped
    exact ⟨y, z, (solve?_swap hlt).trans hsolve, he, hf⟩
  · exact hpivot (not_lt.1 hlt) h

theorem solve?_of_det_eq_zero (h : det e f = 0) : solve? e.exact f.exact = none := by
  have hpivot {e f : Equation2 Rat} (hle : |f.y| ≤ |e.y|) (h : det e f = 0) :
      solve? e.exact f.exact = none := by
    apply solve?_of_no_rest hle
    by_cases hy : e.y = 0
    · exact .inl hy
    · rw [det_eq_mul_rest hy] at h
      exact .inr ((mul_eq_zero.1 h).resolve_left hy)
  by_cases hlt : |e.y| < |f.y|
  · have hswapped : det f e = 0 := by
      rw [det_swap, h, neg_zero]
    exact (solve?_swap hlt).trans (hpivot hlt.le hswapped)
  · exact hpivot (not_lt.1 hlt) h

structure IsRational (e : Equation2 Exact) : Prop where
  y : e.y.IsRational
  z : e.z.IsRational
  c : e.c.IsRational

-- Every coefficient has a part in what is left of an equation.
theorem isRational_of_eliminate {pivot e : Equation2 Exact}
    (ha : (eliminate pivot e).1.IsRational) (hc : (eliminate pivot e).2.IsRational) :
    pivot.IsRational ∧ e.IsRational := by
  obtain ⟨hpz, hz⟩ := Exact.isRational_of_add ha
  obtain ⟨hpc, hc⟩ := Exact.isRational_of_add hc
  obtain ⟨hpz, hl⟩ := Exact.isRational_of_mul hpz
  obtain ⟨hpc, -⟩ := Exact.isRational_of_mul hpc
  obtain ⟨hy, hinverse⟩ := Exact.isRational_of_mul hl
  exact ⟨⟨(Exact.isRational_of_div hinverse).2, Exact.isRational_of_neg hpz,
    Exact.isRational_of_neg hpc⟩, hy, hz, hc⟩

theorem isRational_of_solve? {e f : Equation2 Exact} {y z : Exact} (h : solve? e f = some (y, z))
    (hz : z.IsRational) : e.IsRational ∧ f.IsRational := by
  have hpivot {pivot other : Equation2 Exact}
      (h : (if pivot.y == 0 then none
        else if (eliminate pivot other).1 == 0 then none
        else
          let z := (eliminate pivot other).2 / (eliminate pivot other).1
          some ((-z * pivot.z + pivot.c) / pivot.y, z)) = some (y, z)) :
      pivot.IsRational ∧ other.IsRational := by
    split at h
    · cases h
    · split at h
      · cases h
      · obtain ⟨-, rfl⟩ := Prod.mk.inj (Option.some.inj h)
        obtain ⟨hc, ha⟩ := Exact.isRational_of_div hz
        exact isRational_of_eliminate ha hc
  unfold solve? at h
  by_cases hlt : Scalar.abs e.y < Scalar.abs f.y
  · simp only [if_pos hlt] at h
    exact (hpivot h).symm
  · simp only [if_neg hlt] at h
    exact hpivot h

end Equation2

namespace Equation3

def exact (e : Equation3 Rat) : Equation3 Exact :=
  ⟨.rational e.x, .rational e.y, .rational e.z, .rational e.c⟩

def Holds (e : Equation3 Rat) (x y z : Rat) : Prop := e.x * x + e.y * y + e.z * z = e.c

def det (e f g : Equation3 Rat) : Rat :=
  e.x * (f.y * g.z - f.z * g.y) - e.y * (f.x * g.z - f.z * g.x) + e.z * (f.x * g.y - f.y * g.x)

-- What is left of an equation: the two coefficients and the right-hand side.
def rest (pivot e : Equation3 Rat) : Equation2 Rat :=
  ⟨-pivot.y * (e.x * (1 / pivot.x)) + e.y, -pivot.z * (e.x * (1 / pivot.x)) + e.z,
    -pivot.c * (e.x * (1 / pivot.x)) + e.c⟩

variable {e f g : Equation3 Rat}

theorem eliminate_exact (h : e.x ≠ 0) : eliminate e.exact f.exact = (rest e f).exact := by
  have hinverse : 1 / e.exact.x = .rational (1 / e.x) := Exact.rational_div 1 e.x h
  unfold eliminate
  rw [hinverse]
  rfl

theorem det_eq_mul_rest (h : e.x ≠ 0) : det e f g = e.x * (rest e f).det (rest e g) := by
  simp only [det, rest, Equation2.det]
  field_simp
  ring

theorem holds_of_rest (h : e.x ≠ 0) {x y z : Rat} (he : e.Holds x y z)
    (hf : (rest e f).Holds y z) : f.Holds x y z := by
  simp only [rest, Equation2.Holds] at hf
  simp only [Holds] at he ⊢
  field_simp at hf
  apply mul_left_cancel₀ h
  linear_combination hf + f.x * he

-- The equations in another order, the one with the largest first coefficient in front.
structure Pivoted (e f g p q r : Equation3 Rat) : Prop where
  eq : pivoted e.exact f.exact g.exact = (p.exact, q.exact, r.exact)
  second : |q.x| ≤ |p.x|
  third : |r.x| ≤ |p.x|
  det : det p q r = det e f g ∨ det p q r = -det e f g
  holds : ∀ x y z, p.Holds x y z → q.Holds x y z → r.Holds x y z →
    e.Holds x y z ∧ f.Holds x y z ∧ g.Holds x y z

theorem exists_pivoted (e f g : Equation3 Rat) : ∃ p q r, Pivoted e f g p q r := by
  have hef : Scalar.abs e.exact.x < Scalar.abs f.exact.x ↔ |e.x| < |f.x| := Exact.abs_lt_abs _ _
  have heg : Scalar.abs e.exact.x < Scalar.abs g.exact.x ↔ |e.x| < |g.x| := Exact.abs_lt_abs _ _
  have hfg : Scalar.abs f.exact.x < Scalar.abs g.exact.x ↔ |f.x| < |g.x| := Exact.abs_lt_abs _ _
  have hlast : det g f e = -det e f g := by
    simp only [det]
    ring
  have hmiddle : det f e g = -det e f g := by
    simp only [det]
    ring
  by_cases h₁ : |e.x| < |f.x|
  · by_cases h₂ : |f.x| < |g.x|
    · refine ⟨g, f, e, ?_, h₂.le, (h₁.trans h₂).le, .inr hlast, fun x y z hg hf he => ⟨he, hf, hg⟩⟩
      simp only [pivoted, if_pos (hef.2 h₁), if_pos (hfg.2 h₂)]
    · refine ⟨f, e, g, ?_, h₁.le, not_lt.1 h₂, .inr hmiddle, fun x y z hf he hg => ⟨he, hf, hg⟩⟩
      simp only [pivoted, if_pos (hef.2 h₁), if_neg (mt hfg.1 h₂)]
  · by_cases h₂ : |e.x| < |g.x|
    · refine ⟨g, f, e, ?_, (not_lt.1 h₁).trans h₂.le, h₂.le, .inr hlast,
        fun x y z hg hf he => ⟨he, hf, hg⟩⟩
      simp only [pivoted, if_neg (mt hef.1 h₁), if_pos (heg.2 h₂)]
    · refine ⟨e, f, g, ?_, not_lt.1 h₁, not_lt.1 h₂, .inl rfl, fun x y z he hf hg => ⟨he, hf, hg⟩⟩
      simp only [pivoted, if_neg (mt hef.1 h₁), if_neg (mt heg.1 h₂)]

theorem solve?_of_det_ne_zero (h : det e f g ≠ 0) :
    ∃ x y z : Rat, solve? e.exact f.exact g.exact = some (.rational x, .rational y, .rational z) ∧
      e.Holds x y z ∧ f.Holds x y z ∧ g.Holds x y z := by
  obtain ⟨p, q, r, hp⟩ := exists_pivoted e f g
  have hdet : det p q r ≠ 0 := by
    rcases hp.det with hdet | hdet
    · rwa [hdet]
    · rw [hdet]
      exact neg_ne_zero.2 h
  have hx : p.x ≠ 0 := by
    intro hx
    have hq := hp.second
    have hr := hp.third
    rw [hx, abs_zero, abs_nonpos_iff] at hq hr
    apply hdet
    rw [det, hx, hq, hr]
    ring
  rw [det_eq_mul_rest hx] at hdet
  obtain ⟨y, z, hsolve, hq, hr⟩ := Equation2.solve?_of_det_ne_zero (right_ne_zero_of_mul hdet)
  let x := (-y * p.y + (-z * p.z + p.c)) / p.x
  have hpx : p.Holds x y z := by
    simp only [Holds, x]
    field_simp
    ring
  have hpivot : (p.exact.x == 0) = false := (Exact.beq_zero p.x).trans (decide_eq_false hx)
  have hback : (-Exact.rational y * p.exact.y + (-Exact.rational z * p.exact.z + p.exact.c)) /
      p.exact.x = .rational x := Exact.rational_div (-y * p.y + (-z * p.z + p.c)) p.x hx
  refine ⟨x, y, z, ?_, hp.holds x y z hpx (holds_of_rest hx hpx hq) (holds_of_rest hx hpx hr)⟩
  simp only [solve?, hp.eq, hpivot, eliminate_exact hx, hsolve, hback, Bool.false_eq_true,
    if_false, Option.map_some]

theorem solve?_of_det_eq_zero (h : det e f g = 0) : solve? e.exact f.exact g.exact = none := by
  obtain ⟨p, q, r, hp⟩ := exists_pivoted e f g
  by_cases hx : p.x = 0
  · have hpivot : (p.exact.x == 0) = true := (Exact.beq_zero p.x).trans (decide_eq_true hx)
    simp only [solve?, hp.eq, hpivot, if_true]
  · have hpivot : (p.exact.x == 0) = false := (Exact.beq_zero p.x).trans (decide_eq_false hx)
    have hdet : det p q r = 0 := by
      rcases hp.det with hdet | hdet
      · rw [hdet, h]
      · rw [hdet, h, neg_zero]
    rw [det_eq_mul_rest hx] at hdet
    have hrest := Equation2.solve?_of_det_eq_zero ((mul_eq_zero.1 hdet).resolve_left hx)
    simp only [solve?, hp.eq, hpivot, eliminate_exact hx, hrest, Bool.false_eq_true, if_false,
      Option.map_none]

-- Two solutions differ by nothing that the determinant does not annul.
theorem eq_of_holds (h : det e f g ≠ 0) {x y z x' y' z' : Rat} (he : e.Holds x y z)
    (hf : f.Holds x y z) (hg : g.Holds x y z) (he' : e.Holds x' y' z') (hf' : f.Holds x' y' z')
    (hg' : g.Holds x' y' z') : x = x' ∧ y = y' ∧ z = z' := by
  simp only [Holds] at he hf hg he' hf' hg'
  refine ⟨mul_left_cancel₀ h ?_, mul_left_cancel₀ h ?_, mul_left_cancel₀ h ?_⟩
  · simp only [det]
    linear_combination (f.y * g.z - f.z * g.y) * (he - he') - (e.y * g.z - e.z * g.y) * (hf - hf') +
      (e.y * f.z - e.z * f.y) * (hg - hg')
  · simp only [det]
    linear_combination -(f.x * g.z - f.z * g.x) * (he - he') +
      (e.x * g.z - e.z * g.x) * (hf - hf') - (e.x * f.z - e.z * f.x) * (hg - hg')
  · simp only [det]
    linear_combination (f.x * g.y - f.y * g.x) * (he - he') - (e.x * g.y - e.y * g.x) * (hf - hf') +
      (e.x * f.y - e.y * f.x) * (hg - hg')

structure IsRational (e : Equation3 Exact) : Prop where
  x : e.x.IsRational
  y : e.y.IsRational
  z : e.z.IsRational
  c : e.c.IsRational

theorem isRational_of_eliminate {pivot e : Equation3 Exact} (h : (eliminate pivot e).IsRational) :
    pivot.IsRational ∧ e.IsRational := by
  obtain ⟨hpy, hy⟩ := Exact.isRational_of_add h.y
  obtain ⟨hpz, hz⟩ := Exact.isRational_of_add h.z
  obtain ⟨hpc, hc⟩ := Exact.isRational_of_add h.c
  obtain ⟨hpy, hl⟩ := Exact.isRational_of_mul hpy
  obtain ⟨hpz, -⟩ := Exact.isRational_of_mul hpz
  obtain ⟨hpc, -⟩ := Exact.isRational_of_mul hpc
  obtain ⟨hx, hinverse⟩ := Exact.isRational_of_mul hl
  exact ⟨⟨(Exact.isRational_of_div hinverse).2, Exact.isRational_of_neg hpy,
    Exact.isRational_of_neg hpz, Exact.isRational_of_neg hpc⟩, hx, hy, hz, hc⟩

theorem pivoted_cases (e f g : Equation3 Exact) : pivoted e f g = (g, f, e) ∨
    pivoted e f g = (f, e, g) ∨ pivoted e f g = (e, f, g) := by
  unfold pivoted
  split <;> split <;> simp

-- Equations have a solution that is a number only if all their coefficients are numbers.
theorem isRational_of_solve? {e f g : Equation3 Exact} {x y z : Exact}
    (h : solve? e f g = some (x, y, z)) (hz : z.IsRational) :
    e.IsRational ∧ f.IsRational ∧ g.IsRational := by
  have hpivot {p q r : Equation3 Exact} (hp : pivoted e f g = (p, q, r)) :
      p.IsRational ∧ q.IsRational ∧ r.IsRational := by
    simp only [solve?, hp] at h
    split at h
    · cases h
    · obtain ⟨⟨y', z'⟩, hsolve, heq⟩ := Option.map_eq_some_iff.1 h
      obtain ⟨-, -, rfl⟩ := heq
      obtain ⟨hq, hr⟩ := Equation2.isRational_of_solve? hsolve hz
      obtain ⟨hp, hq⟩ := isRational_of_eliminate hq
      exact ⟨hp, hq, (isRational_of_eliminate hr).2⟩
  obtain hp | hp | hp := pivoted_cases e f g
  · obtain ⟨hg, hf, he⟩ := hpivot hp
    exact ⟨he, hf, hg⟩
  · obtain ⟨hf, he, hg⟩ := hpivot hp
    exact ⟨he, hf, hg⟩
  · exact hpivot hp

end Equation3

end PerspectiveBox
