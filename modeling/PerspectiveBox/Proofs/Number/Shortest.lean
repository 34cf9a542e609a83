import Mathlib.Tactic.LinearCombination
import PerspectiveBox.Number.Shortest
import PerspectiveBox.Proofs.Number.Rounding

namespace PerspectiveBox.Shortest

open Double

-- The unit of the interval over the unit of the grid.
theorem unitRatio_pos (binary grid : Int) :
    0 < (unitRatio binary grid).1 ∧ 0 < (unitRatio binary grid).2 := by
  constructor <;> exact Nat.mul_pos (Nat.pow_pos (by decide)) (Nat.pow_pos (by decide))

theorem zpow_eq_div (b : Rat) (hb : b ≠ 0) (n : Int) : b ^ n = b ^ n.toNat / b ^ (-n).toNat := by
  have hsplit : n = (n.toNat : Int) - ((-n).toNat : Int) := by omega
  conv_lhs => rw [hsplit]
  rw [zpow_sub₀ hb, zpow_natCast, zpow_natCast]

theorem unitRatio_eq (binary grid : Int) :
    ((unitRatio binary grid).1 : Rat) / (unitRatio binary grid).2 = 2 ^ binary / 10 ^ grid := by
  rw [zpow_eq_div 2 (by norm_num) binary, zpow_eq_div 10 (by norm_num) grid, unitRatio]
  simp only [Nat.pow_eq]
  push_cast
  field_simp

-- Where a point of the grid lies in the interval.
theorem bounds_of_contains {i : Interval} {ratio : Nat × Nat} (hratio : 0 < ratio.1) {units : Nat}
    (h : i.contains ratio units = true) {q : Rat} (hq : (units * ratio.2 : Rat) = q * ratio.1) :
    i.low ≤ q ∧ q ≤ i.high ∧ (q = i.low ∨ q = i.high → i.closed = true) := by
  have hpos : (0 : Rat) < ratio.1 := by exact_mod_cast hratio
  rw [Interval.contains] at h
  split at h
  · next hclosed =>
    obtain ⟨hlow, hhigh⟩ := of_decide_eq_true h
    have hlow' : (i.low * ratio.1 : Rat) ≤ q * ratio.1 := by rw [← hq]; exact_mod_cast hlow
    have hhigh' : q * ratio.1 ≤ i.high * ratio.1 := by rw [← hq]; exact_mod_cast hhigh
    exact ⟨le_of_mul_le_mul_right hlow' hpos, le_of_mul_le_mul_right hhigh' hpos,
      fun _ => hclosed⟩
  · obtain ⟨hlow, hhigh⟩ := of_decide_eq_true h
    have hlow' : (i.low * ratio.1 : Rat) < q * ratio.1 := by rw [← hq]; exact_mod_cast hlow
    have hhigh' : q * ratio.1 < i.high * ratio.1 := by rw [← hq]; exact_mod_cast hhigh
    have hlt := lt_of_mul_lt_mul_right hlow' hpos.le
    have hlt' := lt_of_mul_lt_mul_right hhigh' hpos.le
    exact ⟨hlt.le, hlt'.le, fun hend => (hend.elim hlt.ne' hlt'.ne).elim⟩

theorem nearest_of_contains {m : Nat} {e grid : Int} {narrow : Bool} (h : Canonical m e)
    (hm : 0 < m) (hnarrow : m = 2 ^ 52 → -1074 < e → narrow = true) {units : Nat}
    (hin : (Interval.around m narrow).contains (unitRatio (e - 2) grid) units = true) :
    ∃ w, Nearest w m e ∧ (units : Rat) * 10 ^ grid = w * 2 ^ e := by
  obtain ⟨hpos, hpos'⟩ := unitRatio_pos (e - 2) grid
  have hratio := unitRatio_eq (e - 2) grid
  have hne : ((unitRatio (e - 2) grid).1 : Rat) ≠ 0 := by exact_mod_cast hpos.ne'
  have hne' : ((unitRatio (e - 2) grid).2 : Rat) ≠ 0 := by exact_mod_cast hpos'.ne'
  have hten : (10 : Rat) ^ grid ≠ 0 := zpow_ne_zero grid (by norm_num)
  have htwo : (2 : Rat) ^ e ≠ 0 := zpow_ne_zero e (by norm_num)
  rw [div_eq_div_iff hne' hten, zpow_sub₀ (by norm_num)] at hratio
  have hquarters : (units * (unitRatio (e - 2) grid).2 : Rat) =
      4 * (units * 10 ^ grid / 2 ^ e) * (unitRatio (e - 2) grid).1 := by
    field_simp at hratio ⊢
    linear_combination -(units : Rat) * hratio
  obtain ⟨hlow, hhigh, hend⟩ := bounds_of_contains hpos hin hquarters
  refine ⟨units * 10 ^ grid / 2 ^ e, ?_, (div_mul_cancel₀ _ htwo).symm⟩
  generalize (units : Rat) * 10 ^ grid / 2 ^ e = w at hlow hhigh hend
  have hvalue : ((4 * m - if narrow then 1 else 2 : Nat) : Rat) =
      4 * m - if narrow then 1 else 2 := by
    rw [Nat.cast_sub (by split <;> omega)]
    split <;> push_cast <;> rfl
  simp only [Interval.around, hvalue, decide_eq_true_eq] at hlow hhigh hend
  push_cast at hhigh hend
  have hhalf : (if narrow then 1 else 2 : Rat) ≤ 2 := by split <;> norm_num
  refine ⟨h, hm, by linarith, fun hm' he => ?_, by linarith, fun htie => hend ?_⟩
  · rw [hnarrow hm' he, if_pos rfl] at hlow
    linarith
  · rcases htie with htie | htie
    · exact .inl (by linarith)
    · exact .inr (by linarith)

theorem contains_of_gridPoint? {i : Interval} {ratio : Nat × Nat} {units : Nat}
    (h : i.gridPoint? ratio = some units) : i.contains ratio units = true := by
  rw [Interval.gridPoint?] at h
  split at h <;> cases h
  · next hbelow habove =>
    split
    · exact hbelow
    · exact habove
  · next hbelow _ => exact hbelow
  · next _ habove => exact habove

theorem exact_eq (m : Nat) (e : Int) :
    ((m * Nat.pow 2 e.toNat * Nat.pow 5 (-e).toNat : Nat) : Rat) * 10 ^ min e 0 = m * 2 ^ e := by
  have hmin : min e 0 = -((-e).toNat : Int) := by omega
  have hten : (10 : Rat) = 2 * 5 := by norm_num
  rw [hmin, zpow_neg, zpow_natCast, zpow_eq_div 2 (by norm_num) e, hten, mul_pow]
  simp only [Nat.pow_eq]
  push_cast
  field_simp

theorem decimal_nearest {m : Nat} {e : Int} {narrow : Bool} (h : Canonical m e) (hm : 0 < m)
    (hnarrow : m = 2 ^ 52 → -1074 < e → narrow = true) :
    ∃ w, Nearest w m e ∧
      ((decimal m e narrow).1 : Rat) * 10 ^ (decimal m e narrow).2 = w * 2 ^ e := by
  rw [decimal]
  dsimp only
  cases hhit : (List.range 24).findSome? fun step =>
      ((Interval.around m narrow).gridPoint?
        (unitRatio (e - 2) (topExponent m e - (step : Nat)))).map (·, topExponent m e - step) with
  | none => exact ⟨m, .of_canonical h hm, exact_eq m e⟩
  | some hit =>
    obtain ⟨step, -, hstep⟩ := List.exists_of_findSome?_eq_some hhit
    obtain ⟨units, hpoint, rfl⟩ := Option.map_eq_some_iff.1 hstep
    exact nearest_of_contains h hm hnarrow (contains_of_gridPoint? hpoint)

end PerspectiveBox.Shortest
