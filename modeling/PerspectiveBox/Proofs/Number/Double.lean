import PerspectiveBox.Number.Double

namespace PerspectiveBox.Double

open Float.Model

-- Shifted far enough to be divided, a mantissa leaves no remainder by itself.
theorem divCore_self {m : Nat} (hm : 0 < m) (e : Int) :
    UnpackedFloat.divCore .binary64 m e m e = (Nat.pow 2 53, -53, .exact) := by
  have htarget : min (0 : Int) (Format.binary64.targetExponent 0) = -53 := by decide
  simp only [UnpackedFloat.divCore, Int.sub_self, htarget, Nat.shiftLeft_eq,
    Nat.mul_div_cancel_left _ hm, Nat.mul_mod_right]
  rfl

theorem div_self (s : UnpackedFloat.Sign) {m : Nat} (e : Int) (hm : 0 < m) :
    UnpackedFloat.div .binary64 (.finite s m e hm) (.finite s m e hm) =
      .finite .positive (Nat.pow 2 52) (-52) (by decide) := by
  have hs : s / s = .positive := by cases s <;> rfl
  have hround : UnpackedFloat.div .binary64 (.finite s m e hm) (.finite s m e hm) =
      UnpackedFloat.roundWithAccuracy .binary64 (s / s) (UnpackedFloat.divCore .binary64 m e m e).1
        (UnpackedFloat.divCore .binary64 m e m e).2.1
        (UnpackedFloat.divCore .binary64 m e m e).2.2 := rfl
  rw [hround, divCore_self hm, hs]
  rfl

theorem sub_finite_self (s : UnpackedFloat.Sign) {m : Nat} (e : Int) (hm : 0 < m) :
    UnpackedFloat.sub .binary64 (.finite s m e hm) (.finite s m e hm) = .zero .positive := by
  let k := (UnpackedFloat.decreaseExponent m e (min e e)).1
  have hsub : UnpackedFloat.sub .binary64 (.finite s m e hm) (.finite s m e hm) =
      UnpackedFloat.normalize .binary64 (s.apply k - s.apply k) (min e e) .positive := rfl
  rw [hsub, Int.sub_self]
  rfl

-- A finite number and nothing else cancels against itself.
theorem isFinite_eq (x : Float) : Scalar.isFinite x = x.toModel.unpack.isFinite := by
  have hsub : x - x =
      ⟨pack (UnpackedFloat.sub .binary64 x.toModel.unpack x.toModel.unpack)⟩ := rfl
  rw [Scalar.isFinite, hsub]
  cases x.toModel.unpack with
  | infinity s => cases s <;> decide
  | notANumber => decide
  | zero s => cases s <;> decide
  | finite s m e hm =>
    have hzero : ((⟨pack (.zero .positive)⟩ : Float) == 0) = true := by decide
    rw [sub_finite_self]
    exact hzero

theorem div_self_beq_one {w : Float} (hfinite : Scalar.isFinite w = true)
    (hw : (w != 0) = true) : (w / w == 1) = true := by
  have hdiv : w / w =
      ⟨pack (UnpackedFloat.div .binary64 w.toModel.unpack w.toModel.unpack)⟩ := rfl
  have hzero : (w == 0) = w.toModel.unpack.beq (0 : Float).toModel.unpack := rfl
  rw [isFinite_eq] at hfinite
  cases h : w.toModel.unpack with
  | infinity s =>
    rw [h] at hfinite
    cases hfinite
  | notANumber =>
    rw [h] at hfinite
    cases hfinite
  | zero s =>
    rw [bne, hzero, h] at hw
    cases s <;> exact absurd hw (by decide)
  | finite s m e hm =>
    rw [hdiv, h, div_self]
    decide

end PerspectiveBox.Double
